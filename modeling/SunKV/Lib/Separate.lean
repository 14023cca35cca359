/-
**Programs that keep out of each other's way.**

Programs run on one state, one call at a time, in any order. If every program has a part of the
state that decides the answers to its calls, and that only its own calls change, every program runs
as it would run alone.

* `Separate` — the parts;
* `interleaveAll_separate` — what is left of a program does to its part what the whole program would
  have done, and each of its turns is one call less;
* `interleaveAll_alone` — **a program that has had its turns has returned what it returns alone, and
  left its part as it leaves it alone.**
-/

import SunKV.Lib.Program

namespace SunKV.Lib.Program

variable {Q σ τ α : Type} {A : Q → Type}

/-- The number of calls that a program makes alone. -/
def length (handler : Handler A σ) : Program A α → σ → Nat
  | .pure _, _ => 0
  | .query request next, state =>
      (next (handler request state).1).length handler (handler request state).2 + 1

/-- **Every program has its part of the state**, as long as the state is a sound one. -/
structure Separate (handler : Handler A σ) (part : Handler A τ) (sound : σ → Prop)
    (view : Nat → σ → τ) (allowed : Nat → Q → Prop) : Prop where
  answer : ∀ {mover request state}, sound state → allowed mover request →
    (handler request state).1 = (part request (view mover state)).1
  own : ∀ {mover request state}, sound state → allowed mover request →
    view mover (handler request state).2 = (part request (view mover state)).2
  other : ∀ {mover index request state}, sound state → allowed mover request → index ≠ mover →
    view index (handler request state).2 = view index state
  keeps : ∀ {mover request state}, sound state → allowed mover request →
    sound (handler request state).2

section Parts

variable {handler : Handler A σ} {part : Handler A τ} {sound : σ → Prop} {view : Nat → σ → τ}
  {allowed : Nat → Q → Prop}

/-- Alone, a program runs as on its part. -/
theorem Separate.run (separate : Separate handler part sound view allowed) {index : Nat}
    {program : Program A α} (makes : program.Makes (allowed index)) {state : σ}
    (start : sound state) :
    (program.run handler state).1 = (program.run part (view index state)).1 ∧
      view index (program.run handler state).2 = (program.run part (view index state)).2 ∧
      program.length handler state = program.length part (view index state) := by
  induction program generalizing state with
  | pure value => exact ⟨rfl, rfl, rfl⟩
  | query request next ih =>
    have later := ih (handler request state).1 (makes.2 _) (separate.keeps start makes.1)
    rw [separate.own start makes.1, separate.answer start makes.1] at later
    simp only [Program.run, Program.length]
    rw [separate.answer start makes.1]
    exact ⟨later.1, later.2.1, congrArg (· + 1) later.2.2⟩

/-- A turn of a program on its part. -/
theorem run_length_turn (part : Handler A τ) (program : Program A α) (state : τ) :
    (program.turn part state).1.run part (program.turn part state).2 = program.run part state ∧
      (program.turn part state).1.length part (program.turn part state).2 =
        program.length part state - 1 := by
  cases program with
  | pure value => exact ⟨rfl, rfl⟩
  | query request next => exact ⟨rfl, rfl⟩

/-- A turn of a program is a turn on its part, and none on the parts of the others. -/
theorem Separate.turn (separate : Separate handler part sound view allowed) {mover : Nat}
    {program : Program A α} (makes : program.Makes (allowed mover)) {state : σ}
    (start : sound state) :
    (program.turn handler state).1 = (program.turn part (view mover state)).1 ∧
      view mover (program.turn handler state).2 = (program.turn part (view mover state)).2 ∧
      (∀ index, index ≠ mover → view index (program.turn handler state).2 = view index state) ∧
      sound (program.turn handler state).2 ∧
      (program.turn handler state).1.Makes (allowed mover) := by
  cases program with
  | pure value => exact ⟨rfl, rfl, fun _ _ => rfl, start, trivial⟩
  | query request next =>
    exact ⟨congrArg next (separate.answer start makes.1), separate.own start makes.1,
      fun _ apart => separate.other start makes.1 apart, separate.keeps start makes.1,
      makes.2 _⟩

/-- **What is left of a program** does to its part what the whole program would have done. -/
theorem interleaveAll_separate (separate : Separate handler part sound view allowed)
    (schedule : List Nat) {programs : List (Program A α)} {state : σ} (start : sound state)
    (makes : ∀ (index : Nat) (program : Program A α), programs[index]? = some program →
      program.Makes (allowed index))
    {index : Nat} {program : Program A α} (given : programs[index]? = some program) :
    ∃ left, (interleaveAll handler schedule programs state).1[index]? = some left ∧
      left.run part (view index (interleaveAll handler schedule programs state).2) =
        program.run part (view index state) ∧
      left.length part (view index (interleaveAll handler schedule programs state).2) =
        program.length part (view index state) - schedule.count index := by
  induction schedule generalizing programs state program with
  | nil => exact ⟨program, given, rfl, rfl⟩
  | cons mover schedule ih =>
    rw [interleaveAll]
    cases moved : programs[mover]? with
    | none =>
      have idle : turnOf handler mover programs state = (programs, state) := by
        rw [turnOf, moved]
      have apart : mover ≠ index := by
        rintro rfl
        rw [moved] at given
        cases given
      rw [idle, List.count_cons_of_ne apart]
      exact ih start makes given
    | some active =>
      have turned : turnOf handler mover programs state =
          (programs.set mover (active.turn handler state).1, (active.turn handler state).2) := by
        rw [turnOf, moved]
      obtain ⟨same, own, others, sound', makes'⟩ := separate.turn (makes mover active moved) start
      have inside : mover < programs.length := (List.getElem?_eq_some_iff.mp moved).1
      have still : ∀ (index : Nat) (program : Program A α),
          (programs.set mover (active.turn handler state).1)[index]? = some program →
            program.Makes (allowed index) := by
        intro index program found
        by_cases here : mover = index
        · subst here
          rw [List.getElem?_set_self inside] at found
          cases found
          exact makes'
        · rw [List.getElem?_set_ne here] at found
          exact makes index program found
      rw [turned]
      by_cases here : mover = index
      · -- The program's own turn: one call is made.
        subst here
        obtain rfl : active = program := Option.some.inj (moved.symm.trans given)
        obtain ⟨left, found, ran, long⟩ := ih sound' still (List.getElem?_set_self inside)
        obtain ⟨runs, lengths⟩ := run_length_turn part active (view mover state)
        rw [← own, ← same] at runs lengths
        refine ⟨left, found, ran.trans runs, long.trans ?_⟩
        rw [lengths, List.count_cons_self]
        omega
      · have given' : (programs.set mover (active.turn handler state).1)[index]? =
            some program := by
          rw [List.getElem?_set_ne here, given]
        obtain ⟨left, found, ran, long⟩ := ih sound' still given'
        have apart : view index (active.turn handler state).2 = view index state :=
          others index (Ne.symm here)
        rw [apart] at ran long
        rw [List.count_cons_of_ne here]
        exact ⟨left, found, ran, long⟩

/-- **Every program runs as it runs alone.** -/
theorem interleaveAll_alone (separate : Separate handler part sound view allowed)
    (schedule : List Nat) {programs : List (Program A α)} {state : σ} (start : sound state)
    (makes : ∀ (index : Nat) (program : Program A α), programs[index]? = some program →
      program.Makes (allowed index))
    {index : Nat} {program : Program A α} (given : programs[index]? = some program)
    (turns : program.length handler state ≤ schedule.count index) :
    (interleaveAll handler schedule programs state).1[index]? =
        some (.pure (program.run handler state).1) ∧
      view index (interleaveAll handler schedule programs state).2 =
        view index (program.run handler state).2 := by
  obtain ⟨left, found, ran, long⟩ := interleaveAll_separate separate schedule start makes given
  obtain ⟨value, after, calls⟩ := separate.run (makes index program given) start
  rw [← calls, Nat.sub_eq_zero_of_le turns] at long
  cases left with
  | query request next => cases long
  | pure result =>
    rw [found, value, after, ← ran]
    exact ⟨rfl, rfl⟩

end Parts

end SunKV.Lib.Program
