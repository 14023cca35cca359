/-
**Loops that eat input.**

A loop holds a state and unread input. While input is left, one iteration either goes on with a new
state and less input, or halts. Nothing forces an iteration to take input: one that changes nothing
is repeated for ever.

* `Stalls` — an iteration that leaves state and input as they are; `Visits` — the configurations
  the loop passes through.
* `Returns.invariant`, `Returns.good` — what iterations keep, the loop keeps;
  `Returns.potential_le` — a number that no iteration raises.
* `exists_returns_iff` — if every iteration that is not stalled decreases a measure, the loop
  returns exactly when no configuration it visits is stalled, and the measure bounds its length.
* `Resumable` — input that arrives later does not change what an iteration did with earlier input.
  `Resumable.returns_append` — then the loop may be fed in pieces: where it ran dry it goes on as if
  it had been given all at once, and where it halted it would have halted anyway.
-/

import Mathlib.Logic.Basic
import Mathlib.Data.List.Basic

namespace SunKV.Lib

/-- What an iteration does. -/
inductive Iteration (σ α ω : Type)
  | more (state : σ) (rest : List α)
  | halt (outcome : ω) (state : σ) (rest : List α)

/-- How a loop ends: its input is used up, or an iteration halted. -/
inductive Ending (σ α ω : Type)
  | dry (state : σ)
  | halted (outcome : ω) (state : σ) (rest : List α)

section Loop

variable {σ α ω : Type}

/-- The state a loop ended in. -/
def Ending.state : Ending σ α ω → σ
  | .dry state => state
  | .halted _ state _ => state

/-- The input a loop left unread. -/
def Ending.unread : Ending σ α ω → List α
  | .dry _ => []
  | .halted _ _ rest => rest

/-- The same iteration with more input behind what it left. -/
def Iteration.feed (later : List α) : Iteration σ α ω → Iteration σ α ω
  | .more state rest => .more state (rest ++ later)
  | .halt outcome state rest => .halt outcome state (rest ++ later)

variable (step : σ → List α → Iteration σ α ω)

/-- **The loop**, `none` when the fuel does not suffice. -/
def loop : Nat → σ → List α → Option (Ending σ α ω)
  | 0, _, _ => none
  | _ + 1, state, [] => some (.dry state)
  | fuel + 1, state, first :: input =>
    match step state (first :: input) with
    | .more next rest => loop fuel next rest
    | .halt outcome next rest => some (.halted outcome next rest)

/-- The loop returns, with this ending. -/
def Returns (state : σ) (input : List α) (ending : Ending σ α ω) : Prop :=
  ∃ fuel, loop step fuel state input = some ending

/-- Input is left and an iteration changes nothing. -/
def Stalls (state : σ) (input : List α) : Prop :=
  input ≠ [] ∧ step state input = .more state input

/-- The configurations a loop passes through. -/
inductive Visits : σ → List α → σ → List α → Prop
  | here (state : σ) (input : List α) : Visits state input state input
  | onward {state next last : σ} {input rest unread : List α} (some : input ≠ [])
      (iteration : step state input = .more next rest)
      (visits : Visits next rest last unread) : Visits state input last unread

variable {step} {state next : σ} {input rest : List α} {ending : Ending σ α ω} {fuel more : Nat}

theorem loop_of_more (some : input ≠ []) (iteration : step state input = .more next rest)
    (fuel : Nat) : loop step (fuel + 1) state input = loop step fuel next rest := by
  obtain ⟨first, tail, rfl⟩ := List.exists_cons_of_ne_nil some
  rw [loop, iteration]

theorem loop_of_halt {outcome : ω} (some : input ≠ [])
    (iteration : step state input = .halt outcome next rest) (fuel : Nat) :
    loop step (fuel + 1) state input = Option.some (.halted outcome next rest) := by
  obtain ⟨first, tail, rfl⟩ := List.exists_cons_of_ne_nil some
  rw [loop, iteration]

/-- More fuel does not change the ending. -/
theorem loop_of_le (returned : loop step fuel state input = some ending) (enough : fuel ≤ more) :
    loop step more state input = some ending := by
  induction fuel generalizing more state input with
  | zero => cases returned
  | succ fuel ih =>
    obtain ⟨more, rfl⟩ : ∃ smaller, more = smaller + 1 := ⟨more - 1, by omega⟩
    cases input with
    | nil => exact returned
    | cons first tail =>
      rw [loop] at returned ⊢
      cases iteration : step state (first :: tail) with
      | more next rest =>
        rw [iteration] at returned
        exact ih returned (by omega)
      | halt outcome next rest =>
        rw [iteration] at returned
        exact returned

theorem Returns.unique {other : Ending σ α ω} (first : Returns step state input ending)
    (second : Returns step state input other) : ending = other := by
  obtain ⟨fuel, first⟩ := first
  obtain ⟨more, second⟩ := second
  have one := loop_of_le first (Nat.le_max_left fuel more)
  have two := loop_of_le second (Nat.le_max_right fuel more)
  exact Option.some.inj (one.symm.trans two)

theorem returns_of_more (some : input ≠ []) (iteration : step state input = .more next rest) :
    Returns step state input ending ↔ Returns step next rest ending := by
  constructor
  · rintro ⟨fuel, returned⟩
    cases fuel with
    | zero => cases returned
    | succ fuel => exact ⟨fuel, by rw [← loop_of_more some iteration]; exact returned⟩
  · rintro ⟨fuel, returned⟩
    exact ⟨fuel + 1, by rw [loop_of_more some iteration]; exact returned⟩

theorem returns_of_halt {outcome : ω} (some : input ≠ [])
    (iteration : step state input = .halt outcome next rest) :
    Returns step state input (.halted outcome next rest) :=
  ⟨1, loop_of_halt some iteration 0⟩

/-- How a loop ends after an iteration. -/
def Iteration.Ends (step : σ → List α → Iteration σ α ω) (ending : Ending σ α ω) :
    Iteration σ α ω → Prop
  | .more next rest => Returns step next rest ending
  | .halt outcome next rest => ending = .halted outcome next rest

theorem returns_iff_ends (some : input ≠ []) :
    Returns step state input ending ↔ (step state input).Ends step ending := by
  cases iteration : step state input with
  | more next rest => exact returns_of_more some iteration
  | halt outcome next rest =>
    have halts := returns_of_halt some iteration
    exact ⟨fun returns => returns.unique halts, fun same => same ▸ halts⟩

/-- **What every iteration keeps, the loop keeps.** -/
theorem Returns.invariant (inv : σ → List α → Prop)
    (more : ∀ {state next input rest}, input ≠ [] → step state input = .more next rest →
      inv state input → inv next rest)
    (halt : ∀ {state next input rest outcome}, input ≠ [] →
      step state input = .halt outcome next rest → inv state input → inv next rest)
    (returns : Returns step state input ending) (start : inv state input) :
    inv ending.state ending.unread := by
  obtain ⟨fuel, returned⟩ := returns
  induction fuel generalizing state input with
  | zero => cases returned
  | succ fuel ih =>
    cases input with
    | nil =>
      obtain rfl := Option.some.inj returned
      exact start
    | cons first tail =>
      have some : first :: tail ≠ [] := List.cons_ne_nil _ _
      cases iteration : step state (first :: tail) with
      | more next rest =>
        rw [loop_of_more some iteration] at returned
        exact ih (more some iteration start) returned
      | halt outcome next rest =>
        rw [loop_of_halt some iteration] at returned
        obtain rfl := Option.some.inj returned
        exact halt some iteration start

/-- What holds of the state and the input an iteration leaves, whether it goes on or halts. -/
def Iteration.Leaves (post : σ → List α → Prop) : Iteration σ α ω → Prop
  | .more next rest => post next rest
  | .halt _ next rest => post next rest

/-- **What no iteration raises, the loop does not raise.** -/
theorem Returns.potential_le {potential : σ → List α → Nat}
    (lowers : ∀ state input,
      (step state input).Leaves fun next rest => potential next rest ≤ potential state input)
    (returns : Returns step state input ending) :
    potential ending.state ending.unread ≤ potential state input := by
  refine returns.invariant (fun last unread => potential last unread ≤ potential state input)
    ?_ ?_ (Nat.le_refl _)
  · intro last next unread rest _ iteration below
    have less := lowers last unread
    rw [iteration] at less
    exact Nat.le_trans less below
  · intro last next unread rest outcome _ iteration below
    have less := lowers last unread
    rw [iteration] at less
    exact Nat.le_trans less below

/-- The iteration goes on in a state with `inv`, or halts with a `good` outcome. -/
def Iteration.Keeps (inv : σ → Prop) (good : ω → Prop) : Iteration σ α ω → Prop
  | .more next _ => inv next
  | .halt outcome _ _ => good outcome

/-- **What a loop halts with**, when every iteration keeps `inv` or halts well. -/
theorem Returns.good {inv : σ → Prop} {good : ω → Prop}
    (keeps : ∀ state input, inv state → (step state input).Keeps inv good) {outcome : ω}
    {last : σ} {unread : List α} (returns : Returns step state input (.halted outcome last unread))
    (start : inv state) : good outcome := by
  obtain ⟨fuel, returned⟩ := returns
  induction fuel generalizing state input with
  | zero => cases returned
  | succ fuel ih =>
    cases input with
    | nil => cases returned
    | cons first tail =>
      have some : first :: tail ≠ [] := List.cons_ne_nil _ _
      have kept := keeps state (first :: tail) start
      cases iteration : step state (first :: tail) with
      | more next rest =>
        rw [iteration] at kept
        rw [loop_of_more some iteration] at returned
        exact ih kept returned
      | halt outcome next rest =>
        rw [iteration] at kept
        rw [loop_of_halt some iteration] at returned
        cases returned
        exact kept

/-! ### When a loop returns -/

/-- A stalled loop runs for ever. -/
theorem Stalls.loop_eq_none (stalls : Stalls step state input) (fuel : Nat) :
    loop step fuel state input = none := by
  induction fuel with
  | zero => rfl
  | succ fuel ih => rw [loop_of_more stalls.1 stalls.2, ih]

theorem Visits.loop_eq_none {last : σ} {unread : List α}
    (visits : Visits step state input last unread) (stalls : Stalls step last unread) (fuel : Nat) :
    loop step fuel state input = none := by
  induction visits generalizing fuel with
  | here => exact stalls.loop_eq_none fuel
  | onward some iteration _ ih =>
    cases fuel with
    | zero => rfl
    | succ fuel => rw [loop_of_more some iteration, ih stalls]

/-- Every iteration that goes on and is not stalled decreases the measure. -/
def Progresses (step : σ → List α → Iteration σ α ω) (measure : σ → List α → Nat) : Prop :=
  ∀ {state next input rest}, input ≠ [] → step state input = .more next rest →
    (next = state ∧ rest = input) ∨ measure next rest < measure state input

/-- **A loop that never stalls returns**, within its measure. -/
theorem Progresses.loop_isSome {measure : σ → List α → Nat} (progresses : Progresses step measure)
    (moves : ∀ last unread, Visits step state input last unread → ¬ Stalls step last unread)
    (enough : measure state input < fuel) : (loop step fuel state input).isSome := by
  induction fuel generalizing state input with
  | zero => omega
  | succ fuel ih =>
    cases input with
    | nil => rfl
    | cons first tail =>
      have some : first :: tail ≠ [] := List.cons_ne_nil _ _
      cases iteration : step state (first :: tail) with
      | halt outcome next rest => rw [loop_of_halt some iteration]; rfl
      | more next rest =>
        rw [loop_of_more some iteration]
        rcases progresses some iteration with ⟨rfl, rfl⟩ | less
        · exact absurd ⟨some, iteration⟩ (moves _ _ (.here _ _))
        · exact ih (fun last unread visits => moves last unread (.onward some iteration visits))
            (by omega)

/-- **The loop returns exactly when it never stalls.** -/
theorem Progresses.exists_returns_iff {measure : σ → List α → Nat}
    (progresses : Progresses step measure) :
    (∃ ending, Returns step state input ending) ↔
      ∀ last unread, Visits step state input last unread → ¬ Stalls step last unread := by
  constructor
  · rintro ⟨ending, fuel, returned⟩ last unread visits stalls
    rw [visits.loop_eq_none stalls] at returned
    cases returned
  · intro moves
    obtain ⟨ending, returned⟩ := Option.isSome_iff_exists.mp
      (progresses.loop_isSome moves (Nat.lt_succ_self _))
    exact ⟨ending, _, returned⟩

/-- The measure is enough fuel. -/
theorem Progresses.loop_eq_some_iff {measure : σ → List α → Nat}
    (progresses : Progresses step measure) (enough : measure state input < fuel) :
    loop step fuel state input = some ending ↔ Returns step state input ending := by
  constructor
  · exact fun returned => ⟨fuel, returned⟩
  · intro returns
    have moves := progresses.exists_returns_iff.mp ⟨ending, returns⟩
    obtain ⟨found, returned⟩ := Option.isSome_iff_exists.mp (progresses.loop_isSome moves enough)
    rw [returned, Returns.unique ⟨fuel, returned⟩ returns]

/-! ### Feeding a loop in pieces -/

/-- **Later input does not change what was done with earlier input.** An iteration that went on
would, with more input, either do the same, or do at once what it does in its next iteration. -/
structure Resumable (step : σ → List α → Iteration σ α ω) : Prop where
  halt : ∀ {state input outcome next rest}, input ≠ [] →
    step state input = .halt outcome next rest →
    ∀ later, step state (input ++ later) = .halt outcome next (rest ++ later)
  more : ∀ {state input next rest}, input ≠ [] → step state input = .more next rest →
    ∀ later, later ≠ [] → step state (input ++ later) = .more next (rest ++ later) ∨
      step state (input ++ later) = step next (rest ++ later)

/-- It is enough that an iteration does the same with more input, or goes on to one that does. -/
theorem Resumable.of_feed
    (each : ∀ {state input}, input ≠ [] → ∀ later,
      step state (input ++ later) = (step state input).feed later ∨
        ∃ next rest, step state input = .more next rest ∧
          step state (input ++ later) = step next (rest ++ later)) : Resumable step where
  halt := by
    intro state input outcome next rest some iteration later
    rcases each some later with same | ⟨_, _, goes, -⟩
    · rw [same, iteration]
      rfl
    · rw [iteration] at goes
      cases goes
  more := by
    intro state input next rest some iteration later _
    rcases each some later with same | ⟨_, _, goes, merged⟩
    · rw [same, iteration]
      exact Or.inl rfl
    · rw [iteration] at goes
      cases goes
      exact Or.inr merged

/-- How a loop goes on from where it ended, given later input. -/
def Resumes (step : σ → List α → Iteration σ α ω) (later : List α) (final : Ending σ α ω) :
    Ending σ α ω → Prop
  | .dry last => Returns step last later final
  | .halted outcome last unread => final = .halted outcome last (unread ++ later)

/-- With an iteration's input extended, the loop goes on from where the iteration led. -/
theorem Resumable.returns_more (resumable : Resumable step) (some : input ≠ [])
    (iteration : step state input = .more next rest) {later : List α} (fed : later ≠ []) :
    Returns step state (input ++ later) ending ↔ Returns step next (rest ++ later) ending := by
  have whole : input ++ later ≠ [] := List.append_ne_nil_of_right_ne_nil _ fed
  have left : rest ++ later ≠ [] := List.append_ne_nil_of_right_ne_nil _ fed
  rcases resumable.more some iteration later fed with same | merged
  · exact returns_of_more whole same
  · rw [returns_iff_ends whole, merged, ← returns_iff_ends left]

/-- **Where the loop ran dry it goes on with the later input; where it halted it stays halted.** -/
theorem Resumable.returns_append (resumable : Resumable step)
    (returns : Returns step state input ending) {later : List α} (fed : later ≠ [])
    (final : Ending σ α ω) :
    Returns step state (input ++ later) final ↔ Resumes step later final ending := by
  obtain ⟨fuel, returned⟩ := returns
  induction fuel generalizing state input with
  | zero => cases returned
  | succ fuel ih =>
    cases input with
    | nil =>
      obtain rfl := Option.some.inj returned
      exact Iff.rfl
    | cons first tail =>
      have some : first :: tail ≠ [] := List.cons_ne_nil _ _
      cases iteration : step state (first :: tail) with
      | more next rest =>
        rw [loop_of_more some iteration] at returned
        exact (resumable.returns_more some iteration fed).trans (ih returned)
      | halt outcome next rest =>
        rw [loop_of_halt some iteration] at returned
        obtain rfl := Option.some.inj returned
        rw [returns_iff_ends (List.append_ne_nil_of_left_ne_nil some later),
          resumable.halt some iteration later]
        exact Iff.rfl

end Loop

end SunKV.Lib
