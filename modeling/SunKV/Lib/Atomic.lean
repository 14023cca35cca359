/-
**Atomic objects.**

An object that many clients call at the same time: a client calls, at some later moment the call
takes effect on the object in one step, and later still it returns. An observer sees the calls and
the returns in the order in which they happen. A system is linearizable when what an observer sees
of it can be seen of the atomic object.

* `Runs` — what an observer sees of an atomic object;
* `Runs.simulate` — **a system whose every step is one that the object can follow is
  linearizable.**
-/

import Mathlib.Logic.Function.Basic

namespace SunKV.Lib.Atomic

/-- What an observer sees. -/
inductive Visible (κ χ ρ : Type)
  | called (client : κ) (call : χ)
  | returned (client : κ) (result : ρ)

/-- Where a client is with its call. -/
inductive Stage (χ ε : Type)
  | idle
  | called (call : χ)
  | done (answer : ε)

/-- **An atomic object** and its clients. -/
structure Object (κ χ ε σ : Type) where
  state : σ
  stage : κ → Stage χ ε := fun _ => .idle

section Systems

variable {κ χ ρ τ α : Type} {step : τ → α → Option (τ × Option (Visible κ χ ρ))}

/-- A run of a system, and what is seen of it. -/
def run (step : τ → α → Option (τ × Option (Visible κ χ ρ))) :
    List α → τ → Option (τ × List (Visible κ χ ρ))
  | [], state => some (state, [])
  | action :: rest, state => do
    let (next, seen) ← step state action
    let (last, history) ← run step rest next
    return (last, seen.toList ++ history)

theorem run_cons {action : α} {rest : List α} {state last : τ} {history : List (Visible κ χ ρ)}
    (ran : run step (action :: rest) state = some (last, history)) :
    ∃ next seen later, step state action = some (next, seen) ∧
      run step rest next = some (last, later) ∧ history = seen.toList ++ later := by
  obtain ⟨⟨next, seen⟩, taken, rest⟩ := Option.bind_eq_some_iff.mp ran
  obtain ⟨⟨last', later⟩, onward, same⟩ := Option.bind_eq_some_iff.mp rest
  cases same
  exact ⟨next, seen, later, taken, onward, rfl⟩

/-- What every step hands back from the state after it to the state before it. -/
theorem run_back {actions : List α} {state last : τ} {history : List (Visible κ χ ρ)}
    (ran : run step actions state = some (last, history)) {good : τ → Prop}
    (backward : ∀ {state next : τ} {action : α} {seen : Option (Visible κ χ ρ)},
      step state action = some (next, seen) → good next → good state)
    (final : good last) : good state := by
  induction actions generalizing state history with
  | nil =>
    cases ran
    exact final
  | cons action rest ih =>
    obtain ⟨next, seen, later, taken, onward, -⟩ := run_cons ran
    exact backward taken (ih onward)

end Systems

section Steps

variable {κ χ ε ρ σ : Type} [DecidableEq κ] (spec : χ → σ → ε × σ) (meets : ρ → ε → Prop)

/-- The object after the call of a client has taken effect. -/
def Object.effect (object : Object κ χ ε σ) (client : κ) (call : χ) : Object κ χ ε σ where
  state := (spec call object.state).2
  stage := Function.update object.stage client (.done (spec call object.state).1)

/-- One step, and what is seen of it. -/
inductive Step : Object κ χ ε σ → Option (Visible κ χ ρ) → Object κ χ ε σ → Prop
  | call {object : Object κ χ ε σ} {client : κ} {call : χ} (idle : object.stage client = .idle) :
      Step object (some (.called client call))
        { object with stage := Function.update object.stage client (.called call) }
  | effect {object : Object κ χ ε σ} {client : κ} {call : χ}
      (waits : object.stage client = .called call) :
      Step object none (object.effect spec client call)
  | back {object : Object κ χ ε σ} {client : κ} {answer : ε} {result : ρ}
      (done : object.stage client = .done answer) (fits : meets result answer) :
      Step object (some (.returned client result))
        { object with stage := Function.update object.stage client .idle }

/-- **What an observer sees of the object.** -/
inductive Runs : Object κ χ ε σ → List (Visible κ χ ρ) → Object κ χ ε σ → Prop
  | stop (object : Object κ χ ε σ) : Runs object [] object
  | step {object next last : Object κ χ ε σ} {seen : Option (Visible κ χ ρ)}
      {history : List (Visible κ χ ρ)} (taken : Step spec meets object seen next)
      (later : Runs next history last) : Runs object (seen.toList ++ history) last

variable {spec meets}

theorem Runs.append {object middle last : Object κ χ ε σ} {before after : List (Visible κ χ ρ)}
    (first : Runs spec meets object before middle) (second : Runs spec meets middle after last) :
    Runs spec meets object (before ++ after) last := by
  induction first with
  | stop => exact second
  | step taken _ ih =>
    rw [List.append_assoc]
    exact .step taken (ih second)

theorem Runs.one {object next : Object κ χ ε σ} {seen : Option (Visible κ χ ρ)}
    (taken : Step spec meets object seen next) : Runs spec meets object seen.toList next := by
  have runs := Runs.step taken (.stop next)
  rwa [List.append_nil] at runs

/-- **The simulation rule**: if the object can follow every step that leads to a good state, all
that is seen of a run to a good state can be seen of the object. -/
theorem Runs.simulate {τ α : Type} {step : τ → α → Option (τ × Option (Visible κ χ ρ))}
    {actions : List α} {state last : τ} {history : List (Visible κ χ ρ)}
    (ran : run step actions state = some (last, history))
    {good : τ → Prop} {fine : α → Prop} {related : τ → Object κ χ ε σ → Prop}
    (backward : ∀ {state next : τ} {action : α} {seen : Option (Visible κ χ ρ)},
      step state action = some (next, seen) → good next → good state)
    (follows : ∀ {state next : τ} {object : Object κ χ ε σ} {action : α}
      {seen : Option (Visible κ χ ρ)}, related state object → fine action →
        step state action = some (next, seen) → good next →
          ∃ after, Runs spec meets object seen.toList after ∧ related next after)
    (all : ∀ action ∈ actions, fine action) {object : Object κ χ ε σ}
    (start : related state object) (final : good last) :
    ∃ after, Runs spec meets object history after ∧ related last after := by
  induction actions generalizing state object history with
  | nil =>
    cases ran
    exact ⟨object, .stop object, start⟩
  | cons action rest ih =>
    obtain ⟨next, seen, later, taken, onward, rfl⟩ := run_cons ran
    obtain ⟨fineFirst, fineLater⟩ := List.forall_mem_cons.mp all
    obtain ⟨middle, first, related'⟩ :=
      follows start fineFirst taken (run_back onward backward final)
    obtain ⟨after, second, related''⟩ := ih onward fineLater related'
    exact ⟨after, first.append second, related''⟩

end Steps

end SunKV.Lib.Atomic
