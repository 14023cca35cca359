/-
**Machines that take one step after the other.**

A machine has actions, each of which it can take in some states. `Throughout` says of a run that
every action met a condition on the state it was taken in.

* `Throughout.keeps` — **what every such step keeps holds at the end of every such run**;
  `run_keeps` is the rule without a condition, `Throughout.progress` the one for steps that the
  condition makes possible.
* `throughout_iff` — where the condition says exactly when a step keeps it, it says exactly when it
  holds in **every state of a run**; `run_iff` — and at the end of a run, if what is lost once is
  not found again.
-/

import Mathlib.Logic.Basic

namespace SunKV.Lib.Machine

variable {σ α : Type} (step : σ → α → Option σ)

/-- A run of actions, `none` if one of them cannot be taken. -/
def run : List α → σ → Option σ
  | [], state => some state
  | action :: rest, state => (step state action).bind (run rest)

/-- Every action of a run meets a condition on the state that it is taken in. -/
def Throughout (allowed : σ → α → Prop) : List α → σ → Prop
  | [], _ => True
  | action :: rest, state =>
    allowed state action ∧ ∀ next ∈ step state action, Throughout allowed rest next

instance decidableThroughout (allowed : σ → α → Prop) [∀ state, DecidablePred (allowed state)] :
    (actions : List α) → (state : σ) → Decidable (Throughout step allowed actions state)
  | [], _ => .isTrue trivial
  | _ :: rest, _ =>
    have (next : σ) : Decidable (Throughout step allowed rest next) :=
      decidableThroughout allowed rest next
    inferInstanceAs (Decidable (_ ∧ _))

section Rules

variable {step} {allowed : σ → α → Prop} {inv : σ → Prop} {actions : List α} {state last : σ}

/-- **The invariant rule.** -/
theorem Throughout.keeps
    (kept : ∀ {state next : σ} {action : α}, inv state → allowed state action →
      step state action = some next → inv next)
    (all : Throughout step allowed actions state) (start : inv state)
    (ran : run step actions state = some last) : inv last := by
  induction actions generalizing state with
  | nil =>
    obtain rfl := Option.some.inj ran
    exact start
  | cons action rest ih =>
    obtain ⟨next, taken, later⟩ := Option.bind_eq_some_iff.mp ran
    exact ih (all.2 next taken) (kept start all.1 taken) later

/-- **The progress rule**: where the invariant and the condition make every step possible, the run
is possible. -/
theorem Throughout.progress
    (possible : ∀ {state : σ} {action : α}, inv state → allowed state action →
      ∃ next, step state action = some next ∧ inv next)
    (all : Throughout step allowed actions state) (start : inv state) :
    ∃ last, run step actions state = some last ∧ inv last := by
  induction actions generalizing state with
  | nil => exact ⟨state, rfl, start⟩
  | cons action rest ih =>
    obtain ⟨next, taken, holds⟩ := possible start all.1
    obtain ⟨last, ran, final⟩ := ih (all.2 next taken) holds
    exact ⟨last, Option.bind_eq_some_iff.mpr ⟨next, taken, ran⟩, final⟩

theorem throughout_true (actions : List α) (state : σ) :
    Throughout step (fun _ _ => True) actions state := by
  induction actions generalizing state with
  | nil => exact trivial
  | cons action rest ih => exact ⟨trivial, fun next _ => ih next⟩

/-- A condition on the actions alone. -/
theorem throughout_of_forall {fine : α → Prop} (all : ∀ action ∈ actions, fine action)
    (state : σ) : Throughout step (fun _ action => fine action) actions state := by
  induction actions generalizing state with
  | nil => exact trivial
  | cons action rest ih =>
    exact ⟨all action (.head _),
      fun next _ => ih (fun other member => all other (.tail _ member)) next⟩

theorem run_keeps
    (kept : ∀ {state next : σ} {action : α}, inv state → step state action = some next → inv next)
    (start : inv state) (ran : run step actions state = some last) : inv last :=
  (throughout_true actions state).keeps (fun holds _ taken => kept holds taken) start ran

/-- **The exact rule**: the states of a run are those at the end of its beginnings. -/
theorem throughout_iff
    (exact : ∀ {state : σ} {action : α}, inv state →
      ((∀ next ∈ step state action, inv next) ↔ allowed state action))
    (start : inv state) :
    (∀ before, before <+: actions → ∀ last ∈ run step before state, inv last) ↔
      Throughout step allowed actions state := by
  induction actions generalizing state with
  | nil =>
    refine iff_of_true (fun before none last ran => ?_) trivial
    obtain rfl := List.prefix_nil.mp none
    obtain rfl := Option.some.inj ran
    exact start
  | cons action rest ih =>
    constructor
    · intro visited
      have after (next : σ) (taken : next ∈ step state action) : inv next :=
        visited [action] (List.prefix_append [action] rest) next
          (Option.bind_eq_some_iff.mpr ⟨next, taken, rfl⟩)
      refine ⟨(exact start).mp after, fun next taken => (ih (after next taken)).mp ?_⟩
      intro before starts last ran
      exact visited (action :: before) (List.cons_prefix_cons.mpr ⟨rfl, starts⟩) last
        (Option.bind_eq_some_iff.mpr ⟨next, taken, ran⟩)
    · rintro ⟨first, later⟩ before starts last ran
      cases before with
      | nil =>
        obtain rfl := Option.some.inj ran
        exact start
      | cons head before =>
        obtain ⟨rfl, within⟩ := List.cons_prefix_cons.mp starts
        obtain ⟨next, taken, ran⟩ := Option.bind_eq_some_iff.mp ran
        have after : inv next := (exact start).mpr first next taken
        exact (ih after).mpr (later next taken) before within last ran

/-- **The exact rule for the end of a run**, for what no step brings back. -/
theorem run_iff {holds : σ → Prop}
    (exact : ∀ {state next : σ} {action : α}, inv state → step state action = some next →
      (holds next ↔ holds state ∧ allowed state action))
    (kept : ∀ {state next : σ} {action : α}, inv state → step state action = some next → inv next)
    (start : inv state) (ran : run step actions state = some last) :
    holds last ↔ holds state ∧ Throughout step allowed actions state := by
  induction actions generalizing state with
  | nil =>
    obtain rfl := Option.some.inj ran
    exact (and_iff_left trivial).symm
  | cons action rest ih =>
    obtain ⟨next, taken, later⟩ := Option.bind_eq_some_iff.mp ran
    rw [ih (kept start taken) later, exact start taken, and_assoc]
    refine and_congr_right fun _ => and_congr_right fun _ => ⟨fun all other same => ?_, ?_⟩
    · obtain rfl := Option.some.inj (taken.symm.trans same)
      exact all
    · exact fun all => all next taken

end Rules

end SunKV.Lib.Machine
