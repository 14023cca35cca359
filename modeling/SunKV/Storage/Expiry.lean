/-
**Expired records are invisible.**

Two runs of one command at one time: on a store, and on the store without its expired records
(`Purges`). A command sees the record of its key only if it is live, with one exception: `del`
removes whatever is there, and answers 1 for an expired record too.

* `Command.transition_live` — a command that is no `del` answers the same and leaves the same live
  record, whether or not an expired record is in the way.
* `transparent_iff` — so expiry is transparent to every command but a `del` of an expired key.
-/

import SunKV.Storage.Transition

namespace SunKV.Storage

open SunKV.Lib

/-- Nothing is refused. -/
def acceptsAll (_ : Record) : Bool := true

theorem World.Unlimited.accepts_eq {world : World} (unlimited : world.Unlimited) (key : Bytes) :
    world.backend.accepts key = acceptsAll := by
  funext record
  exact InMemoryBackend.accepts_of_unlimited unlimited key record

section Step

/-- **An expired record is as good as none**, unless the command is a `del`. -/
theorem Command.transition_live {command : Command} {key : Bytes}
    (about : command.key? = some key) (sees : command ≠ .del key) (now : Int64)
    (held : Option Record) :
    let purged := command.transition now acceptsAll (live now held)
    let step := command.transition now acceptsAll held
    step.status = purged.status ∧ step.value = purged.value ∧
      live now step.held = live now purged.held := by
  intro purged step
  by_cases bad : command.invalid = true
  · have same : step = ⟨.invalidArg, command.blankReply, held⟩ := if_pos bad
    have samePurged : purged = ⟨.invalidArg, command.blankReply, live now held⟩ := if_pos bad
    rw [same, samePurged]
    exact ⟨rfl, rfl, (live_live now held).symm⟩
  · have acts : step = command.act now acceptsAll held := if_neg bad
    have actsPurged : purged = command.act now acceptsAll (live now held) := if_neg bad
    have same : step = purged := by
      rw [acts, actsPurged]
      cases command with
      | dbsize => cases about
      | keys => cases about
      | del k => cases about; exact absurd rfl sees
      | set k value => rfl
      | _ => simp only [act, live_live]
    rw [same]
    exact ⟨rfl, rfl, rfl⟩

/-- `del` tells an expired record from none, by its answer alone. -/
theorem Command.del_live_iff (key : Bytes) (now : Int64) (held : Option Record) :
    let purged := (Command.del key).transition now acceptsAll (live now held)
    let step := (Command.del key).transition now acceptsAll held
    (step.status = purged.status ∧ step.value = purged.value ∧
      live now step.held = live now purged.held) ↔
      ∀ record, held = some record → isExpired record now = false := by
  intro purged step
  have values : (step.status = purged.status ∧ step.value = purged.value ∧
      live now step.held = live now purged.held) ↔ step.value = purged.value :=
    ⟨fun same => same.2.1, fun same => ⟨rfl, same, rfl⟩⟩
  rw [values]
  cases held with
  | none => exact ⟨fun _ record found => (Option.some_ne_none record found.symm).elim, fun _ => rfl⟩
  | some record =>
    cases expired : isExpired record now with
    | true =>
      have one : step.value = .int 1 := rfl
      have zero : purged.value = .int 0 := by
        simp only [purged, live_of_expired expired]
        rfl
      rw [one, zero]
      refine ⟨fun same => absurd same (by decide), fun alive => ?_⟩
      rw [alive record rfl] at expired
      cases expired
    | false =>
      refine ⟨fun _ other found => ?_, fun _ => ?_⟩
      · cases found
        exact expired
      · simp only [step, purged, live_of_not_expired expired]

end Step

/-- The same store, without the records that have expired. -/
structure Purges (now : Int64) (world purged : World) : Prop where
  unlimited : world.Unlimited
  unlimitedPurged : purged.Unlimited
  readings : purged.readings = world.readings
  view : ∀ key, purged.view key = live now (world.view key)

/-- **Expiry is transparent** to a command about a key, exactly when it is not a `del` of a key
that holds an expired record. -/
theorem transparent_iff (env : Env) (world purged : World) (command : Command)
    (purges : Purges (env.now world.readings) world purged) (about : command.key?.isSome) :
    let now := env.now world.readings
    let ran := env.exec command.program world
    let ranPurged := env.exec command.program purged
    (ran.1.status = ranPurged.1.status ∧ ran.1.value = ranPurged.1.value ∧
      ∀ key, live now (ran.2.view key) = live now (ranPurged.2.view key)) ↔
      ¬ ∃ key record, command = .del key ∧ world.view key = some record ∧
        isExpired record now = true := by
  intro now ran ranPurged
  obtain ⟨key, about⟩ := Option.isSome_iff_exists.mp about
  obtain ⟨status, value, view, -⟩ := command.exec_eq env world about
  obtain ⟨statusPurged, valuePurged, viewPurged, -⟩ := command.exec_eq env purged about
  rw [purges.unlimited.accepts_eq] at status value view
  rw [purges.unlimitedPurged.accepts_eq, purges.readings, purges.view]
    at statusPurged valuePurged viewPurged
  -- The other keys agree before and after.
  have elsewhere : (∀ k, live now (ran.2.view k) = live now (ranPurged.2.view k)) ↔
      live now (command.transition now acceptsAll (world.view key)).held =
        live now (command.transition now acceptsAll (live now (world.view key))).held := by
    rw [view, viewPurged]
    refine ⟨fun same => by simpa using same key, fun same k => ?_⟩
    by_cases here : k = key
    · subst here
      simpa using same
    · rw [Function.update_of_ne here, Function.update_of_ne here, purges.view, live_live]
  rw [elsewhere, status, statusPurged, value, valuePurged]
  by_cases del : command = .del key
  · subst del
    refine (Command.del_live_iff key now (world.view key)).trans ⟨?_, ?_⟩
    · rintro alive ⟨k, record, same, found, expired⟩
      cases same
      rw [alive record found] at expired
      cases expired
    · intro sound record found
      by_contra expired
      exact sound ⟨key, record, rfl, found, by simpa using expired⟩
  · refine ⟨fun _ found => ?_, fun _ => Command.transition_live about del now (world.view key)⟩
    obtain ⟨k, record, rfl, -⟩ := found
    cases about
    exact del rfl

/-- A store that holds the one key `k`, with a deadline at 1. -/
def deadlineAtOne : World :=
  { backend :=
      { map := (∅ : Dict Record).insert [107] { value := .ofString [118], expireAtUs := 1 } } }

theorem purges_deadlineAtOne : Purges 1 deadlineAtOne {} := by
  refine ⟨rfl, rfl, rfl, fun key => ?_⟩
  by_cases here : key = [107]
  · subst here
    decide
  · have absent : deadlineAtOne.view key = none := by
      simp [deadlineAtOne, World.view, Ne.symm here]
    rw [absent]
    rfl

/-- `GET k` at time 1 does the same on both stores. -/
theorem transparent_get :
    let ran := (Env.still 1).exec (Command.get [107]).program deadlineAtOne
    let ranPurged := (Env.still 1).exec (Command.get [107]).program {}
    Purges 1 deadlineAtOne {} ∧ ran.1.status = ranPurged.1.status ∧
      ran.1.value = ranPurged.1.value ∧
      ∀ key, live 1 (ran.2.view key) = live 1 (ranPurged.2.view key) :=
  ⟨purges_deadlineAtOne,
    (transparent_iff (Env.still 1) deadlineAtOne {} (.get [107]) purges_deadlineAtOne rfl).mpr
      fun found => by
        obtain ⟨k, record, same, -⟩ := found
        cases same⟩

/-- `DEL k` at time 1 answers 1 on the store, and 0 on the store without its expired record. -/
theorem del_of_expired :
    Purges 1 deadlineAtOne {} ∧
      ((Env.still 1).exec (Command.del [107]).program deadlineAtOne).1.value = .int 1 ∧
      ((Env.still 1).exec (Command.del [107]).program {}).1.value = .int 0 :=
  ⟨purges_deadlineAtOne, by decide, by decide⟩

end SunKV.Storage
