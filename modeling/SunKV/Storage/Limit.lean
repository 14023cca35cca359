/-
**Commands under a storage limit.**

A limit changes a run only by refusing a record, and a refused record ends the command with
`QuotaExceeded` and no mutation (`Command.yields`). So what is known of commands without a limit
carries over, but for a command that is `Stranded`.

* `Yields.exec` — a run under a limit is refused, or is the run without the limit.
* `exec_of_unread` — a run that does not read the clock does not depend on it.
* `Command.settles` — a command that is not stranded leaves the store its own batch gives, up to
  expired records, and its batch has one of the usual shapes.
-/

import SunKV.Storage.Commands
import SunKV.Storage.Failure

namespace SunKV.Storage

open SunKV.Lib

/-! ### The run without the limit -/

/-- The same world without its storage limit. -/
def World.lifted (world : World) : World :=
  { world with backend := { world.backend with maxStorageBytes := 0 } }

section Runs

variable {α : Type} (env : Env) (world : World)

/-- A call other than `putRecord` does not look at the limit. -/
theorem handle_lifted {request : Call} (apart : ∀ key record, request ≠ .putRecord key record) :
    env.handle request world.lifted =
      ((env.handle request world).1, (env.handle request world).2.lifted) := by
  cases request with
  | putRecord key record => exact absurd rfl (apart key record)
  | delKey key =>
    by_cases present : key ∈ world.backend.map
    · simp [Env.handle, World.lifted, InMemoryBackend.delKey, InMemoryBackend.storedFootprint,
        present]
    · simp [Env.handle, World.lifted, InMemoryBackend.delKey, present]
  | getRecord key => rfl
  | clearAll => rfl
  | size => rfl
  | keys => rfl
  | setBypassStorageLimit on => rfl
  | nowEpochUs => rfl

variable {world} in
/-- Nor does one that the limit lets in. -/
theorem handle_put_lifted {key : Bytes} {record : Record}
    (fits : world.backend.accepts key record = true) :
    env.handle (.putRecord key record) world.lifted =
      (true, (env.handle (.putRecord key record) world).2.lifted) := by
  have unlimited : world.lifted.backend.Unlimited := rfl
  have lifted := InMemoryBackend.accepts_of_unlimited unlimited key record
  simp only [Env.handle, InMemoryBackend.putRecord_of_accepts fits,
    InMemoryBackend.putRecord_of_accepts lifted]
  rfl

/-- **A run under a limit is refused, or is the run without the limit.** -/
theorem Yields.exec {key? : Option Bytes} {operation : Engine (StorageResult α)}
    (yields : Yields key? operation) :
    (env.exec operation world).1.Refused ∨
      env.exec operation world.lifted =
        ((env.exec operation world).1, (env.exec operation world).2.lifted) := by
  induction yields generalizing world with
  | done result => exact .inr rfl
  | put key record next _ _ refused ih =>
    cases fits : world.backend.accepts key record with
    | true =>
      have stored : (env.handle (.putRecord key record) world).1 = true := by
        rw [Env.handle, InMemoryBackend.putRecord_of_accepts fits]
      have later := ih (env.handle (.putRecord key record) world).2
      simp only [Env.exec, Program.run, handle_put_lifted env fits, stored] at later ⊢
      exact later
    | false =>
      obtain ⟨result, stops, isRefused⟩ := refused
      have full : (env.handle (.putRecord key record) world).1 = false := by
        rw [Env.handle, InMemoryBackend.putRecord_of_refused fits]
      refine .inl ?_
      simp only [Env.exec, Program.run, full, stops]
      exact isRefused
  | other request next spares _ ih =>
    have later := ih (env.handle request world).1 (env.handle request world).2
    simp only [Env.exec, Program.run, handle_lifted env world spares.1] at later ⊢
    exact later

variable {world} in
/-- **A run that does not read the clock does not depend on it.** -/
theorem exec_of_unread (env' : Env) {operation : Engine α}
    (unread : (env.exec operation world).2.readings = world.readings) :
    env'.exec operation world = env.exec operation world := by
  induction operation generalizing world with
  | pure value => rfl
  | query request next ih =>
    have later := readings_le env (env.handle request world).2
      (next (env.handle request world).1)
    have total : (env.exec (next (env.handle request world).1)
      (env.handle request world).2).2.readings = world.readings := unread
    cases request with
    | keys => exact absurd (total ▸ later) (Nat.not_succ_le_self _)
    | nowEpochUs => exact absurd (total ▸ later) (Nat.not_succ_le_self _)
    | _ => exact ih _ total

end Runs

/-! ### Commands that are not stranded -/

/-- Before the epoch nothing has expired. -/
theorem live_minus_one (held : Option Record) : live (-1) held = held := by
  cases held with
  | none => rfl
  | some record =>
    refine live_of_not_expired ?_
    by_cases deadline : 0 ≤ record.expireAtUs
    · have later : ¬ record.expireAtUs ≤ -1 := fun early =>
        absurd (Int64.le_trans deadline early) (by decide)
      simp [isExpired, later]
    · simp [isExpired, deadline]

section Settles

variable {env : Env} {world : World} {command : Command}

/-- A store without what one key holds, if that had expired at a reading. -/
theorem forgets_purged (env : Env) (store : Store Bytes Record) (key : Bytes)
    {reading readings : Nat} (read : reading < readings) :
    Forgets (env.Dead readings)
      (Function.update store key (live (env.now reading) (store key))) store := by
  intro other
  by_cases here : other = key
  · subst here
    rw [Function.update_self]
    cases held : store other with
    | none => exact .inl rfl
    | some record =>
      cases expired : isExpired record (env.now reading) with
      | false => exact .inl (live_of_not_expired expired)
      | true => exact .inr ⟨live_of_expired expired, record, rfl, reading, read, expired⟩
  · exact .inl (Function.update_of_ne here _ _)

/-- A command that keeps what its key holds leaves the store, but for expired records. A run that
does not read the clock is the same before the epoch, where nothing has expired. -/
theorem Command.forgets_of_keeps {key : Bytes} (about : command.key? = some key)
    (keeps : command.Keeps (env.now world.readings) (world.backend.accepts key) (world.view key))
    (early : (Env.still (-1)).exec command.program world = env.exec command.program world →
      command.Keeps (-1) (world.backend.accepts key) (world.view key)) :
    Forgets (env.Dead (env.exec command.program world).2.readings)
      (env.exec command.program world).2.view world.view := by
  rcases (readings_le env world command.program).eq_or_lt with unread | read
  · have same := exec_of_unread env (Env.still (-1)) unread.symm
    have kept : (command.transition (-1) (world.backend.accepts key) (world.view key)).held =
        world.view key := by
      rcases early same with kept | purged
      · exact kept
      · rw [purged, live_minus_one]
    obtain ⟨-, -, view, -⟩ := command.exec_eq (Env.still (-1)) world about
    rw [same] at view
    rw [view, show (Env.still (-1)).now world.readings = -1 from rfl, kept,
      Function.update_eq_self]
    exact Forgets.refl _ _
  · obtain ⟨-, -, view, -⟩ := command.exec_eq env world about
    rw [view]
    rcases keeps with kept | purged
    · rw [kept, Function.update_eq_self]
      exact Forgets.refl _ _
    · rw [purged]
      exact forgets_purged env world.view key read

/-- A failed command that is not stranded leaves the store, but for expired records. -/
theorem Command.forgets_of_failure
    (failed : (env.exec command.program world).1.status ≠ .ok)
    (free : ∀ key, command.key? = some key →
      ¬ command.Stranded (env.now world.readings) (world.backend.accepts key) (world.view key)) :
    Forgets (env.Dead (env.exec command.program world).2.readings)
      (env.exec command.program world).2.view world.view := by
  cases about : command.key? with
  | none =>
    have fine := (command.exec_of_no_key env world about).1
    exact absurd fine failed
  | some key =>
    have free := free key about
    refine command.forgets_of_keeps about ?_ fun same => ?_
    · rw [(command.exec_eq env world about).1] at failed
      exact (command.keeps_of_failure failed).resolve_right free
    · rw [← same, (command.exec_eq (Env.still (-1)) world about).1] at failed
      refine (command.keeps_of_failure failed).resolve_right ?_
      rintro ⟨valid, none, fills⟩
      have absent : world.view key = .none := (live_minus_one _).symm.trans none
      exact free ⟨valid, by rw [absent, live_none], fills⟩

/-- **A command that only looks leaves the store**, but for expired records. -/
theorem Command.forgets_of_reads (env : Env) (world : World) {command : Command}
    (reads : command.reads = true) :
    Forgets (env.Dead (env.exec command.program world).2.readings)
      (env.exec command.program world).2.view world.view := by
  cases about : command.key? with
  | none =>
    have same : (env.exec command.program world).2.view = world.view := by
      funext key
      rw [World.view, (command.exec_of_no_key env world about).2]
      rfl
    rw [same]
    exact Forgets.refl _ _
  | some key =>
    exact command.forgets_of_keeps about (keeps_of_reads reads) fun _ => keeps_of_reads reads

/-- **A command that is not stranded leaves the store its batch gives**, under every limit, up to
expired records; and its batch has one of the usual shapes. -/
theorem Command.settles (proper : ProperStore world.view)
    (free : ∀ key, command.key? = some key →
      ¬ command.Stranded (env.now world.readings) (world.backend.accepts key) (world.view key)) :
    Forgets (env.Dead (env.exec command.program world).2.readings)
        (env.exec command.program world).2.view
        (replay (events (env.exec command.program world).1.mutations) world.view) ∧
      BatchShape env (world.view (command.key?.getD []))
        (env.exec command.program world).2.readings (command.key?.getD [])
        (env.exec command.program world).1.mutations := by
  rcases command.yields.exec env world with ⟨refused, silent⟩ | same
  · rw [silent]
    exact ⟨command.forgets_of_failure (by rw [refused]; decide) free, .nothing⟩
  · have unlimited : world.lifted.Unlimited := rfl
    have sound := command.sound env unlimited proper
    rw [Sound, same] at sound
    refine ⟨?_, sound.shape⟩
    have view : (env.exec command.program world).2.view =
        replay (events (env.exec command.program world).1.mutations) world.view := sound.view
    rw [view]
    exact Forgets.refl _ _

end Settles

end SunKV.Storage
