/-
**Recovery: the snapshot, then the whole log.**

`recoverInto` loads the snapshot file if there is one and then applies every mutation of the log
chain, with the storage limit bypassed; it fails on a file it cannot decode and on a mutation that
stands for no event.

* `Performs` — what an operation of recovery returns, and the events it does to the engine: the map
  is their replay, and the byte counter is their running total (`charges`).
* `performs_recoverInto` — recovery from readable files performs the events of the snapshot and then
  those of the log.
* `exec_recoverInto` — when the log mentions every key of the snapshot, the snapshot leaves no
  trace.
-/

import SunKV.Persistence.WalChain
import SunKV.Storage.Cell
import SunKV.Storage.Commands

namespace SunKV.Persistence

open SunKV.Lib SunKV.Storage

/-- The files of a server: the snapshot, and the directory of the log. -/
structure Disk where
  snapshot : Option Bytes
  wal : Directory

/-- The loop of `recoverInto` over the decoded mutations. -/
def replayLog : List Mutation → Engine Bool
  | [] => return true
  | mutation :: mutations => do
    if ← applyMutation mutation then replayLog mutations else return false

/-- The second half of `recoverInto`. -/
def recoverWal (lister : Lister) (base : Bytes) (wal : Directory) : Engine Bool :=
  if base ∈ wal then
    match readChain lister base wal with
    | none => return false
    | some mutations => replayLog mutations
  else return true

/-- `PersistenceOrchestrator::recoverInto`. -/
def recoverInto (lister : Lister) (base : Bytes) (disk : Disk) : Engine Bool :=
  match disk.snapshot with
  | none => recoverWal lister base disk.wal
  | some content =>
    match decodeSnapshot content with
    | none => return false
    | some records => do
      loadSnapshot records
      recoverWal lister base disk.wal

/-! ### What recovery does to the engine -/

/-- What a record under a key adds to `bytes_used_`. -/
def footprint (key : Bytes) (record : Record) : UInt64 :=
  UInt64.ofNat (estimateFootprint key record)

theorem storedFootprint_eq (world : World) (key : Bytes) :
    world.backend.storedFootprint key = weigh footprint world.view key := by
  have held : world.view key = world.backend.map[key]? := rfl
  unfold InMemoryBackend.storedFootprint weigh
  rw [held]
  cases world.backend.map[key]? <;> rfl

/-- **An operation returns a value, and does to the map and the byte counter what a list of events
does.** -/
structure Performs {α : Type} (env : Env) (operation : Engine α) (world : World) (value : α)
    (events : List (Event Bytes Record)) : Prop where
  returns : (env.exec operation world).1 = value
  view : (env.exec operation world).2.view = replay events world.view
  used : (env.exec operation world).2.backend.bytesUsed =
    charges footprint events world.view world.backend.bytesUsed

/-- The events of a snapshot's records. -/
def puts (records : List (Bytes × Record)) : List (Event Bytes Record) :=
  records.map fun entry => .put entry.1 entry.2

section Performs

variable {env : Env} {world : World} {α β : Type}

theorem performs_pure (value : α) : Performs env (pure value) world value [] :=
  ⟨rfl, rfl, rfl⟩

theorem performs_bypass (on : Bool) : Performs env (setBypassStorageLimit on) world () [] :=
  ⟨rfl, rfl, rfl⟩

theorem Performs.bind {first : Engine α} {rest : α → Engine β} {value : α} {result : β}
    {before after : List (Event Bytes Record)} (starts : Performs env first world value before)
    (goes : Performs env (rest value) (env.exec first world).2 result after) :
    Performs env (first >>= rest) world result (before ++ after) := by
  obtain ⟨rfl, view, used⟩ := starts
  refine ⟨?_, ?_, ?_⟩
  · rw [Env.exec_bind, goes.returns]
  · rw [Env.exec_bind, goes.view, view, replay_append]
  · rw [Env.exec_bind, goes.used, view, used, charges_append]

/-- With the limit bypassed every record is stored, and it stays bypassed. -/
theorem exec_putRecord_bypass (bypass : world.backend.bypassLimit = true) (key : Bytes)
    (record : Record) :
    (env.exec (putRecord key record) world).2.backend.bypassLimit = true ∧
      Performs env (putRecord key record) world true [.put key record] := by
  have fits : world.backend.accepts key record = true := by
    simp [InMemoryBackend.accepts, bypass]
  have run : env.exec (putRecord key record) world =
      ((world.backend.putRecord key record).1,
        { world with backend := (world.backend.putRecord key record).2 }) := rfl
  rw [InMemoryBackend.putRecord_of_accepts fits] at run
  refine ⟨?_, ?_, ?_, ?_⟩
  · rw [run]
    exact bypass
  · rw [run]
  · funext other
    rw [run, World.view, getElem?_insert_eq]
    exact (Function.update_apply world.view key (some record) other).symm
  · rw [run]
    show world.backend.bytesUsed - world.backend.storedFootprint key + footprint key record = _
    rw [storedFootprint_eq]
    rfl

theorem performs_del (key : Bytes) :
    Performs env (delKey key) world (world.backend.delKey key).1 [.del key] where
  returns := rfl
  view := World.drop_view key
  used := by
    show (world.backend.delKey key).2.bytesUsed = world.backend.bytesUsed - weigh footprint _ key
    rw [← storedFootprint_eq, InMemoryBackend.delKey]
    split
    case isTrue => rfl
    case isFalse absent =>
      have nothing : world.backend.storedFootprint key = 0 := by
        rw [InMemoryBackend.storedFootprint, Std.ExtTreeMap.getElem?_eq_none absent]
      rw [nothing, sub_zero]

theorem performs_clear : Performs env clearAll world () [.clear] where
  returns := rfl
  view := by
    funext key
    exact Std.ExtTreeMap.getElem?_empty
  used := rfl

theorem performs_applyMutationBody (bypass : world.backend.bypassLimit = true)
    (mutation : Mutation) :
    Performs env (applyMutationBody mutation) world mutation.event?.isSome
      mutation.event?.toList := by
  unfold applyMutationBody Mutation.event?
  cases mutation.type with
  | putRecord =>
    cases mutation.record with
    | none => exact performs_pure false
    | some record => exact (exec_putRecord_bypass bypass mutation.key record).2
  | delKey => exact (performs_del mutation.key).bind (performs_pure true)
  | clearAll => exact performs_clear.bind (performs_pure true)
  | unlisted code outside => exact performs_pure false

/-- **`applyMutation` performs the event its mutation stands for**, and fails when it stands for
none. -/
theorem performs_applyMutation (mutation : Mutation) :
    Performs env (applyMutation mutation) world mutation.event?.isSome
      mutation.event?.toList := by
  have body : Performs env (applyMutationBody mutation)
      (env.exec (setBypassStorageLimit true) world).2 mutation.event?.isSome
      mutation.event?.toList := performs_applyMutationBody rfl mutation
  have done : Performs env (applyMutation mutation) world mutation.event?.isSome
      ([] ++ (mutation.event?.toList ++ ([] ++ []))) :=
    Performs.bind (performs_bypass true)
      (Performs.bind body (Performs.bind (performs_bypass false) (performs_pure _)))
  simpa using done

theorem performs_loadRecords (bypass : world.backend.bypassLimit = true)
    (records : List (Bytes × Record)) :
    Performs env (loadRecords records) world () (puts records) := by
  induction records generalizing world with
  | nil => exact performs_pure ()
  | cons entry records ih =>
    obtain ⟨still, put⟩ := exec_putRecord_bypass bypass entry.1 entry.2
    exact put.bind (ih still)

/-- **`loadSnapshot` empties the store and puts the records of the snapshot.** -/
theorem performs_loadSnapshot (records : List (Bytes × Record)) :
    Performs env (loadSnapshot records) world () (.clear :: puts records) := by
  have loaded : Performs env (loadRecords records)
      (env.exec clearAll (env.exec (setBypassStorageLimit true) world).2).2 () (puts records) :=
    performs_loadRecords rfl records
  have done :
      Performs env (loadSnapshot records) world () ([] ++ ([.clear] ++ (puts records ++ []))) :=
    Performs.bind (performs_bypass true)
      (Performs.bind performs_clear (Performs.bind loaded (performs_bypass false)))
  simpa using done

theorem events_cons (mutation : Mutation) (mutations : List Mutation) :
    events (mutation :: mutations) = mutation.event?.toList ++ events mutations := by
  cases found : mutation.event? <;> simp [events, found]

/-- **Replaying a log of well-formed mutations succeeds, and performs their events.** -/
theorem performs_replayLog {mutations : List Mutation}
    (events? : ∀ mutation ∈ mutations, mutation.event?.isSome) :
    Performs env (replayLog mutations) world true (events mutations) := by
  induction mutations generalizing world with
  | nil => exact performs_pure true
  | cons mutation mutations ih =>
    have applied : Performs env (applyMutation mutation) world true mutation.event?.toList := by
      rw [← events? mutation List.mem_cons_self]
      exact performs_applyMutation mutation
    rw [events_cons]
    exact applied.bind (ih fun other member => events? other (List.mem_cons_of_mem _ member))

end Performs

/-! ### Readable files -/

/-- The events of the snapshot file. -/
def snapshotEvents (snapshot : Option Bytes) : List (Event Bytes Record) :=
  match snapshot.bind decodeSnapshot with
  | none => []
  | some records => .clear :: puts records

/-- The events of the log. -/
def logEvents (lister : Lister) (base : Bytes) (wal : Directory) : List (Event Bytes Record) :=
  if base ∈ wal then events ((readChain lister base wal).getD []) else []

/-- The files can be read: the snapshot, if there is one, decodes, and so does the log, if there is
one, to mutations that stand for events. -/
structure Disk.Readable (disk : Disk) (lister : Lister) (base : Bytes) : Prop where
  snapshot : ∀ content, disk.snapshot = some content → (decodeSnapshot content).isSome
  log : base ∈ disk.wal → ∃ mutations, readChain lister base disk.wal = some mutations ∧
    ∀ mutation ∈ mutations, mutation.event?.isSome

section Recover

variable {lister : Lister} {base : Bytes} {disk : Disk}

theorem performs_recoverWal (readable : disk.Readable lister base) (env : Env) (world : World) :
    Performs env (recoverWal lister base disk.wal) world true
      (logEvents lister base disk.wal) := by
  unfold recoverWal logEvents
  by_cases present : base ∈ disk.wal
  · obtain ⟨mutations, read, events?⟩ := readable.log present
    rw [if_pos present, if_pos present, read]
    exact performs_replayLog events?
  · rw [if_neg present, if_neg present]
    exact performs_pure true

/-- **Recovery from readable files succeeds, and performs the events of the snapshot and of the
log.** -/
theorem performs_recoverInto (readable : disk.Readable lister base) (env : Env) (world : World) :
    Performs env (recoverInto lister base disk) world true
      (snapshotEvents disk.snapshot ++ logEvents lister base disk.wal) := by
  unfold recoverInto snapshotEvents
  cases stored : disk.snapshot with
  | none => exact performs_recoverWal readable env world
  | some content =>
    obtain ⟨records, decoded⟩ := Option.isSome_iff_exists.mp (readable.snapshot content stored)
    dsimp only [Option.bind_some]
    rw [decoded]
    exact Performs.bind (performs_loadSnapshot records) (performs_recoverWal readable env _)

end Recover

/-! ### Snapshots that the log covers -/

/-- A key that holds something after a replay was put by one of the events, or held it before. -/
theorem held_of_replay {events : List (Event Bytes Record)} {store : Store Bytes Record}
    {key : Bytes} {record : Record} (held : replay events store key = some record) :
    Event.put key record ∈ events ∨ store key = some record := by
  induction events generalizing store with
  | nil => exact Or.inr held
  | cons event events ih =>
    rcases ih held with later | now
    · exact Or.inl (List.mem_cons_of_mem _ later)
    · cases event with
      | put other value =>
        rw [Event.apply, Function.update_apply] at now
        split at now
        case isTrue same =>
          obtain rfl := Option.some.inj now
          rw [same]
          exact Or.inl List.mem_cons_self
        case isFalse => exact Or.inr now
      | del other =>
        rw [Event.apply, Function.update_apply] at now
        split at now
        · cases now
        · exact Or.inr now
      | clear => cases now

theorem put_mem_of_replay {events : List (Event Bytes Record)} {key : Bytes} {record : Record}
    (held : replay events (fun _ => none) key = some record) :
    Event.put key record ∈ events := by
  rcases held_of_replay held with put | none
  · exact put
  · cases none

/-- **A snapshot whose keys the log mentions leaves no trace.** -/
theorem replay_of_covered {log : List (Event Bytes Record)} {records : List (Bytes × Record)}
    (covered : ∀ entry ∈ records, ∃ event ∈ log, event.Mentions entry.1) :
    replay log (replay (puts records) fun _ => none) = replay log fun _ => none := by
  funext key
  cases held : replay (puts records) (fun _ => none) key with
  | none => exact replay_congr log held
  | some record =>
    obtain ⟨entry, member, same⟩ := List.mem_map.mp (put_mem_of_replay held)
    obtain ⟨rfl, rfl⟩ := Event.put.inj same
    exact replay_of_mentions log (covered entry member) _ _

/-- **Recovery from a covered snapshot and a readable log is replay of the log.** -/
theorem exec_recoverInto {env : Env} {world : World} {lister : Lister} {base : Bytes} {disk : Disk}
    (empty : world.view = fun _ => none) {mutations : List Mutation} (present : base ∈ disk.wal)
    (read : readChain lister base disk.wal = some mutations)
    (events? : ∀ mutation ∈ mutations, mutation.event?.isSome)
    (snapshot : ∀ content, disk.snapshot = some content → ∃ records,
      decodeSnapshot content = some records ∧
        ∀ entry ∈ records, ∃ event ∈ events mutations, event.Mentions entry.1) :
    (env.exec (recoverInto lister base disk) world).1 = true ∧
      (env.exec (recoverInto lister base disk) world).2.view =
        replay (events mutations) fun _ => none := by
  have readable : disk.Readable lister base := by
    refine ⟨fun content stored => ?_, fun _ => ⟨mutations, read, events?⟩⟩
    obtain ⟨records, decoded, -⟩ := snapshot content stored
    rw [decoded]
    rfl
  have log : logEvents lister base disk.wal = events mutations := by
    rw [logEvents, if_pos present, read, Option.getD_some]
  obtain ⟨done, view, -⟩ := performs_recoverInto readable env world
  refine ⟨done, view.trans ?_⟩
  rw [replay_append, log, empty]
  cases stored : disk.snapshot with
  | none => rfl
  | some content =>
    obtain ⟨records, decoded, covered⟩ := snapshot content stored
    rw [snapshotEvents, Option.bind_some, decoded]
    exact replay_of_covered covered

end SunKV.Persistence
