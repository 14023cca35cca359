/-
**A server with a synchronous log, and what a restart brings back.**

A `Node` is the engine's world and the files. A request runs a command and appends its batch to
the log, or clears the store and appends one `ClearAll`, or takes a snapshot.

`Durable env base log node` is the invariant of every run: the log file is the encoding of the
mutations submitted so far, and the memory is the replay of that log up to records that had
expired at some reading of the clock (`Forgets`) — a snapshot deletes those without logging it.
`Durable.serve` keeps it from request to request, `recoverInto_serveAll` draws the conclusion for
a restart.
-/

import SunKV.Persistence.Recovery
import SunKV.Storage.Limit

namespace SunKV.Persistence

open SunKV.Lib SunKV.Storage

/-! ### Requests -/

/-- A running server. -/
structure Node where
  world : World
  disk : Disk

/-- An empty engine, and a log writer just opened in an empty directory. -/
def Node.start (base : Bytes) : Node where
  world := {}
  disk := { snapshot := none, wal := openAppend base ∅ }

/-- What a client, or the snapshot thread, can ask. -/
inductive Request
  | command (command : Command)
  | flushAll
  | takeSnapshot

/-- The engine part of `cmdFlushall`, with the batch it submits. -/
def flushAll : Engine MutationBatch := do
  loadSnapshot []
  let now ← nowEpochUs
  return [Mutation.clear now]

/-- The batch a request submits. -/
def submitted (env : Env) (world : World) : Request → MutationBatch
  | .command command => (env.exec command.program world).1.mutations
  | .flushAll => (env.exec flushAll world).1
  | .takeSnapshot => []

/-- The engine after a request. -/
def worldAfter (env : Env) (world : World) : Request → World
  | .command command => (env.exec command.program world).2
  | .flushAll => (env.exec flushAll world).2
  | .takeSnapshot => (env.exec dumpAllLiveRecords world).2

/-- The snapshot file after a request: `takeSnapshotNow` replaces it. -/
def snapshotAfter (env : Env) (node : Node) : Request → Option Bytes
  | .takeSnapshot => some (encodeSnapshot (env.exec dumpAllLiveRecords node.world).1)
  | _ => node.disk.snapshot

/-- **One request**: the engine operation, then the synchronous `submit`. -/
def serve (env : Env) (lister : Lister) (base : Bytes) (node : Node) (request : Request) :
    Node where
  world := worldAfter env node.world request
  disk :=
    { snapshot := snapshotAfter env node request
      wal := append lister base 0 node.disk.wal (submitted env node.world request) }

/-- A run of requests. -/
def serveAll (env : Env) (lister : Lister) (base : Bytes) (requests : List Request)
    (node : Node) : Node :=
  requests.foldl (serve env lister base) node

/-- All mutations a run submits. -/
def runLog (env : Env) (lister : Lister) (base : Bytes) : List Request → Node → List Mutation
  | [], _ => []
  | request :: requests, node =>
    submitted env node.world request ++
      runLog env lister base requests (serve env lister base node request)

/-! ### One request -/

/-- Keys and encoded records shorter than `2 ^ 32` bytes. -/
structure Sized (mutation : Mutation) : Prop where
  key : mutation.key.length < 2 ^ 32
  record : ∀ record, mutation.record = some record → Record.Sized record

/-- A mutation a request submits: it stands for an event, and a log can carry it if it is sized. -/
def Loggable (mutation : Mutation) : Prop :=
  mutation.event?.isSome ∧ (Sized mutation → Encodable mutation)

theorem loggable_of_shape {env : Env} {held : Option Record} {readings : Nat} {key : Bytes}
    {batch : MutationBatch} (shape : BatchShape env held readings key batch) :
    ∀ mutation ∈ batch, Loggable mutation := by
  intro mutation member
  rcases shape.mem member with ⟨ts, rfl⟩ | ⟨record, ts, wf, rfl⟩
  · exact ⟨rfl, fun sized => encodable_del sized.key ts⟩
  · exact ⟨rfl, fun sized => encodable_put sized.key wf (sized.record record rfl) ts⟩

section Request

variable {env : Env} {world : World}

/-- The request is not one that the storage limit leaves stranded. -/
def Request.Free (env : Env) (world : World) : Request → Prop
  | .command issued => ∀ key, issued.key? = some key →
      ¬ issued.Stranded (env.now world.readings) (world.backend.accepts key) (world.view key)
  | .flushAll => True
  | .takeSnapshot => True

/-- Without a limit every request is free. -/
theorem Request.free_of_unlimited (unlimited : world.Unlimited) (request : Request) :
    request.Free env world := by
  cases request with
  | command issued =>
    rintro key - ⟨-, -, wantType, fill, -, -, refused⟩
    exact absurd refused (by rw [InMemoryBackend.accepts_of_unlimited unlimited]; decide)
  | flushAll => trivial
  | takeSnapshot => trivial

theorem exec_flushAll_view : (env.exec flushAll world).2.view = fun _ => none :=
  (performs_loadSnapshot []).view

theorem worldAfter_limit (request : Request) :
    (worldAfter env world request).backend.maxStorageBytes = world.backend.maxStorageBytes := by
  cases request with
  | command command => exact exec_limit env world command.program
  | flushAll => exact exec_limit env world flushAll
  | takeSnapshot => exact exec_limit env world dumpAllLiveRecords

theorem worldAfter_unlimited (unlimited : world.Unlimited) (request : Request) :
    (worldAfter env world request).Unlimited := (worldAfter_limit request).trans unlimited

theorem worldAfter_readings (request : Request) :
    world.readings ≤ (worldAfter env world request).readings := by
  cases request with
  | command command => exact readings_le env world command.program
  | flushAll => exact readings_le env world flushAll
  | takeSnapshot => exact readings_le env world dumpAllLiveRecords

section Free

variable {request : Request}

theorem submitted_loggable (proper : ProperStore world.view) (free : request.Free env world) :
    ∀ mutation ∈ submitted env world request, Loggable mutation := by
  cases request with
  | command command => exact loggable_of_shape (command.settles proper free).2
  | flushAll =>
    intro mutation member
    obtain rfl := List.mem_singleton.mp member
    exact ⟨rfl, fun _ => encodable_clear _⟩
  | takeSnapshot =>
    intro mutation member
    cases member

/-- **The store after a request is the replay of its batch**, up to records that had expired. -/
theorem worldAfter_view (proper : ProperStore world.view) (free : request.Free env world) :
    Forgets (env.Dead (worldAfter env world request).readings) (worldAfter env world request).view
      (replay (events (submitted env world request)) world.view) := by
  cases request with
  | command command => exact (command.settles proper free).1
  | flushAll =>
    have same : (worldAfter env world .flushAll).view = _ := exec_flushAll_view
    rw [same]
    exact Forgets.refl _ _
  | takeSnapshot => exact (exec_dumpAllLiveRecords env world).1

/-- What the batch of a request puts is proper in the end. -/
theorem submitted_proper (proper : ProperStore world.view) (free : request.Free env world)
    {store : Store Bytes Record} (before : ProperStore store) :
    ProperStore (replay (events (submitted env world request)) store) := by
  intro key record found
  cases request with
  | command command =>
    rcases (command.settles proper free).2.proper found with old | new
    · exact before key record old
    · exact new
  | flushAll => cases found
  | takeSnapshot => exact before key record found

theorem worldAfter_proper (proper : ProperStore world.view) (free : request.Free env world) :
    ProperStore (worldAfter env world request).view := fun key record held =>
  submitted_proper proper free proper key record ((worldAfter_view proper free).of_kept held)

end Free

end Request

/-! ### The memory during a run -/

/-- **The memory is the store the run started from after the mutations since**, up to records that
had expired at a reading of the clock. A log can carry these mutations. -/
structure Running (env : Env) (start : Store Bytes Record) (new : List Mutation) (world : World) :
    Prop where
  proper : ProperStore world.view
  encodable : ∀ mutation ∈ new, Encodable mutation
  event : ∀ mutation ∈ new, mutation.event?.isSome
  memory : Forgets (env.Dead world.readings) world.view (replay (events new) start)

section Running

variable {env : Env} {start : Store Bytes Record} {new : List Mutation} {world : World}

/-- **Every request keeps the memory in step with what it submits.** -/
theorem Running.serve (running : Running env start new world) {request : Request}
    (free : request.Free env world)
    (sized : ∀ mutation ∈ submitted env world request, Sized mutation) :
    Running env start (new ++ submitted env world request) (worldAfter env world request) where
  proper := worldAfter_proper running.proper free
  encodable := by
    intro mutation member
    rcases List.mem_append.mp member with old | added
    · exact running.encodable mutation old
    · exact (submitted_loggable running.proper free mutation added).2 (sized mutation added)
  event := by
    intro mutation member
    rcases List.mem_append.mp member with old | added
    · exact running.event mutation old
    · exact (submitted_loggable running.proper free mutation added).1
  memory := by
    have later : world.readings ≤ (worldAfter env world request).readings :=
      worldAfter_readings request
    rw [events_append, replay_append]
    exact (worldAfter_view running.proper free).trans
      ((running.memory.replay _).mono fun record dead => dead.mono later)

end Running

/-! ### The invariant of a run -/

/-- **The log file is the log, and the memory is its replay**, up to records that had expired at a
reading of the clock. The snapshot, if there is one, holds records the log has put. -/
structure Durable (env : Env) (base : Bytes) (log : List Mutation) (node : Node) : Prop where
  unlimited : node.world.Unlimited
  proper : ProperStore node.world.view
  file : Single base (encodeBatch log) node.disk.wal
  encodable : ∀ mutation ∈ log, Encodable mutation
  event : ∀ mutation ∈ log, mutation.event?.isSome
  memory : Forgets (env.Dead node.world.readings) node.world.view
    (replay (events log) fun _ => none)
  snapshot : ∀ content, node.disk.snapshot = some content → ∃ records,
    content = encodeSnapshot records ∧ ∀ entry ∈ records, Event.put entry.1 entry.2 ∈ events log

theorem Durable.start (env : Env) (base : Bytes) : Durable env base [] (Node.start base) where
  unlimited := rfl
  proper := fun key record held => by
    rw [show (Node.start base).world.view key = none from Std.ExtTreeMap.getElem?_empty] at held
    cases held
  file := (noChain_empty base).openAppend
  encodable := fun _ member => by cases member
  event := fun _ member => by cases member
  memory := fun key => Or.inl Std.ExtTreeMap.getElem?_empty
  snapshot := fun _ stored => by cases stored

/-- The memory of a server whose log has been complete from the start. -/
theorem Durable.running {env : Env} {base : Bytes} {log : List Mutation} {node : Node}
    (durable : Durable env base log node) : Running env (fun _ => none) log node.world where
  proper := durable.proper
  encodable := durable.encodable
  event := durable.event
  memory := durable.memory

/-- **Every request keeps the invariant.** -/
theorem Durable.serve {env : Env} {base : Bytes} {log : List Mutation} {node : Node}
    (durable : Durable env base log node) (lister : Lister) (request : Request)
    (sized : ∀ mutation ∈ submitted env node.world request, Sized mutation) :
    Durable env base (log ++ submitted env node.world request)
      (serve env lister base node request) := by
  have running := durable.running.serve (request.free_of_unlimited durable.unlimited) sized
  refine ⟨worldAfter_unlimited durable.unlimited request, running.proper, ?_, running.encodable,
    running.event, running.memory, fun content stored => ?_⟩
  · rw [encodeBatch_append]
    exact durable.file.append lister _
  · -- A snapshot that stays holds what the log had put before the request.
    have older : node.disk.snapshot = some content → ∃ records, content = encodeSnapshot records ∧
        ∀ entry ∈ records,
          Event.put entry.1 entry.2 ∈ events (log ++ submitted env node.world request) := by
      intro stored
      obtain ⟨records, same, put⟩ := durable.snapshot content stored
      refine ⟨records, same, fun entry member => ?_⟩
      rw [events_append]
      exact List.mem_append_left _ (put entry member)
    cases request with
    | command command => exact older stored
    | flushAll => exact older stored
    | takeSnapshot =>
      refine ⟨_, (Option.some.inj stored).symm, fun entry member => ?_⟩
      have held := (exec_dumpAllLiveRecords env node.world).2 entry member
      rw [events_append]
      exact List.mem_append_left _ (put_mem_of_replay (durable.memory.of_kept held))

/-- **Every run keeps the invariant.** -/
theorem Durable.serveAll {env : Env} {base : Bytes} {log : List Mutation} {node : Node}
    (durable : Durable env base log node) (lister : Lister) (requests : List Request)
    (sized : ∀ mutation ∈ runLog env lister base requests node, Sized mutation) :
    Durable env base (log ++ runLog env lister base requests node)
      (serveAll env lister base requests node) := by
  induction requests generalizing log node with
  | nil =>
    rw [runLog, List.append_nil]
    exact durable
  | cons request requests ih =>
    have first := durable.serve lister request
      fun mutation member => sized mutation (List.mem_append_left _ member)
    have later := ih first fun mutation member => sized mutation (List.mem_append_right _ member)
    rw [List.append_assoc] at later
    exact later

/-! ### Restart -/

/-- The records of a log fit a snapshot. -/
theorem Durable.decodeSnapshot {env : Env} {base : Bytes} {log : List Mutation} {node : Node}
    (durable : Durable env base log node) {content : Bytes}
    (stored : node.disk.snapshot = some content) :
    ∃ records, decodeSnapshot content = some records ∧
      ∀ entry ∈ records, ∃ event ∈ events log, event.Mentions entry.1 := by
  obtain ⟨records, rfl, put⟩ := durable.snapshot content stored
  have fits : ∀ entry ∈ records, entry.1.length < 2 ^ 32 ∧ entry.2.value.WellFormed ∧
      Record.Sized entry.2 := by
    intro entry member
    obtain ⟨mutation, logged, found⟩ := List.mem_filterMap.mp (put entry member)
    obtain ⟨key, record⟩ := Mutation.of_event_put found
    have encodable := durable.encodable mutation logged
    refine ⟨?_, (encodable.record entry.2 record).2⟩
    rw [← key]
    exact encodable.key
  refine ⟨_, decodeSnapshot_encode fits, fun entry member => ?_⟩
  exact ⟨_, put entry (List.mem_of_mem_take member), rfl⟩

/-- The records that have not expired at a time. -/
def liveAt (time : Int64) (store : Store Bytes Record) : Store Bytes Record :=
  living (fun record => !isExpired record time) store

/-- Records dropped as expired by the clock readings so far are not live at any later time. -/
theorem Forgets.liveAt_eq {env : Env} {readings : Nat} {kept full : Store Bytes Record}
    (forgets : Forgets (env.Dead readings) kept full) {time : Int64}
    (later : ∀ reading < readings, env.now reading ≤ time) :
    liveAt time kept = liveAt time full := by
  refine Forgets.living_eq (forgets.mono fun record dead => ?_)
  obtain ⟨reading, past, expired⟩ := dead
  rw [isExpired_mono (later reading past) expired]
  rfl

/-- **Durability.** After any run of requests from an empty server, recovery into an empty engine
succeeds, and at every time not before the end of the run it has the live records of the running
engine. -/
theorem recoverInto_serveAll (env : Env) (lister : Lister) (base : Bytes) (requests : List Request)
    (sized : ∀ mutation ∈ runLog env lister base requests (Node.start base), Sized mutation)
    (env' : Env) (lister' : Lister) (fresh : World) (empty : fresh.backend.map = ∅) :
    let node := serveAll env lister base requests (Node.start base)
    let recovered := env'.exec (recoverInto lister' base node.disk) fresh
    recovered.1 = true ∧
      ∀ time, (∀ reading < node.world.readings, env.now reading ≤ time) →
        liveAt time recovered.2.view = liveAt time node.world.view := by
  intro node recovered
  have durable : Durable env base (runLog env lister base requests (Node.start base)) node :=
    (Durable.start env base).serveAll lister requests sized
  have nothing : fresh.view = fun _ => none := by
    funext key
    rw [World.view, empty]
    exact Std.ExtTreeMap.getElem?_empty
  have read : readChain lister' base node.disk.wal =
      some (runLog env lister base requests (Node.start base)) := by
    rw [durable.file.readChain lister', readAllMutations_eq,
      decodeEntries_encode durable.encodable]
  obtain ⟨done, view⟩ : recovered.1 = true ∧ recovered.2.view = _ :=
    exec_recoverInto nothing durable.file.mem_base read durable.event
      fun content stored => durable.decodeSnapshot stored
  refine ⟨done, fun time later => ?_⟩
  rw [view]
  exact (Forgets.liveAt_eq durable.memory later).symm

/-- A string, a snapshot and a list created after it. -/
theorem recoverInto_serveAll_three :
    let requests := [.command (.set [107] [118]), .takeSnapshot, .command (.lpush [108] [[1]])]
    let node := serveAll (Env.still 0) Lister.sorted [119] requests (Node.start [119])
    let recovered := (Env.still 0).exec (recoverInto Lister.sorted [119] node.disk) {}
    recovered.1 = true ∧ liveAt 0 recovered.2.view = liveAt 0 node.world.view := by
  have log : runLog (Env.still 0) Lister.sorted [119]
      [.command (.set [107] [118]), .takeSnapshot, .command (.lpush [108] [[1]])]
      (Node.start [119]) =
      [.put [107] { value := .ofString [118] } 0, .put [108] { value := .blank .list } 0,
        .put [108] { value := { DataValue.blank .list with listValue := [[1]] } } 0] := by
    decide +kernel
  have recovery := recoverInto_serveAll (Env.still 0) Lister.sorted [119]
    [.command (.set [107] [118]), .takeSnapshot, .command (.lpush [108] [[1]])] ?_ (Env.still 0)
    Lister.sorted {} rfl
  · exact ⟨recovery.1, recovery.2 0 fun _ _ => Int64.le_refl _⟩
  · intro mutation member
    rw [log] at member
    simp only [List.mem_cons, List.not_mem_nil, or_false] at member
    rcases member with rfl | rfl | rfl
    all_goals
      refine ⟨by decide, fun record held => ?_⟩
      obtain rfl := Option.some.inj held
      show _ < _
      decide +kernel

end SunKV.Persistence
