/-
**Sessions of the server that end in a clean shutdown.**

An `Uptime` starts with recovery into an empty engine, serves requests with the log switched on or
off, and ends with a snapshot and a `flush`. The log file is never truncated, and the next start
replays it whole on top of the snapshot, whatever has happened since its last entry.

* `exec_dumpAllLiveRecords_exact` — a snapshot holds exactly the records the pass leaves.
* `Tracks` — during an uptime the memory is the recovered store after the mutations since, up to
  expired records; `Settled` — after a shutdown it is what the files recover to.
* `Uptime.run_file` — at the end the log file has all mutations of an uptime with the log on: at
  once, or through the queue if its consumers do not get in each other's way.
* `restart_recovers` — a start brings back the live records of the last shutdown, if no write that
  was served while the log was off is about a key the log mentions.
* `stale_log` — otherwise an old entry of the log comes back.
-/

import SunKV.Lib.Finite
import SunKV.Concurrency.AsyncQueue
import SunKV.Persistence.Durability
import SunKV.Persistence.Idempotence
import SunKV.Persistence.Sessions

namespace SunKV.Persistence

open SunKV.Lib SunKV.Storage SunKV.Concurrency

/-! ### Uptimes -/

/-- How the threads of an asynchronous log take turns. -/
structure Schedule where
  options : QueueOptions := {}
  steps : List QueueStep

/-- What the consumers of the queue have appended to the log when the process ends. -/
def Schedule.written (schedule : Schedule) : Bytes :=
  ((Pipeline.run schedule.options schedule.steps {}).getD {}).wal

/-- One session of the server, with its configuration: `walAsync` has the schedule of an
asynchronous log. -/
structure Uptime where
  enableWal : Bool
  walAsync : Option Schedule := none
  maxStorageBytes : UInt64 := 0
  requests : List Request

/-- The files once `createStorage2` has run: with the log on, its writer is open. -/
def openFiles (base : Bytes) (enableWal : Bool) (disk : Disk) : Disk :=
  if enableWal then { disk with wal := openAppend base disk.wal } else disk

/-- `initializeStorage`: recovery into an empty engine, on the files of the last session. -/
def startUp (env : Env) (lister : Lister) (base : Bytes) (enableWal : Bool)
    (maxStorageBytes : UInt64) (last : Node) : Bool × Node :=
  let disk := openFiles base enableWal last.disk
  let recovered := env.exec (recoverInto lister base disk)
    { backend := { maxStorageBytes := maxStorageBytes }, readings := last.world.readings }
  (recovered.1, { world := recovered.2, disk := disk })

/-- One request; `appends` says whether its batch goes to the log file before the reply. -/
def serveWith (env : Env) (lister : Lister) (base : Bytes) (appends : Bool) (node : Node)
    (request : Request) : Node :=
  let served := serve env lister base node request
  if appends then served
  else { served with disk := { served.disk with wal := node.disk.wal } }

section Uptime

variable (env : Env) (lister : Lister) (base : Bytes) (uptime : Uptime)

/-- The log is on, and `submit` is synchronous. -/
def Uptime.appends : Bool := uptime.enableWal && uptime.walAsync.isNone

/-- The node an uptime starts with. -/
def Uptime.started (last : Node) : Node :=
  (startUp env lister base uptime.enableWal uptime.maxStorageBytes last).2

/-- The node before the shutdown of an uptime. -/
def Uptime.served (last : Node) : Node :=
  uptime.requests.foldl (serveWith env lister base uptime.appends)
    (uptime.started env lister base last)

/-- `flush`, and the destructor after it: an asynchronous log gets what went through the queue. The
file is not read before the next start, so it does not matter when a consumer wrote. -/
def Uptime.flush (disk : Disk) : Disk :=
  match uptime.walAsync with
  | none => disk
  | some schedule =>
    if uptime.enableWal then
      { disk with wal := appendBytes lister base 0 disk.wal schedule.written }
    else disk

/-- `gracefulShutdown`: the last snapshot, then the log. -/
def Uptime.shutDown (node : Node) : Node :=
  let snapped := serveWith env lister base uptime.appends node .takeSnapshot
  { snapped with disk := uptime.flush lister base snapped.disk }

/-- **One uptime**, from the shutdown before to its own. -/
def Uptime.run (last : Node) : Node :=
  uptime.shutDown env lister base (uptime.served env lister base last)

end Uptime

/-- No engine yet, and no files. -/
def Node.blank : Node where
  world := {}
  disk := { snapshot := none, wal := ∅ }

/-- The last shutdown of a list of uptimes. -/
def runUptimes (env : Env) (lister : Lister) (base : Bytes) (uptimes : List Uptime) : Node :=
  uptimes.foldl (fun last uptime => uptime.run env lister base last) Node.blank

/-- The engine after a list of requests. -/
def worldAfterAll (env : Env) (requests : List Request) (world : World) : World :=
  requests.foldl (worldAfter env) world

/-- All mutations of a list of requests. -/
def submittedAll (env : Env) : List Request → World → List Mutation
  | [], _ => []
  | request :: requests, world =>
    submitted env world request ++ submittedAll env requests (worldAfter env world request)

/-- The storage limit leaves no request stranded. -/
def FreeAll (env : Env) : List Request → World → Prop
  | [], _ => True
  | request :: requests, world =>
    request.Free env world ∧ FreeAll env requests (worldAfter env world request)

/-- What the log file holds. -/
def logOf (lister : Lister) (base : Bytes) (disk : Disk) : List Mutation :=
  (readChain lister base disk.wal).getD []

/-- The request only looks, or is about no key that the log mentions. -/
def Request.Spares (log : List Mutation) : Request → Prop
  | .command issued => issued.reads = true ∨
      ∀ key, issued.key? = some key → ∀ event ∈ events log, ¬ event.Mentions key
  | .flushAll => events log = []
  | .takeSnapshot => True

/-- **The schedule takes these mutations to the log**: they enter the queue in this order, no
consumer takes the queue while another still holds buffers, and in the end nothing is queued and
nothing held. -/
def Schedule.Carries (schedule : Schedule) (mutations : List Mutation) : Prop :=
  Exclusive schedule.options schedule.steps {} ∧
    ∃ final, Pipeline.run schedule.options schedule.steps {} = some final ∧
      final.submitted.flatten = mutations ∧ final.queue = [] ∧
      ∀ consumer, final.unwritten consumer = []

/-- **What an uptime has to keep to**, given the shutdown before it: keys, records and snapshots of
a size the formats can carry, no request that the limit leaves stranded, the log off only for reads
and for keys it does not mention, and an asynchronous log whose consumers keep out of each other's
way. -/
structure Uptime.Sound (env : Env) (lister : Lister) (base : Bytes) (uptime : Uptime)
    (last : Node) : Prop where
  sized : ∀ mutation ∈ submittedAll env uptime.requests
    (uptime.started env lister base last).world, Sized mutation
  free : FreeAll env uptime.requests (uptime.started env lister base last).world
  few : (uptime.served env lister base last).world.backend.map.size < 2 ^ 32
  spares : uptime.enableWal = false →
    ∀ request ∈ uptime.requests, request.Spares (logOf lister base last.disk)
  queue : uptime.enableWal = true → ∀ schedule, uptime.walAsync = some schedule →
    schedule.Carries
      (submittedAll env uptime.requests (uptime.started env lister base last).world)

/-! ### The snapshot is the store -/

/-- Records under other keys do not matter to a key. -/
theorem replay_puts_of_not_mem {records : List (Bytes × Record)} {key : Bytes}
    (apart : ∀ entry ∈ records, entry.1 ≠ key) (store : Store Bytes Record) :
    replay (puts records) store key = store key := by
  refine replay_of_not_mentions _ (fun event member mentions => ?_) store
  obtain ⟨entry, stored, rfl⟩ := List.mem_map.mp member
  exact apart entry stored mentions

/-- A pass over distinct keys dumps what it leaves under them, and leaves the other keys alone. -/
theorem exec_dumpRecords_exact (env : Env) {keys : List Bytes} (nodup : keys.Nodup)
    (world : World) :
    let ran := env.exec (dumpRecords keys) world
    (∀ entry ∈ ran.1, entry.1 ∈ keys) ∧ ran.1.length ≤ keys.length ∧
      ∀ key, ran.2.view key =
        if key ∈ keys then replay (puts ran.1) (fun _ => none) key else world.view key := by
  induction keys generalizing world with
  | nil => exact ⟨fun entry member => (List.not_mem_nil member).elim, le_rfl, fun key => rfl⟩
  | cons key keys ih =>
    obtain ⟨new, nodup⟩ := List.nodup_cons.mp nodup
    -- A key without a live record adds nothing to the dump.
    have skipped : ∀ start : World, start.view key = none →
        (∀ other, other ≠ key → start.view other = world.view other) →
        let ran := env.exec (dumpRecords keys) start
        (∀ entry ∈ ran.1, entry.1 ∈ key :: keys) ∧ ran.1.length ≤ (key :: keys).length ∧
          ∀ other, ran.2.view other = if other ∈ key :: keys then
            replay (puts ran.1) (fun _ => none) other else world.view other := by
      intro start gone same ran
      obtain ⟨inside, short, view⟩ := ih nodup start
      refine ⟨fun entry member => List.mem_cons_of_mem _ (inside entry member),
        short.trans (Nat.le_succ _), fun other => ?_⟩
      rw [view other]
      by_cases here : other = key
      · subst here
        have silent : ∀ entry ∈ (env.exec (dumpRecords keys) start).1, entry.1 ≠ other := by
          rintro entry member rfl
          exact new (inside entry member)
        rw [if_neg new, if_pos List.mem_cons_self, gone, replay_puts_of_not_mem silent]
      · simp only [List.mem_cons, here, false_or, same other here]
        rfl
    rw [dumpRecords]
    rcases live_cases env world key with missing | ⟨record, held, expired⟩ | ⟨record, held, alive⟩
    · simp only [Env.exec_bind, exec_getLive_absent missing, Env.exec_pure]
      exact skipped world missing fun _ _ => rfl
    · simp only [Env.exec_bind, exec_getLive_expired held expired, Env.exec_pure]
      refine skipped (world.tick.drop key) ?_ fun other apart => ?_
      · rw [World.drop_view, Event.apply, Function.update_self]
      · rw [World.drop_view, Event.apply, Function.update_of_ne apart, World.tick_view]
    · simp only [Env.exec_bind, exec_getLive_live held alive, Env.exec_pure]
      obtain ⟨inside, short, view⟩ := ih nodup world.tick
      refine ⟨fun entry member => ?_, Nat.succ_le_succ short, fun other => ?_⟩
      · rcases List.mem_cons.mp member with rfl | member
        · exact List.mem_cons_self
        · exact List.mem_cons_of_mem _ (inside entry member)
      · rw [view other]
        by_cases here : other = key
        · subst here
          have silent : ∀ entry ∈ (env.exec (dumpRecords keys) world.tick).1, entry.1 ≠ other := by
            rintro entry member rfl
            exact new (inside entry member)
          rw [if_neg new, if_pos List.mem_cons_self, World.tick_view, held]
          refine Eq.symm ((replay_puts_of_not_mem silent _).trans ?_)
          rw [Event.apply, Function.update_self]
        · have before : (Event.put key record).apply (fun _ => none) other = none := by
            rw [Event.apply, Function.update_of_ne here]
          simp only [List.mem_cons, here, false_or, World.tick_view]
          refine if_congr Iff.rfl ?_ rfl
          exact (replay_congr _ before).symm

/-- **A snapshot holds exactly the records the pass leaves**, and no more than there were. -/
theorem exec_dumpAllLiveRecords_exact (env : Env) (world : World) :
    let ran := env.exec dumpAllLiveRecords world
    ran.2.view = replay (puts ran.1) (fun _ => none) ∧
      ran.1.length ≤ world.backend.map.size := by
  intro ran
  have perm := env.order_perm world.readings world.backend.keys
  have nodup : (env.order world.readings world.backend.keys).Nodup :=
    perm.nodup_iff.mpr (nodup_keys world.backend.map)
  obtain ⟨inside, short, view⟩ := exec_dumpRecords_exact env nodup world.tick
  refine ⟨?_, short.trans (by rw [perm.length_eq]; exact Std.ExtTreeMap.length_keys.le)⟩
  funext key
  refine (view key).trans ?_
  split
  case isTrue => rfl
  case isFalse absent =>
    have missing : key ∉ world.backend.map := fun found =>
      absent (perm.mem_iff.mpr (Std.ExtTreeMap.mem_keys.mpr found))
    have silent : ∀ entry ∈ ran.1, entry.1 ≠ key := by
      rintro entry member rfl
      exact absent (inside entry member)
    rw [World.tick_view, replay_puts_of_not_mem silent]
    exact Std.ExtTreeMap.getElem?_eq_none missing

/-! ### The memory during an uptime -/

/-- `Running`, and the mutations since the start leave nothing improper behind. -/
structure Tracks (env : Env) (start : Store Bytes Record) (new : List Mutation) (world : World) :
    Prop extends Running env start new world where
  full : ProperStore (replay (events new) start)

section Tracks

variable {env : Env} {start : Store Bytes Record} {log new : List Mutation} {world : World}
  {request : Request} {requests : List Request}

/-- One request adds what it submits. -/
theorem Tracks.serve (tracks : Tracks env start new world) (free : request.Free env world)
    (sized : ∀ mutation ∈ submitted env world request, Sized mutation) :
    Tracks env start (new ++ submitted env world request) (worldAfter env world request) where
  toRunning := tracks.toRunning.serve free sized
  full := by
    rw [events_append, replay_append]
    exact submitted_proper tracks.proper free tracks.full

/-- **Every list of requests adds what it submits.** -/
theorem Tracks.serveAll (tracks : Tracks env start new world)
    (free : FreeAll env requests world)
    (sized : ∀ mutation ∈ submittedAll env requests world, Sized mutation) :
    Tracks env start (new ++ submittedAll env requests world)
      (worldAfterAll env requests world) := by
  induction requests generalizing new world with
  | nil =>
    rw [submittedAll, List.append_nil]
    exact tracks
  | cons request requests ih =>
    have first := tracks.serve free.1
      fun mutation member => sized mutation (List.mem_append_left _ member)
    have later := ih first free.2
      fun mutation member => sized mutation (List.mem_append_right _ member)
    rw [List.append_assoc] at later
    exact later

/-- A command that only looks adds nothing, although it may submit the removal of an expired
record. -/
theorem Tracks.look (tracks : Tracks env start new world) {issued : Command}
    (reads : issued.reads = true) :
    Tracks env start new (worldAfter env world (.command issued)) := by
  have looked := issued.forgets_of_reads env world reads
  have later : world.readings ≤ (worldAfter env world (.command issued)).readings :=
    worldAfter_readings _
  refine ⟨⟨?_, tracks.encodable, tracks.event, ?_⟩, tracks.full⟩
  · exact fun key record held => tracks.proper key record (looked.of_kept held)
  · exact looked.trans (tracks.memory.mono fun record dead => dead.mono later)

/-- A command about other keys submits nothing about a key of the log. -/
theorem apart_submitted {issued : Command} (proper : ProperStore world.view)
    (free : (Request.command issued).Free env world)
    (avoids : ∀ key, issued.key? = some key → ∀ event ∈ events log, ¬ event.Mentions key) :
    Apart (events log) (events (submitted env world (.command issued))) := by
  rintro key ⟨event, logged, mentions⟩ other member
  obtain ⟨mutation, inBatch, stands⟩ := List.mem_filterMap.mp member
  cases about : issued.key? with
  | none =>
    have silent : submitted env world (.command issued) = [] := by
      cases issued with
      | dbsize => rfl
      | keys => rfl
      | _ => cases about
    rw [silent] at inBatch
    cases inBatch
  | some own =>
    have apart : ¬ own = key := fun same => avoids own about event logged (same ▸ mentions)
    have shape := (issued.settles proper free).2
    rw [about] at shape
    rcases shape.mem inBatch with ⟨ts, rfl⟩ | ⟨record, ts, -, rfl⟩
    · obtain rfl := Option.some.inj stands
      exact apart
    · obtain rfl := Option.some.inj stands
      exact apart

/-- **A request that spares the log adds mutations about other keys only.** -/
theorem Tracks.spare (tracks : Tracks env start new world) (free : request.Free env world)
    (sized : ∀ mutation ∈ submitted env world request, Sized mutation)
    (spares : request.Spares log) (apart : Apart (events log) (events new)) :
    ∃ new', Tracks env start new' (worldAfter env world request) ∧
      Apart (events log) (events new') := by
  have added (first : Apart (events log) (events (submitted env world request))) :
      Apart (events log) (events (new ++ submitted env world request)) := by
    intro key mentioned event member
    rw [events_append] at member
    rcases List.mem_append.mp member with old | fresh
    · exact apart key mentioned event old
    · exact first key mentioned event fresh
  have served := tracks.serve free sized
  cases request with
  | command issued =>
    rcases spares with reads | avoids
    · exact ⟨new, tracks.look reads, apart⟩
    · exact ⟨_, served, added (apart_submitted tracks.proper free avoids)⟩
  | flushAll =>
    refine ⟨_, served, added ?_⟩
    rintro key ⟨event, logged, -⟩
    rw [show events log = [] from spares] at logged
    cases logged
  | takeSnapshot => exact ⟨_, served, added fun key _ event member => by cases member⟩

theorem Tracks.spareAll (tracks : Tracks env start new world) (free : FreeAll env requests world)
    (sized : ∀ mutation ∈ submittedAll env requests world, Sized mutation)
    (spares : ∀ request ∈ requests, request.Spares log) (apart : Apart (events log) (events new)) :
    ∃ new', Tracks env start new' (worldAfterAll env requests world) ∧
      Apart (events log) (events new') := by
  induction requests generalizing new world with
  | nil => exact ⟨new, tracks, apart⟩
  | cons request requests ih =>
    obtain ⟨next, first, stillApart⟩ := tracks.spare free.1
      (fun mutation member => sized mutation (List.mem_append_left _ member))
      (spares request List.mem_cons_self) apart
    exact ih first free.2 (fun mutation member => sized mutation (List.mem_append_right _ member))
      (fun other inside => spares other (List.mem_cons_of_mem _ inside)) stillApart

end Tracks

/-! ### The log file at the end of an uptime -/

/-- **What the consumers have written is the encoding of all that was submitted.** -/
theorem Schedule.Carries.written {schedule : Schedule} {mutations : List Mutation}
    (carries : schedule.Carries mutations) : schedule.written = encodeBatch mutations := by
  obtain ⟨exclusive, final, ran, submitted, drained, done⟩ := carries
  obtain ⟨written, holder, chunks, intact⟩ := Intact.initial.run exclusive ran
  have nothing : chunks = [] := List.map_eq_nil_iff.mp (intact.holds.symm.trans (done holder))
  have all : mutations = written := by
    rw [← submitted, intact.order, nothing, drained, List.flatten_nil, List.append_nil,
      List.append_nil]
  rw [Schedule.written, ran, Option.getD_some, intact.wal, all]

section Files

variable {env : Env} {lister : Lister} {base : Bytes} {log : List Mutation} {node : Node}

theorem serveWith_world (appends : Bool) (request : Request) :
    (serveWith env lister base appends node request).world =
      worldAfter env node.world request := by
  cases appends with
  | true => rfl
  | false => rfl

theorem foldl_serveWith_world (appends : Bool) (requests : List Request) :
    (requests.foldl (serveWith env lister base appends) node).world =
      worldAfterAll env requests node.world := by
  induction requests generalizing node with
  | nil => rfl
  | cons request requests ih =>
    rw [List.foldl_cons, ih, serveWith_world]
    rfl

/-- Without appends the log file stays. -/
theorem foldl_serveWith_wal (requests : List Request) :
    (requests.foldl (serveWith env lister base false) node).disk.wal = node.disk.wal := by
  induction requests generalizing node with
  | nil => rfl
  | cons request requests ih => exact ih

/-- With them it has the batches of all requests. -/
theorem foldl_serveWith_single (single : Single base (encodeBatch log) node.disk.wal)
    (requests : List Request) :
    Single base (encodeBatch (log ++ submittedAll env requests node.world))
      (requests.foldl (serveWith env lister base true) node).disk.wal := by
  induction requests generalizing log node with
  | nil =>
    rw [submittedAll, List.append_nil]
    exact single
  | cons request requests ih =>
    have first : Single base (encodeBatch (log ++ submitted env node.world request))
        (serveWith env lister base true node request).disk.wal := by
      rw [encodeBatch_append]
      exact single.append lister _
    rw [submittedAll, ← List.append_assoc]
    exact ih first

/-- The mutations of an uptime that reach the log file. -/
def Uptime.logged (env : Env) (uptime : Uptime) (world : World) : List Mutation :=
  if uptime.enableWal then submittedAll env uptime.requests world else []

/-- **The log file at the end of an uptime**: with the log on, it has all mutations since. -/
theorem Uptime.run_file {uptime : Uptime} (sound : uptime.Sound env lister base node)
    (file : Holds base (encodeBatch log) node.disk.wal) :
    Holds base
      (encodeBatch (log ++ uptime.logged env (uptime.started env lister base node).world))
      (uptime.run env lister base node).disk.wal := by
  obtain ⟨enableWal, walAsync, maxStorageBytes, requests⟩ := uptime
  cases enableWal with
  | false =>
    have same : (Uptime.run env lister base ⟨false, walAsync, maxStorageBytes, requests⟩
        node).disk.wal = node.disk.wal := by
      cases walAsync with
      | none => exact foldl_serveWith_wal requests
      | some schedule => exact foldl_serveWith_wal requests
    rw [same, Uptime.logged, if_neg Bool.false_ne_true, List.append_nil]
    exact file
  | true =>
    have opened := file.openAppend
    cases walAsync with
    | none => exact .inl (foldl_serveWith_single opened requests)
    | some schedule =>
      have written := (sound.queue rfl schedule rfl).written
      refine .inl ?_
      have still : Single base (encodeBatch log) (Uptime.served env lister base
          ⟨true, some schedule, maxStorageBytes, requests⟩ node).disk.wal := by
        rw [Uptime.served, show Uptime.appends ⟨true, some schedule, maxStorageBytes, requests⟩ =
          false from rfl, foldl_serveWith_wal]
        exact opened
      rw [Uptime.logged, if_pos rfl, encodeBatch_append, ← written]
      exact still.appendBytes lister schedule.written

end Files

/-! ### Between uptimes -/

/-- What the files recover to. -/
def recovers (log : List Mutation) (records : List (Bytes × Record)) : Store Bytes Record :=
  replay (events log) (replay (puts records) fun _ => none)

/-- The snapshot format can carry the record under the key. -/
def Fits (key : Bytes) (record : Record) : Prop :=
  key.length < 2 ^ 32 ∧ record.value.WellFormed ∧ Record.Sized record

/-- **After a shutdown the memory is what the files recover to**, up to expired records. -/
structure Settled (env : Env) (base : Bytes) (log : List Mutation)
    (records : List (Bytes × Record)) (node : Node) : Prop where
  file : Holds base (encodeBatch log) node.disk.wal
  encodable : ∀ mutation ∈ log, Encodable mutation
  event : ∀ mutation ∈ log, mutation.event?.isSome
  snapshot : (node.disk.snapshot = none ∧ records = []) ∨
    node.disk.snapshot = some (encodeSnapshot records)
  few : records.length < 2 ^ 32
  fits : ∀ entry ∈ records, Fits entry.1 entry.2
  proper : ProperStore (recovers log records)
  memory : Forgets (env.Dead node.world.readings) node.world.view (recovers log records)

theorem Settled.blank (env : Env) (base : Bytes) : Settled env base [] [] Node.blank where
  file := .inr ⟨rfl, noChain_empty base⟩
  encodable := fun _ member => (List.not_mem_nil member).elim
  event := fun _ member => (List.not_mem_nil member).elim
  snapshot := .inl ⟨rfl, rfl⟩
  few := by decide
  fits := fun _ member => (List.not_mem_nil member).elim
  proper := fun _ _ found => (Option.some_ne_none _ found.symm).elim
  memory := Forgets.refl _ _

/-- The log file gives back the log. -/
theorem Holds.readLog {base : Bytes} {log : List Mutation} {directory : Directory}
    (holds : Holds base (encodeBatch log) directory)
    (encodable : ∀ mutation ∈ log, Encodable mutation) (lister : Lister) :
    Persistence.readChain lister base directory = some log := by
  rw [holds.readChain lister, readAllMutations_eq, decodeEntries_encode encodable]

/-- Without a log file there is no log. -/
theorem Holds.log_eq_nil {base : Bytes} {log : List Mutation} {directory : Directory}
    (holds : Holds base (encodeBatch log) directory)
    (encodable : ∀ mutation ∈ log, Encodable mutation) (missing : base ∉ directory) :
    log = [] := by
  rcases holds with single | ⟨empty, -⟩
  · exact absurd single.mem_base missing
  · have decoded := decodeEntries_encode encodable
    rw [empty, decodeEntries_nil] at decoded
    exact (congrArg Prod.fst decoded).symm

/-- What was put is of a size the formats can carry. -/
theorem fits_of_put {log : List Mutation} (encodable : ∀ mutation ∈ log, Encodable mutation)
    {key : Bytes} {record : Record} (put : Event.put key record ∈ events log) :
    Fits key record := by
  obtain ⟨mutation, logged, found⟩ := List.mem_filterMap.mp put
  obtain ⟨same, stored⟩ := Mutation.of_event_put found
  have fine := encodable mutation logged
  exact ⟨same ▸ fine.key, (fine.record record stored).2⟩

section Settled

variable {env : Env} {base : Bytes} {log : List Mutation} {records : List (Bytes × Record)}
  {node : Node}

theorem Settled.fits_recovers (settled : Settled env base log records node) {key : Bytes}
    {record : Record} (found : recovers log records key = some record) : Fits key record := by
  rcases held_of_replay found with put | stored
  · exact fits_of_put settled.encodable put
  · obtain ⟨entry, member, same⟩ := List.mem_map.mp (put_mem_of_replay stored)
    obtain ⟨rfl, rfl⟩ := Event.put.inj same
    exact settled.fits entry member

theorem Settled.decodeSnapshot (settled : Settled env base log records node) :
    Persistence.decodeSnapshot (encodeSnapshot records) = some records := by
  rw [decodeSnapshot_encode settled.fits, Nat.mod_eq_of_lt settled.few, List.take_length]

theorem openFiles_snapshot (base : Bytes) (enableWal : Bool) (disk : Disk) :
    (openFiles base enableWal disk).snapshot = disk.snapshot := by
  cases enableWal <;> rfl

theorem Settled.openFiles (settled : Settled env base log records node) (enableWal : Bool) :
    Holds base (encodeBatch log) (Persistence.openFiles base enableWal node.disk).wal := by
  cases enableWal with
  | true => exact .inl settled.file.openAppend
  | false => exact settled.file

theorem Settled.readable (settled : Settled env base log records node) (lister : Lister)
    (enableWal : Bool) : (Persistence.openFiles base enableWal node.disk).Readable lister base := by
  refine ⟨fun content stored => ?_, fun _ =>
    ⟨log, (settled.openFiles enableWal).readLog settled.encodable lister, settled.event⟩⟩
  rw [openFiles_snapshot] at stored
  rcases settled.snapshot with ⟨none, -⟩ | some
  · rw [none] at stored
    cases stored
  · rw [some] at stored
    obtain rfl := Option.some.inj stored
    rw [settled.decodeSnapshot]
    rfl

/-- **The events of the files lead to what they recover to.** -/
theorem Settled.replay_files (settled : Settled env base log records node) (lister : Lister)
    (enableWal : Bool) :
    replay (snapshotEvents (Persistence.openFiles base enableWal node.disk).snapshot ++
      logEvents lister base (Persistence.openFiles base enableWal node.disk).wal)
      (fun _ => none) = recovers log records := by
  have file := settled.openFiles enableWal
  have logged : logEvents lister base (Persistence.openFiles base enableWal node.disk).wal =
      events log := by
    unfold logEvents
    split
    case isTrue => rw [file.readLog settled.encodable lister, Option.getD_some]
    case isFalse missing => rw [file.log_eq_nil settled.encodable missing, events_nil]
  rw [replay_append, logged, openFiles_snapshot, recovers]
  rcases settled.snapshot with ⟨none, rfl⟩ | some
  · rw [none]
    rfl
  · rw [some, snapshotEvents, Option.bind_some, settled.decodeSnapshot]
    rfl

/-- **A start recovers what the files hold.** -/
theorem Settled.startUp (settled : Settled env base log records node) (lister : Lister)
    (enableWal : Bool) (maxStorageBytes : UInt64) :
    (Persistence.startUp env lister base enableWal maxStorageBytes node).1 = true ∧
      (Persistence.startUp env lister base enableWal maxStorageBytes node).2.world.view =
        recovers log records := by
  let fresh : World :=
    { backend := { maxStorageBytes := maxStorageBytes }, readings := node.world.readings }
  have nothing : fresh.view = fun _ => none := by
    funext key
    exact Std.ExtTreeMap.getElem?_empty
  have performs := performs_recoverInto (settled.readable lister enableWal) env fresh
  refine ⟨performs.returns, performs.view.trans ?_⟩
  rw [nothing, settled.replay_files]

/-- After a start nothing has happened since. -/
theorem Settled.tracks (settled : Settled env base log records node) {world : World}
    (view : world.view = recovers log records) :
    Tracks env (recovers log records) [] world where
  proper := by
    rw [view]
    exact settled.proper
  encodable := fun _ member => (List.not_mem_nil member).elim
  event := fun _ member => (List.not_mem_nil member).elim
  memory := by
    rw [view]
    exact Forgets.refl _ _
  full := settled.proper

/-- Once the log has the mutations since, or does not mention their keys, it leads to the same
record under every key it mentions, whatever the snapshot. -/
theorem recovers_of_mentioned {new log' : List Mutation}
    (covers : log' = log ++ new ∨ log' = log ∧ Apart (events log) (events new)) {key : Bytes}
    (mentioned : ∃ event ∈ events log', event.Mentions key) (dumped : List (Bytes × Record)) :
    recovers log' dumped key = replay (events new) (recovers log records) key := by
  have whatever : recovers log' dumped key = recovers log' records key :=
    replay_of_mentions _ mentioned _ _
  rw [whatever]
  rcases covers with rfl | ⟨rfl, apart⟩
  · rw [recovers, events_append, replay_append, recovers]
  · exact (replay_of_not_mentions _ (apart key mentioned) _).symm

/-- **A last snapshot leaves the memory as the files recover to.** -/
theorem Settled.dump {last : Node} (settled : Settled env base log records last)
    {new log' : List Mutation} {world : World}
    (tracks : Tracks env (recovers log records) new world)
    (few : world.backend.map.size < 2 ^ 32)
    (covers : log' = log ++ new ∨ log' = log ∧ Apart (events log) (events new))
    (left : node.world = (env.exec dumpAllLiveRecords world).2)
    (snapshot : node.disk.snapshot =
      some (encodeSnapshot (env.exec dumpAllLiveRecords world).1))
    (file : Holds base (encodeBatch log') node.disk.wal) :
    Settled env base log' (env.exec dumpAllLiveRecords world).1 node := by
  have free : Request.takeSnapshot.Free env world := trivial
  have shut := tracks.serve free fun _ member => (List.not_mem_nil member).elim
  rw [show submitted env world .takeSnapshot = [] from rfl, List.append_nil,
    show worldAfter env world .takeSnapshot = _ from left.symm] at shut
  obtain ⟨dump, short⟩ := exec_dumpAllLiveRecords_exact env world
  rw [← left] at dump
  have inside : ∀ mutation ∈ log', mutation ∈ log ∨ mutation ∈ new := by
    intro mutation member
    rcases covers with rfl | ⟨rfl, -⟩
    · exact List.mem_append.mp member
    · exact .inl member
  -- Under a key that the log does not mention, the snapshot has what the memory has.
  have silent : ∀ {key}, (¬ ∃ event ∈ events log', event.Mentions key) →
      recovers log' (env.exec dumpAllLiveRecords world).1 key = node.world.view key := by
    intro key none
    rw [dump]
    exact replay_of_not_mentions _ (fun event member mentions => none ⟨event, member, mentions⟩) _
  refine ⟨file, ?_, ?_, .inr snapshot, short.trans_lt few, ?_, ?_, ?_⟩
  · intro mutation member
    rcases inside mutation member with old | added
    · exact settled.encodable mutation old
    · exact tracks.encodable mutation added
  · intro mutation member
    rcases inside mutation member with old | added
    · exact settled.event mutation old
    · exact tracks.event mutation added
  · intro entry member
    have held := tracks.memory.of_kept ((exec_dumpAllLiveRecords env world).2 entry member)
    rcases held_of_replay held with put | before
    · exact fits_of_put tracks.encodable put
    · exact settled.fits_recovers before
  · intro key record found
    by_cases mentioned : ∃ event ∈ events log', event.Mentions key
    · rw [recovers_of_mentioned covers mentioned] at found
      exact tracks.full key record found
    · rw [silent mentioned] at found
      exact shut.proper key record found
  · intro key
    by_cases mentioned : ∃ event ∈ events log', event.Mentions key
    · rw [recovers_of_mentioned covers mentioned]
      exact shut.memory key
    · exact .inl (silent mentioned).symm

end Settled

/-! ### Every list of uptimes -/

/-- Every uptime keeps to what it has to, from the shutdown before it. -/
def SoundAll (env : Env) (lister : Lister) (base : Bytes) : List Uptime → Node → Prop
  | [], _ => True
  | uptime :: uptimes, last =>
    uptime.Sound env lister base last ∧
      SoundAll env lister base uptimes (uptime.run env lister base last)

section Runs

variable {env : Env} {lister : Lister} {base : Bytes} {log : List Mutation}
  {records : List (Bytes × Record)} {node : Node}

theorem Uptime.run_world (uptime : Uptime) :
    (uptime.run env lister base node).world =
      (env.exec dumpAllLiveRecords (uptime.served env lister base node).world).2 :=
  serveWith_world uptime.appends .takeSnapshot

theorem Uptime.run_snapshot (uptime : Uptime) :
    (uptime.run env lister base node).disk.snapshot = some (encodeSnapshot
      (env.exec dumpAllLiveRecords (uptime.served env lister base node).world).1) := by
  rw [Uptime.run, Uptime.shutDown, Uptime.flush, serveWith]
  cases uptime.walAsync with
  | none => cases uptime.appends <;> rfl
  | some schedule => cases uptime.enableWal <;> cases uptime.appends <;> rfl

/-- **During an uptime the log keeps up with the memory, or has nothing to do with it.** -/
theorem Settled.serves (settled : Settled env base log records node) {uptime : Uptime}
    (sound : uptime.Sound env lister base node) :
    ∃ new, Tracks env (recovers log records) new (uptime.served env lister base node).world ∧
      (log ++ uptime.logged env (uptime.started env lister base node).world = log ++ new ∨
        log ++ uptime.logged env (uptime.started env lister base node).world = log ∧
          Apart (events log) (events new)) := by
  have started := settled.tracks
    (settled.startUp lister uptime.enableWal uptime.maxStorageBytes).2
  rw [Uptime.served, foldl_serveWith_world, Uptime.logged]
  cases on : uptime.enableWal with
  | true => exact ⟨_, started.serveAll sound.free sound.sized, .inl rfl⟩
  | false =>
    have written : logOf lister base node.disk = log := by
      rw [logOf, settled.file.readLog settled.encodable lister, Option.getD_some]
    have spares := sound.spares on
    rw [written] at spares
    obtain ⟨new, served, apart⟩ := started.spareAll sound.free sound.sized spares
      fun key _ event member => by cases member
    exact ⟨new, served, .inr ⟨List.append_nil log, apart⟩⟩

/-- **An uptime leaves the memory as the files recover to.** -/
theorem Settled.uptime (settled : Settled env base log records node) {uptime : Uptime}
    (sound : uptime.Sound env lister base node) :
    ∃ log records, Settled env base log records (uptime.run env lister base node) := by
  obtain ⟨new, tracks, covers⟩ := settled.serves sound
  exact ⟨_, _, settled.dump tracks sound.few covers uptime.run_world uptime.run_snapshot
    (Uptime.run_file sound settled.file)⟩

theorem Settled.runUptimes (settled : Settled env base log records node)
    (uptimes : List Uptime) (sound : SoundAll env lister base uptimes node) :
    ∃ log records, Settled env base log records
      (uptimes.foldl (fun last uptime => uptime.run env lister base last) node) := by
  induction uptimes generalizing log records node with
  | nil => exact ⟨log, records, settled⟩
  | cons uptime uptimes ih =>
    obtain ⟨log', records', next⟩ := settled.uptime sound.1
    exact ih next sound.2

end Runs

/-- **A start brings back the last shutdown.** After any list of uptimes that keep to what they have
to, recovery succeeds with the log on or off and under any limit, and at every time not before the
shutdown it has the live records the server had then. -/
theorem restart_recovers (env : Env) (lister : Lister) (base : Bytes) (uptimes : List Uptime)
    (sound : SoundAll env lister base uptimes Node.blank) (enableWal : Bool)
    (maxStorageBytes : UInt64) :
    let node := runUptimes env lister base uptimes
    let started := startUp env lister base enableWal maxStorageBytes node
    started.1 = true ∧
      ∀ time, (∀ reading < node.world.readings, env.now reading ≤ time) →
        liveAt time started.2.world.view = liveAt time node.world.view := by
  intro node started
  obtain ⟨log, records, settled⟩ : ∃ log records, Settled env base log records node :=
    (Settled.blank env base).runUptimes uptimes sound
  obtain ⟨done, view⟩ := settled.startUp lister enableWal maxStorageBytes
  refine ⟨done, fun time later => ?_⟩
  rw [view]
  exact (Forgets.liveAt_eq settled.memory later).symm

/-- A command that creates no container is never stranded. -/
theorem freeAll_of_no_fill {env : Env} {requests : List Request} {world : World}
    (plain : ∀ request ∈ requests, ∃ issued, request = .command issued ∧ issued.fills = none) :
    FreeAll env requests world := by
  induction requests generalizing world with
  | nil => trivial
  | cons request requests ih =>
    obtain ⟨issued, rfl, noFill⟩ := plain request List.mem_cons_self
    refine ⟨?_, ih fun other member => plain other (List.mem_cons_of_mem _ member)⟩
    rintro key - ⟨-, -, wantType, fill, fills, -⟩
    rw [noFill] at fills
    cases fills

/-- `SET k 1` with the log on; `GET k` and `SET j 2` with the log off and under a limit; `SET k 3`
with an asynchronous log, which the worker writes before the shutdown calls `flush`. -/
theorem restart_recovers_three :
    let worker : Schedule :=
      { steps := [.submit [.put [107] { value := .ofString [51] } 0], .workerSwap, .append .worker,
          .flushCall 0, .flushSwap 0, .flushReturn 0] }
    let uptimes : List Uptime :=
      [{ enableWal := true, requests := [.command (.set [107] [49])] },
        { enableWal := false, maxStorageBytes := 4096,
          requests := [.command (.get [107]), .command (.set [106] [50])] },
        { enableWal := true, walAsync := some worker, requests := [.command (.set [107] [51])] }]
    let node := runUptimes (Env.still 0) Lister.sorted [119] uptimes
    let started := startUp (Env.still 0) Lister.sorted [119] false 0 node
    started.1 = true ∧ liveAt 0 started.2.world.view = liveAt 0 node.world.view := by
  intro worker uptimes node started
  have sized : ∀ {mutations : List Mutation} (key value : Bytes),
      mutations = [.put key { value := .ofString value } 0] → key.length < 2 ^ 32 →
      Record.Sized { value := .ofString value } → ∀ mutation ∈ mutations, Sized mutation := by
    rintro mutations key value rfl short fits mutation member
    obtain rfl := List.mem_singleton.mp member
    refine ⟨short, fun record held => ?_⟩
    obtain rfl := Option.some.inj held
    exact fits
  have sound : SoundAll (Env.still 0) Lister.sorted [119] uptimes Node.blank := by
    refine ⟨⟨?_, ?_, by decide +kernel, nofun, fun _ _ => nofun⟩,
      ⟨?_, ?_, by decide +kernel, fun _ request member => ?_, nofun⟩,
      ⟨?_, ?_, by decide +kernel, nofun, fun _ schedule same => ?_⟩, trivial⟩
    · exact sized [107] [49] (by decide +kernel) (by decide) (by show _ < _; decide +kernel)
    · exact freeAll_of_no_fill (by simp [Command.fills])
    · exact sized [106] [50] (by decide +kernel) (by decide) (by show _ < _; decide +kernel)
    · exact freeAll_of_no_fill (by simp [Command.fills])
    · have log : logOf Lister.sorted [119] (Uptime.run (Env.still 0) Lister.sorted [119]
          { enableWal := true, requests := [.command (.set [107] [49])] } Node.blank).disk =
          [.put [107] { value := .ofString [49] } 0] := by decide +kernel
      rw [log]
      simp only [List.mem_cons, List.not_mem_nil, or_false] at member
      rcases member with rfl | rfl
      · exact .inl rfl
      · refine .inr fun key about event logged => ?_
        obtain rfl := Option.some.inj about
        obtain rfl := List.mem_singleton.mp logged
        show ¬ [107] = [106]
        decide
    · exact sized [107] [51] (by decide +kernel) (by decide) (by show _ < _; decide +kernel)
    · exact freeAll_of_no_fill (by simp [Command.fills])
    · obtain rfl := Option.some.inj same
      refine ⟨?_, _, rfl, by decide +kernel, rfl, fun consumer => ?_⟩
      · refine ⟨trivial, fun next stepped => ?_⟩
        obtain rfl := Option.some.inj stepped
        refine ⟨.inr fun _ _ => rfl, fun next stepped => ?_⟩
        obtain rfl := Option.some.inj stepped
        refine ⟨trivial, fun next stepped => ?_⟩
        obtain rfl := Option.some.inj stepped
        refine ⟨trivial, fun next stepped => ?_⟩
        obtain rfl := Option.some.inj stepped
        refine ⟨fun other _ => ?_, fun next stepped => ?_⟩
        · cases other <;> rfl
        · obtain rfl := Option.some.inj stepped
          exact ⟨trivial, fun _ _ => trivial⟩
      · cases consumer with
        | worker => rfl
        | flush caller =>
          rcases eq_or_ne caller 0 with rfl | other
          · rfl
          · exact Function.update_of_ne (fun same => other (Consumer.flush.inj same)) _ _
  have recovery := restart_recovers (Env.still 0) Lister.sorted [119] uptimes sound false 0
  exact ⟨recovery.1, recovery.2 0 fun _ _ => Int64.le_refl _⟩

/-- The log is on for `SET k 1` and off for `SET k 2`; the third start brings back the first
value. -/
theorem stale_log :
    let uptimes : List Uptime :=
      [{ enableWal := true, requests := [.command (.set [107] [49])] },
        { enableWal := false, requests := [.command (.set [107] [50])] }]
    let node := runUptimes (Env.still 0) Lister.sorted [119] uptimes
    let started := startUp (Env.still 0) Lister.sorted [119] true 0 node
    started.1 = true ∧
      liveAt 0 node.world.view [107] = some { value := .ofString [50] } ∧
      liveAt 0 started.2.world.view [107] = some { value := .ofString [49] } := by
  decide +kernel

end SunKV.Persistence
