/-
**Commands that shrink a record, when the storage limit is exceeded.**

Recovery bypasses the limit, so a server that starts with a smaller limit holds more than it. A
command that stores a record back asks `putRecord` like any other write.

* `Command.shrinks` — the commands whose new record is no larger than the one it replaces
  (`estimateFootprint_writes_le`).
* `Reachable` — recovery, and then any operations of the engine; between two operations the bypass
  is off and the byte counter is right (`Reachable.atRest`).
* `shrinking_refused_iff` — such a command is refused exactly when the limit is exceeded with its
  new record in place; within the limit it never is.
-/

import SunKV.Persistence.Recovery
import SunKV.Storage.Failure
import SunKV.Storage.Quota

namespace SunKV.Storage

open SunKV.Lib

/-! ### Records that do not grow -/

/-- The commands that store back less than they found, or as much. -/
def Command.shrinks : Command → Bool
  | .lpop _ | .rpop _ | .srem _ _ | .hdel _ _ | .expire _ _ | .persist _ => true
  | .set _ _ | .get _ | .del _ | .keyExists _ | .ttl _ | .pttl _ | .dbsize | .keys | .lpush _ _
  | .rpush _ _ | .llen _ | .lindex _ _ | .sadd _ _ | .scard _ | .sismember _ _ | .smembers _
  | .hset _ _ _ | .hget _ _ | .hlen _ | .hexists _ _ | .hgetall _ => false

section Footprint

variable {record written : Record} {key : Bytes}

theorem popFront_sublist {list left : List Bytes} {elem : Bytes}
    (popped : popFront list = some (elem, left)) : left.Sublist list := by
  cases list with
  | nil => cases popped
  | cons first rest =>
    obtain ⟨rfl, rfl⟩ := Prod.mk.inj (Option.some.inj popped)
    exact List.sublist_cons_self _ _

theorem popBack_sublist {list left : List Bytes} {elem : Bytes}
    (popped : popBack list = some (elem, left)) : left.Sublist list := by
  obtain ⟨last, -, same⟩ := Option.map_eq_some_iff.mp popped
  obtain ⟨rfl, rfl⟩ := Prod.mk.inj same
  exact List.dropLast_sublist list

theorem estimate_of_sublist {left : List Bytes} (typed : record.value.type = .list)
    (sub : left.Sublist record.value.listValue) :
    estimateFootprint key { record with value := { record.value with listValue := left } } ≤
      estimateFootprint key record := by
  have lengths : (left.map List.length).sum ≤ (record.value.listValue.map List.length).sum :=
    (sub.map List.length).sum_le_sum fun _ _ => Nat.zero_le _
  simp only [estimateFootprint, estimateDataValue, typed]
  omega

theorem estimate_of_pop {pop : List Bytes → Option (Bytes × List Bytes)}
    (shorter : ∀ {list left elem}, pop list = some (elem, left) → left.Sublist list)
    (member : written ∈ popWrites (some record) pop) :
    estimateFootprint key written ≤ estimateFootprint key record := by
  unfold popWrites at member
  dsimp only at member
  split at member
  case isTrue => cases member
  case isFalse typed =>
    split at member
    case h_1 => cases member
    case h_2 elem left popped =>
      split at member
      case isTrue => cases member
      case isFalse =>
        obtain rfl := List.mem_singleton.mp member
        exact estimate_of_sublist (not_not.mp typed) (shorter popped)

theorem estimate_of_shrink {wantType : DataType} {shrink : DataValue → DataValue × Bool × Int}
    (smaller : ∀ value : DataValue, value.type = wantType →
      estimateDataValue (shrink value).1 ≤ estimateDataValue value)
    (member : written ∈ shrinkWrites (some record) wantType shrink) :
    estimateFootprint key written ≤ estimateFootprint key record := by
  unfold shrinkWrites at member
  dsimp only at member
  split at member
  case isTrue => cases member
  case isFalse typed =>
    split at member
    case isTrue => cases member
    case isFalse =>
      obtain rfl := List.mem_singleton.mp member
      have less := smaller record.value (not_not.mp typed)
      simp only [estimateFootprint]
      omega

theorem estimate_dropMembers (members : List Bytes) (value : DataValue)
    (typed : value.type = .set) :
    estimateDataValue (dropMembers members value).1 ≤ estimateDataValue value := by
  have weight : (((eraseMembers members value.setValue).1).toList.map List.length).sum ≤
      (value.setValue.toList.map List.length).sum := by
    -- the sum falls with every member erased
    unfold eraseMembers
    refine List.foldlRecOn (motive := fun state : StringSet × Int =>
      (state.1.toList.map List.length).sum ≤ (value.setValue.toList.map List.length).sum)
      members _ le_rfl fun state less member _ => le_trans ?_ less
    rw [sum_toList, sum_toList, toFinset_erase]
    exact Finset.sum_le_sum_of_subset (Finset.erase_subset _ _)
  simp only [dropMembers, estimateDataValue, typed]
  omega

theorem estimate_dropFields (fields : List Bytes) (value : DataValue)
    (typed : value.type = .hash) :
    estimateDataValue (dropFields fields value).1 ≤ estimateDataValue value := by
  let size : Bytes → Bytes → Nat := fun field item => field.length + item.length
  have weight : totalWeight size (eraseFields fields value.hashValue).1 ≤
      totalWeight size value.hashValue := by
    unfold eraseFields
    refine List.foldlRecOn (motive := fun state : Dict Bytes × Int =>
      totalWeight size state.1 ≤ totalWeight size value.hashValue)
      fields _ le_rfl fun state less field _ => le_trans ?_ less
    have erased : totalWeight size (state.1.erase field) + heldWeight size state.1 field =
        totalWeight size state.1 := totalWeight_erase size field
    exact (Nat.le_add_right _ _).trans_eq erased
  simp only [totalWeight, size] at weight
  simp only [dropFields, estimateDataValue, typed]
  omega

/-- A deadline does not count. -/
theorem estimateFootprint_deadline (deadline : Int64) :
    estimateFootprint key { record with expireAtUs := deadline } =
      estimateFootprint key record := rfl

/-- **What a shrinking command stores is no larger than what it replaces.** -/
theorem estimateFootprint_writes_le {command : Command} (shrinks : command.shrinks = true)
    {now : Int64} (member : written ∈ command.writes (some record) now) :
    estimateFootprint key written ≤ estimateFootprint key record := by
  cases command with
  | lpop k => exact estimate_of_pop popFront_sublist member
  | rpop k => exact estimate_of_pop popBack_sublist member
  | srem k members => exact estimate_of_shrink (estimate_dropMembers members) member
  | hdel k fields => exact estimate_of_shrink (estimate_dropFields fields) member
  | expire k ttlSeconds =>
    rw [Command.writes] at member
    split at member
    case isTrue => cases member
    case isFalse =>
      rw [List.mem_singleton.mp member]
      exact (estimateFootprint_deadline _).le
  | persist k =>
    rw [List.mem_singleton.mp member]
    exact (estimateFootprint_deadline _).le
  | _ => cases shrinks

end Footprint

end SunKV.Storage

namespace SunKV.Persistence

open SunKV.Lib SunKV.Storage

/-! ### Reachable states -/

/-- The operations of `StorageEngine`. -/
inductive EngineOp
  | command (command : Command)
  | loadSnapshot (records : List (Bytes × Record))
  | applyMutation (mutation : Mutation)
  | dumpAllLiveRecords

/-- The state an operation leaves. -/
def EngineOp.after (env : Env) (world : World) : EngineOp → World
  | .command issued => (env.exec issued.program world).2
  | .loadSnapshot records => (env.exec (Storage.loadSnapshot records) world).2
  | .applyMutation mutation => (env.exec (Storage.applyMutation mutation) world).2
  | .dumpAllLiveRecords => (env.exec Storage.dumpAllLiveRecords world).2

/-- **The states of an engine with a storage limit**: recovery into an empty backend, from any
files, and then any operations. -/
inductive Reachable (env : Env) (limit : UInt64) : World → Prop
  | recovered (lister : Lister) (base : Bytes) (disk : Disk) :
      Reachable env limit
        (env.exec (recoverInto lister base disk) { backend := emptyBackend limit }).2
  | next {world : World} (reachable : Reachable env limit world) (operation : EngineOp) :
      Reachable env limit (operation.after env world)

/-- An operation that switches the bypass off again. -/
def Restores {α : Type} (operation : Engine α) : Prop :=
  ∀ (env : Env) (world : World), world.backend.bypassLimit = false →
    (env.exec operation world).2.backend.bypassLimit = false

section Restores

variable {α β : Type}

theorem restores_pure (value : α) : Restores (pure value : Engine α) := fun _ _ off => off

theorem Restores.bind {first : Engine α} {rest : α → Engine β} (starts : Restores first)
    (goes : ∀ value, Restores (rest value)) : Restores (first >>= rest) := by
  intro env world off
  rw [Env.exec_bind]
  exact goes _ env _ (starts env world off)

theorem restores_loadSnapshot (records : List (Bytes × Record)) :
    Restores (Storage.loadSnapshot records) := by
  intro env world _
  unfold Storage.loadSnapshot
  rw [Env.exec_bind, Env.exec_bind, Env.exec_bind]
  rfl

theorem restores_applyMutation (mutation : Mutation) :
    Restores (Storage.applyMutation mutation) := by
  intro env world _
  unfold Storage.applyMutation
  rw [Env.exec_bind, Env.exec_bind]
  rfl

/-- An operation on one key leaves the bypass as it is. -/
theorem restores_of_makes {key : Bytes} {operation : Engine α}
    (makes : operation.Makes (Call.On key)) : Restores operation := fun env world off =>
  (exec_cell env makes world).2.bypass.trans off

theorem restores_command (command : Command) : Restores command.program := by
  intro env world off
  cases about : command.key? with
  | none => rw [(command.exec_of_no_key env world about).2, off]
  | some key => exact restores_of_makes (command.makes about) env world off

theorem restores_dumpRecords (keys : List Bytes) : Restores (dumpRecords keys) := by
  induction keys with
  | nil => exact restores_pure _
  | cons key rest ih =>
    have own : (getLiveRecordOrExpire key).Makes (Call.On key) :=
      makes_getLiveRecordOrExpire.mono fun _ spares => spares.2 key rfl
    refine (restores_of_makes own).bind fun (live, muts) => ?_
    refine ih.bind fun dumped => ?_
    cases live with
    | none => exact restores_pure _
    | some record => exact restores_pure _

theorem restores_replayLog (mutations : List Mutation) : Restores (replayLog mutations) := by
  induction mutations with
  | nil => exact restores_pure _
  | cons mutation mutations ih =>
    refine (restores_applyMutation mutation).bind fun applied => ?_
    cases applied with
    | true => exact ih
    | false => exact restores_pure _

theorem restores_recoverWal (lister : Lister) (base : Bytes) (wal : Directory) :
    Restores (recoverWal lister base wal) := by
  unfold recoverWal
  split
  · split
    · exact restores_pure _
    · exact restores_replayLog _
  · exact restores_pure _

theorem restores_recoverInto (lister : Lister) (base : Bytes) (disk : Disk) :
    Restores (recoverInto lister base disk) := by
  unfold recoverInto
  split
  · exact restores_recoverWal _ _ _
  · split
    · exact restores_pure _
    · exact (restores_loadSnapshot _).bind fun _ => restores_recoverWal _ _ _

end Restores

theorem exec_counted {α : Type} (env : Env) (operation : Engine α) {world : World}
    (counted : world.backend.Counted) : (env.exec operation world).2.backend.Counted := by
  induction operation generalizing world with
  | pure value => exact counted
  | query request next ih =>
    refine ih _ ?_
    rw [handle_backend]
    exact counted.change request

/-- **Between two operations** the bypass is off, the limit is the configured one, and the byte
counter is right modulo `2 ^ 64`. -/
structure AtRest (limit : UInt64) (world : World) : Prop where
  bypass : world.backend.bypassLimit = false
  limit : world.backend.maxStorageBytes = limit
  counted : world.backend.Counted

theorem AtRest.exec {limit : UInt64} {world : World} {α : Type} {operation : Engine α}
    (rest : AtRest limit world) (restores : Restores operation) (env : Env) :
    AtRest limit (env.exec operation world).2 where
  bypass := restores env world rest.bypass
  limit := (exec_limit env world operation).trans rest.limit
  counted := exec_counted env operation rest.counted

theorem Reachable.atRest {env : Env} {limit : UInt64} {world : World}
    (reachable : Reachable env limit world) : AtRest limit world := by
  induction reachable with
  | recovered lister base disk =>
    have empty : AtRest limit { backend := emptyBackend limit } :=
      ⟨rfl, rfl, (exact_emptyBackend limit).counted⟩
    exact empty.exec (restores_recoverInto lister base disk) env
  | next reachable operation ih =>
    cases operation with
    | command command => exact ih.exec (restores_command command) env
    | loadSnapshot records => exact ih.exec (restores_loadSnapshot records) env
    | applyMutation mutation => exact ih.exec (restores_applyMutation mutation) env
    | dumpAllLiveRecords =>
      have asks : Restores (Program.ask Call.keys) := fun _ _ off => off
      exact ih.exec (asks.bind restores_dumpRecords) env

/-! ### Refusals -/

/-- The limit is exceeded with a new record in the place of what the key holds, in the 64-bit
arithmetic of `putRecord`. -/
def Overfull (limit : UInt64) (backend : InMemoryBackend) (key : Bytes) (written : Record) : Prop :=
  0 < limit ∧ limit < backend.bytesUsed - backend.storedFootprint key +
    UInt64.ofNat (estimateFootprint key written)

theorem AtRest.refuses_iff {limit : UInt64} {world : World} (rest : AtRest limit world)
    (key : Bytes) (written : Record) :
    world.backend.accepts key written = false ↔ Overfull limit world.backend key written := by
  rw [InMemoryBackend.accepts, rest.bypass, rest.limit, Overfull, Bool.false_or,
    Bool.or_eq_false_iff, decide_eq_false_iff_not, decide_eq_false_iff_not, UInt64.not_le,
    UInt64.pos_iff_ne_zero, InMemoryBackend.bytesElsewhere]

/-- A record that is no larger than the one it replaces fits whenever the old one did. -/
theorem AtRest.fits {limit : UInt64} {world : World} (rest : AtRest limit world)
    {key : Bytes} {record written : Record} (held : world.view key = some record)
    (smaller : estimateFootprint key written ≤ estimateFootprint key record)
    (addressable : world.backend.footprints < 2 ^ 64) (within : world.backend.bytesUsed ≤ limit) :
    ¬ Overfull limit world.backend key written := by
  rintro ⟨-, beyond⟩
  have exact : world.backend.Exact := rest.counted.exact addressable
  have others := exact.bytesElsewhere_toNat key
  have here : heldWeight estimateFootprint world.backend.map key = estimateFootprint key record :=
    congrArg (fun found : Option Record => found.elim 0 (estimateFootprint key)) held
  have used : world.backend.bytesUsed.toNat ≤ limit.toNat := UInt64.le_iff_toNat_le.mp within
  rw [exact] at used
  have new : (world.backend.bytesElsewhere key +
      UInt64.ofNat (estimateFootprint key written)).toNat =
      (world.backend.bytesElsewhere key).toNat + estimateFootprint key written := by
    rw [UInt64.toNat_add, UInt64.toNat_ofNat']
    omega
  have above := UInt64.lt_iff_toNat_lt.mp beyond
  rw [← InMemoryBackend.bytesElsewhere, new] at above
  omega

/-- **When a shrinking command is refused.** In every reachable state, on a live key of the right
type: exactly when its arguments are valid and it stores back a record with which the limit is
exceeded. So never while the bytes in use are within the limit. -/
theorem shrinking_refused_iff (env : Env) (limit : UInt64) (world : World)
    (reachable : Reachable env limit world) (command : Command)
    (shrinks : command.shrinks = true) (key : Bytes) (about : command.key? = some key)
    (record : Record) (held : world.view key = some record)
    (alive : isExpired record (env.now world.readings) = false)
    (typed : command.mistyped (some record) = false) :
    let status := (env.exec command.program world).1.status
    (status = .quotaExceeded ↔ command.invalid = false ∧
      ∃ written ∈ command.writes (some record) (env.now world.readings),
        Overfull limit world.backend key written) ∧
      (world.backend.footprints < 2 ^ 64 → world.backend.bytesUsed ≤ limit →
        status ≠ .quotaExceeded) := by
  intro status
  have rest := reachable.atRest
  have refused : status = .quotaExceeded ↔ command.invalid = false ∧
      ∃ written ∈ command.writes (some record) (env.now world.readings),
        Overfull limit world.backend key written := by
    have verdict : status = _ := (command.exec_eq env world about).1.trans (command.status_eq _ _ _)
    rw [verdict, held, live_of_not_expired alive, typed]
    cases command.invalid with
    | true => simp
    | false =>
      simp only [Bool.false_eq_true, if_false, statusOf, true_and, ← rest.refuses_iff]
      split
      case isTrue all =>
        simp only [List.all_eq_true] at all
        simp only [reduceCtorEq, false_iff, not_exists, not_and, Bool.not_eq_false]
        exact all
      case isFalse some =>
        simpa using some
  refine ⟨refused, fun addressable within exceeded => ?_⟩
  obtain ⟨-, written, member, overfull⟩ := refused.mp exceeded
  exact rest.fits held (estimateFootprint_writes_le shrinks member) addressable within overfull

/-- A list of two elements. -/
def twoElements : Record :=
  { value := { DataValue.blank .list with listValue := [[1], [2]] } }

/-- A snapshot that holds it, and no log. -/
def listDisk : Disk where
  snapshot := some (encodeSnapshot [([107], twoElements)])
  wal := ∅

/-- The engine after recovery from it. -/
def recoveredList (limit : UInt64) : World :=
  ((Env.still 0).exec (recoverInto Lister.sorted [119] listDisk)
    { backend := emptyBackend limit }).2

/-- With a limit of 200 bytes the list may be popped. -/
theorem shrinking_refused_iff_within :
    ((Env.still 0).exec (Command.lpop [107]).program (recoveredList 200)).1.status ≠
      .quotaExceeded := by
  refine (shrinking_refused_iff (Env.still 0) 200 (recoveredList 200) (.recovered _ _ _)
    (.lpop [107]) rfl [107] rfl twoElements ?_ rfl rfl).2 ?_ ?_
  · decide +kernel
  · decide +kernel
  · decide +kernel

/-- With a limit of 100 bytes, which recovery exceeds, neither a pop nor a deadline is let
through. -/
theorem shrinking_refused :
    Reachable (Env.still 0) 100 (recoveredList 100) ∧
    ((Env.still 0).exec (recoverInto Lister.sorted [119] listDisk)
      { backend := emptyBackend 100 }).1 = true ∧
    (recoveredList 100).view [107] = some twoElements ∧
    ((Env.still 0).exec (Command.lpop [107]).program (recoveredList 100)).1.status =
      .quotaExceeded ∧
    ((Env.still 0).exec (Command.expire [107] 10).program (recoveredList 100)).1.status =
      .quotaExceeded :=
  ⟨.recovered _ _ _, by decide +kernel⟩

end SunKV.Persistence
