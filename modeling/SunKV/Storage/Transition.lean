/-
**What a command on a key does, as a function of what the key holds.**

`Command.transition` gives the status and the reply of a command and the record its key holds
afterwards, from the time, the records the storage limit lets in and the record held before. All
commands but `set` and `del` look at the record only if it has not expired (`live`), so the families
of the engine are functions of the live record.

* `Env.transition` — the same, read off a run on a cell; `transition_eq` says that the two agree.
* `Command.exec_eq` — every command about a key does its transition, on every world.
-/

import SunKV.Storage.Cell

namespace SunKV.Storage

open SunKV.Lib

/-- The record a key holds for a reader at a time: none once it has expired. -/
def live (now : Int64) (held : Option Record) : Option Record :=
  held.filter fun record => !isExpired record now

theorem live_of_expired {now : Int64} {record : Record} (expired : isExpired record now = true) :
    live now (some record) = none := by
  simp [live, expired]

theorem live_of_not_expired {now : Int64} {record : Record}
    (alive : isExpired record now = false) : live now (some record) = some record := by
  simp [live, alive]

@[simp] theorem live_none (now : Int64) : live now none = none := rfl

theorem live_live (now : Int64) (held : Option Record) :
    live now (live now held) = live now held := by
  simp [live]

theorem live_eq_some {now : Int64} {held : Option Record} {record : Record}
    (found : live now held = some record) :
    held = some record ∧ isExpired record now = false := by
  obtain ⟨same, alive⟩ := Option.filter_eq_some_iff.mp found
  exact ⟨same, by simpa using alive⟩

/-- A record without a deadline is always live. -/
theorem live_of_forever (now : Int64) (value : DataValue) (version : UInt64) :
    live now (some { value := value, version := version }) =
      some { value := value, version := version } :=
  live_of_not_expired (by simp [isExpired])

/-! ### Transitions -/

/-- A status, a value, and what the key holds afterwards. -/
structure Transition (α : Type) where
  status : StatusCode
  value : α
  held : Option Record

namespace Transition

variable {α : Type}

/-- Success. -/
def ok (value : α) (held : Option Record) : Transition α := ⟨.ok, value, held⟩

/-- Failure, with a default-constructed value. -/
def err [Inhabited α] (status : StatusCode) (held : Option Record) : Transition α :=
  ⟨status, default, held⟩

/-- The value read as a reply. -/
def reply (wrap : α → Reply) (transition : Transition α) : Transition Reply :=
  ⟨transition.status, wrap transition.value, transition.held⟩

variable [Inhabited α] (accepts : Record → Bool)

/-- A record stored in place of the one held, unless the limit refuses it. -/
def store (held : Option Record) (record : Record) (value : α) : Transition α :=
  if accepts record then ok value (some record) else err .quotaExceeded held

/-- The end of a removal: an emptied container goes, any other is stored back. -/
def remove (held : Option Record) (record : Record) (empty : Bool) (value : α) : Transition α :=
  if empty then ok value none else store accepts held record value

/-- A read of a value of type `wantType`. -/
def read (wantType : DataType) (absent : α) (view : DataValue → α) :
    Option Record → Transition α
  | none => ok absent none
  | some record =>
    if record.value.type ≠ wantType then err .wrongType (some record)
    else ok (view record.value) (some record)

/-- A write into a container: a missing one is stored empty first. -/
def grow (wantType : DataType) (fill : DataValue → DataValue × Int) :
    Option Record → Transition Int
  | none =>
    let blank : Record := { value := DataValue.blank wantType }
    if accepts blank then
      store accepts (some blank) { blank with value := (fill blank.value).1 } (fill blank.value).2
    else err .quotaExceeded none
  | some record =>
    if record.value.type = wantType then
      store accepts (some record) { record with value := (fill record.value).1 }
        (fill record.value).2
    else err .wrongType (some record)

/-- A removal from a container. -/
def shrink (wantType : DataType) (shrink : DataValue → DataValue × Bool × Int) :
    Option Record → Transition Int
  | none => ok 0 none
  | some record =>
    if record.value.type ≠ wantType then err .wrongType (some record)
    else
      remove accepts (some record) { record with value := (shrink record.value).1 }
        (shrink record.value).2.1 (shrink record.value).2.2

/-- A removal from an end of a list. -/
def pop (pop : List Bytes → Option (Bytes × List Bytes)) :
    Option Record → Transition (Option Bytes)
  | none => ok none none
  | some record =>
    if record.value.type ≠ .list then err .wrongType (some record)
    else
      match pop record.value.listValue with
      | none => ok none (some record)
      | some (elem, left) =>
        remove accepts (some record)
          { record with value := { record.value with listValue := left } } left.isEmpty (some elem)

/-- `expire` with a time that is not negative. -/
def expire (now ttlSeconds : Int64) : Option Record → Transition Int
  | none => ok 0 none
  | some record =>
    if ttlSeconds = 0 then ok 1 none
    else
      store accepts (some record) { record with expireAtUs := now + ttlSeconds * 1000000 } 1

/-- `persist`. -/
def persist : Option Record → Transition Int
  | none => ok 0 none
  | some record =>
    store accepts (some record) { record with expireAtUs := -1 }
      (if 0 ≤ record.expireAtUs then 1 else 0)

/-- `ttl` and `pttl`. -/
def remaining (unit now : Int64) : Option Record → Transition Int
  | none => ok (-2) none
  | some record =>
    if record.expireAtUs < 0 then ok (-1) (some record)
    else if record.expireAtUs - now ≤ 0 then ok (-2) none
    else ok ((record.expireAtUs - now) / unit).toInt (some record)

end Transition

/-- The arguments are refused before the key is looked at. -/
def Command.invalid : Command → Bool
  | .expire _ ttlSeconds => decide (ttlSeconds < 0)
  | .lpush _ items | .rpush _ items | .sadd _ items | .srem _ items | .hdel _ items =>
      items.isEmpty
  | _ => false

/-- The members added to the set of a value, and how many were new. -/
def addMembers (members : List Bytes) (value : DataValue) : DataValue × Int :=
  ({ value with setValue := (insertMembers members value.setValue).1 },
    (insertMembers members value.setValue).2)

/-- The members taken from the set of a value, whether that empties it, and how many were there. -/
def dropMembers (members : List Bytes) (value : DataValue) : DataValue × Bool × Int :=
  ({ value with setValue := (eraseMembers members value.setValue).1 },
    (eraseMembers members value.setValue).1.isEmpty, (eraseMembers members value.setValue).2)

/-- The field set in the hash of a value, and whether it is new. -/
def setField (field item : Bytes) (value : DataValue) : DataValue × Int :=
  ({ value with hashValue := value.hashValue.insert field item },
    if value.hashValue.contains field then 0 else 1)

/-- The fields taken from the hash of a value, whether that empties it, and how many were there. -/
def dropFields (fields : List Bytes) (value : DataValue) : DataValue × Bool × Int :=
  ({ value with hashValue := (eraseFields fields value.hashValue).1 },
    (eraseFields fields value.hashValue).1.isEmpty, (eraseFields fields value.hashValue).2)

open Transition in
/-- **What a command with valid arguments does to its key**, given the records the limit lets in
and the record held. `dbsize` and `keys` are about no key. -/
def Command.act (now : Int64) (accepts : Record → Bool) (held : Option Record) :
    Command → Transition Reply
  | .set _ value =>
      (store accepts held { value := DataValue.ofString value } true).reply .flag
  | .del _ => (ok (if held.isSome then 1 else 0) none).reply .int
  | .get _ =>
      (read .string none (fun value => some value.stringValue) (live now held)).reply .element
  | .keyExists _ => (ok (if (live now held).isSome then 1 else 0) (live now held)).reply .int
  | .expire _ ttlSeconds => (Transition.expire accepts now ttlSeconds (live now held)).reply .int
  | .persist _ => (Transition.persist accepts (live now held)).reply .int
  | .ttl _ => (Transition.remaining 1000000 now (live now held)).reply .int
  | .pttl _ => (Transition.remaining 1000 now (live now held)).reply .int
  | .lpush _ values => (grow accepts .list (pushFront values) (live now held)).reply .int
  | .rpush _ values => (grow accepts .list (pushBack values) (live now held)).reply .int
  | .lpop _ => (pop accepts popFront (live now held)).reply .element
  | .rpop _ => (pop accepts popBack (live now held)).reply .element
  | .llen _ =>
    (read .list (0 : Int) (fun value => value.listValue.length) (live now held)).reply .int
  | .lindex _ index =>
      (read .list none (fun value => elementAt value.listValue index) (live now held)).reply
        .element
  | .sadd _ members => (grow accepts .set (addMembers members) (live now held)).reply .int
  | .srem _ members => (shrink accepts .set (dropMembers members) (live now held)).reply .int
  | .scard _ => (read .set (0 : Int) (fun value => value.setValue.size) (live now held)).reply .int
  | .sismember _ member =>
      (read .set 0 (fun value => if value.setValue.contains member then 1 else 0)
        (live now held)).reply .int
  | .smembers _ =>
      (read .set [] (fun value => value.setValue.toList) (live now held)).reply .elements
  | .hset _ field value => (grow accepts .hash (setField field value) (live now held)).reply .int
  | .hget _ field =>
      (read .hash none (fun value => value.hashValue[field]?) (live now held)).reply .element
  | .hdel _ fields => (shrink accepts .hash (dropFields fields) (live now held)).reply .int
  | .hlen _ => (read .hash (0 : Int) (fun value => value.hashValue.size) (live now held)).reply .int
  | .hexists _ field =>
      (read .hash 0 (fun value => if value.hashValue.contains field then 1 else 0)
        (live now held)).reply .int
  | .hgetall _ =>
      (read .hash [] (fun value => value.hashValue.toList) (live now held)).reply .pairs
  | .dbsize => ok (.int 0) held
  | .keys => ok (.elements []) held

/-- The reply of a command that fails. -/
def Command.blankReply : Command → Reply
  | .set _ _ => .flag false
  | .get _ | .lpop _ | .rpop _ | .lindex _ _ | .hget _ _ => .element none
  | .keys | .smembers _ => .elements []
  | .hgetall _ => .pairs []
  | .del _ | .keyExists _ | .expire _ _ | .persist _ | .ttl _ | .pttl _ | .dbsize | .lpush _ _
  | .rpush _ _ | .llen _ | .sadd _ _ | .srem _ _ | .scard _ | .sismember _ _ | .hset _ _ _
  | .hdel _ _ | .hlen _ | .hexists _ _ => .int 0

/-- **What a command does to its key.** -/
def Command.transition (now : Int64) (accepts : Record → Bool) (held : Option Record)
    (command : Command) : Transition Reply :=
  if command.invalid then ⟨.invalidArg, command.blankReply, held⟩
  else command.act now accepts held

/-! ### Runs on a cell -/

/-- The transition of a run. -/
def Transition.ofRun {α : Type} (out : StorageResult α × Cell) : Transition α :=
  ⟨out.1.status, out.1.value, out.2.held⟩

/-- An operation run on a cell, as a transition. -/
def Env.transition {α : Type} (env : Env) (accepts : Record → Bool)
    (operation : Engine (StorageResult α)) (cell : Cell) : Transition α :=
  Transition.ofRun (operation.run (env.cell accepts) cell)

section Cell

variable {env : Env} {accepts : Record → Bool} {key : Bytes} {cell : Cell} {α : Type}

@[simp] theorem run_cell_pure (value : α) :
    (pure value : Engine α).run (env.cell accepts) cell = (value, cell) := rfl

@[simp] theorem run_cell_getRecord :
    (getRecord key).run (env.cell accepts) cell = (cell.held, cell) := rfl

@[simp] theorem run_cell_nowEpochUs :
    nowEpochUs.run (env.cell accepts) cell =
      (env.now cell.readings, { cell with readings := cell.readings + 1 }) := rfl

@[simp] theorem run_cell_delKey :
    (delKey key).run (env.cell accepts) cell =
      (cell.held.isSome, { cell with held := none }) := rfl

@[simp] theorem run_cell_putRecord (record : Record) :
    (putRecord key record).run (env.cell accepts) cell =
      if accepts record then (true, { cell with held := some record }) else (false, cell) := rfl

/-- `getLiveRecordOrExpire` gives the live record and leaves it in the cell. -/
theorem run_cell_getLive :
    ∃ muts readings, (getLiveRecordOrExpire key).run (env.cell accepts) cell =
      ((live (env.now cell.readings) cell.held, muts),
        ⟨live (env.now cell.readings) cell.held, readings⟩) := by
  obtain ⟨held, readings⟩ := cell
  cases held with
  | none => exact ⟨[], readings, rfl⟩
  | some record =>
    cases expired : isExpired record (env.now readings) with
    | true =>
      refine ⟨[.del key (env.now readings)], readings + 1, ?_⟩
      simp [getLiveRecordOrExpire, expired, live_of_expired]
    | false =>
      refine ⟨[], readings + 1, ?_⟩
      simp [getLiveRecordOrExpire, expired, live_of_not_expired]

/-- A wrapper of the reply wraps the transition. -/
theorem transition_reply {operation : Engine (StorageResult α)} {transition : Transition α}
    (runs : env.transition accepts operation cell = transition) (wrap : α → Reply) :
    env.transition accepts (do return (← operation).reply wrap) cell = transition.reply wrap := by
  rw [← runs]
  simp [Env.transition, Transition.ofRun, Transition.reply, StorageResult.reply]

theorem transition_unlessExpired (absent : α) (onLive : Record → Int64 → Engine (StorageResult α)) :
    env.transition accepts (unlessExpired key absent onLive) cell =
      match live (env.now cell.readings) cell.held with
      | none => Transition.ok absent none
      | some record =>
        env.transition accepts (onLive record (env.now cell.readings))
          ⟨some record, cell.readings + 1⟩ := by
  obtain ⟨held, readings⟩ := cell
  cases held with
  | none => rfl
  | some record =>
    cases expired : isExpired record (env.now readings) with
    | true =>
      simp [Env.transition, unlessExpired, expired, live_of_expired, Transition.ofRun,
        StorageResult.ok, Transition.ok]
    | false =>
      simp [Env.transition, unlessExpired, expired, live_of_not_expired]

theorem transition_get :
    env.transition accepts (Storage.get key) cell =
      Transition.read .string none (fun value => some value.stringValue)
        (live (env.now cell.readings) cell.held) := by
  rw [Storage.get, transition_unlessExpired]
  cases live (env.now cell.readings) cell.held with
  | none => rfl
  | some record =>
    unfold Transition.read
    dsimp only
    split <;> rfl

theorem transition_keyExists :
    env.transition accepts (keyExists key) cell =
      Transition.ok (if (live (env.now cell.readings) cell.held).isSome then 1 else 0)
        (live (env.now cell.readings) cell.held) := by
  rw [keyExists, transition_unlessExpired]
  cases live (env.now cell.readings) cell.held with
  | none => rfl
  | some record => rfl

theorem transition_del :
    env.transition accepts (Storage.del key) cell =
      Transition.ok (if cell.held.isSome then 1 else 0) none := by
  obtain ⟨held, readings⟩ := cell
  cases held with
  | none => rfl
  | some record => rfl

/-- A store, answered by `success` or refused. -/
theorem transition_store [Inhabited α] {record : Record} {value : α}
    {success : Engine (StorageResult α)}
    (done : ∀ readings, env.transition accepts success ⟨some record, readings⟩ =
      Transition.ok value (some record)) :
    env.transition accepts (do
      if ← putRecord key record then success else return .err .quotaExceeded) cell =
      Transition.store accepts cell.held record value := by
  unfold Transition.store
  by_cases fits : accepts record = true
  · rw [if_pos fits, ← done cell.readings]
    simp [Env.transition, fits]
  · simp [Env.transition, Transition.ofRun, fits, StorageResult.err, Transition.err]

theorem transition_set (value : Bytes) :
    env.transition accepts (Storage.set key value) cell =
      Transition.store accepts cell.held { value := DataValue.ofString value } true :=
  transition_store fun _ => rfl

theorem transition_expire {ttlSeconds : Int64} (valid : ¬ ttlSeconds < 0) :
    env.transition accepts (expire key ttlSeconds) cell =
      Transition.expire accepts (env.now cell.readings) ttlSeconds
        (live (env.now cell.readings) cell.held) := by
  rw [expire, if_neg valid, transition_unlessExpired]
  cases live (env.now cell.readings) cell.held with
  | none => rfl
  | some record =>
    unfold Transition.expire
    dsimp only
    split
    · rfl
    · exact transition_store fun _ => rfl

theorem transition_persist :
    env.transition accepts (persist key) cell =
      Transition.persist accepts (live (env.now cell.readings) cell.held) := by
  rw [persist, transition_unlessExpired]
  cases live (env.now cell.readings) cell.held with
  | none => rfl
  | some record => exact transition_store fun _ => rfl

theorem transition_remaining (unit : Int64) :
    env.transition accepts (remaining unit key) cell =
      Transition.remaining unit (env.now cell.readings)
        (live (env.now cell.readings) cell.held) := by
  rw [remaining, transition_unlessExpired]
  cases live (env.now cell.readings) cell.held with
  | none => rfl
  | some record =>
    unfold Transition.remaining
    dsimp only
    split
    · rfl
    · split <;> rfl

/-- What follows a `getLiveRecordOrExpire` runs on the live record. -/
theorem transition_getLive {next : Option Record × MutationBatch → Engine (StorageResult α)}
    {transition : Transition α}
    (later : ∀ muts readings,
      env.transition accepts (next (live (env.now cell.readings) cell.held, muts))
        ⟨live (env.now cell.readings) cell.held, readings⟩ = transition) :
    env.transition accepts (getLiveRecordOrExpire key >>= next) cell = transition := by
  obtain ⟨muts, readings, found⟩ :
      ∃ muts readings, (getLiveRecordOrExpire key).run (env.cell accepts) cell = _ :=
    run_cell_getLive
  rw [← later muts readings, Env.transition, Program.run_bind, found]
  rfl

theorem transition_readContainer [Inhabited α] (wantType : DataType) (absent : α)
    (view : DataValue → α) :
    env.transition accepts (readContainer wantType key absent view) cell =
      Transition.read wantType absent view (live (env.now cell.readings) cell.held) := by
  refine transition_getLive fun muts readings => ?_
  cases live (env.now cell.readings) cell.held with
  | none => rfl
  | some record =>
    unfold Transition.read
    dsimp only
    split <;> rfl

theorem transition_storeOrDrop [Inhabited α] (record : Record) (empty : Bool)
    (muts : MutationBatch) (value : α) :
    env.transition accepts (storeOrDrop key record empty muts value) cell =
      Transition.remove accepts cell.held record empty value := by
  cases empty with
  | true => rfl
  | false => exact transition_store fun _ => rfl

theorem transition_shrinkContainer (wantType : DataType)
    (shrink : DataValue → DataValue × Bool × Int) :
    env.transition accepts (shrinkContainer wantType key shrink) cell =
      Transition.shrink accepts wantType shrink (live (env.now cell.readings) cell.held) := by
  refine transition_getLive fun muts readings => ?_
  cases live (env.now cell.readings) cell.held with
  | none => rfl
  | some record =>
    unfold Transition.shrink
    dsimp only
    split
    · rfl
    · exact transition_storeOrDrop _ _ _ _

theorem transition_popList (pop : List Bytes → Option (Bytes × List Bytes)) :
    env.transition accepts (popList key pop) cell =
      Transition.pop accepts pop (live (env.now cell.readings) cell.held) := by
  refine transition_getLive fun muts readings => ?_
  cases live (env.now cell.readings) cell.held with
  | none => rfl
  | some record =>
    unfold Transition.pop
    dsimp only
    split
    · rfl
    · cases pop record.value.listValue with
      | none => rfl
      | some popped => exact transition_storeOrDrop _ _ _ _

/-- The container `growContainer` works on, and what the cell holds by then. -/
theorem run_cell_getOrInit (wantType : DataType) :
    ∃ muts readings, (getOrInitContainer key wantType).run (env.cell accepts) cell =
      match live (env.now cell.readings) cell.held with
      | none =>
        if accepts { value := .blank wantType } then
          (.ok { value := .blank wantType } muts, ⟨some { value := .blank wantType }, readings⟩)
        else (.err .quotaExceeded, ⟨none, readings⟩)
      | some record =>
        if record.value.type = wantType then (.ok record muts, ⟨some record, readings⟩)
        else (.err .wrongType, ⟨some record, readings⟩) := by
  obtain ⟨muts, readings, found⟩ :
      ∃ muts readings, (getLiveRecordOrExpire key).run (env.cell accepts) cell = _ :=
    run_cell_getLive
  unfold getOrInitContainer
  rw [Program.run_bind, found]
  cases live (env.now cell.readings) cell.held with
  | none =>
    by_cases fits : accepts { value := .blank wantType } = true
    · exact ⟨_, _, by simp [fits]; exact ⟨rfl, rfl⟩⟩
    · exact ⟨[], readings, by simp [fits]⟩
  | some record =>
    refine ⟨muts, readings, ?_⟩
    dsimp only
    split <;> rfl

theorem transition_growContainer (wantType : DataType) (grow : DataValue → DataValue × Int) :
    env.transition accepts (growContainer wantType key grow) cell =
      Transition.grow accepts wantType grow (live (env.now cell.readings) cell.held) := by
  obtain ⟨muts, readings, found⟩ :
      ∃ muts readings, (getOrInitContainer key wantType).run (env.cell accepts) cell = _ :=
    run_cell_getOrInit wantType
  rw [growContainer, Env.transition, Program.run_bind, found]
  cases live (env.now cell.readings) cell.held with
  | none =>
    unfold Transition.grow
    dsimp only
    split
    · exact transition_store fun _ => rfl
    · rfl
  | some record =>
    unfold Transition.grow
    dsimp only
    split
    · exact transition_store fun _ => rfl
    · rfl

/-- Invalid arguments change nothing. -/
theorem transition_unlessInvalid [Inhabited α] {invalid : Prop} [Decidable invalid]
    {operation : Engine (StorageResult α)} {transition : Transition α}
    (runs : env.transition accepts operation cell = transition) (wrap : α → Reply) :
    env.transition accepts ((if invalid then return .err .invalidArg else operation) >>=
        fun result => return result.reply wrap) cell =
      if invalid then ⟨.invalidArg, wrap default, cell.held⟩ else transition.reply wrap := by
  split
  · rfl
  · exact transition_reply runs wrap

end Cell

/-! ### Every command -/

/-- **A command on a cell does its transition.** -/
theorem Command.transition_eq (env : Env) (accepts : Record → Bool) (cell : Cell)
    (command : Command) {key : Bytes} (about : command.key? = some key) :
    env.transition accepts command.program cell =
      command.transition (env.now cell.readings) accepts cell.held := by
  cases command with
  | dbsize => cases about
  | keys => cases about
  | expire k ttlSeconds =>
    unfold Command.transition
    split
    case isTrue bad =>
      rw [program, Storage.expire, if_pos (of_decide_eq_true bad)]
      rfl
    case isFalse valid =>
      refine transition_reply (transition_expire fun negative => valid ?_) _
      exact decide_eq_true negative
  | set k value => exact transition_reply (transition_set value) _
  | get k => exact transition_reply transition_get _
  | del k => exact transition_reply transition_del _
  | keyExists k => exact transition_reply transition_keyExists _
  | persist k => exact transition_reply transition_persist _
  | ttl k => exact transition_reply (transition_remaining _) _
  | pttl k => exact transition_reply (transition_remaining _) _
  | lpush k values => exact transition_unlessInvalid (transition_growContainer _ _) _
  | rpush k values => exact transition_unlessInvalid (transition_growContainer _ _) _
  | lpop k => exact transition_reply (transition_popList _) _
  | rpop k => exact transition_reply (transition_popList _) _
  | llen k => exact transition_reply (transition_readContainer _ _ _) _
  | lindex k index => exact transition_reply (transition_readContainer _ _ _) _
  | sadd k members => exact transition_unlessInvalid (transition_growContainer _ _) _
  | srem k members => exact transition_unlessInvalid (transition_shrinkContainer _ _) _
  | scard k => exact transition_reply (transition_readContainer _ _ _) _
  | sismember k member => exact transition_reply (transition_readContainer _ _ _) _
  | smembers k => exact transition_reply (transition_readContainer _ _ _) _
  | hset k field value => exact transition_reply (transition_growContainer _ _) _
  | hget k field => exact transition_reply (transition_readContainer _ _ _) _
  | hdel k fields => exact transition_unlessInvalid (transition_shrinkContainer _ _) _
  | hlen k => exact transition_reply (transition_readContainer _ _ _) _
  | hexists k field => exact transition_reply (transition_readContainer _ _ _) _
  | hgetall k => exact transition_reply (transition_readContainer _ _ _) _

/-- **Every command about a key does its transition**: it answers and leaves the key as the
transition says, and leaves all other keys alone. -/
theorem Command.exec_eq (env : Env) (world : World) (command : Command) {key : Bytes}
    (about : command.key? = some key) :
    let ran := env.exec command.program world
    let step := command.transition (env.now world.readings) (world.backend.accepts key)
      (world.view key)
    ran.1.status = step.status ∧ ran.1.value = step.value ∧
      ran.2.view = Function.update world.view key step.held ∧
      ran.2.backend.maxStorageBytes = world.backend.maxStorageBytes := by
  intro ran step
  obtain ⟨same, framed⟩ := exec_cell env (command.makes about) world
  have cell :
      env.transition (world.backend.accepts key) command.program (world.cellOf key) = step :=
    command.transition_eq env _ _ about
  refine ⟨?_, ?_, ?_, framed.limit⟩
  · rw [← cell]
    exact congrArg StorageResult.status same
  · rw [← cell]
    exact congrArg StorageResult.value same
  · rw [← cell]
    exact framed.view

end SunKV.Storage
