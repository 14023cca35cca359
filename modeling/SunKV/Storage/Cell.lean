/-
**An operation on one key sees one cell of the store.**

A `Cell` is what a key holds, and the number of readings of the environment. `Env.cell` answers the
calls of an operation from a cell alone: it is given which records the storage limit lets in under
the key (`InMemoryBackend.accepts`).

* `Framed` — only the key has changed, and what the limit lets in is as before: it depends on the
  bytes of the other keys only.
* `exec_cell` — an operation on a key returns what it returns on the cell, leaves in the key what
  it leaves in the cell, and leaves every other key alone.
* `Command.yields` — every command about a key calls on that key only (`Command.makes`), and stops
  at a refused record.
-/

import SunKV.Storage.Effect

namespace SunKV.Storage

open SunKV.Lib

/-! ### What the limit lets in -/

namespace InMemoryBackend

variable (backend : InMemoryBackend)

/-- The bytes in use, without those of the key's own record. -/
def bytesElsewhere (key : Bytes) : UInt64 :=
  backend.bytesUsed - backend.storedFootprint key

/-- The test of `putRecord`, as a function of the state before. -/
def accepts (key : Bytes) (record : Record) : Bool :=
  backend.bypassLimit || decide (backend.maxStorageBytes = 0) ||
    decide (backend.bytesElsewhere key + UInt64.ofNat (estimateFootprint key record) ≤
      backend.maxStorageBytes)

variable {backend} {key : Bytes} {record : Record}

theorem accepts_of_unlimited (unlimited : backend.Unlimited) (key : Bytes) (record : Record) :
    backend.accepts key record = true := by
  have noLimit : backend.maxStorageBytes = 0 := unlimited
  simp [accepts, noLimit]

/-- The guard of `putRecord` is the negation of `accepts`. -/
theorem refused_eq :
    (!backend.bypassLimit && decide (0 < backend.maxStorageBytes) &&
      decide (backend.maxStorageBytes < backend.bytesUsed - backend.storedFootprint key +
        UInt64.ofNat (estimateFootprint key record))) = !backend.accepts key record := by
  have limited : decide (0 < backend.maxStorageBytes) =
      !decide (backend.maxStorageBytes = 0) := by
    rw [← decide_not, decide_eq_decide, UInt64.pos_iff_ne_zero]
  have above : ∀ used : UInt64, decide (backend.maxStorageBytes < used) =
      !decide (used ≤ backend.maxStorageBytes) := fun used => by
    rw [← decide_not, decide_eq_decide, UInt64.not_le]
  rw [limited, above, accepts, bytesElsewhere, Bool.not_or, Bool.not_or]

theorem putRecord_of_accepts (fits : backend.accepts key record = true) :
    backend.putRecord key record = (true, { backend with
      map := backend.map.insert key record
      bytesUsed := backend.bytesElsewhere key +
        UInt64.ofNat (estimateFootprint key record) }) := by
  unfold putRecord
  dsimp only
  rw [refused_eq, fits, if_neg (by decide)]
  rfl

theorem putRecord_of_refused (full : backend.accepts key record = false) :
    backend.putRecord key record = (false, backend) := by
  unfold putRecord
  dsimp only
  rw [refused_eq, full, if_pos (by decide)]

end InMemoryBackend

/-! ### Cells -/

/-- What a key holds, and how often the environment has been read. -/
structure Cell where
  held : Option Record
  readings : Nat

/-- The calls of an operation on `key`: backend calls on that key, and readings of the clock. -/
def Call.On (key : Bytes) : Call → Prop
  | .getRecord other => other = key
  | .putRecord other _ => other = key
  | .delKey other => other = key
  | .nowEpochUs => True
  | .clearAll => False
  | .size => False
  | .keys => False
  | .setBypassStorageLimit _ => False

/-- **The effect of a call on a cell.** The calls that are on no key are not made on a cell. -/
def Env.cell (env : Env) (accepts : Record → Bool) : Handler Call.Answer Cell
  | .getRecord _, cell => (cell.held, cell)
  | .putRecord _ record, cell =>
      if accepts record then (true, { cell with held := some record }) else (false, cell)
  | .delKey _, cell => (cell.held.isSome, { cell with held := none })
  | .nowEpochUs, cell => (env.now cell.readings, { cell with readings := cell.readings + 1 })
  | .clearAll, cell => ((), { cell with held := none })
  | .size, cell => ((cell.held.isSome.toNat : Int), cell)
  | .keys, cell => ([], cell)
  | .setBypassStorageLimit _, cell => ((), cell)

/-- The cell of a key. -/
def World.cellOf (world : World) (key : Bytes) : Cell := ⟨world.view key, world.readings⟩

/-- **A world in which only `key` has changed since `start`**, with the key as in the cell. -/
structure Framed (key : Bytes) (start world : World) (cell : Cell) : Prop where
  held : world.view key = cell.held
  readings : world.readings = cell.readings
  others : ∀ other, other ≠ key → world.view other = start.view other
  elsewhere : world.backend.bytesElsewhere key = start.backend.bytesElsewhere key
  limit : world.backend.maxStorageBytes = start.backend.maxStorageBytes
  bypass : world.backend.bypassLimit = start.backend.bypassLimit

namespace Framed

variable {key : Bytes} {start world : World} {cell : Cell}

theorem initial (world : World) (key : Bytes) : Framed key world world (world.cellOf key) :=
  ⟨rfl, rfl, fun _ _ => rfl, rfl, rfl, rfl⟩

theorem accepts (framed : Framed key start world cell) (record : Record) :
    world.backend.accepts key record = start.backend.accepts key record := by
  rw [InMemoryBackend.accepts, InMemoryBackend.accepts, framed.elsewhere, framed.limit,
    framed.bypass]

theorem view (framed : Framed key start world cell) :
    world.view = Function.update start.view key cell.held := by
  funext other
  by_cases same : other = key
  · rw [same, Function.update_self, framed.held]
  · rw [Function.update_of_ne same, framed.others other same]

theorem put (framed : Framed key start world cell) {record : Record}
    (fits : start.backend.accepts key record = true) :
    (world.backend.putRecord key record).1 = true ∧
      Framed key start (world.put key record) { cell with held := some record } := by
  have stored := InMemoryBackend.putRecord_of_accepts ((framed.accepts record).trans fits)
  have here : (world.put key record).view = Function.update world.view key (some record) := by
    funext other
    rw [World.view, World.put, stored, getElem?_insert_eq, Function.update_apply]
    rfl
  have footprint : (world.put key record).backend.storedFootprint key =
      UInt64.ofNat (estimateFootprint key record) := by
    have found : (world.put key record).view key = some record := by
      rw [here, Function.update_self]
    rw [InMemoryBackend.storedFootprint,
      show (world.put key record).backend.map[key]? = _ from found]
  rw [stored]
  refine ⟨rfl, ?_, framed.readings, fun other apart => ?_, ?_, ?_, ?_⟩
  · rw [here, Function.update_self]
  · rw [here, Function.update_of_ne apart, framed.others other apart]
  · rw [InMemoryBackend.bytesElsewhere, footprint, World.put, stored, ← framed.elsewhere]
    exact UInt64.add_sub_cancel _ _
  · rw [World.put, stored]
    exact framed.limit
  · rw [World.put, stored]
    exact framed.bypass

theorem refused (framed : Framed key start world cell) {record : Record}
    (full : start.backend.accepts key record = false) :
    (world.backend.putRecord key record).1 = false ∧
      Framed key start (world.put key record) cell := by
  have same := InMemoryBackend.putRecord_of_refused ((framed.accepts record).trans full)
  rw [World.put, same]
  exact ⟨rfl, framed⟩

theorem drop (framed : Framed key start world cell) :
    (world.backend.delKey key).1 = cell.held.isSome ∧
      Framed key start (world.drop key) { cell with held := none } := by
  have here : (world.drop key).view = Function.update world.view key none := World.drop_view key
  have answer : (world.backend.delKey key).1 = (world.view key).isSome := by
    rw [InMemoryBackend.delKey, World.view, Std.ExtTreeMap.isSome_getElem?_eq_contains]
    split
    case isTrue present => exact (Std.ExtTreeMap.contains_iff_mem.mpr present).symm
    case isFalse absent =>
      have missing : world.backend.map.contains key = false :=
        Bool.eq_false_iff.mpr fun found => absent (Std.ExtTreeMap.contains_iff_mem.mp found)
      exact missing.symm
  have footprint : (world.drop key).backend.storedFootprint key = 0 := by
    have gone : (world.drop key).view key = none := by rw [here, Function.update_self]
    rw [InMemoryBackend.storedFootprint, show (world.drop key).backend.map[key]? = _ from gone]
  have used : (world.drop key).backend.bytesUsed = world.backend.bytesElsewhere key := by
    rw [World.drop, InMemoryBackend.delKey, InMemoryBackend.bytesElsewhere]
    split
    case isTrue => rfl
    case isFalse absent =>
      have nothing : world.backend.storedFootprint key = 0 := by
        rw [InMemoryBackend.storedFootprint, Std.ExtTreeMap.getElem?_eq_none absent]
      rw [nothing, UInt64.sub_zero]
  have settings : (world.drop key).backend.maxStorageBytes = world.backend.maxStorageBytes ∧
      (world.drop key).backend.bypassLimit = world.backend.bypassLimit := by
    rw [World.drop, InMemoryBackend.delKey]
    split <;> exact ⟨rfl, rfl⟩
  have replied := answer.trans (by rw [framed.held])
  refine ⟨replied, ?_, framed.readings, fun other apart => ?_, ?_, ?_, ?_⟩
  · rw [here, Function.update_self]
  · rw [here, Function.update_of_ne apart, framed.others other apart]
  · rw [InMemoryBackend.bytesElsewhere, footprint, used, UInt64.sub_zero, framed.elsewhere]
  · rw [settings.1, framed.limit]
  · rw [settings.2, framed.bypass]

/-- **Every call on the key keeps the frame**, and is answered as on the cell. -/
theorem call (env : Env) (request : Call) (on : request.On key)
    (framed : Framed key start world cell) :
    (env.handle request world).1 = (env.cell (start.backend.accepts key) request cell).1 ∧
      Framed key start (env.handle request world).2
        (env.cell (start.backend.accepts key) request cell).2 := by
  cases request with
  | getRecord other =>
    obtain rfl : other = key := on
    exact ⟨framed.held, framed⟩
  | putRecord other record =>
    obtain rfl : other = key := on
    cases fits : start.backend.accepts other record with
    | true =>
      obtain ⟨done, after⟩ := framed.put fits
      simp only [Env.cell, fits, if_true]
      exact ⟨done, after⟩
    | false =>
      obtain ⟨done, after⟩ := framed.refused fits
      simp only [Env.cell, fits, Bool.false_eq_true, if_false]
      exact ⟨done, after⟩
  | delKey other =>
    obtain rfl : other = key := on
    exact framed.drop
  | nowEpochUs =>
    refine ⟨congrArg env.now framed.readings, framed.held, ?_, framed.others, framed.elsewhere,
      framed.limit, framed.bypass⟩
    exact congrArg (· + 1) framed.readings
  | clearAll => exact on.elim
  | size => exact on.elim
  | keys => exact on.elim
  | setBypassStorageLimit other => exact on.elim

end Framed

/-- **An operation on a key sees one cell.** -/
theorem exec_cell {α : Type} (env : Env) {key : Bytes} {operation : Engine α}
    (onKey : operation.Makes (Call.On key)) (world : World) :
    let alone := operation.run (env.cell (world.backend.accepts key)) (world.cellOf key)
    (env.exec operation world).1 = alone.1 ∧
      Framed key world (env.exec operation world).2 alone.2 :=
  onKey.run_related (fun request on _ _ framed => framed.call env request on)
    (Framed.initial world key)

/-! ### What a command calls -/

/-- Out of quota, with nothing to submit. -/
def StorageResult.Refused {α : Type} (result : StorageResult α) : Prop :=
  result.status = .quotaExceeded ∧ result.mutations = []

/-- A call that stores nothing, on the operation's key if it has one. -/
def Call.Spares (key? : Option Bytes) (request : Call) : Prop :=
  (∀ key record, request ≠ .putRecord key record) ∧ ∀ key ∈ key?, request.On key

/-- **On every path, the operation calls on its key only, and a refused record ends it**, with
nothing to submit. -/
inductive Yields {α : Type} (key? : Option Bytes) : Engine (StorageResult α) → Prop
  | done (result : StorageResult α) : Yields key? (.pure result)
  | put (key : Bytes) (record : Record) (next : Bool → Engine (StorageResult α)) :
      (∀ own ∈ key?, key = own) → Yields key? (next true) →
      (∃ result, next false = .pure result ∧ result.Refused) →
      Yields key? (.query (.putRecord key record) next)
  | other (request : Call) (next : request.Answer → Engine (StorageResult α)) :
      request.Spares key? → (∀ answer, Yields key? (next answer)) →
      Yields key? (.query request next)

section Operations

variable {key : Bytes} {key? : Option Bytes} {α β : Type}

theorem spares_getRecord : Call.Spares (some key) (.getRecord key) :=
  ⟨by simp, by simp [Call.On]⟩

theorem spares_delKey : Call.Spares (some key) (.delKey key) :=
  ⟨by simp, by simp [Call.On]⟩

theorem spares_nowEpochUs : Call.Spares key? .nowEpochUs :=
  ⟨by simp, fun _ _ => trivial⟩

namespace Yields

theorem makes {operation : Engine (StorageResult α)} (yields : Yields (some key) operation) :
    operation.Makes (Call.On key) := by
  induction yields with
  | done result => trivial
  | put other record next own _ refused ih =>
    obtain ⟨result, stops, -⟩ := refused
    refine ⟨own key rfl, fun answer => ?_⟩
    cases answer with
    | true => exact ih
    | false =>
      rw [stops]
      trivial
  | other request next spares _ ih => exact ⟨spares.2 key rfl, ih⟩

/-- What follows a refusal has to pass it on. -/
theorem bind {first : Engine (StorageResult α)} {rest : StorageResult α → Engine (StorageResult β)}
    (yields : Yields key? first) (later : ∀ result, Yields key? (rest result))
    (passes : ∀ result, result.Refused → ∃ last, rest result = .pure last ∧ last.Refused) :
    Yields key? (first >>= rest) := by
  induction yields with
  | done result => exact later result
  | put key record next own _ refused ih =>
    obtain ⟨result, stops, isRefused⟩ := refused
    refine .put key record _ own ih ?_
    rw [stops]
    exact passes result isRefused
  | other request next spares _ ih => exact .other request _ spares ih

/-- An operation that stores nothing may come first. -/
theorem after {first : Engine α} {rest : α → Engine (StorageResult β)}
    (spares : first.Makes (Call.Spares key?)) (later : ∀ value, Yields key? (rest value)) :
    Yields key? (first >>= rest) := by
  induction first with
  | pure value => exact later value
  | query request next ih =>
    exact .other request _ spares.1 fun answer => ih answer (spares.2 answer)

/-- A single call other than `putRecord`. -/
theorem ask {request : Call} {rest : request.Answer → Engine (StorageResult β)}
    (spares : request.Spares key?) (later : ∀ answer, Yields key? (rest answer)) :
    Yields key? (Program.ask request >>= rest) :=
  .other request _ spares later

theorem reply {operation : Engine (StorageResult α)} (yields : Yields key? operation)
    (wrap : α → Reply) : Yields key? (do return (← operation).reply wrap) :=
  yields.bind (fun _ => .done _) fun result refused => ⟨result.reply wrap, rfl, refused⟩

/-- A store that is answered by `success` or refused. -/
theorem store [Inhabited α] {record : Record} {success : Engine (StorageResult α)}
    (yields : Yields (some key) success) :
    Yields (some key) (do
      if ← putRecord key record then success else return .err .quotaExceeded) :=
  .put key record _ (by simp) yields ⟨.err .quotaExceeded, rfl, rfl, rfl⟩

/-- The reading of the clock between a store and the answer. -/
theorem stamped (result : Int64 → StorageResult α) :
    Yields key? (do
      let now ← nowEpochUs
      return result now) :=
  .ask spares_nowEpochUs fun _ => .done _

/-- The removal of the key, and the answer. -/
theorem dropped (result : StorageResult α) :
    Yields (some key) (do
      let _ ← delKey key
      return result) :=
  .ask spares_delKey fun _ => .done _

/-- A test of the arguments may come first. -/
theorem unlessInvalid [Inhabited α] {invalid : Prop} [Decidable invalid]
    {operation : Engine (StorageResult α)} (yields : Yields key? operation) :
    Yields key? (if invalid then return .err .invalidArg else operation) := by
  split
  · exact .done _
  · exact yields

end Yields

theorem makes_getLiveRecordOrExpire :
    (getLiveRecordOrExpire key).Makes (Call.Spares (some key)) := by
  refine Program.Makes.bind (Program.makes_ask spares_getRecord) fun held => ?_
  cases held with
  | none => exact trivial
  | some record =>
    refine Program.Makes.bind (Program.makes_ask spares_nowEpochUs) fun now => ?_
    split
    · exact Program.Makes.bind (Program.makes_ask spares_delKey) fun _ => trivial
    · exact trivial

theorem yields_unlessExpired (absent : α) {onLive : Record → Int64 → Engine (StorageResult α)}
    (later : ∀ record now, Yields (some key) (onLive record now)) :
    Yields (some key) (unlessExpired key absent onLive) := by
  refine .ask spares_getRecord fun held => ?_
  cases held with
  | none => exact .done _
  | some record =>
    refine .ask spares_nowEpochUs fun now => ?_
    split
    · exact .dropped _
    · exact later record now

/-- What follows a `getLiveRecordOrExpire`. -/
theorem yields_getLive {next : Option Record × MutationBatch → Engine (StorageResult α)}
    (absent : ∀ muts, Yields (some key) (next (none, muts)))
    (live : ∀ record muts, Yields (some key) (next (some record, muts))) :
    Yields (some key) (getLiveRecordOrExpire key >>= next) := by
  refine .after makes_getLiveRecordOrExpire fun (found, muts) => ?_
  cases found with
  | none => exact absent muts
  | some record => exact live record muts

theorem yields_getOrInitContainer (wantType : DataType) :
    Yields (some key) (getOrInitContainer key wantType) := by
  refine yields_getLive (fun muts => .store (.stamped _)) fun record muts => ?_
  dsimp only
  split
  · exact .done _
  · exact .done _

theorem yields_growContainer (wantType : DataType) (grow : DataValue → DataValue × Int) :
    Yields (some key) (growContainer wantType key grow) := by
  refine (yields_getOrInitContainer wantType).bind (fun held => ?_) fun held refused => ?_
  · dsimp only
    split
    · exact .done _
    · exact .store (.stamped _)
  · refine ⟨.err held.status, ?_, refused.1, rfl⟩
    dsimp only
    rw [if_pos (by rw [refused.1]; decide)]
    rfl

theorem yields_storeOrDrop [Inhabited α] (record : Record) (empty : Bool) (muts : MutationBatch)
    (value : α) : Yields (some key) (storeOrDrop key record empty muts value) := by
  cases empty with
  | true => exact .ask spares_delKey fun _ => .stamped _
  | false => exact .store (.stamped _)

theorem yields_readContainer [Inhabited α] (wantType : DataType) (absent : α)
    (view : DataValue → α) : Yields (some key) (readContainer wantType key absent view) := by
  refine yields_getLive (fun muts => .done _) fun record muts => ?_
  dsimp only
  split
  · exact .done _
  · exact .done _

theorem yields_popList (pop : List Bytes → Option (Bytes × List Bytes)) :
    Yields (some key) (popList key pop) := by
  refine yields_getLive (fun muts => .done _) fun record muts => ?_
  dsimp only
  split
  · exact .done _
  · cases pop record.value.listValue with
    | none => exact .done _
    | some popped => exact yields_storeOrDrop _ _ _ _

theorem yields_shrinkContainer (wantType : DataType)
    (shrink : DataValue → DataValue × Bool × Int) :
    Yields (some key) (shrinkContainer wantType key shrink) := by
  refine yields_getLive (fun muts => .done _) fun record muts => ?_
  dsimp only
  split
  · exact .done _
  · exact yields_storeOrDrop _ _ _ _

theorem yields_expire (ttlSeconds : Int64) : Yields (some key) (expire key ttlSeconds) := by
  refine .unlessInvalid (yields_unlessExpired _ fun record now => ?_)
  split
  · exact .dropped _
  · exact .store (.done _)

theorem yields_remaining (unit : Int64) : Yields (some key) (remaining unit key) := by
  refine yields_unlessExpired _ fun record now => ?_
  split
  · exact .done _
  · split
    · exact .dropped _
    · exact .done _

theorem yields_get : Yields (some key) (Storage.get key) := by
  refine yields_unlessExpired _ fun record now => ?_
  split
  · exact .done _
  · exact .done _

theorem yields_del : Yields (some key) (Storage.del key) := by
  refine .ask spares_delKey fun found => ?_
  cases found with
  | true => exact .stamped _
  | false => exact .done _

end Operations

/-- **Every command calls on its own key only, and stops at a refused record.** -/
theorem Command.yields (command : Command) : Yields command.key? command.program := by
  cases command with
  | set k value => exact (Yields.store (.stamped _)).reply _
  | get k => exact yields_get.reply _
  | del k => exact yields_del.reply _
  | keyExists k => exact (yields_unlessExpired _ fun _ _ => .done _).reply _
  | expire k ttlSeconds => exact (yields_expire ttlSeconds).reply _
  | persist k => exact (yields_unlessExpired _ fun _ _ => .store (.done _)).reply _
  | ttl k => exact (yields_remaining _).reply _
  | pttl k => exact (yields_remaining _).reply _
  | dbsize => exact Yields.reply (.ask ⟨by simp, by simp [key?]⟩ fun _ => .done _) _
  | keys => exact Yields.reply (.ask ⟨by simp, by simp [key?]⟩ fun _ => .done _) _
  | lpush k values => exact (yields_growContainer _ _).unlessInvalid.reply _
  | rpush k values => exact (yields_growContainer _ _).unlessInvalid.reply _
  | lpop k => exact (yields_popList _).reply _
  | rpop k => exact (yields_popList _).reply _
  | llen k => exact (yields_readContainer _ _ _).reply _
  | lindex k index => exact (yields_readContainer _ _ _).reply _
  | sadd k members => exact (yields_growContainer _ _).unlessInvalid.reply _
  | srem k members => exact (yields_shrinkContainer _ _).unlessInvalid.reply _
  | scard k => exact (yields_readContainer _ _ _).reply _
  | sismember k member => exact (yields_readContainer _ _ _).reply _
  | smembers k => exact (yields_readContainer _ _ _).reply _
  | hset k field value => exact (yields_growContainer _ _).reply _
  | hget k field => exact (yields_readContainer _ _ _).reply _
  | hdel k fields => exact (yields_shrinkContainer _ _).unlessInvalid.reply _
  | hlen k => exact (yields_readContainer _ _ _).reply _
  | hexists k field => exact (yields_readContainer _ _ _).reply _
  | hgetall k => exact (yields_readContainer _ _ _).reply _

theorem Command.makes (command : Command) {key : Bytes} (about : command.key? = some key) :
    command.program.Makes (Call.On key) := by
  have yields := command.yields
  rw [about] at yields
  exact yields.makes

end SunKV.Storage
