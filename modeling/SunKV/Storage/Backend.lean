/-
**The in-memory backend and the calls the engine makes on it.**

`InMemoryBackend` is the mutex-protected map with its footprint counter and storage limit; each
member function is one atomic step on it. An engine operation is a program over these calls and
the clock (`Call`); `Env.handle` runs one call on a `World`, that is a backend and the number of
environment readings made so far.

`Env` fixes what the program cannot choose: the successive readings of the clock, which never run
backwards, and the order in which the hash table is enumerated, which is some permutation.
-/

import SunKV.Lib.Program
import SunKV.Storage.Value

namespace SunKV.Storage

open SunKV.Lib

/-! ### The backend -/

/-- `estimateDataValue`. -/
def estimateDataValue (value : DataValue) : Nat :=
  match value.type with
  | .string => 32 + value.stringValue.length
  | .list => 32 + (value.listValue.map List.length).sum
  | .set => 32 + (value.setValue.toList.map List.length).sum
  | .hash => 32 + (value.hashValue.toList.map fun entry => entry.1.length + entry.2.length).sum

/-- `sizeof(Record) / 2` on the 64-bit platforms the server is built for. -/
def halfRecordSize : Nat := 100

/-- `estimateFootprint`. -/
def estimateFootprint (key : Bytes) (record : Record) : Nat :=
  key.length + estimateDataValue record.value + halfRecordSize

/-- `class InMemoryBackend`: the counters are `size_t`. -/
structure InMemoryBackend where
  map : Dict Record := ∅
  maxStorageBytes : UInt64 := 0
  bytesUsed : UInt64 := 0
  bypassLimit : Bool := false
  deriving DecidableEq

namespace InMemoryBackend

variable (backend : InMemoryBackend)

/-- `setBypassStorageLimit`. -/
def setBypassStorageLimit (on : Bool) : InMemoryBackend :=
  { backend with bypassLimit := on }

/-- `getRecord`. -/
def getRecord (key : Bytes) : Option Record :=
  backend.map[key]?

/-- The footprint a stored key accounts for, `0` when it is absent. -/
def storedFootprint (key : Bytes) : UInt64 :=
  match backend.map[key]? with
  | some record => UInt64.ofNat (estimateFootprint key record)
  | none => 0

/-- `putRecord`: refused when the projected footprint exceeds the limit. -/
def putRecord (key : Bytes) (record : Record) : Bool × InMemoryBackend :=
  let oldFp := backend.storedFootprint key
  let newFp := UInt64.ofNat (estimateFootprint key record)
  if !backend.bypassLimit && decide (0 < backend.maxStorageBytes) &&
      decide (backend.maxStorageBytes < backend.bytesUsed - oldFp + newFp) then
    (false, backend)
  else
    (true, { backend with
      map := backend.map.insert key record
      bytesUsed := backend.bytesUsed - oldFp + newFp })

/-- `delKey`. -/
def delKey (key : Bytes) : Bool × InMemoryBackend :=
  if key ∈ backend.map then
    (true, { backend with
      map := backend.map.erase key
      bytesUsed := backend.bytesUsed - backend.storedFootprint key })
  else
    (false, backend)

/-- `clearAll`. -/
def clearAll : InMemoryBackend :=
  { backend with map := ∅, bytesUsed := 0 }

/-- `size`. -/
def size : Int :=
  backend.map.size

/-- `keys`, before the environment's enumeration order is applied. -/
def keys : List Bytes :=
  backend.map.keys

/-- `max_storage_bytes == 0`: nothing is ever refused. -/
def Unlimited : Prop :=
  backend.maxStorageBytes = 0

end InMemoryBackend

/-! ### Calls -/

/-- What an engine operation can ask: the virtual functions of `IBackend`, and `nowEpochUs`. -/
inductive Call
  | getRecord (key : Bytes)
  | putRecord (key : Bytes) (record : Record)
  | delKey (key : Bytes)
  | clearAll
  | size
  | keys
  | setBypassStorageLimit (on : Bool)
  | nowEpochUs
  deriving DecidableEq

/-- The return type of a call. -/
def Call.Answer : Call → Type
  | .getRecord _ => Option Record
  | .putRecord _ _ => Bool
  | .delKey _ => Bool
  | .clearAll => Unit
  | .size => Int
  | .keys => List Bytes
  | .setBypassStorageLimit _ => Unit
  | .nowEpochUs => Int64

/-- An engine operation. -/
abbrev Engine := Program Call.Answer

/-- **The environment**: a clock that never runs backwards, and an enumeration order of the hash
table at every reading. -/
structure Env where
  now : Nat → Int64
  now_mono : ∀ {first second : Nat}, first ≤ second → now first ≤ now second
  order : Nat → List Bytes → List Bytes
  order_perm : ∀ reading keys, (order reading keys).Perm keys

/-- A clock that stands still, and the keys in their own order. -/
def Env.still (time : Int64) : Env where
  now := fun _ => time
  now_mono := fun _ => Int64.le_refl _
  order := fun _ keys => keys
  order_perm := fun _ _ => List.Perm.refl _

/-- A backend, and how often the environment has been read. -/
structure World where
  backend : InMemoryBackend := {}
  readings : Nat := 0
  deriving DecidableEq

/-- **The effect of one call.** -/
def Env.handle (env : Env) : Handler Call.Answer World
  | .getRecord key, world => (world.backend.getRecord key, world)
  | .putRecord key record, world =>
      ((world.backend.putRecord key record).1,
        { world with backend := (world.backend.putRecord key record).2 })
  | .delKey key, world =>
      ((world.backend.delKey key).1, { world with backend := (world.backend.delKey key).2 })
  | .clearAll, world => ((), { world with backend := world.backend.clearAll })
  | .size, world => (world.backend.size, world)
  | .keys, world =>
      (env.order world.readings world.backend.keys, { world with readings := world.readings + 1 })
  | .setBypassStorageLimit on, world =>
      ((), { world with backend := world.backend.setBypassStorageLimit on })
  | .nowEpochUs, world =>
      (env.now world.readings, { world with readings := world.readings + 1 })

/-- An operation run alone. -/
def Env.exec {α : Type} (env : Env) (operation : Engine α) (world : World) : α × World :=
  operation.run env.handle world

/-! ### What no operation changes -/

section Exec

variable {α : Type} (env : Env) (world : World)

/-- The limit stays as it was set. -/
theorem exec_limit (operation : Engine α) :
    (env.exec operation world).2.backend.maxStorageBytes = world.backend.maxStorageBytes := by
  induction operation generalizing world with
  | pure value => rfl
  | query request next ih =>
    refine (ih _ _).trans ?_
    cases request with
    | putRecord key record =>
      show (world.backend.putRecord key record).2.maxStorageBytes = _
      unfold InMemoryBackend.putRecord
      dsimp only
      split <;> rfl
    | delKey key =>
      show (world.backend.delKey key).2.maxStorageBytes = _
      unfold InMemoryBackend.delKey
      split <;> rfl
    | _ => rfl

/-- The environment is read more and more often. -/
theorem readings_le (operation : Engine α) :
    world.readings ≤ (env.exec operation world).2.readings := by
  induction operation generalizing world with
  | pure value => exact le_rfl
  | query request next ih =>
    refine le_trans ?_ (ih _ _)
    cases request with
    | keys => exact Nat.le_succ _
    | nowEpochUs => exact Nat.le_succ _
    | _ => exact le_rfl

end Exec

/-! ### The calls on a backend without limit -/

section Unlimited

variable {backend : InMemoryBackend}

theorem putRecord_of_unlimited (unlimited : backend.Unlimited) (key : Bytes) (record : Record) :
    (backend.putRecord key record).1 = true ∧
      (backend.putRecord key record).2.map = backend.map.insert key record ∧
      (backend.putRecord key record).2.Unlimited := by
  have noLimit : backend.maxStorageBytes = 0 := unlimited
  simp [InMemoryBackend.putRecord, InMemoryBackend.Unlimited, noLimit]

theorem delKey_map (key : Bytes) : (backend.delKey key).2.map = backend.map.erase key := by
  unfold InMemoryBackend.delKey
  split
  case isTrue => rfl
  case isFalse absent =>
    refine Std.ExtTreeMap.ext_getElem? fun other => ?_
    rw [Std.ExtTreeMap.getElem?_erase]
    split
    case isTrue same =>
      obtain rfl := Std.LawfulEqCmp.eq_of_compare same
      exact Std.ExtTreeMap.getElem?_eq_none absent
    case isFalse => rfl

theorem delKey_unlimited (unlimited : backend.Unlimited) (key : Bytes) :
    (backend.delKey key).2.Unlimited := by
  unfold InMemoryBackend.delKey
  split <;> exact unlimited

end Unlimited

end SunKV.Storage
