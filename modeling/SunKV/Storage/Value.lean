/-
**The data model: values, records and mutations.**

A `DataValue` is the flat structure of the source: a type tag and one field per type. Which field
is meant follows from the tag alone, so a value is `WellFormed` when every other field is empty.
A `Record` adds the absolute expiry time in microseconds (negative: none), and a `Mutation` is one
write event as the log carries it.

`std::map`, `std::set` and `std::unordered_map` with string keys are the extensional tree
containers of the standard library; their enumeration is in key order, as for the first two.
-/

import SunKV.Lib.Reader

namespace SunKV.Storage

open SunKV.Lib

/-- A map with byte-string keys. -/
abbrev Dict (ν : Type) := Std.ExtTreeMap Bytes ν compare

/-- A set of byte strings. -/
abbrev StringSet := Std.ExtTreeSet Bytes compare

/-- `enum class DataType`. -/
inductive DataType
  | string
  | list
  | set
  | hash
  deriving DecidableEq, Repr

/-- `NO_TTL`. -/
def noTtl : Int64 := -1

/-- `struct DataValue`, without its two steady-clock fields. -/
structure DataValue where
  type : DataType
  stringValue : Bytes
  listValue : List Bytes
  setValue : StringSet
  hashValue : Dict Bytes
  ttlSeconds : Int64
  deriving DecidableEq

/-- A default-constructed value, with its tag set. -/
def DataValue.blank (type : DataType) : DataValue where
  type := type
  stringValue := []
  listValue := []
  setValue := ∅
  hashValue := ∅
  ttlSeconds := noTtl

/-- `DataValue(const std::string&)`. -/
def DataValue.ofString (value : Bytes) : DataValue :=
  { DataValue.blank .string with stringValue := value }

/-- **The tag says which field is meant**: all others are empty, and no relative TTL is set. -/
structure DataValue.WellFormed (value : DataValue) : Prop where
  string : value.type ≠ .string → value.stringValue = []
  list : value.type ≠ .list → value.listValue = []
  set : value.type ≠ .set → value.setValue = ∅
  hash : value.type ≠ .hash → value.hashValue = ∅
  ttl : value.ttlSeconds = noTtl

/-- A container that holds nothing. A string is never one. -/
def DataValue.Vacant (value : DataValue) : Prop :=
  match value.type with
  | .string => False
  | .list => value.listValue = []
  | .set => value.setValue = ∅
  | .hash => value.hashValue = ∅

theorem DataValue.blank_wellFormed (type : DataType) : (DataValue.blank type).WellFormed :=
  ⟨fun _ => rfl, fun _ => rfl, fun _ => rfl, fun _ => rfl, rfl⟩

theorem DataValue.ofString_wellFormed (value : Bytes) : (DataValue.ofString value).WellFormed :=
  ⟨fun other => (other rfl).elim, fun _ => rfl, fun _ => rfl, fun _ => rfl, rfl⟩

/-- `struct Record`. -/
structure Record where
  value : DataValue
  expireAtUs : Int64 := -1
  version : UInt64 := 0
  deriving DecidableEq

instance : Inhabited Record := ⟨{ value := DataValue.blank .string }⟩

/-- `enum class MutationType`. The codec casts a byte to it, so a value outside the three
enumerators is possible and carried as it is. -/
inductive MutationType
  | putRecord
  | delKey
  | clearAll
  | unlisted (code : UInt8) (outside : 3 ≤ code)
  deriving DecidableEq

/-- The cast to a byte. -/
def MutationType.toByte : MutationType → UInt8
  | .putRecord => 0
  | .delKey => 1
  | .clearAll => 2
  | .unlisted code _ => code

/-- The cast from a byte. -/
def MutationType.ofByte (code : UInt8) : MutationType :=
  if outside : 3 ≤ code then .unlisted code outside
  else if code = 0 then .putRecord
  else if code = 1 then .delKey
  else .clearAll

theorem MutationType.ofByte_toByte (type : MutationType) : ofByte type.toByte = type := by
  cases type with
  | putRecord => rfl
  | delKey => rfl
  | clearAll => rfl
  | unlisted code outside => simp [ofByte, toByte, outside]

/-- `struct Mutation`. -/
structure Mutation where
  type : MutationType
  key : Bytes := []
  record : Option Record := none
  tsUs : Int64 := 0
  deriving DecidableEq

/-- `MutationBatch`. -/
abbrev MutationBatch := List Mutation

/-- A `PutRecord` event. -/
def Mutation.put (key : Bytes) (record : Record) (tsUs : Int64) : Mutation :=
  { type := .putRecord, key := key, record := some record, tsUs := tsUs }

/-- A `DelKey` event. -/
def Mutation.del (key : Bytes) (tsUs : Int64) : Mutation :=
  { type := .delKey, key := key, tsUs := tsUs }

/-- A `ClearAll` event. -/
def Mutation.clear (tsUs : Int64) : Mutation :=
  { type := .clearAll, tsUs := tsUs }

/-- `enum class StatusCode`. -/
inductive StatusCode
  | ok
  | notFound
  | wrongType
  | invalidArg
  | internalError
  | notImplemented
  | quotaExceeded
  deriving DecidableEq, Repr

/-- `struct StorageResult<T>`. -/
structure StorageResult (α : Type) where
  status : StatusCode
  value : α
  mutations : MutationBatch
  deriving DecidableEq

/-- `StorageResult::ok`. -/
def StorageResult.ok {α : Type} (value : α) (mutations : MutationBatch := []) :
    StorageResult α where
  status := .ok
  value := value
  mutations := mutations

/-- `StorageResult::err`: the value is default-constructed and the mutations are dropped. -/
def StorageResult.err {α : Type} [Inhabited α] (status : StatusCode) : StorageResult α where
  status := status
  value := default
  mutations := []

end SunKV.Storage
