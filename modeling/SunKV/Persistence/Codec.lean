/-
**The binary formats: data values, records, log entries and snapshots.**

Each encoder is the byte string its `append` calls build, each decoder a reader with the checks in
the order of the source. The formats nest: a log entry and a snapshot carry records
(`RecordCodec`), a record carries a data value (`DataValueCodec`), every inner part behind its
32-bit length. Lengths are cast to 32 bits, which is what `leBytes 4` does.

`decodeOneStatus` tells a short read (`incompleteTail`) from bytes no encoder writes (`corrupt`).
-/

import SunKV.Storage.Value

namespace SunKV.Persistence

open SunKV.Lib SunKV.Lib.Reader SunKV.Storage

/-- `kVersion`, the same in all four formats. -/
def kVersion : UInt8 := 1

/-! ### Primitives -/

/-- `appendU32`. -/
def appendU32 (value : Nat) : Bytes := leBytes 4 value

/-- `appendI64`. -/
def appendI64 (value : Int64) : Bytes := leBytes 8 value.toUInt64.toNat

/-- `appendU64`. -/
def appendU64 (value : UInt64) : Bytes := leBytes 8 value.toNat

/-- `appendString`. -/
def appendString (value : Bytes) : Bytes := appendU32 value.length ++ value

/-- `readU32`. -/
def readU32 : Reader Nat := number 4

/-- `readI64`. -/
def readI64 : Reader Int64 := do
  let value ← number 8
  return (UInt64.ofNat value).toInt64

/-- `readU64`. -/
def readU64 : Reader UInt64 := do
  let value ← number 8
  return UInt64.ofNat value

/-- `readString`. -/
def readString : Reader Bytes := do
  let length ← readU32
  take length

/-! ### Data values -/

/-- The cast of a type tag to a byte. -/
def dataTypeByte : DataType → UInt8
  | .string => 0
  | .list => 1
  | .set => 2
  | .hash => 3

/-- The payload part of `DataValueCodec::encode`. -/
def encodePayload (value : DataValue) : Bytes :=
  match value.type with
  | .string => appendString value.stringValue
  | .list => appendU32 value.listValue.length ++ value.listValue.flatMap appendString
  | .set => appendU32 value.setValue.toList.length ++ value.setValue.toList.flatMap appendString
  | .hash =>
      appendU32 value.hashValue.toList.length ++
        value.hashValue.toList.flatMap fun entry => appendString entry.1 ++ appendString entry.2

/-- `DataValueCodec::encode`: the two zeros are the flags and a reserved byte. -/
def encodeDataValue (value : DataValue) (expireAtUs : Int64) : Bytes :=
  [ascii 'D', ascii 'V', kVersion, dataTypeByte value.type, 0, 0] ++ appendI64 expireAtUs ++
    appendU32 (encodePayload value).length ++ encodePayload value

/-- A field and its value. -/
def readEntry : Reader (Bytes × Bytes) := do
  let field ← readString
  let value ← readString
  return (field, value)

/-- The set of the items read. -/
def setOf (items : List Bytes) : StringSet :=
  items.foldl (fun held item => held.insert item) ∅

/-- The hash of the entries read; `emplace` keeps the first value of a field. -/
def hashOf (entries : List (Bytes × Bytes)) : Dict Bytes :=
  entries.foldl (fun held entry => held.insertIfNew entry.1 entry.2) ∅

/-- The `switch` of `DataValueCodec::decode` on the type byte. -/
def decodePayload (type : UInt8) : Reader DataValue :=
  if type = 0 then do
    let value ← readString
    return { DataValue.blank .string with stringValue := value }
  else if type = 1 then do
    let count ← readU32
    let items ← many count readString
    return { DataValue.blank .list with listValue := items }
  else if type = 2 then do
    let count ← readU32
    let items ← many count readString
    return { DataValue.blank .set with setValue := setOf items }
  else if type = 3 then do
    let count ← readU32
    let entries ← many count readEntry
    return { DataValue.blank .hash with hashValue := hashOf entries }
  else fun _ => none

/-- `DataValueCodec::decode`: the value and its expiry time. The flags, the reserved byte and
whatever follows the payload are ignored. -/
def decodeDataValue : Reader (DataValue × Int64) := do
  expect (ascii 'D')
  expect (ascii 'V')
  expect kVersion
  let type ← byte
  let _ ← byte
  let _ ← byte
  let expireAtUs ← readI64
  let length ← readU32
  let payload ← take length
  let value ← within payload (decodePayload type)
  return (value, expireAtUs)

/-! ### Records -/

/-- `RecordCodec::encode`. -/
def encodeRecord (record : Record) : Bytes :=
  [ascii 'R', ascii 'C', kVersion] ++ appendU64 record.version ++
    appendU32 (encodeDataValue record.value record.expireAtUs).length ++
    encodeDataValue record.value record.expireAtUs

/-- The reads of `RecordCodec::decode`. -/
def readRecord : Reader Record := do
  expect (ascii 'R')
  expect (ascii 'C')
  expect kVersion
  let version ← readU64
  let length ← readU32
  let slice ← take length
  let decoded ← within slice decodeDataValue
  return { value := decoded.1, expireAtUs := decoded.2, version := version }

/-- `RecordCodec::decode` of a byte string; what follows the record is ignored. -/
def decodeRecord (data : Bytes) : Option Record :=
  (readRecord data).map Prod.fst

/-! ### Log entries -/

/-- The record bytes of an entry: none but for a `PutRecord` with a record. -/
def encodeMutationRecord (mutation : Mutation) : Bytes :=
  match mutation.type, mutation.record with
  | .putRecord, some record => encodeRecord record
  | _, _ => []

/-- `WalCodec::appendMutation`. -/
def encodeMutation (mutation : Mutation) : Bytes :=
  [ascii 'W', ascii '2', kVersion] ++ appendI64 mutation.tsUs ++ [mutation.type.toByte] ++
    appendString mutation.key ++ appendU32 (encodeMutationRecord mutation).length ++
    encodeMutationRecord mutation

/-- `WalCodec::encodeBatch`. -/
def encodeBatch (batch : MutationBatch) : Bytes := batch.flatMap encodeMutation

/-- What `decodeOneStatus` finds: an entry and the bytes after it, too few bytes, or bytes that
are no entry. -/
inductive DecodeStatus
  | ok (mutation : Mutation) (rest : Bytes)
  | incompleteTail
  | corrupt
  deriving DecidableEq

/-- The three bytes `decodeOneStatus` reads before it compares any of them. -/
def readHeader : Reader (UInt8 × UInt8 × UInt8) := do
  let m0 ← byte
  let m1 ← byte
  let version ← byte
  return (m0, m1, version)

/-- The fields after the header, with the record still in bytes. -/
def readFields : Reader (Mutation × Bytes) := do
  let tsUs ← readI64
  let type ← byte
  let key ← readString
  let length ← readU32
  let recordBytes ← take length
  return ({ type := .ofByte type, key := key, tsUs := tsUs }, recordBytes)

/-- The last step of `decodeOneStatus`: the record, when there are bytes for one. -/
def finishEntry (mutation : Mutation) (recordBytes rest : Bytes) : DecodeStatus :=
  if recordBytes = [] then .ok mutation rest
  else
    match decodeRecord recordBytes with
    | none => .corrupt
    | some record => .ok { mutation with record := some record } rest

/-- `WalCodec::decodeOneStatus`. -/
def decodeOneStatus (data : Bytes) : DecodeStatus :=
  match readHeader data with
  | none => .incompleteTail
  | some ((m0, m1, version), body) =>
    if m0 ≠ ascii 'W' ∨ m1 ≠ ascii '2' then .corrupt
    else if version ≠ kVersion then .corrupt
    else
      match readFields body with
      | none => .incompleteTail
      | some ((mutation, recordBytes), rest) => finishEntry mutation recordBytes rest

/-- `decodeOneStatus` through its cursor: the entry and the offset behind it. An incomplete tail
restores the offset, and after a corruption nobody looks at it. -/
inductive CursorStatus
  | ok (mutation : Mutation) (off : Nat)
  | incompleteTail
  | corrupt
  deriving DecidableEq

/-- `decodeOneStatus(data, len, &off, &out)`: every read is of the bytes from `off` on. -/
def decodeOneStatusAt (data : Bytes) (off : Nat) : CursorStatus :=
  match decodeOneStatus (data.drop off) with
  | .ok mutation rest => .ok mutation (data.length - rest.length)
  | .incompleteTail => .incompleteTail
  | .corrupt => .corrupt

/-! ### Snapshots -/

/-- One record of a snapshot. -/
def encodeSnapshotRecord (entry : Bytes × Record) : Bytes :=
  appendString entry.1 ++ appendU32 (encodeRecord entry.2).length ++ encodeRecord entry.2

/-- The bytes `SnapshotWriter::writeToFile` writes; the count is cast to 32 bits. -/
def encodeSnapshot (records : List (Bytes × Record)) : Bytes :=
  [ascii 'S', ascii '2', kVersion] ++ appendU32 records.length ++
    records.flatMap encodeSnapshotRecord

/-- One record of a snapshot. -/
def readSnapshotRecord : Reader (Bytes × Record) := do
  let key ← readString
  let length ← readU32
  let slice ← take length
  let record ← within slice readRecord
  return (key, record)

/-- The reads of `SnapshotReader::readFromFile`. -/
def readSnapshot : Reader (List (Bytes × Record)) := do
  expect (ascii 'S')
  expect (ascii '2')
  expect kVersion
  let count ← readU32
  many count readSnapshotRecord

/-- `SnapshotReader::readFromFile` on the contents of a file; what follows the last record is
ignored. -/
def decodeSnapshot (data : Bytes) : Option (List (Bytes × Record)) :=
  (readSnapshot data).map Prod.fst

end SunKV.Persistence
