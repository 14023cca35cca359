/-
**The snapshot file, as its streams write and read it.**

`SnapshotWriter` and `SnapshotReader` do not use the buffers of the other codecs: they put bytes on
a `std::ofstream` and take them off a `std::ifstream`, and a read that comes short is only seen in
the state of the stream. `IStream` is that stream, with the bytes it has left and `good()`.

* `Agrees` — a function on streams does what a reader of byte strings does. Closed under sequencing,
  so the stream functions are related to the readers of the codec one by one.
* `readFromFile_eq` — `readFromFile` is `decodeSnapshot` on the content of the file.
* `writtenBytes_eq` — what is put on the output stream is `encodeSnapshot`.
* `readFromFile_writtenBytes` — **round trip**: the reader gives back the records in order, and
  nothing on a file that was cut anywhere.
-/

import SunKV.Persistence.CodecLaws

namespace SunKV.Persistence

open SunKV.Lib SunKV.Lib.Reader SunKV.Storage

/-! ### Input streams -/

/-- A `std::ifstream`: the bytes it has left, and `good()`. -/
structure IStream where
  unread : Bytes
  good : Bool := true

/-- `in.get(c)`. At the end of the file the stream goes bad. -/
def IStream.get (input : IStream) : Option UInt8 × IStream :=
  match input.good, input.unread with
  | true, byte :: rest => (some byte, { input with unread := rest })
  | _, _ => (none, { input with good := false })

/-- `in.read(buffer, count)`: a file too short fills a front of the buffer, and the stream goes bad.
Reading exactly to the end of the file leaves it good. -/
def IStream.read (input : IStream) (buffer : Bytes) (count : Nat) : Bytes × IStream :=
  if input.good = true ∧ count ≤ input.unread.length then
    (input.unread.take count, { input with unread := input.unread.drop count })
  else (input.unread ++ buffer.drop input.unread.length, { unread := [], good := false })

/-- A function that reads a stream; nothing is returned where the source returns `false`. -/
abbrev StreamReader := StateT IStream Option

namespace SnapshotReader

/-- `readU8`. -/
def readU8 : StreamReader UInt8 := fun input =>
  match input.get with
  | (some byte, input) => some (byte, input)
  | (none, _) => none

/-- The loop of `readU32`, from the byte `index` on. -/
def readU32Loop : Nat → Nat → Nat → StreamReader Nat
  | 0, _, value => return value
  | left + 1, index, value => do
    let byte ← readU8
    readU32Loop left (index + 1) (value ||| byte.toNat <<< (index * 8))

/-- `readU32`. -/
def readU32 : StreamReader Nat := readU32Loop 4 0 0

/-- `readBytes`: nothing is read when nothing is asked for. -/
def readBytes (count : Nat) : StreamReader Bytes := fun input =>
  let buffer := List.replicate count 0
  if count = 0 then some (buffer, input)
  else
    let (filled, input) := input.read buffer count
    if input.good then some (filled, input) else none

/-- `readString`. -/
def readString : StreamReader Bytes := do
  let count ← readU32
  readBytes count

/-- `RecordCodec::decode`, which does not touch the stream. -/
def decoded (bytes : Bytes) : StreamReader Record := fun input =>
  (decodeRecord bytes).map fun record => (record, input)

/-- The loop over the records. -/
def readRecords : Nat → StreamReader (List (Bytes × Record))
  | 0 => return []
  | count + 1 => do
    let key ← readString
    let length ← readU32
    let bytes ← readBytes length
    let record ← decoded bytes
    let rest ← readRecords count
    return (key, record) :: rest

/-- `readFromFile` on an open stream. -/
def readStream : StreamReader (List (Bytes × Record)) := do
  let m0 ← readU8
  let m1 ← readU8
  let version ← readU8
  if m0 ≠ ascii 'S' ∨ m1 ≠ ascii '2' then fun _ => none
  else if version ≠ kVersion then fun _ => none
  else do
    let count ← readU32
    readRecords count

end SnapshotReader

/-- **`SnapshotReader::readFromFile`**, given the file at the path, if there is one. -/
def readFromFile (file : Option Bytes) : Option (List (Bytes × Record)) :=
  match file with
  | none => none
  | some content => (SnapshotReader.readStream { unread := content }).map Prod.fst

/-! ### Streams and byte strings -/

namespace SnapshotReader

variable {α β : Type}

/-- **On a good stream the function does what the reader does** on the bytes left, and it leaves the
stream good. -/
def Agrees (function : StreamReader α) (reader : Reader α) : Prop :=
  ∀ unread, function { unread := unread } =
    (reader unread).map fun step => (step.1, { unread := step.2 })

theorem Agrees.pure (value : α) : Agrees (Pure.pure value) (Pure.pure value) :=
  fun _ => rfl

theorem Agrees.fail : Agrees (fun _ => none : StreamReader α) (fun _ => none) :=
  fun _ => rfl

theorem Agrees.bind {function : StreamReader α} {reader : Reader α}
    {next : α → StreamReader β} {next' : α → Reader β} (first : Agrees function reader)
    (rest : ∀ value, Agrees (next value) (next' value)) :
    Agrees (function >>= next) (reader >>= next') := by
  intro unread
  change (function { unread := unread }).bind (fun step => next step.1 step.2) =
    ((reader unread).bind fun step => next' step.1 step.2).map _
  rw [first unread]
  cases reader unread with
  | none => rfl
  | some step => exact rest step.1 step.2

theorem Agrees.ite {condition : Prop} [Decidable condition] {yes no : StreamReader α}
    {yes' no' : Reader α} (first : Agrees yes yes') (second : Agrees no no') :
    Agrees (if condition then yes else no) (if condition then yes' else no') := by
  split
  · exact first
  · exact second

theorem agrees_u8 : Agrees readU8 byte := by
  intro unread
  cases unread with
  | nil => rfl
  | cons first rest => rfl

/-- The bytes `readU32` has yet to read stand above those it has read. -/
theorem agrees_u32Loop (left index value : Nat) (low : value < 256 ^ index) :
    Agrees (readU32Loop left index value)
      (number left >>= fun high => Pure.pure (value + 256 ^ index * high)) := by
  induction left generalizing index value with
  | zero =>
    intro unread
    show some (value, _) = some (value + 256 ^ index * 0, _)
    rw [Nat.mul_zero, Nat.add_zero]
    rfl
  | succ left ih =>
    have step := agrees_u8.bind fun first => ih (index + 1) _ (add_byte_lt low first)
    simp only [add_byte_add] at step
    simp only [readU32Loop, or_shiftLeft_byte low, number_succ, bind_assoc, pure_bind]
    exact step

theorem agrees_u32 : Agrees readU32 Persistence.readU32 := by
  have loop := agrees_u32Loop 4 0 0 Nat.one_pos
  simp only [Nat.pow_zero, Nat.one_mul, Nat.zero_add, bind_pure] at loop
  exact loop

theorem agrees_bytes (count : Nat) : Agrees (readBytes count) (take count) := by
  intro unread
  unfold readBytes take
  by_cases nothing : count = 0
  · subst nothing
    rfl
  · rw [if_neg nothing]
    by_cases enough : count ≤ unread.length
    · rw [if_pos enough]
      simp only [IStream.read, enough, and_self, if_true]
      rfl
    · rw [if_neg enough]
      simp only [IStream.read, enough, and_false, if_false, Bool.false_eq_true]
      rfl

theorem agrees_string : Agrees readString Persistence.readString :=
  agrees_u32.bind agrees_bytes

theorem agrees_decoded (bytes : Bytes) : Agrees (decoded bytes) (within bytes readRecord) := by
  intro unread
  show (decodeRecord bytes).map _ = ((readRecord bytes).map _).map _
  rw [decodeRecord, Option.map_map, Option.map_map]
  rfl

theorem agrees_records (count : Nat) :
    Agrees (readRecords count) (many count readSnapshotRecord) := by
  induction count with
  | zero => exact Agrees.pure []
  | succ count ih =>
    have step := agrees_string.bind fun key => agrees_u32.bind fun length =>
      (agrees_bytes length).bind fun bytes => (agrees_decoded bytes).bind fun record =>
        ih.bind fun rest => Agrees.pure ((key, record) :: rest)
    simp only [readRecords, many, readSnapshotRecord, bind_assoc, pure_bind]
    exact step

end SnapshotReader

/-- The reads of a header, before any of it is looked at. -/
theorem readSnapshot_eq :
    readSnapshot = byte >>= fun m0 => byte >>= fun m1 => byte >>= fun version =>
      if m0 ≠ ascii 'S' ∨ m1 ≠ ascii '2' then fun _ => none
      else if version ≠ kVersion then fun _ => none
      else Persistence.readU32 >>= fun count => many count readSnapshotRecord := by
  funext data
  have checked (value : UInt8) (next : Reader (List (Bytes × Record))) (first : UInt8)
      (rest : Bytes) : (expect value >>= fun _ => next) (first :: rest) =
        if first = value then next rest else none := by
    change ((if first = value then Pure.pure () else fun _ => none : Reader Unit) rest).bind
      (fun step => next step.2) = _
    split <;> rfl
  rcases data with _ | ⟨m0, _ | ⟨m1, _ | ⟨version, rest⟩⟩⟩
  · rfl
  · rw [readSnapshot, checked]
    exact ite_self none
  · rw [readSnapshot, checked, checked]
    simp only [show (expect kVersion >>= fun _ => readU32 >>= fun count =>
      many count readSnapshotRecord) [] = none from rfl, ite_self]
    rfl
  · rw [readSnapshot, checked, checked, checked]
    change _ = (if m0 ≠ ascii 'S' ∨ m1 ≠ ascii '2' then fun _ => none
      else if version ≠ kVersion then fun _ => none
      else Persistence.readU32 >>= fun count => many count readSnapshotRecord : Reader _) rest
    by_cases first : m0 = ascii 'S'
    · by_cases second : m1 = ascii '2'
      · by_cases third : version = kVersion
        · simp [first, second, third]
        · simp [first, second, third]
      · simp [second]
    · simp [first]

/-- **`readFromFile` decodes the content of the file.** -/
theorem readFromFile_eq (content : Bytes) :
    readFromFile (some content) = decodeSnapshot content := by
  have agrees : SnapshotReader.Agrees SnapshotReader.readStream readSnapshot := by
    rw [readSnapshot_eq]
    exact SnapshotReader.agrees_u8.bind fun m0 => SnapshotReader.agrees_u8.bind fun m1 =>
      SnapshotReader.agrees_u8.bind fun version => .ite .fail <| .ite .fail <|
        SnapshotReader.agrees_u32.bind fun count => SnapshotReader.agrees_records count
  show (SnapshotReader.readStream { unread := content }).map Prod.fst = _
  rw [agrees content, Option.map_map]
  rfl

/-! ### Output streams -/

namespace SnapshotWriter

/-- `writeU32`: the argument was cast to 32 bits. -/
def writeU32 (value : Nat) : Bytes :=
  (List.range 4).map fun index => UInt8.ofNat (((value % 2 ^ 32) >>> (index * 8)) &&& 0xFF)

/-- `writeString`: nothing is written of an empty string but its length. -/
def writeString (value : Bytes) : Bytes :=
  writeU32 value.length ++ if value.isEmpty then [] else value

/-- What stands before the records. -/
def header (count : Nat) : Bytes := [ascii 'S', ascii '2', kVersion] ++ writeU32 count

/-- What one turn of the loop over the records writes. -/
def writeRecord (entry : Bytes × Record) : Bytes :=
  let rb := encodeRecord entry.2
  writeString entry.1 ++ writeU32 rb.length ++ if rb.isEmpty then [] else rb

theorem writeU32_eq (value : Nat) : writeU32 value = appendU32 value := by
  have low (number : Nat) : UInt8.ofNat (number &&& 0xFF) = UInt8.ofNat number := by
    refine UInt8.toNat_inj.mp ?_
    rw [UInt8.toNat_ofNat', UInt8.toNat_ofNat', show (0xFF : Nat) = 2 ^ 8 - 1 from rfl,
      Nat.and_two_pow_sub_one_eq_mod]
    omega
  have shifted (index : Nat) (small : index < 4) :
      UInt8.ofNat ((value % 2 ^ 32) >>> (index * 8)) = UInt8.ofNat (value / 256 ^ index) := by
    refine UInt8.toNat_inj.mp ?_
    rw [UInt8.toNat_ofNat', UInt8.toNat_ofNat', Nat.shiftRight_eq_div_pow]
    interval_cases index <;> omega
  calc writeU32 value
      = (List.range 4).map fun index => UInt8.ofNat (value / 256 ^ index) :=
        List.map_congr_left fun index member => by
          rw [low, shifted index (List.mem_range.mp member)]
    _ = appendU32 value := by
        simp [appendU32, leBytes, List.range_succ, Nat.div_div_eq_div_mul]

end SnapshotWriter

/-- **The bytes `SnapshotWriter::writeToFile` puts on its stream.** -/
def writtenBytes (records : List (Bytes × Record)) : Bytes :=
  SnapshotWriter.header records.length ++ records.flatMap SnapshotWriter.writeRecord

theorem ite_isEmpty (bytes : Bytes) : (if bytes.isEmpty then [] else bytes) = bytes := by
  cases bytes <;> rfl

theorem writtenBytes_eq (records : List (Bytes × Record)) :
    writtenBytes records = encodeSnapshot records := by
  have each : SnapshotWriter.writeRecord = encodeSnapshotRecord := by
    funext entry
    simp only [SnapshotWriter.writeRecord, SnapshotWriter.writeString, SnapshotWriter.writeU32_eq,
      ite_isEmpty]
    rfl
  rw [writtenBytes, each, SnapshotWriter.header, SnapshotWriter.writeU32_eq]
  rfl

/-- The records can be written: their count, keys and encodings fit 32 bits. -/
structure Storable (records : List (Bytes × Record)) : Prop where
  few : records.length < 2 ^ 32
  each : ∀ entry ∈ records, entry.1.length < 2 ^ 32 ∧ (encodeRecord entry.2).length < 2 ^ 32 ∧
    entry.2.value.WellFormed

section Storable

variable {records : List (Bytes × Record)}

theorem Storable.sized (storable : Storable records) : ∀ entry ∈ records,
    entry.1.length < 2 ^ 32 ∧ entry.2.value.WellFormed ∧ Record.Sized entry.2 := by
  intro entry member
  obtain ⟨key, record, wf⟩ := storable.each entry member
  exact ⟨key, wf, record⟩

theorem Storable.readFromFile (storable : Storable records) :
    readFromFile (some (writtenBytes records)) = some records := by
  rw [readFromFile_eq, writtenBytes_eq, decodeSnapshot_encode storable.sized,
    Nat.mod_eq_of_lt storable.few, List.take_length]

end Storable

/-- **Round trip of the snapshot file.** The reader gives back the records in order, and nothing on
a strict prefix of the file. -/
theorem readFromFile_writtenBytes (records : List (Bytes × Record)) (storable : Storable records) :
    readFromFile (some (writtenBytes records)) = some records ∧
      ∀ front back, writtenBytes records = front ++ back → back ≠ [] →
        readFromFile (some front) = none := by
  refine ⟨storable.readFromFile, fun front back whole torn => ?_⟩
  rw [writtenBytes_eq] at whole
  rw [readFromFile_eq, decodeSnapshot_torn storable.few storable.sized whole torn]

/-- A snapshot of two records, one of them with an empty key. -/
theorem readFromFile_writtenBytes_two :
    readFromFile (some (writtenBytes
      [([], { value := .ofString [118] }), ([107], { value := .blank .list })])) =
        some [([], { value := .ofString [118] }), ([107], { value := .blank .list })] := by
  refine (readFromFile_writtenBytes _ ⟨by decide, fun entry member => ?_⟩).1
  rcases List.mem_cons.mp member with rfl | member
  · exact ⟨by decide, by decide, DataValue.ofString_wellFormed _⟩
  · obtain rfl := List.mem_singleton.mp member
    exact ⟨by decide, by decide, DataValue.blank_wellFormed _⟩

end SunKV.Persistence
