/-
**The codecs on a buffer, and the streaming reader over it.**

The decoders get a pointer, a length and an offset, and a length inside the data makes them go on
with a pointer into the buffer. Here they are written that way, every load checked, and `readAll`
is built on them with its two loops; nothing is returned when a load is outside the buffer or the
rounds do not suffice. Offsets and lengths are numbers: a buffer is shorter than `2 ^ 63` and a
length field is below `2 ^ 32`, so that no sum of the two wraps.

* `Checked.follows_readString` … `Checked.gives_decodeRecord` — every decoder does what its reader
  of byte strings does, so it stays inside the buffer.
* `Checked.decodeOneStatus_tracks` — and so does `decodeOneStatus`, which moves the offset past the
  entry exactly when there is one.
* `streaming_eq_whole` — `readAll` returns for every file and chunk size, and stops where decoding
  the whole content in one buffer stops.
-/

import SunKV.Lib.Cursor
import SunKV.Persistence.WalReader

namespace SunKV.Persistence

open SunKV.Lib SunKV.Storage

namespace Checked

open SunKV.Lib.Cursor

/-! ### Codecs -/

/-- `readU32`. -/
def readU32 : Cursor Nat := readNumber 4

/-- `readI64`. -/
def readI64 : Cursor Int64 := do
  let value ← readNumber 8
  return (UInt64.ofNat value).toInt64

/-- `readU64`. -/
def readU64 : Cursor UInt64 := do
  let value ← readNumber 8
  return UInt64.ofNat value

/-- `readString`. -/
def readString : Cursor Bytes := do
  let length ← readU32
  readBlock length

/-- A field and its value. -/
def readEntry : Cursor (Bytes × Bytes) := do
  let field ← readString
  let value ← readString
  return (field, value)

/-- The `switch` of `DataValueCodec::decode`. -/
def decodePayload (type : UInt8) : Cursor DataValue :=
  if type = 0 then do
    let value ← readString
    return { DataValue.blank .string with stringValue := value }
  else if type = 1 then do
    let count ← readU32
    let items ← many count readString
    return { DataValue.blank .list with listValue := items }
  else if type = 2 then do
    let count ← readU32
    let items ← many count readString
    return { DataValue.blank .set with setValue := setOf items }
  else if type = 3 then do
    let count ← readU32
    let entries ← many count readEntry
    return { DataValue.blank .hash with hashValue := hashOf entries }
  else fail

/-- `DataValueCodec::decode`. -/
def decodeDataValue : Cursor (DataValue × Int64) := do
  let m1 ← readByte
  let m2 ← readByte
  if m1 ≠ ascii 'D' ∨ m2 ≠ ascii 'V' then fail
  else do
    let version ← readByte
    if version ≠ kVersion then fail
    else do
      let type ← readByte
      let _ ← readByte
      let _ ← readByte
      let expireAtUs ← readI64
      let length ← readU32
      need length
      let value ← inside length (decodePayload type)
      return (value, expireAtUs)

/-- `RecordCodec::decode`. -/
def decodeRecord : Cursor Record := do
  let b0 ← readByte
  let b1 ← readByte
  if b0 ≠ ascii 'R' ∨ b1 ≠ ascii 'C' then fail
  else do
    let version ← readByte
    if version ≠ kVersion then fail
    else do
      let recordVersion ← readU64
      let length ← readU32
      need length
      let decoded ← inside length decodeDataValue
      return { value := decoded.1, expireAtUs := decoded.2, version := recordVersion }

/-- The three bytes `decodeOneStatus` reads first. -/
def readHeader : Cursor (UInt8 × UInt8 × UInt8) := do
  let m0 ← readByte
  let m1 ← readByte
  let version ← readByte
  return (m0, m1, version)

/-- The fields after them, up to the length of the record. -/
def readFields : Cursor (Mutation × Nat) := do
  let tsUs ← readI64
  let type ← readByte
  let key ← readString
  let length ← readU32
  return ({ type := .ofByte type, key := key, tsUs := tsUs }, length)

/-- The end of `decodeOneStatus`: the record, when it has a length. -/
def finishEntry (window : Window) (mutation : Mutation) (length off : Nat) :
    Option CursorStatus :=
  if 0 < length then
    match decodeRecord (window.sub off length) 0 with
    | .read record _ => some (.ok { mutation with record := some record } (off + length))
    | .fails => some .corrupt
    | .outside => none
  else some (.ok mutation off)

/-- **`decodeOneStatus(data, len, &off, &out)`**: nothing when a load is outside. -/
def decodeOneStatus (window : Window) (off : Nat) : Option CursorStatus :=
  match readHeader window off with
  | .outside => none
  | .fails => some .incompleteTail
  | .read (m0, m1, version) off =>
    if m0 ≠ ascii 'W' ∨ m1 ≠ ascii '2' then some .corrupt
    else if version ≠ kVersion then some .corrupt
    else
      match readFields window off with
      | .outside => none
      | .fails => some .incompleteTail
      | .read (mutation, length) off =>
        if window.len < off + length then some .incompleteTail
        else finishEntry window mutation length off

/-! ### The codecs stay inside the buffer -/

theorem follows_readU32 : Follows readU32 Persistence.readU32 := follows_readNumber 4

theorem follows_readI64 : Follows readI64 Persistence.readI64 :=
  (follows_readNumber 8).bind fun _ => .pure _

theorem follows_readU64 : Follows readU64 Persistence.readU64 :=
  (follows_readNumber 8).bind fun _ => .pure _

theorem follows_readString : Follows readString Persistence.readString :=
  follows_readU32.bind follows_readBlock

theorem follows_readEntry : Follows readEntry Persistence.readEntry :=
  follows_readString.bind fun _ => follows_readString.bind fun _ => .pure _

theorem follows_decodePayload (type : UInt8) :
    Follows (decodePayload type) (Persistence.decodePayload type) :=
  .ite (follows_readString.bind fun _ => .pure _) <|
  .ite (follows_readU32.bind fun count => (follows_readString.many count).bind fun _ => .pure _) <|
  .ite (follows_readU32.bind fun count => (follows_readString.many count).bind fun _ => .pure _) <|
  .ite (follows_readU32.bind fun count => (follows_readEntry.many count).bind fun _ => .pure _)
    .fail

theorem gives_decodeDataValue : Gives decodeDataValue Persistence.decodeDataValue := by
  rw [Persistence.decodeDataValue, Reader.expect_two]
  refine follows_readByte.gives_bind fun m1 => follows_readByte.gives_bind fun m2 =>
    .ite .fail ?_
  rw [Reader.expect_bind]
  refine follows_readByte.gives_bind fun version => .ite .fail ?_
  refine follows_readByte.gives_bind fun type => follows_readByte.gives_bind fun _ =>
    follows_readByte.gives_bind fun _ => follows_readI64.gives_bind fun expireAtUs =>
      follows_readU32.gives_bind fun length => ?_
  exact gives_inside (follows_decodePayload type).gives length fun value => (value, expireAtUs)

theorem gives_decodeRecord : Gives decodeRecord readRecord := by
  rw [readRecord, Reader.expect_two]
  refine follows_readByte.gives_bind fun b0 => follows_readByte.gives_bind fun b1 =>
    .ite .fail ?_
  rw [Reader.expect_bind]
  refine follows_readByte.gives_bind fun version => .ite .fail ?_
  refine follows_readU64.gives_bind fun recordVersion => follows_readU32.gives_bind fun length => ?_
  let wrap (decoded : DataValue × Int64) : Record :=
    { value := decoded.1, expireAtUs := decoded.2, version := recordVersion }
  exact gives_inside gives_decodeDataValue length wrap

theorem follows_readHeader : Follows readHeader Persistence.readHeader :=
  follows_readByte.bind fun _ => follows_readByte.bind fun _ => follows_readByte.bind fun _ =>
    .pure _

/-- The fields of an entry up to the length of its record, off a byte string. -/
def fieldsReader : Reader (Mutation × Nat) := do
  let tsUs ← Persistence.readI64
  let type ← Reader.byte
  let key ← Persistence.readString
  let length ← Persistence.readU32
  return ({ type := .ofByte type, key := key, tsUs := tsUs }, length)

theorem readFields_eq :
    Persistence.readFields = fieldsReader >>= fun fields => Reader.take fields.2 >>=
      fun recordBytes => pure (fields.1, recordBytes) := by
  simp only [Persistence.readFields, fieldsReader, bind_assoc, pure_bind]

theorem follows_readFields : Follows readFields fieldsReader :=
  follows_readI64.bind fun _ => follows_readByte.bind fun _ => follows_readString.bind fun _ =>
    follows_readU32.bind fun _ => .pure _

/-! ### One entry -/

/-- **The status agrees with what the bytes from the offset on hold**: an entry moves the offset
to the bytes behind it. -/
def Tracks (data : Bytes) (status : Option CursorStatus) : DecodeStatus → Prop
  | .ok mutation rest => ∃ off', status = some (.ok mutation off') ∧ off' ≤ data.length ∧
      rest = data.drop off'
  | .incompleteTail => status = some .incompleteTail
  | .corrupt => status = some .corrupt

theorem finishEntry_tracks {data : Bytes} {off length : Nat} (mutation : Mutation)
    (inside : off + length ≤ data.length) :
    Tracks data (finishEntry (.whole data) mutation length off)
      (Persistence.finishEntry mutation ((data.drop off).take length)
        (data.drop (off + length))) := by
  unfold finishEntry Persistence.finishEntry
  by_cases some : 0 < length
  · have filled : (data.drop off).take length ≠ [] := by
      rw [ne_eq, List.take_eq_nil_iff, List.drop_eq_nil_iff]
      omega
    have valid : ((Window.whole data).sub off length).Valid :=
      (Window.valid_whole data).sub inside
    have bytes : ((Window.whole data).sub off length).bytes = (data.drop off).take length := by
      rw [Window.bytes_sub inside, Window.bytes_whole]
    rw [if_pos some, if_neg filled]
    rcases gives_decodeRecord _ 0 valid (Nat.zero_le _) with
      ⟨record, off', rest, read, same⟩ | ⟨failed, none⟩
    · rw [List.drop_zero, bytes] at same
      rw [read, Persistence.decodeRecord, same]
      exact ⟨off + length, rfl, inside, rfl⟩
    · rw [List.drop_zero, bytes] at none
      rw [failed, Persistence.decodeRecord, none]
      rfl
  · obtain rfl : length = 0 := by omega
    rw [if_neg some, List.take_zero, if_pos rfl]
    exact ⟨off, rfl, inside, rfl⟩

/-- **`decodeOneStatus` stays inside the buffer**, and agrees with the bytes from its offset on. -/
theorem decodeOneStatus_tracks (data : Bytes) {off : Nat} (within : off ≤ data.length) :
    Tracks data (decodeOneStatus (.whole data) off)
      (Persistence.decodeOneStatus (data.drop off)) := by
  have valid := Window.valid_whole data
  have header := follows_readHeader (.whole data) off valid within
  rw [Window.bytes_whole] at header
  unfold decodeOneStatus Persistence.decodeOneStatus
  rcases header with ⟨⟨m0, m1, version⟩, off₁, read, inside, same⟩ | ⟨failed, none⟩
  · rw [read, same]
    dsimp only
    by_cases magic : m0 ≠ ascii 'W' ∨ m1 ≠ ascii '2'
    · rw [if_pos magic, if_pos magic]
      rfl
    rw [if_neg magic, if_neg magic]
    by_cases old : version ≠ kVersion
    · rw [if_pos old, if_pos old]
      rfl
    rw [if_neg old, if_neg old, readFields_eq]
    have fields := follows_readFields (.whole data) off₁ valid inside
    rw [Window.bytes_whole] at fields
    rcases fields with ⟨⟨mutation, length⟩, off₂, read, inside, same⟩ | ⟨failed, none⟩
    · rw [read, Reader.bind_of_some same]
      dsimp only
      have whole : off₂ ≤ data.length := inside
      by_cases short : (Window.whole data).len < off₂ + length
      · have cut : Reader.take length (data.drop off₂) = none := by
          refine if_neg ?_
          have : data.length < off₂ + length := short
          rw [List.length_drop]
          omega
        rw [if_pos short, Cursor.reader_bind_of_none cut]
        rfl
      · have enough : off₂ + length ≤ data.length := Nat.not_lt.mp short
        have taken : Reader.take length (data.drop off₂) =
            some ((data.drop off₂).take length, data.drop (off₂ + length)) := by
          rw [← List.drop_drop]
          refine if_pos ?_
          rw [List.length_drop]
          omega
        rw [if_neg short, Reader.bind_of_some taken]
        exact finishEntry_tracks mutation enough
    · rw [failed, Cursor.reader_bind_of_none none]
      rfl
  · rw [failed, none]
    rfl

end Checked

/-! ### The loops of `readAll` -/

/-- Where the inner loop stops: at the end of the buffer, or at an entry that is incomplete or
none. -/
inductive Stop
  | drained
  | incomplete
  | corrupt
  deriving DecidableEq

namespace Checked

/-- **The inner loop**: `while (off < pending.size())`. It gives the mutations so far, the offset,
and why it stopped. -/
def decodeLoop : Nat → Bytes → Nat → List Mutation → Option (List Mutation × Nat × Stop)
  | 0, _, _, _ => none
  | rounds + 1, pending, off, out =>
    if off < pending.length then
      match decodeOneStatus (.whole pending) off with
      | none => none
      | some (.ok mutation probe) => decodeLoop rounds pending probe (out ++ [mutation])
      | some .incompleteTail => some (out, off, .incomplete)
      | some .corrupt => some (out, off, .corrupt)
    else some (out, off, .drained)

/-- **The outer loop.** A read that comes short of a chunk sets the end-of-file flag. -/
def readLoop (chunkBytes fileBytes rounds : Nat) :
    Nat → (unread pending : Bytes) → (consumedPrefix : Nat) → List Mutation → Option ReadResult
  | 0, _, _, _, _ => none
  | reads + 1, unread, pending, consumedPrefix, out =>
    let eof := decide (unread.length < chunkBytes)
    let pending := pending ++ unread.take chunkBytes
    match decodeLoop rounds pending 0 out with
    | none => none
    | some (out, off, stop) =>
      if stop = .corrupt then
        some { success := false, mutations := out
               stats := { fileBytes := fileBytes, decodedMutations := out.length
                          stoppedOffset := consumedPrefix + off, sawCorrupt := true } }
      else if stop = .incomplete ∧ eof then
        some { success := true, mutations := out
               stats := { fileBytes := fileBytes, decodedMutations := out.length
                          stoppedOffset := consumedPrefix + off, sawIncompleteTail := true } }
      else
        let pending := pending.drop off
        let consumedPrefix := consumedPrefix + off
        if eof then
          some { success := true, mutations := out
                 stats := { fileBytes := fileBytes, decodedMutations := out.length
                            stoppedOffset := consumedPrefix
                            sawIncompleteTail := !pending.isEmpty } }
        else readLoop chunkBytes fileBytes rounds reads (unread.drop chunkBytes) pending
          consumedPrefix out

/-- **`WalReader::readAll`** on the content of the file: nothing when a load is outside a buffer or
`rounds` rounds of one of its loops do not suffice. -/
def readAllBy (chunkBytes rounds : Nat) (content : Bytes) : Option ReadResult :=
  readLoop chunkBytes content.length rounds rounds content [] 0 []

end Checked

/-- Why a loop that ended so stopped. -/
def LoopEnd.stop : LoopEnd → Stop
  | .tail [] => .drained
  | .tail (_ :: _) => .incomplete
  | .corrupt _ => .corrupt

/-- What it left. -/
def LoopEnd.left : LoopEnd → Bytes
  | .tail left => left
  | .corrupt left => left

namespace Checked

/-- **The inner loop returns**, and decodes the bytes from the offset on. -/
theorem decodeLoop_eq (pending : Bytes) {rounds off : Nat} (out : List Mutation)
    (within : off ≤ pending.length) (enough : pending.length - off < rounds) :
    ∃ last, last ≤ pending.length ∧
      (decodeEntries (pending.drop off)).2.left = pending.drop last ∧
      decodeLoop rounds pending off out = some (out ++ (decodeEntries (pending.drop off)).1, last,
        (decodeEntries (pending.drop off)).2.stop) := by
  induction rounds generalizing off out with
  | zero => omega
  | succ rounds ih =>
    rw [decodeLoop]
    by_cases more : off < pending.length
    · rw [if_pos more]
      have tracks := decodeOneStatus_tracks pending within
      have left : (pending.drop off).length = pending.length - off := List.length_drop
      cases found : Persistence.decodeOneStatus (pending.drop off) with
      | ok mutation rest =>
        rw [found] at tracks
        obtain ⟨probe, status, inside, rfl⟩ := tracks
        have less := decodeOneStatus_shorter found
        have after : (pending.drop probe).length = pending.length - probe := List.length_drop
        obtain ⟨last, bound, rest, loop⟩ := ih (out ++ [mutation]) inside (by omega)
        rw [status, decodeEntries_of_ok found]
        refine ⟨last, bound, rest, loop.trans ?_⟩
        rw [List.append_assoc]
        rfl
      | incompleteTail =>
        rw [found] at tracks
        rw [show decodeOneStatus (.whole pending) off = some .incompleteTail from tracks,
          decodeEntries_of_incompleteTail found]
        refine ⟨off, within, rfl, ?_⟩
        obtain ⟨first, others, shape⟩ := List.exists_cons_of_length_pos
          (show 0 < (pending.drop off).length by omega)
        rw [List.append_nil, shape]
        rfl
      | corrupt =>
        rw [found] at tracks
        rw [show decodeOneStatus (.whole pending) off = some .corrupt from tracks,
          decodeEntries_of_corrupt found]
        refine ⟨off, within, rfl, ?_⟩
        rw [List.append_nil]
        rfl
    · have nothing : pending.drop off = [] := List.drop_eq_nil_of_le (by omega)
      rw [if_neg more, nothing, decodeEntries_nil]
      refine ⟨off, within, nothing.symm, ?_⟩
      rw [List.append_nil]
      rfl

/-- **The outer loop returns**, with the result of the loop on byte strings: a round takes a whole
chunk off the file or is the last one. -/
theorem readLoop_eq {chunkBytes : Nat} (positive : 0 < chunkBytes) (fileBytes : Nat)
    {rounds reads : Nat} (unread pending : Bytes) (consumedPrefix : Nat) (out : List Mutation)
    (enough : pending.length + unread.length < rounds) (enough' : unread.length < reads) :
    readLoop chunkBytes fileBytes rounds reads unread pending consumedPrefix out =
      some (Persistence.readLoop chunkBytes fileBytes reads unread pending consumedPrefix out) := by
  induction reads generalizing unread pending consumedPrefix out with
  | zero => omega
  | succ reads ih =>
    rw [readLoop, Persistence.readLoop]
    have filled : (pending ++ unread.take chunkBytes).length < rounds := by
      rw [List.length_append, List.length_take]
      omega
    obtain ⟨last, bound, left, loop⟩ := decodeLoop_eq (pending ++ unread.take chunkBytes) out
      (Nat.zero_le _) (show _ - 0 < rounds from filled)
    rw [List.drop_zero] at left loop
    have total : (pending ++ unread.take chunkBytes).length + (unread.drop chunkBytes).length =
        pending.length + unread.length := by
      rw [← List.length_append, List.append_assoc, List.take_append_drop, List.length_append]
    dsimp only
    rw [loop]
    clear loop
    generalize pending ++ unread.take chunkBytes = buffer at *
    have offset : buffer.length - (buffer.drop last).length = last := by
      rw [List.length_drop]
      omega
    generalize decodeEntries buffer = decoded at left ⊢
    obtain ⟨mutations, ending⟩ := decoded
    cases ending with
    | corrupt rest =>
      obtain rfl : rest = _ := left
      simp only [LoopEnd.stop, if_true, offset]
    | tail rest =>
      have behind : buffer.drop last = rest := left.symm
      rw [behind] at offset
      by_cases eof : unread.length < chunkBytes
      · cases rest with
        | nil =>
          simp only [LoopEnd.stop, reduceCtorEq, eof, decide_true, if_false, if_true, false_and,
            behind, offset]
        | cons first others =>
          simp only [LoopEnd.stop, reduceCtorEq, eof, decide_true, if_false, if_true, and_self,
            offset, List.isEmpty_cons, Bool.not_false]
      · have fewer : (unread.drop chunkBytes).length = unread.length - chunkBytes :=
          List.length_drop
        have short : rest.length ≤ buffer.length := by
          rw [← behind, List.length_drop]
          exact Nat.sub_le _ _
        have goes : (LoopEnd.tail rest).stop ≠ .corrupt := by
          cases rest <;> simp [LoopEnd.stop]
        have later := ih (unread.drop chunkBytes) rest (consumedPrefix + last) (out ++ mutations)
          (by omega) (by omega)
        simp only [goes, eof, decide_false, Bool.false_eq_true, and_false, if_false, behind,
          later, offset]

end Checked

/-- **Streaming is decoding the whole content**, for every content and every chunk size. `readAll`
returns, with no load outside its buffers, and so does the loop over one buffer that holds the whole
content; what `readAll` decoded and where it stopped is what that loop decoded and where that loop
stopped, and it reports a corruption exactly when that loop found one. -/
theorem streaming_eq_whole (content : Bytes) (chunkBytes : Nat) (positive : 0 < chunkBytes) :
    ∃ result stop,
      (∀ rounds, content.length < rounds →
        Checked.readAllBy chunkBytes rounds content = some result) ∧
      (∀ rounds, content.length < rounds → Checked.decodeLoop rounds content 0 [] =
        some (result.mutations, result.stats.stoppedOffset, stop)) ∧
      result.success = decide (stop ≠ .corrupt) ∧
      result.stats.sawCorrupt = decide (stop = .corrupt) := by
  refine ⟨readWhole content, (decodeEntries content).2.stop, fun rounds enough => ?_,
    fun rounds enough => ?_, ?_⟩
  · rw [Checked.readAllBy, Checked.readLoop_eq positive _ _ _ _ _ (by simpa using enough) enough,
      readLoop_eq_conclude positive _ _ _ _ _ _ enough, List.nil_append]
    rfl
  · obtain ⟨last, bound, left, loop⟩ := Checked.decodeLoop_eq content [] (Nat.zero_le _)
      (show content.length - 0 < rounds from enough)
    rw [List.drop_zero] at left loop
    have offset : content.length - (content.drop last).length = last := by
      rw [List.length_drop]
      omega
    rw [loop, readWhole, conclude]
    generalize decodeEntries content = decoded at left ⊢
    obtain ⟨mutations, ending⟩ := decoded
    cases ending with
    | tail rest =>
      obtain rfl : rest = _ := left
      simp only [offset, Nat.zero_add]
    | corrupt rest =>
      obtain rfl : rest = _ := left
      simp only [offset, Nat.zero_add]
  · rw [readWhole, conclude]
    rcases decodeEntries content with ⟨mutations, (_ | ⟨first, rest⟩) | rest⟩
    · exact ⟨rfl, rfl⟩
    · exact ⟨rfl, rfl⟩
    · exact ⟨rfl, rfl⟩

/-- An entry, and bytes that are none, read three bytes at a time. -/
theorem streaming_eq_whole_three :
    let content := encodeMutation (.del [107] 0) ++ [1, 2, 3, 4]
    (∃ result, Checked.readAllBy 3 30 content = some result ∧ result.success = false ∧
      result.mutations = [.del [107] 0] ∧ result.stats.stoppedOffset = 21) ∧
    ∃ result stop,
      (∀ rounds, content.length < rounds → Checked.readAllBy 3 rounds content = some result) ∧
      (∀ rounds, content.length < rounds → Checked.decodeLoop rounds content 0 [] =
        some (result.mutations, result.stats.stoppedOffset, stop)) ∧
      result.success = decide (stop ≠ .corrupt) ∧
      result.stats.sawCorrupt = decide (stop = .corrupt) :=
  ⟨⟨_, rfl, by decide +kernel⟩, streaming_eq_whole _ 3 (by decide)⟩

end SunKV.Persistence
