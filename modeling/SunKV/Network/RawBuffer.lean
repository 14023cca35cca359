/-
**The buffer in its memory.**

`RawBuffer` is `Buffer` as the machine runs it: the indices are values of `size_t` whose sums and
differences wrap, `std::copy` goes wrong outside its vector or onto its own source, and a vector is
at most `PTRDIFF_MAX` bytes long. `readFd` reads into the end of the vector and a spill block, whose
bytes it appends.

* `Buffer.raw`, `step_raw` — **simulation**: from a buffer that is in order, every operation does
  what it does on `Buffer`, and no copy goes wrong.
* `Queue` — what the buffer is for: the bytes brought in, in order, without those taken off the
  front.
* `buffer_fifo_iff` — the buffer is such a queue in every reachable state, **unless the size of its
  first vector wrapped**.
-/

import SunKV.Network.Buffer

namespace SunKV.Network

open SunKV.Lib

/-! ### Sizes and copies -/

/-- `PTRDIFF_MAX`: no object is larger, and `std::vector` does not try. -/
def maxSize : Nat := 2 ^ 63 - 1

/-- The sum of two values of `size_t`. -/
def addSize (first second : Nat) : Nat := (first + second) % 2 ^ 64

/-- The difference of two values of `size_t`. -/
def subSize (first second : Nat) : Nat := (first + 2 ^ 64 - second) % 2 ^ 64

/-- What can go wrong: a copy outside the vector, a copy into its own source, and
`std::length_error`. -/
inductive Fault
  | outside
  | overlap
  | lengthError
  deriving DecidableEq

/-- `std::vector<char>(size)`. -/
def allocate (size : Nat) : Except Fault Bytes :=
  if size ≤ maxSize then .ok (List.replicate size 0) else .error .lengthError

/-- The bytes from `first` to `last`. -/
def load (memory : Bytes) (first last : Nat) : Except Fault Bytes :=
  if first ≤ last ∧ last ≤ memory.length then .ok ((memory.drop first).take (last - first))
  else .error .outside

/-- Bytes written from `start` on. -/
def store (memory : Bytes) (start : Nat) (data : Bytes) : Except Fault Bytes :=
  if start + data.length ≤ memory.length then .ok (copyTo memory start data) else .error .outside

/-- `std::copy` inside one vector: the beginning of its destination is outside its source. -/
def copyWithin (memory : Bytes) (first last start : Nat) : Except Fault Bytes :=
  if first ≤ start ∧ start < last then .error .overlap
  else do store memory start (← load memory first last)

/-! ### The buffer -/

/-- `class Buffer`. -/
structure RawBuffer where
  buffer : Bytes
  readerIndex : Nat
  writerIndex : Nat
  deriving DecidableEq

/-- The bytes of an object. -/
structure Block where
  bytes : Bytes
  small : bytes.length ≤ maxSize

/-- The size of the spill block of `readFd`. -/
def extraBufSize : Nat := 65536

namespace RawBuffer

/-- The constructor. -/
def new (initialSize : UInt64) : Except Fault RawBuffer := do
  return ⟨← allocate (addSize kCheapPrepend initialSize.toNat), kCheapPrepend, kCheapPrepend⟩

variable (raw : RawBuffer)

/-- `readableBytes`. -/
def readableBytes : Nat := subSize raw.writerIndex raw.readerIndex

/-- `writableBytes`. -/
def writableBytes : Nat := subSize raw.buffer.length raw.writerIndex

/-- `prependableBytes`. -/
def prependableBytes : Nat := raw.readerIndex

/-- The bytes between the indices. -/
def content : Bytes :=
  (raw.buffer.drop raw.readerIndex).take (raw.writerIndex - raw.readerIndex)

/-- `retrieveAll`. -/
def retrieveAll : RawBuffer :=
  { raw with readerIndex := kCheapPrepend, writerIndex := kCheapPrepend }

/-- `retrieve`. -/
def retrieve (len : Nat) : RawBuffer :=
  if len < raw.readableBytes then { raw with readerIndex := addSize raw.readerIndex len }
  else raw.retrieveAll

/-- `retrieveAsString`. -/
def retrieveAsString (len : Nat) : Except Fault (Bytes × RawBuffer) := do
  let result ← load raw.buffer raw.readerIndex (raw.readerIndex + len)
  return (result, raw.retrieve len)

/-- `retrieveAllAsString`. -/
def retrieveAllAsString : Except Fault (Bytes × RawBuffer) := do
  let result ← load raw.buffer raw.readerIndex (raw.readerIndex + raw.readableBytes)
  return (result, raw.retrieveAll)

/-- The content copied to the front of its vector. -/
def moveToFront : Except Fault RawBuffer := do
  let moved ← copyWithin raw.buffer raw.readerIndex raw.writerIndex kCheapPrepend
  return ⟨moved, kCheapPrepend, addSize kCheapPrepend raw.readableBytes⟩

/-- The content copied into a new vector, if there is any. -/
def moveInto (newBuffer : Bytes) : Except Fault RawBuffer :=
  if 0 < raw.readableBytes then do
    let filled ← store newBuffer kCheapPrepend (← load raw.buffer raw.readerIndex raw.writerIndex)
    return ⟨filled, kCheapPrepend, addSize kCheapPrepend raw.readableBytes⟩
  else return ⟨newBuffer, kCheapPrepend, addSize kCheapPrepend raw.readableBytes⟩

/-- The size of the new vector. -/
def newSize (len : Nat) : Nat :=
  max (raw.buffer.length * 2 % 2 ^ 64) (addSize (addSize raw.readableBytes len) kCheapPrepend)

/-- `ensureWritableBytes`. -/
def ensureWritableBytes (len : Nat) : Except Fault RawBuffer :=
  if raw.writableBytes < len then
    if addSize len kCheapPrepend ≤ addSize raw.prependableBytes raw.writableBytes then
      raw.moveToFront
    else do raw.moveInto (← allocate (raw.newSize len))
  else return raw

/-- Bytes written behind the content, and the index moved on. -/
def fill (data : Bytes) : Except Fault RawBuffer := do
  return { raw with
    buffer := ← store raw.buffer raw.writerIndex data
    writerIndex := addSize raw.writerIndex data.length }

/-- `append`. -/
def append (data : Bytes) : Except Fault RawBuffer := do
  let room ← raw.ensureWritableBytes data.length
  room.fill data

/-- How many bytes `readFd` offers room for. -/
def readCapacity : Nat :=
  if extraBufSize ≤ raw.writableBytes then raw.writableBytes
  else raw.writableBytes + extraBufSize

/-- `readFd`, when these bytes arrive: through one `read` into the vector, or one `readv` into the
vector and the spill block. -/
def readFd (arrived : Bytes) : Except Fault RawBuffer :=
  let writable := raw.writableBytes
  if extraBufSize ≤ writable then raw.fill arrived
  else if arrived.length ≤ writable then raw.fill arrived
  else do
    let filled ← store raw.buffer raw.writerIndex (arrived.take writable)
    RawBuffer.append { raw with buffer := filled, writerIndex := filled.length }
      (arrived.drop writable)

/-- `writeFd`, when this many bytes are accepted. -/
def writeFd (count : Nat) : Except Fault (Bytes × RawBuffer) := do
  let offered ← load raw.buffer raw.readerIndex (raw.readerIndex + raw.readableBytes)
  return (offered.take count, raw.retrieve count)

end RawBuffer

/-! ### Operations -/

/-- The operations. A read or a write that fails delivers or accepts nothing. -/
inductive BufferOp
  | append (data : Block)
  | retrieve (len : Nat)
  | retrieveAsString (len : Nat)
  | retrieveAll
  | retrieveAllAsString
  | readFd (arrived : Option Bytes)
  | writeFd (accepted : Option Nat)

/-- The bytes that an operation brings in. -/
def BufferOp.brought : BufferOp → Bytes
  | .append data => data.bytes
  | .readFd (some arrived) => arrived
  | _ => []

/-- What the callers and the kernel keep to: nothing is taken that is not there, and a read delivers
at most what it was asked for. -/
def BufferOp.Allowed (raw : RawBuffer) : BufferOp → Prop
  | .retrieve len => len ≤ raw.readableBytes
  | .retrieveAsString len => len ≤ raw.readableBytes
  | .readFd (some arrived) => arrived.length ≤ raw.readCapacity
  | .writeFd (some count) => count ≤ raw.readableBytes
  | _ => True

/-- **An operation**: the bytes it hands out, and the buffer afterwards. -/
def RawBuffer.step (raw : RawBuffer) : BufferOp → Except Fault (Bytes × RawBuffer)
  | .append data => do return ([], ← raw.append data.bytes)
  | .retrieve len => return ([], raw.retrieve len)
  | .retrieveAsString len => raw.retrieveAsString len
  | .retrieveAll => return ([], raw.retrieveAll)
  | .retrieveAllAsString => raw.retrieveAllAsString
  | .readFd none => return ([], raw)
  | .readFd (some arrived) => do return ([], ← raw.readFd arrived)
  | .writeFd none => return ([], raw)
  | .writeFd (some count) => raw.writeFd count

/-- **A queue of bytes**: all bytes that were brought in, in order, and how many of them were taken
off the front. -/
structure Queue where
  brought : Bytes := []
  removed : Nat := 0

namespace Queue

variable (queue : Queue)

/-- The bytes that are left. -/
def content : Bytes := queue.brought.drop queue.removed

/-- Bytes at the end. -/
def bring (data : Bytes) : Queue := { queue with brought := queue.brought ++ data }

/-- Bytes off the front. -/
def remove (count : Nat) : Queue := { queue with removed := queue.removed + count }

/-- **The operations on a queue.** -/
def step : BufferOp → Bytes × Queue
  | .append data => ([], queue.bring data.bytes)
  | .retrieve len => ([], queue.remove len)
  | .retrieveAsString len => (queue.content.take len, queue.remove len)
  | .retrieveAll => ([], queue.remove queue.content.length)
  | .retrieveAllAsString => (queue.content, queue.remove queue.content.length)
  | .readFd none => ([], queue)
  | .readFd (some arrived) => ([], queue.bring arrived)
  | .writeFd none => ([], queue)
  | .writeFd (some count) => (queue.content.take count, queue.remove count)

end Queue

/-! ### The buffer of the machine and the buffer in order -/

theorem ok_bind {α β : Type} (value : α) (next : α → Except Fault β) :
    (Except.ok value >>= next) = next value :=
  rfl

theorem addSize_of_lt {first second : Nat} (small : first + second < 2 ^ 64) :
    addSize first second = first + second :=
  Nat.mod_eq_of_lt small

theorem subSize_of_le {first second : Nat} (small : first < 2 ^ 64) (le : second ≤ first) :
    subSize first second = first - second := by
  unfold subSize
  omega

theorem load_eq {memory : Bytes} {first last : Nat} (order : first ≤ last)
    (inside : last ≤ memory.length) :
    load memory first last = .ok ((memory.drop first).take (last - first)) :=
  if_pos ⟨order, inside⟩

theorem store_eq {memory data : Bytes} {start : Nat}
    (inside : start + data.length ≤ memory.length) :
    store memory start data = .ok (copyTo memory start data) :=
  if_pos inside

/-- The machine's representation of a buffer. -/
def Buffer.raw (buf : Buffer) : RawBuffer := ⟨buf.buffer, buf.readerIndex, buf.writerIndex⟩

/-- The vector is one that can exist. -/
def Buffer.Small (buf : Buffer) : Prop := buf.buffer.length ≤ maxSize

section Simulation

variable {buf : Buffer}

theorem Buffer.Small.bounds (small : buf.Small) :
    buf.buffer.length < 2 ^ 63 ∧ buf.writerIndex ≤ buf.buffer.length ∧
      buf.readerIndex ≤ buf.writerIndex ∧ 8 ≤ buf.readerIndex := by
  refine ⟨?_, buf.fits, buf.order, buf.low⟩
  unfold Buffer.Small maxSize at small
  omega

theorem readableBytes_raw (small : buf.Small) : buf.raw.readableBytes = buf.readableBytes := by
  have bounds := small.bounds
  exact subSize_of_le (by show buf.writerIndex < _; omega) buf.order

theorem writableBytes_raw (small : buf.Small) : buf.raw.writableBytes = buf.writableBytes := by
  have bounds := small.bounds
  exact subSize_of_le (by show buf.buffer.length < _; omega) buf.fits

/-- The first bytes of the content. -/
theorem load_front {len : Nat} (within : len ≤ buf.readableBytes) :
    load buf.buffer buf.readerIndex (buf.readerIndex + len) = .ok (buf.content.take len) := by
  have order := buf.order
  have fits := buf.fits
  have readable : buf.readableBytes = buf.writerIndex - buf.readerIndex := rfl
  rw [load_eq (by omega) (by omega), Buffer.content, List.take_take, Nat.min_eq_left within,
    Nat.add_sub_cancel_left]

theorem load_all :
    load buf.buffer buf.readerIndex (buf.readerIndex + buf.readableBytes) = .ok buf.content := by
  rw [load_front (Nat.le_refl _), ← buf.length_content, List.take_length]

theorem load_content :
    load buf.buffer buf.readerIndex buf.writerIndex = .ok buf.content := by
  have order := buf.order
  have ends : buf.readerIndex + buf.readableBytes = buf.writerIndex := by
    rw [Buffer.readableBytes]
    omega
  rw [← ends]
  exact load_all

theorem retrieve_raw (small : buf.Small) (len : Nat) :
    buf.raw.retrieve len = (buf.retrieve len).raw := by
  have bounds := small.bounds
  unfold RawBuffer.retrieve Buffer.retrieve
  rw [readableBytes_raw small]
  split
  case isTrue less =>
    have readable : buf.readableBytes = buf.writerIndex - buf.readerIndex := rfl
    have sum : addSize buf.readerIndex len = buf.readerIndex + len := addSize_of_lt (by omega)
    simp only [Buffer.raw, sum]
  case isFalse => rfl

theorem retrieveAsString_raw (small : buf.Small) {len : Nat} (within : len ≤ buf.readableBytes) :
    buf.raw.retrieveAsString len = .ok (buf.content.take len, (buf.retrieve len).raw) := by
  unfold RawBuffer.retrieveAsString
  rw [retrieve_raw small]
  show (load buf.buffer buf.readerIndex (buf.readerIndex + len) >>= _) = _
  rw [load_front within]
  rfl

theorem retrieveAllAsString_raw (small : buf.Small) :
    buf.raw.retrieveAllAsString = .ok (buf.content, buf.retrieveAll.raw) := by
  unfold RawBuffer.retrieveAllAsString
  rw [readableBytes_raw small]
  show (load buf.buffer buf.readerIndex (buf.readerIndex + buf.readableBytes) >>= _) = _
  rw [load_all]
  rfl

theorem writeFd_raw (small : buf.Small) (count : Nat) :
    buf.raw.writeFd count = .ok (buf.content.take count, (buf.retrieve count).raw) := by
  unfold RawBuffer.writeFd
  rw [readableBytes_raw small, retrieve_raw small]
  show (load buf.buffer buf.readerIndex (buf.readerIndex + buf.readableBytes) >>= _) = _
  rw [load_all]
  rfl

theorem small_retrieve (small : buf.Small) (len : Nat) : (buf.retrieve len).Small := by
  unfold Buffer.retrieve
  split
  · exact small
  · exact small

theorem raw_relocate (small : buf.Small) (memory : Bytes)
    (room : kCheapPrepend + buf.readableBytes ≤ memory.length) :
    (buf.relocate memory room).raw =
      ⟨copyTo memory kCheapPrepend buf.content, kCheapPrepend,
        addSize kCheapPrepend buf.readableBytes⟩ := by
  have bounds := small.bounds
  have readable : buf.readableBytes = buf.writerIndex - buf.readerIndex := rfl
  have prepend : kCheapPrepend = 8 := rfl
  rw [addSize_of_lt (by omega)]
  rfl

/-- The content moves to the front of its vector when it does not begin there. -/
theorem moveToFront_raw (small : buf.Small) (behind : kCheapPrepend < buf.readerIndex) :
    buf.raw.moveToFront = .ok (buf.relocate buf.buffer buf.front_room).raw := by
  have apart : ¬ (buf.readerIndex ≤ kCheapPrepend ∧ kCheapPrepend < buf.writerIndex) :=
    fun both => absurd both.1 (Nat.not_le.mpr behind)
  have copied : copyWithin buf.buffer buf.readerIndex buf.writerIndex kCheapPrepend =
      .ok (copyTo buf.buffer kCheapPrepend buf.content) := by
    have room := buf.front_room
    rw [← buf.length_content] at room
    rw [copyWithin, if_neg apart, load_content]
    exact store_eq room
  unfold RawBuffer.moveToFront
  rw [raw_relocate small, readableBytes_raw small]
  show (copyWithin buf.buffer buf.readerIndex buf.writerIndex kCheapPrepend >>= _) = _
  rw [copied, ok_bind]
  rfl

theorem moveInto_raw (small : buf.Small) (memory : Bytes)
    (room : kCheapPrepend + buf.readableBytes ≤ memory.length) :
    buf.raw.moveInto memory = .ok (buf.relocate memory room).raw := by
  unfold RawBuffer.moveInto
  rw [raw_relocate small, readableBytes_raw small]
  split
  case isTrue =>
    rw [← buf.length_content] at room
    show (load buf.buffer buf.readerIndex buf.writerIndex >>= _) = _
    rw [load_content, ok_bind, store_eq room]
    rfl
  case isFalse none =>
    have empty : buf.content = [] := by
      rw [← List.length_eq_zero_iff, buf.length_content]
      omega
    rw [empty, copyTo, List.length_nil, Nat.add_zero, List.append_nil, List.take_append_drop]
    rfl

theorem newSize_raw (small : buf.Small) {len : Nat} (short : len ≤ maxSize) :
    buf.raw.newSize len = buf.newSize len := by
  have bounds := small.bounds
  have readable : buf.readableBytes = buf.writerIndex - buf.readerIndex := rfl
  have limit : maxSize = 2 ^ 63 - 1 := rfl
  have prepend : kCheapPrepend = 8 := rfl
  unfold RawBuffer.newSize Buffer.newSize
  rw [readableBytes_raw small, addSize_of_lt (by omega : buf.readableBytes + len < 2 ^ 64),
    addSize_of_lt (by omega : buf.readableBytes + len + kCheapPrepend < 2 ^ 64)]
  have double : buf.raw.buffer.length * 2 % 2 ^ 64 = buf.buffer.length * 2 :=
    Nat.mod_eq_of_lt (by show buf.buffer.length * 2 < _; omega)
  rw [double]

/-- **Making room**: it succeeds, or the vector that is needed cannot exist. -/
theorem ensureWritableBytes_raw (small : buf.Small) {len : Nat} (short : len ≤ maxSize) :
    (buf.raw.ensureWritableBytes len = .ok (buf.ensureWritableBytes len).raw ∧
      (buf.ensureWritableBytes len).Small) ∨
    (buf.raw.ensureWritableBytes len = .error .lengthError ∧ maxSize < buf.newSize len) := by
  have bounds := small.bounds
  have writable : buf.writableBytes = buf.buffer.length - buf.writerIndex := rfl
  have front : buf.prependableBytes = buf.readerIndex := rfl
  have limit : maxSize = 2 ^ 63 - 1 := rfl
  have prepend : kCheapPrepend = 8 := rfl
  have wanted : addSize len kCheapPrepend = len + kCheapPrepend := addSize_of_lt (by omega)
  have free : addSize buf.raw.prependableBytes buf.writableBytes =
      buf.prependableBytes + buf.writableBytes :=
    addSize_of_lt (by show buf.readerIndex + buf.writableBytes < _; omega)
  unfold RawBuffer.ensureWritableBytes Buffer.ensureWritableBytes
  rw [writableBytes_raw small, wanted, free, newSize_raw small short]
  split
  case isFalse => exact .inl ⟨rfl, small⟩
  case isTrue tight =>
    split
    case isTrue moved =>
      -- there is not enough room behind the content, so there is some before it
      refine .inl ⟨moveToFront_raw small (by omega), ?_⟩
      rw [Buffer.Small, Buffer.length_relocate]
      exact small
    case isFalse grown =>
      rcases Nat.lt_or_ge maxSize (buf.newSize len) with large | fits
      · rw [allocate, if_neg (Nat.not_le.mpr large)]
        exact .inr ⟨rfl, large⟩
      · rw [allocate, if_pos fits, ok_bind]
        refine .inl ⟨moveInto_raw small _ _, ?_⟩
        rw [Buffer.Small, Buffer.length_relocate, List.length_replicate]
        exact fits

theorem fill_raw (small : buf.Small) {data : Bytes} (room : data.length ≤ buf.writableBytes) :
    buf.raw.fill data = .ok (buf.fill data room).raw := by
  have bounds := small.bounds
  have writable : buf.writableBytes = buf.buffer.length - buf.writerIndex := rfl
  have inside : buf.writerIndex + data.length ≤ buf.buffer.length := by omega
  have sum : addSize buf.writerIndex data.length = buf.writerIndex + data.length :=
    addSize_of_lt (by omega)
  unfold RawBuffer.fill
  show (store buf.buffer buf.writerIndex data >>= _) = _
  rw [store_eq inside, ok_bind]
  show Except.ok (RawBuffer.mk _ _ (addSize buf.writerIndex data.length)) = _
  rw [sum]
  rfl

theorem small_fill (small : buf.Small) {data : Bytes} (room : data.length ≤ buf.writableBytes) :
    (buf.fill data room).Small := by
  have fits := buf.fits
  have writable : buf.writableBytes = buf.buffer.length - buf.writerIndex := rfl
  show (copyTo buf.buffer buf.writerIndex data).length ≤ maxSize
  rw [length_copyTo (by omega)]
  exact small

/-- **Appending.** -/
theorem append_raw (small : buf.Small) {data : Bytes} (short : data.length ≤ maxSize) :
    (buf.raw.append data = .ok (buf.append data).raw ∧ (buf.append data).Small) ∨
    (buf.raw.append data = .error .lengthError ∧ maxSize < buf.newSize data.length) := by
  rcases ensureWritableBytes_raw small short with ⟨made, stays⟩ | ⟨failed, large⟩
  · refine .inl ⟨?_, ?_⟩
    · rw [RawBuffer.append, made, ok_bind]
      exact fill_raw stays (buf.le_writableBytes data.length)
    · rw [buf.append_eq_fill]
      exact small_fill stays _
  · refine .inr ⟨?_, large⟩
    rw [RawBuffer.append, failed]
    rfl

/-- The vector filled to its end with the first bytes that have arrived. -/
def Buffer.fillUp (buf : Buffer) (arrived : Bytes) : Buffer :=
  buf.fill (arrived.take buf.writableBytes) (List.length_take_le _ _)

section FillUp

variable {arrived : Bytes} (more : buf.writableBytes ≤ arrived.length)

include more

theorem length_fillUp : (buf.fillUp arrived).buffer.length = buf.buffer.length := by
  have fits := buf.fits
  have writable : buf.writableBytes = buf.buffer.length - buf.writerIndex := rfl
  refine length_copyTo ?_
  rw [List.length_take_of_le more]
  omega

theorem writerIndex_fillUp :
    (buf.fillUp arrived).writerIndex = (buf.fillUp arrived).buffer.length := by
  have fits := buf.fits
  have writable : buf.writableBytes = buf.buffer.length - buf.writerIndex := rfl
  have writer : (buf.fillUp arrived).writerIndex =
      buf.writerIndex + (arrived.take buf.writableBytes).length := rfl
  rw [length_fillUp more, writer, List.length_take_of_le more]
  omega

/-- The spill block needs the vector that all bytes would have needed. -/
theorem newSize_fillUp :
    (buf.fillUp arrived).newSize (arrived.drop buf.writableBytes).length =
      buf.newSize arrived.length := by
  have order := buf.order
  have readable : buf.readableBytes = buf.writerIndex - buf.readerIndex := rfl
  have content : (buf.fillUp arrived).readableBytes =
      buf.writerIndex + (arrived.take buf.writableBytes).length - buf.readerIndex := rfl
  rw [List.length_take_of_le more] at content
  unfold Buffer.newSize
  rw [length_fillUp more, content, List.length_drop]
  congr 1
  omega

end FillUp

theorem content_fillUp (arrived : Bytes) :
    ((buf.fillUp arrived).append (arrived.drop buf.writableBytes)).content =
      buf.content ++ arrived := by
  rw [Buffer.content_append, Buffer.fillUp, buf.content_fill, List.append_assoc,
    List.take_append_drop]

/-- **The spill block** is appended to the vector that was filled to its end. -/
theorem readFd_spill (small : buf.Small) {arrived : Bytes}
    (tight : ¬ extraBufSize ≤ buf.writableBytes) (more : ¬ arrived.length ≤ buf.writableBytes) :
    buf.raw.readFd arrived = (buf.fillUp arrived).raw.append (arrived.drop buf.writableBytes) := by
  have fits := buf.fits
  have writable : buf.writableBytes = buf.buffer.length - buf.writerIndex := rfl
  have inside : buf.writerIndex + (arrived.take buf.writableBytes).length ≤ buf.buffer.length := by
    rw [List.length_take_of_le (by omega)]
    omega
  have filled : RawBuffer.mk (buf.fillUp arrived).buffer buf.readerIndex
      (buf.fillUp arrived).buffer.length = (buf.fillUp arrived).raw := by
    rw [← writerIndex_fillUp (by omega)]
    rfl
  unfold RawBuffer.readFd
  rw [writableBytes_raw small, if_neg tight, if_neg more, ← filled]
  show (store buf.buffer buf.writerIndex (arrived.take buf.writableBytes) >>= _) = _
  rw [store_eq inside, ok_bind]
  rfl

/-- **`readFd`**, with the bytes that the vector and the spill block have taken. -/
theorem readFd_raw (small : buf.Small) {arrived : Bytes}
    (within : arrived.length ≤ buf.raw.readCapacity) :
    (∃ next : Buffer, buf.raw.readFd arrived = .ok next.raw ∧ next.Small ∧
      next.content = buf.content ++ arrived) ∨
    (buf.raw.readFd arrived = .error .lengthError ∧ maxSize < buf.newSize arrived.length) := by
  have direct (room : arrived.length ≤ buf.writableBytes) :
      ∃ next : Buffer, buf.raw.fill arrived = .ok next.raw ∧ next.Small ∧
        next.content = buf.content ++ arrived :=
    ⟨buf.fill arrived room, fill_raw small room, small_fill small room, buf.content_fill _ _⟩
  unfold RawBuffer.readCapacity at within
  rw [writableBytes_raw small] at within
  by_cases roomy : extraBufSize ≤ buf.writableBytes
  · rw [if_pos roomy] at within
    rw [RawBuffer.readFd, writableBytes_raw small, if_pos roomy]
    exact .inl (direct within)
  by_cases room : arrived.length ≤ buf.writableBytes
  · rw [RawBuffer.readFd, writableBytes_raw small, if_neg roomy, if_pos room]
    exact .inl (direct room)
  rw [if_neg roomy] at within
  have spilled : (arrived.drop buf.writableBytes).length ≤ maxSize := by
    have extra : extraBufSize = 65536 := rfl
    have limit : maxSize = 2 ^ 63 - 1 := rfl
    rw [List.length_drop]
    omega
  have more : buf.writableBytes ≤ arrived.length := by omega
  rw [readFd_spill small roomy room, ← newSize_fillUp more]
  exact (append_raw (small_fill small _) spilled).imp_left fun ⟨made, stays⟩ =>
    ⟨_, made, stays, content_fillUp arrived⟩

/-! ### The buffer is a queue -/

/-- A buffer that holds the content of a queue. -/
structure Holds (queue : Queue) (buf : Buffer) : Prop where
  small : buf.Small
  within : queue.removed ≤ queue.brought.length
  content : buf.content = queue.content

variable {queue : Queue}

theorem Holds.length (holds : Holds queue buf) : queue.content.length = buf.readableBytes := by
  rw [← holds.content, buf.length_content]

theorem content_bring (within : queue.removed ≤ queue.brought.length) (data : Bytes) :
    (queue.bring data).content = queue.content ++ data :=
  List.drop_append_of_le_length within

theorem Holds.bring (holds : Holds queue buf) {next : Buffer} {data : Bytes} (small : next.Small)
    (content : next.content = buf.content ++ data) : Holds (queue.bring data) next where
  small := small
  within := by
    show queue.removed ≤ (queue.brought ++ data).length
    rw [List.length_append]
    exact Nat.le_add_right_of_le holds.within
  content := by rw [content, holds.content, content_bring holds.within]

theorem Holds.remove (holds : Holds queue buf) {next : Buffer} {count : Nat} (small : next.Small)
    (few : count ≤ buf.readableBytes) (content : next.content = buf.content.drop count) :
    Holds (queue.remove count) next where
  small := small
  within := by
    have length := holds.length
    have within := holds.within
    rw [Queue.content, List.length_drop] at length
    show queue.removed + count ≤ queue.brought.length
    omega
  content := by
    rw [content, holds.content, Queue.content, List.drop_drop]
    rfl

theorem Holds.retrieve (holds : Holds queue buf) {count : Nat} (few : count ≤ buf.readableBytes) :
    Holds (queue.remove count) (buf.retrieve count) :=
  holds.remove (small_retrieve holds.small count) few (buf.content_retrieve few)

theorem Holds.retrieveAll (holds : Holds queue buf) :
    Holds (queue.remove queue.content.length) buf.retrieveAll := by
  refine holds.remove holds.small (Nat.le_of_eq holds.length) ?_
  rw [buf.content_retrieveAll, holds.length, ← buf.length_content, List.drop_length]

/-- **Every operation** of a buffer that holds the content of a queue does what it does on the
queue, or would need a vector that cannot exist. -/
theorem Holds.step (holds : Holds queue buf) {op : BufferOp} (allowed : op.Allowed buf.raw) :
    (∃ next : Buffer, buf.raw.step op = .ok ((queue.step op).1, next.raw) ∧
      Holds (queue.step op).2 next) ∨
    (buf.raw.step op = .error .lengthError ∧ maxSize < buf.newSize op.brought.length) := by
  have readable := readableBytes_raw holds.small
  cases op with
  | append data =>
    refine (append_raw holds.small data.small).imp ?_ ?_
    · rintro ⟨made, stays⟩
      refine ⟨_, ?_, holds.bring stays (buf.content_append data.bytes)⟩
      rw [RawBuffer.step, made]
      rfl
    · rintro ⟨failed, large⟩
      refine ⟨?_, large⟩
      rw [RawBuffer.step, failed]
      rfl
  | retrieve len =>
    have few : len ≤ buf.readableBytes := readable ▸ allowed
    refine .inl ⟨_, ?_, holds.retrieve few⟩
    rw [RawBuffer.step, retrieve_raw holds.small]
    rfl
  | retrieveAsString len =>
    have few : len ≤ buf.readableBytes := readable ▸ allowed
    refine .inl ⟨_, ?_, holds.retrieve few⟩
    rw [RawBuffer.step, retrieveAsString_raw holds.small few, holds.content]
    rfl
  | retrieveAll => exact .inl ⟨_, rfl, holds.retrieveAll⟩
  | retrieveAllAsString =>
    refine .inl ⟨_, ?_, holds.retrieveAll⟩
    rw [RawBuffer.step, retrieveAllAsString_raw holds.small, holds.content]
    rfl
  | readFd arrived =>
    cases arrived with
    | none => exact .inl ⟨buf, rfl, holds⟩
    | some arrived =>
      refine (readFd_raw holds.small allowed).imp ?_ ?_
      · rintro ⟨next, made, stays, content⟩
        refine ⟨next, ?_, holds.bring stays content⟩
        rw [RawBuffer.step, made]
        rfl
      · rintro ⟨failed, large⟩
        refine ⟨?_, large⟩
        rw [RawBuffer.step, failed]
        rfl
  | writeFd accepted =>
    cases accepted with
    | none => exact .inl ⟨buf, rfl, holds⟩
    | some count =>
      have few : count ≤ buf.readableBytes := readable ▸ allowed
      refine .inl ⟨_, ?_, holds.retrieve few⟩
      rw [RawBuffer.step, writeFd_raw holds.small, holds.content]
      rfl

end Simulation

/-! ### Every run -/

/-- The buffers that the constructor and any sequence of operations reach, each beside the queue
that has had the same operations. An exception ends the sequence. -/
inductive Reaches (initialSize : UInt64) : RawBuffer → Queue → Prop
  | start {raw : RawBuffer} (built : RawBuffer.new initialSize = .ok raw) :
      Reaches initialSize raw {}
  | step {raw next : RawBuffer} {queue : Queue} {op : BufferOp} {bytes : Bytes}
      (before : Reaches initialSize raw queue) (allowed : op.Allowed raw)
      (done : raw.step op = .ok (bytes, next)) : Reaches initialSize next (queue.step op).2

/-- **A buffer is a queue**: its indices are in order and inside its vector, its content is that of
the queue, and every operation hands out what the queue does. No copy goes wrong; what can happen is
that a vector is needed which cannot exist. -/
structure Fifo (queue : Queue) (raw : RawBuffer) : Prop where
  low : kCheapPrepend ≤ raw.readerIndex
  order : raw.readerIndex ≤ raw.writerIndex
  fits : raw.writerIndex ≤ raw.buffer.length
  content : raw.content = queue.content
  operates : ∀ op : BufferOp, op.Allowed raw →
    (∃ next, raw.step op = .ok ((queue.step op).1, next)) ∨
    (raw.step op = .error .lengthError ∧
      maxSize < max (raw.buffer.length * 2)
        (queue.content.length + op.brought.length + kCheapPrepend))

theorem Holds.fifo {queue : Queue} {buf : Buffer} (holds : Holds queue buf) :
    Fifo queue buf.raw where
  low := buf.low
  order := buf.order
  fits := buf.fits
  content := holds.content
  operates op allowed := by
    refine (holds.step allowed).imp (fun ⟨next, done, _⟩ => ⟨next.raw, done⟩) fun failed => ?_
    rw [holds.length]
    exact failed

/-- The constructor, when the size of its vector does not wrap. -/
theorem new_raw {initialSize : UInt64} (unwrapped : initialSize.toNat < 2 ^ 64 - kCheapPrepend)
    {raw : RawBuffer} (built : RawBuffer.new initialSize = .ok raw) :
    ∃ buf : Buffer, raw = buf.raw ∧ Holds {} buf := by
  have size : addSize kCheapPrepend initialSize.toNat = kCheapPrepend + initialSize.toNat :=
    addSize_of_lt (by omega)
  unfold RawBuffer.new allocate at built
  rw [size] at built
  split at built
  case isTrue fits =>
    obtain rfl := Except.ok.inj built
    refine ⟨Buffer.new initialSize.toNat, rfl, ?_, Nat.le_refl _, Buffer.content_new _⟩
    show (List.replicate (kCheapPrepend + initialSize.toNat) 0).length ≤ maxSize
    rw [List.length_replicate]
    exact fits
  case isFalse => cases built

/-- **Every reachable buffer holds the content of its queue.** -/
theorem Reaches.holds {initialSize : UInt64}
    (unwrapped : initialSize.toNat < 2 ^ 64 - kCheapPrepend) {raw : RawBuffer} {queue : Queue}
    (reached : Reaches initialSize raw queue) :
    ∃ buf : Buffer, raw = buf.raw ∧ Holds queue buf := by
  induction reached with
  | start built => exact new_raw unwrapped built
  | step _ allowed done ih =>
    obtain ⟨buf, rfl, holds⟩ := ih
    rcases holds.step allowed with ⟨next, stepped, after⟩ | ⟨failed, _⟩
    · rw [stepped] at done
      obtain ⟨-, rfl⟩ := Prod.mk.inj (Except.ok.inj done)
      exact ⟨next, rfl, after⟩
    · rw [failed] at done
      cases done

theorem not_fifo_of_short {buffer : Bytes} (short : buffer.length < kCheapPrepend)
    (queue : Queue) : ¬ Fifo queue ⟨buffer, kCheapPrepend, kCheapPrepend⟩ :=
  fun fifo => absurd fifo.fits (Nat.not_le.mpr short)

/-- A first vector whose size wrapped is shorter than the space before the content. -/
theorem not_fifo_of_wrapped {initialSize : UInt64}
    (wrapped : 2 ^ 64 - kCheapPrepend ≤ initialSize.toNat) :
    ∃ raw, RawBuffer.new initialSize = .ok raw ∧ ¬ Fifo {} raw := by
  have bound := initialSize.toNat_lt
  have prepend : kCheapPrepend = 8 := rfl
  have limit : maxSize = 2 ^ 63 - 1 := rfl
  have short : addSize kCheapPrepend initialSize.toNat < kCheapPrepend := by
    unfold addSize
    omega
  refine ⟨⟨List.replicate (addSize kCheapPrepend initialSize.toNat) 0, kCheapPrepend,
    kCheapPrepend⟩, ?_, not_fifo_of_short (List.length_replicate.trans_lt short) {}⟩
  unfold RawBuffer.new allocate
  rw [if_pos (by omega)]
  rfl

/-- **The buffer is a queue of bytes**, for exactly the initial sizes to which the space before the
content can be added: in every state that the operations reach, whatever arrives and however much is
accepted. -/
theorem buffer_fifo_iff (initialSize : UInt64) :
    (∀ raw queue, Reaches initialSize raw queue → Fifo queue raw) ↔
      initialSize.toNat < 2 ^ 64 - kCheapPrepend := by
  constructor
  · intro fifo
    by_contra wrapped
    obtain ⟨raw, built, broken⟩ := not_fifo_of_wrapped (Nat.not_lt.mp wrapped)
    exact broken (fifo raw {} (.start built))
  · intro unwrapped raw queue reached
    obtain ⟨buf, rfl, holds⟩ := reached.holds unwrapped
    exact holds.fifo

/-- A vector of no bytes at all: the constructor returns with both indices eight bytes behind its
end. -/
theorem buffer_wrapped :
    RawBuffer.new 18446744073709551608 = .ok ⟨[], 8, 8⟩ ∧ ¬ Fifo {} ⟨[], 8, 8⟩ := by
  have size : addSize kCheapPrepend (18446744073709551608 : UInt64).toNat = 0 := by decide
  refine ⟨?_, fun fifo => absurd fifo.fits (by decide)⟩
  unfold RawBuffer.new
  rw [size]
  rfl

end SunKV.Network
