/-
**The buffer of a connection.**

`Buffer` is a vector with a read and a write index; the bytes between them are its content. Room for
new bytes is made behind the content, by moving it to the front of the vector or into a larger one.
The order of the indices is part of the structure, so that an index outside the vector cannot be
built.

* `content_append`, `content_retrieve` — **a queue**: bytes are added at the end of the content and
  taken off its front, however the content is moved about in between.
-/

import SunKV.Lib.Reader

namespace SunKV.Network

open SunKV.Lib

/-! ### Copying into memory -/

/-- `std::copy` of `data` to the position `start` of the memory. -/
def copyTo (memory : Bytes) (start : Nat) (data : Bytes) : Bytes :=
  memory.take start ++ data ++ memory.drop (start + data.length)

section Copy

variable {memory data : Bytes} {first start : Nat}

theorem length_copyTo (inside : start + data.length ≤ memory.length) :
    (copyTo memory start data).length = memory.length := by
  simp only [copyTo, List.length_append, List.length_take, List.length_drop]
  omega

/-- What stands before the copy stays, and the copy follows it. -/
theorem slice_copyTo (before : first ≤ start) (inside : start ≤ memory.length) :
    ((copyTo memory start data).drop first).take (start - first + data.length) =
      (memory.drop first).take (start - first) ++ data := by
  have front : (memory.take start).length = start := List.length_take_of_le inside
  have kept : ((memory.take start).drop first).length = start - first := by
    rw [List.length_drop, front]
  rw [copyTo, List.append_assoc, List.drop_append_of_le_length (by omega), ← List.append_assoc,
    List.take_append_of_le_length (by rw [List.length_append, kept]), List.drop_take]
  refine List.take_of_length_le ?_
  rw [List.length_append, ← List.drop_take, kept]

end Copy

/-! ### The buffer -/

/-- `kInitialSize`. -/
def kInitialSize : Nat := 1024

/-- `kCheapPrepend`. -/
def kCheapPrepend : Nat := 8

/-- `class Buffer`. -/
structure Buffer where
  buffer : Bytes
  readerIndex : Nat
  writerIndex : Nat
  low : kCheapPrepend ≤ readerIndex
  order : readerIndex ≤ writerIndex
  fits : writerIndex ≤ buffer.length

namespace Buffer

/-- The constructor. -/
def new (initialSize : Nat) : Buffer where
  buffer := List.replicate (kCheapPrepend + initialSize) 0
  readerIndex := kCheapPrepend
  writerIndex := kCheapPrepend
  low := Nat.le_refl _
  order := Nat.le_refl _
  fits := by
    rw [List.length_replicate]
    exact Nat.le_add_right _ _

variable (buf : Buffer)

/-- `readableBytes`. -/
def readableBytes : Nat := buf.writerIndex - buf.readerIndex

/-- `writableBytes`. -/
def writableBytes : Nat := buf.buffer.length - buf.writerIndex

/-- `prependableBytes`. -/
def prependableBytes : Nat := buf.readerIndex

/-- The `readableBytes` bytes from `peek` on. -/
def content : Bytes := (buf.buffer.drop buf.readerIndex).take buf.readableBytes

theorem length_content : buf.content.length = buf.readableBytes := by
  have fits := buf.fits
  rw [content, List.length_take, List.length_drop, readableBytes]
  omega

/-- `retrieve`. -/
def retrieve (len : Nat) : Buffer :=
  if less : len < buf.readableBytes then
    { buf with
      readerIndex := buf.readerIndex + len
      low := Nat.le_trans buf.low (Nat.le_add_right _ _)
      order := Nat.le_of_lt (Nat.add_lt_of_lt_sub' less) }
  else
    { buf with
      readerIndex := kCheapPrepend
      writerIndex := kCheapPrepend
      low := Nat.le_refl _
      order := Nat.le_refl _
      fits := Nat.le_trans buf.low (Nat.le_trans buf.order buf.fits) }

/-- The content copied to the front of a memory. -/
def relocate (memory : Bytes) (room : kCheapPrepend + buf.readableBytes ≤ memory.length) :
    Buffer where
  buffer := copyTo memory kCheapPrepend buf.content
  readerIndex := kCheapPrepend
  writerIndex := kCheapPrepend + buf.readableBytes
  low := Nat.le_refl _
  order := Nat.le_add_right _ _
  fits := by
    rw [length_copyTo (by rw [length_content]; exact room)]
    exact room

theorem front_room : kCheapPrepend + buf.readableBytes ≤ buf.buffer.length := by
  have low := buf.low
  have order := buf.order
  have fits := buf.fits
  rw [readableBytes]
  omega

/-- The size of the vector that replaces one without room for `len` bytes. -/
def newSize (len : Nat) : Nat :=
  max (buf.buffer.length * 2) (buf.readableBytes + len + kCheapPrepend)

/-- `ensureWritableBytes`: the space before the content is used first. -/
def ensureWritableBytes (len : Nat) : Buffer :=
  if buf.writableBytes < len then
    if len + kCheapPrepend ≤ buf.prependableBytes + buf.writableBytes then
      buf.relocate buf.buffer buf.front_room
    else
      buf.relocate (List.replicate (buf.newSize len) 0) (by
        rw [List.length_replicate, newSize]
        omega)
  else buf

theorem length_relocate (memory : Bytes)
    (room : kCheapPrepend + buf.readableBytes ≤ memory.length) :
    (buf.relocate memory room).buffer.length = memory.length :=
  length_copyTo (by rw [length_content]; exact room)

/-- There is room for the bytes it was asked for. -/
theorem le_writableBytes (len : Nat) : len ≤ (buf.ensureWritableBytes len).writableBytes := by
  have low := buf.low
  have order := buf.order
  have fits := buf.fits
  have readable : buf.readableBytes = buf.writerIndex - buf.readerIndex := rfl
  unfold ensureWritableBytes
  split
  case isFalse enough => exact Nat.not_lt.mp enough
  case isTrue =>
    split
    case isTrue moved =>
      show len ≤ (buf.relocate buf.buffer _).buffer.length - (kCheapPrepend + buf.readableBytes)
      rw [length_relocate]
      rw [prependableBytes, writableBytes] at moved
      omega
    case isFalse =>
      show len ≤ (buf.relocate (List.replicate (buf.newSize len) 0) _).buffer.length -
        (kCheapPrepend + buf.readableBytes)
      rw [length_relocate, List.length_replicate, newSize]
      omega

/-- `append`. -/
def append (data : Bytes) : Buffer where
  buffer := copyTo (buf.ensureWritableBytes data.length).buffer
    (buf.ensureWritableBytes data.length).writerIndex data
  readerIndex := (buf.ensureWritableBytes data.length).readerIndex
  writerIndex := (buf.ensureWritableBytes data.length).writerIndex + data.length
  low := (buf.ensureWritableBytes data.length).low
  order := Nat.le_trans (buf.ensureWritableBytes data.length).order (Nat.le_add_right _ _)
  fits := by
    have room := buf.le_writableBytes data.length
    have fits := (buf.ensureWritableBytes data.length).fits
    rw [writableBytes] at room
    rw [length_copyTo (by omega)]
    omega

/-- `retrieveAll`. -/
def retrieveAll : Buffer :=
  { buf with
    readerIndex := kCheapPrepend
    writerIndex := kCheapPrepend
    low := Nat.le_refl _
    order := Nat.le_refl _
    fits := Nat.le_trans buf.low (Nat.le_trans buf.order buf.fits) }

/-- Bytes written behind the content, where there is room for them. -/
def fill (data : Bytes) (room : data.length ≤ buf.writableBytes) : Buffer where
  buffer := copyTo buf.buffer buf.writerIndex data
  readerIndex := buf.readerIndex
  writerIndex := buf.writerIndex + data.length
  low := buf.low
  order := Nat.le_trans buf.order (Nat.le_add_right _ _)
  fits := by
    have fits := buf.fits
    rw [writableBytes] at room
    rw [length_copyTo (by omega)]
    omega

theorem append_eq_fill (data : Bytes) :
    buf.append data =
      (buf.ensureWritableBytes data.length).fill data (buf.le_writableBytes data.length) :=
  rfl

/-! ### A queue of bytes -/

theorem content_new (initialSize : Nat) : (new initialSize).content = [] := by
  rw [content, readableBytes]
  simp only [new, Nat.sub_self, List.take_zero]

/-- **Retrieving takes bytes off the front.** -/
theorem content_retrieve {len : Nat} (within : len ≤ buf.readableBytes) :
    (buf.retrieve len).content = buf.content.drop len := by
  unfold retrieve
  split
  case isTrue less =>
    rw [content, content, readableBytes, readableBytes, List.drop_take, List.drop_drop,
      Nat.sub_sub]
  case isFalse all =>
    have same : buf.content.length = len := by
      rw [length_content]
      omega
    rw [← same, List.drop_length, content, readableBytes]
    simp only [Nat.sub_self, List.take_zero]

theorem content_relocate (memory : Bytes)
    (room : kCheapPrepend + buf.readableBytes ≤ memory.length) :
    (buf.relocate memory room).content = buf.content := by
  have slice : ((copyTo memory kCheapPrepend buf.content).drop kCheapPrepend).take
      (kCheapPrepend - kCheapPrepend + buf.content.length) =
        (memory.drop kCheapPrepend).take (kCheapPrepend - kCheapPrepend) ++ buf.content :=
    slice_copyTo (Nat.le_refl _) (by omega)
  rw [Nat.sub_self, Nat.zero_add, List.take_zero, List.nil_append, length_content] at slice
  rw [content, readableBytes]
  simp only [relocate, Nat.add_sub_cancel_left]
  exact slice

theorem content_ensureWritableBytes (len : Nat) :
    (buf.ensureWritableBytes len).content = buf.content := by
  unfold ensureWritableBytes
  split
  · split
    · exact buf.content_relocate _ _
    · exact buf.content_relocate _ _
  · rfl

theorem content_retrieveAll : buf.retrieveAll.content = [] := by
  rw [content, readableBytes]
  simp only [retrieveAll, Nat.sub_self, List.take_zero]

theorem content_fill (data : Bytes) (room : data.length ≤ buf.writableBytes) :
    (buf.fill data room).content = buf.content ++ data := by
  have order := buf.order
  have count : (buf.fill data room).readableBytes = buf.readableBytes + data.length := by
    show buf.writerIndex + data.length - buf.readerIndex = _
    rw [readableBytes]
    omega
  rw [content, count]
  exact slice_copyTo order buf.fits

/-- **Appending adds bytes at the end.** -/
theorem content_append (data : Bytes) : (buf.append data).content = buf.content ++ data := by
  rw [append_eq_fill, content_fill, content_ensureWritableBytes]

/-- A content longer than the vector: it is moved into one of twice the size. -/
example :
    (((new 4).append [1, 2, 3]).retrieve 2).readerIndex = 10 ∧
    ((((new 4).append [1, 2, 3]).retrieve 2).append [4, 5, 6]).content = [3, 4, 5, 6] ∧
    ((((new 4).append [1, 2, 3]).retrieve 2).append [4, 5, 6]).readerIndex = 8 ∧
    ((new 4).append [1, 2, 3, 4, 5]).buffer.length = 24 := by
  decide

end Buffer

end SunKV.Network
