/-
**Reading a buffer through a pointer, a length and an offset.**

C code that decodes a buffer checks the offset against the length and then loads bytes. `Cursor` is
such a function: it returns a value and the offset behind it, returns `false`, or makes a load
outside the memory, which is an outcome of its own.

* `Follows cursor reader` — on every window of a memory the cursor does what a reader of byte
  strings does on the bytes from the offset on, so it never loads outside. Closed under sequencing
  (`Follows.bind`), branching and repetition.
* `Gives cursor reader` — the same without the offset at the end, for functions whose offset is a
  local variable; `gives_inside` is the rule for decoding a window inside the window.
-/

import SunKV.Lib.Reader

namespace SunKV.Lib

/-! ### Windows and cursors -/

/-- A pointer into a memory, with a length. -/
structure Window where
  memory : Bytes
  base : Nat
  len : Nat

namespace Window

/-- A buffer as a whole. -/
def whole (memory : Bytes) : Window := ⟨memory, 0, memory.length⟩

/-- `data + off`, with a length of its own. -/
def sub (window : Window) (off len : Nat) : Window := ⟨window.memory, window.base + off, len⟩

/-- **The window lies in the memory.** -/
def Valid (window : Window) : Prop := window.base + window.len ≤ window.memory.length

/-- The bytes of a window. -/
def bytes (window : Window) : Bytes := (window.memory.drop window.base).take window.len

variable {window : Window}

theorem valid_whole (memory : Bytes) : (whole memory).Valid := (Nat.zero_add _).le

@[simp] theorem bytes_whole (memory : Bytes) : (whole memory).bytes = memory := List.take_length

theorem Valid.length (valid : window.Valid) : window.bytes.length = window.len := by
  have inside : window.base + window.len ≤ window.memory.length := valid
  rw [bytes, List.length_take, List.length_drop]
  omega

theorem Valid.sub (valid : window.Valid) {off len : Nat} (inside : off + len ≤ window.len) :
    (window.sub off len).Valid := by
  have within : window.base + window.len ≤ window.memory.length := valid
  show window.base + off + len ≤ window.memory.length
  omega

theorem bytes_sub {off len : Nat} (inside : off + len ≤ window.len) :
    (window.sub off len).bytes = (window.bytes.drop off).take len := by
  rw [bytes, bytes, List.drop_take, List.take_take, List.drop_drop,
    Nat.min_eq_left (by omega)]
  rfl

end Window

/-- How a cursor ends: with a value and the new offset, with `false`, or with a load outside the
memory. -/
inductive Fetch (α : Type)
  | read (value : α) (off : Nat)
  | fails
  | outside

/-- A function of a window and an offset. -/
def Cursor (α : Type) : Type := Window → Nat → Fetch α

namespace Cursor

variable {α β : Type}

instance : Monad Cursor where
  pure value := fun _ off => .read value off
  bind cursor next := fun window off =>
    match cursor window off with
    | .read value off' => next value window off'
    | .fails => .fails
    | .outside => .outside

/-- `return false`. -/
def fail : Cursor α := fun _ _ => .fails

/-- `data[*off + index]`. -/
def load (index : Nat) : Cursor UInt8 := fun window off =>
  match window.memory[window.base + (off + index)]? with
  | some byte => .read byte off
  | none => .outside

/-- `if (*off + count > len) return false`. -/
def need (count : Nat) : Cursor Unit := fun window off =>
  if window.len < off + count then .fails else .read () off

/-- `*off += count`. -/
def skip (count : Nat) : Cursor Unit := fun _ off => .read () (off + count)

/-- The bytes at `data + *off`, all of them loaded. -/
def slice (count : Nat) : Cursor Bytes := fun window off =>
  if window.base + (off + count) ≤ window.memory.length then
    .read ((window.memory.drop (window.base + off)).take count) off
  else .outside

/-- A function called with `data + *off` and a length of its own; its offset starts at zero and is
its own. -/
def inside (count : Nat) (inner : Cursor α) : Cursor α := fun window off =>
  match inner (window.sub off count) 0 with
  | .read value _ => .read value off
  | .fails => .fails
  | .outside => .outside

/-- `readU8`. -/
def readByte : Cursor UInt8 := do
  need 1
  let byte ← load 0
  skip 1
  return byte

/-- The loop of a number: `left` bytes from `index` on, shifted above `value`. -/
def loadBytes : Nat → Nat → Nat → Cursor Nat
  | 0, _, value => return value
  | left + 1, index, value => do
    let byte ← load index
    loadBytes left (index + 1) (value ||| byte.toNat <<< (index * 8))

/-- `readU32`, `readU64`, `readI64`, by their width. -/
def readNumber (width : Nat) : Cursor Nat := do
  need width
  let value ← loadBytes width 0 0
  skip width
  return value

/-- A block of bytes that is copied. -/
def readBlock (count : Nat) : Cursor Bytes := do
  need count
  let block ← slice count
  skip count
  return block

/-- A loop of `count` turns. -/
def many (count : Nat) (item : Cursor α) : Cursor (List α) :=
  match count with
  | 0 => return []
  | count + 1 => do
    let first ← item
    let rest ← many count item
    return first :: rest

/-! ### Following a reader -/

/-- **The cursor does what the reader does**, on every window of a memory and from every offset in
it. -/
def Follows (cursor : Cursor α) (reader : Reader α) : Prop :=
  ∀ (window : Window) (off : Nat), window.Valid → off ≤ window.len →
    (∃ value off', cursor window off = .read value off' ∧ off' ≤ window.len ∧
      reader (window.bytes.drop off) = some (value, window.bytes.drop off')) ∨
    (cursor window off = .fails ∧ reader (window.bytes.drop off) = none)

/-- The cursor returns what the reader returns; its offset is not looked at. -/
def Gives (cursor : Cursor α) (reader : Reader α) : Prop :=
  ∀ (window : Window) (off : Nat), window.Valid → off ≤ window.len →
    (∃ value off' rest, cursor window off = .read value off' ∧
      reader (window.bytes.drop off) = some (value, rest)) ∨
    (cursor window off = .fails ∧ reader (window.bytes.drop off) = none)

theorem bind_of_read {cursor : Cursor α} {next : α → Cursor β} {window : Window} {off off' : Nat}
    {value : α} (read : cursor window off = .read value off') :
    (cursor >>= next) window off = next value window off' := by
  show (match cursor window off with | .read value off' => _ | .fails => _ | .outside => _) = _
  rw [read]

theorem bind_of_fails {cursor : Cursor α} {next : α → Cursor β} {window : Window} {off : Nat}
    (failed : cursor window off = .fails) : (cursor >>= next) window off = .fails := by
  show (match cursor window off with | .read value off' => _ | .fails => _ | .outside => _) = _
  rw [failed]

theorem reader_bind_of_none {reader : Reader α} {next : α → Reader β} {data : Bytes}
    (failed : reader data = none) : (reader >>= next) data = none := by
  change (reader data).bind _ = none
  rw [failed]
  rfl

theorem Follows.gives {cursor : Cursor α} {reader : Reader α} (follows : Follows cursor reader) :
    Gives cursor reader := by
  intro window off valid within
  rcases follows window off valid within with ⟨value, off', read, -, same⟩ | failed
  · exact Or.inl ⟨value, off', _, read, same⟩
  · exact Or.inr failed

theorem Follows.pure (value : α) : Follows (Pure.pure value) (Pure.pure value) :=
  fun _ off _ within => Or.inl ⟨value, off, rfl, within, rfl⟩

theorem Follows.fail : Follows (Cursor.fail : Cursor α) (fun _ => none) :=
  fun _ _ _ _ => Or.inr ⟨rfl, rfl⟩

theorem Follows.bind {cursor : Cursor α} {reader : Reader α} {next : α → Cursor β}
    {next' : α → Reader β} (first : Follows cursor reader)
    (rest : ∀ value, Follows (next value) (next' value)) :
    Follows (cursor >>= next) (reader >>= next') := by
  intro window off valid within
  rcases first window off valid within with ⟨value, off', read, inside, same⟩ | ⟨failed, none⟩
  · rw [bind_of_read read, Reader.bind_of_some same]
    exact rest value window off' valid inside
  · exact Or.inr ⟨bind_of_fails failed, reader_bind_of_none none⟩

theorem Follows.ite {condition : Prop} [Decidable condition] {yes no : Cursor α}
    {yes' no' : Reader α} (first : Follows yes yes') (second : Follows no no') :
    Follows (if condition then yes else no) (if condition then yes' else no') := by
  split
  · exact first
  · exact second

theorem Follows.many {item : Cursor α} {item' : Reader α} (each : Follows item item')
    (count : Nat) : Follows (many count item) (Reader.many count item') := by
  induction count with
  | zero => exact Follows.pure []
  | succ count ih => exact each.bind fun _ => ih.bind fun _ => Follows.pure _

theorem Follows.gives_bind {cursor : Cursor α} {reader : Reader α} {next : α → Cursor β}
    {next' : α → Reader β} (first : Follows cursor reader)
    (rest : ∀ value, Gives (next value) (next' value)) :
    Gives (cursor >>= next) (reader >>= next') := by
  intro window off valid within
  rcases first window off valid within with ⟨value, off', read, inside, same⟩ | ⟨failed, none⟩
  · rw [bind_of_read read, Reader.bind_of_some same]
    exact rest value window off' valid inside
  · exact Or.inr ⟨bind_of_fails failed, reader_bind_of_none none⟩

theorem Gives.fail : Gives (Cursor.fail : Cursor α) (fun _ => none) := Follows.fail.gives

theorem Gives.ite {condition : Prop} [Decidable condition] {yes no : Cursor α}
    {yes' no' : Reader α} (first : Gives yes yes') (second : Gives no no') :
    Gives (if condition then yes else no) (if condition then yes' else no') := by
  split
  · exact first
  · exact second

/-! ### Loads -/

section Loads

variable {window : Window} {off : Nat}

/-- A load inside the window gives its byte. -/
theorem load_eq (valid : window.Valid) {index : Nat} (within : off + index < window.len) :
    ∃ byte, load index window off = .read byte off ∧ window.bytes[off + index]? = some byte := by
  have inside : window.base + window.len ≤ window.memory.length := valid
  have there : window.base + (off + index) < window.memory.length := by omega
  have found : window.memory[window.base + (off + index)]? =
      some (window.memory.get ⟨_, there⟩) := List.getElem?_eq_getElem there
  refine ⟨window.memory.get ⟨_, there⟩, ?_, ?_⟩
  · rw [load, found]
  · rw [Window.bytes, List.getElem?_take_of_lt within, List.getElem?_drop, found]

/-- **The loop of a number stays inside**, and puts the bytes together. -/
theorem loadBytes_eq (valid : window.Valid) (left index value : Nat)
    (within : off + index + left ≤ window.len) (low : value < 256 ^ index) :
    loadBytes left index value window off =
      .read (value + 256 ^ index * leValue ((window.bytes.drop (off + index)).take left)) off := by
  induction left generalizing index value with
  | zero =>
    rw [List.take_zero]
    show Fetch.read value off = .read (value + 256 ^ index * 0) off
    rw [Nat.mul_zero, Nat.add_zero]
  | succ left ih =>
    obtain ⟨byte, loaded, held⟩ := load_eq valid (show off + index < window.len by omega)
    have front : (window.bytes.drop (off + index)).take (left + 1) =
        byte :: (window.bytes.drop (off + (index + 1))).take left := by
      have long : off + index < window.bytes.length := by
        rw [valid.length]
        omega
      rw [List.drop_eq_getElem_cons long, List.take_succ_cons,
        List.getElem_of_getElem? held |>.2]
      rfl
    rw [loadBytes, bind_of_read loaded, or_shiftLeft_byte low,
      ih (index + 1) _ (by omega) (add_byte_lt low byte), add_byte_add, front]
    rfl

theorem follows_readNumber (width : Nat) : Follows (readNumber width) (Reader.number width) := by
  intro window off valid within
  unfold readNumber
  by_cases short : window.len < off + width
  · refine Or.inr ⟨bind_of_fails (if_pos short), reader_bind_of_none (if_neg ?_)⟩
    rw [List.length_drop, valid.length]
    omega
  · have enough : width ≤ (window.bytes.drop off).length := by
      rw [List.length_drop, valid.length]
      omega
    have loaded := loadBytes_eq valid width 0 0 (show off + 0 + width ≤ window.len by omega)
      Nat.one_pos
    rw [Nat.pow_zero, Nat.one_mul, Nat.zero_add, Nat.add_zero] at loaded
    refine Or.inl ⟨leValue ((window.bytes.drop off).take width), off + width, ?_, by omega, ?_⟩
    · rw [bind_of_read (if_neg short), bind_of_read loaded]
      rfl
    · rw [Reader.number, Reader.bind_of_some (if_pos enough), List.drop_drop]
      rfl

theorem follows_readBlock (count : Nat) : Follows (readBlock count) (Reader.take count) := by
  intro window off valid within
  have inside : window.base + window.len ≤ window.memory.length := valid
  unfold readBlock
  by_cases short : window.len < off + count
  · refine Or.inr ⟨bind_of_fails (if_pos short), if_neg ?_⟩
    rw [List.length_drop, valid.length]
    omega
  · have enough : count ≤ (window.bytes.drop off).length := by
      rw [List.length_drop, valid.length]
      omega
    have block : (window.memory.drop (window.base + off)).take count =
        (window.bytes.drop off).take count := by
      rw [← Window.bytes_sub (by omega)]
      rfl
    refine Or.inl ⟨(window.bytes.drop off).take count, off + count, ?_, by omega, ?_⟩
    · rw [bind_of_read (if_neg short), bind_of_read (if_pos (by omega)), block]
      rfl
    · rw [Reader.take, if_pos enough, List.drop_drop]

theorem follows_readByte : Follows readByte Reader.byte := by
  intro window off valid within
  unfold readByte
  by_cases short : window.len < off + 1
  · have empty : window.bytes.drop off = [] := by
      rw [List.drop_eq_nil_iff, valid.length]
      omega
    refine Or.inr ⟨bind_of_fails (if_pos short), ?_⟩
    rw [empty]
    rfl
  · obtain ⟨byte, loaded, held⟩ := load_eq valid (show off + 0 < window.len by omega)
    have long : off < window.bytes.length := by
      rw [valid.length]
      omega
    refine Or.inl ⟨byte, off + 1, ?_, by omega, ?_⟩
    · rw [bind_of_read (if_neg short), bind_of_read loaded]
      rfl
    · rw [Nat.add_zero] at held
      rw [List.drop_eq_getElem_cons long, List.getElem_of_getElem? held |>.2]
      rfl

/-- **Decoding a window inside the window**, after the check of its length. -/
theorem gives_inside {inner : Cursor α} {reader : Reader α} (gives : Gives inner reader)
    (count : Nat) (wrap : α → β) :
    Gives (do need count; let value ← inside count inner; return wrap value)
      (Reader.take count >>= fun slice => Reader.within slice reader >>= fun value =>
        Pure.pure (wrap value)) := by
  intro window off valid within
  by_cases short : window.len < off + count
  · refine Or.inr ⟨bind_of_fails (if_pos short), reader_bind_of_none (if_neg ?_)⟩
    rw [List.length_drop, valid.length]
    omega
  · have enough : count ≤ (window.bytes.drop off).length := by
      rw [List.length_drop, valid.length]
      omega
    have taken : Reader.take count (window.bytes.drop off) = some _ := if_pos enough
    have there : off + count ≤ window.len := by omega
    rw [bind_of_read (if_neg short), Reader.bind_of_some taken]
    rcases gives (window.sub off count) 0 (valid.sub there) (Nat.zero_le _) with
      ⟨value, off', rest, read, same⟩ | ⟨failed, none⟩
    · rw [List.drop_zero, Window.bytes_sub there] at same
      refine Or.inl ⟨wrap value, off, (window.bytes.drop off).drop count, ?_, ?_⟩
      · have returned : inside count inner window off = .read value off := by
          rw [inside, read]
        rw [bind_of_read returned]
        rfl
      · have slice : Reader.within ((window.bytes.drop off).take count) reader
            ((window.bytes.drop off).drop count) =
              some (value, (window.bytes.drop off).drop count) := by
          rw [Reader.within, same]
          rfl
        rw [Reader.bind_of_some slice]
        rfl
    · rw [List.drop_zero, Window.bytes_sub there] at none
      refine Or.inr ⟨bind_of_fails ?_, reader_bind_of_none ?_⟩
      · rw [inside, failed]
      · rw [Reader.within, none]
        rfl

end Loads

end Cursor

end SunKV.Lib
