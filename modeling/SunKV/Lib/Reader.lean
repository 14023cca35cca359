/-
**Reading binary data from the front of a byte string.**

A reader takes a value off the front of the unread bytes, or fails.

* `leBytes`, `leValue` — fixed-width little-endian numbers (`leValue_leBytes`).
* `Spells reader used value` — whatever follows `used`, the reader takes exactly `used` and
  returns `value`. Closed under sequencing (`Spells.bind`) and repetition (`Spells.many`): round
  trips of composite formats are assembled from these.
* `Local reader` — the converse: a successful read took some `used` that spells its value. Later
  bytes therefore never influence a read that succeeded (`Local.append`), and a reader fails on
  every strict prefix of a spelling (`Local.none_of_strict_prefix`).
* `Yields reader post` — a successful read satisfies `post` of the number of bytes taken and the
  value, with one rule per combinator.
-/

import Mathlib

namespace SunKV.Lib

/-- A byte string. -/
abbrev Bytes := List UInt8

/-- The byte of an ASCII character. -/
def ascii (char : Char) : UInt8 := UInt8.ofNat char.toNat

/-- The bytes of an ASCII text. -/
def text (message : String) : Bytes := message.toList.map ascii

/-- A member's spelling is no longer than the spelling of the whole list. -/
theorem length_le_flatMap {α : Type} (spell : α → Bytes) {items : List α} {item : α}
    (member : item ∈ items) : (spell item).length ≤ (items.flatMap spell).length := by
  rw [List.length_flatMap]
  exact List.single_le_sum (fun _ _ => Nat.zero_le _) _ (List.mem_map_of_mem member)

/-- A list whose members all take bytes is no longer than its spelling. -/
theorem length_le_length_flatMap {α : Type} (spell : α → Bytes) (items : List α)
    (takes : ∀ item ∈ items, 0 < (spell item).length) :
    items.length ≤ (items.flatMap spell).length := by
  induction items with
  | nil => simp
  | cons item items ih =>
    have first := takes item List.mem_cons_self
    have rest := ih fun other member => takes other (List.mem_cons_of_mem _ member)
    rw [List.length_cons, List.flatMap_cons, List.length_append]
    omega

/-! ### Little-endian numbers -/

/-- The `width` low bytes of a number, least significant first. -/
def leBytes : Nat → Nat → Bytes
  | 0, _ => []
  | width + 1, value => UInt8.ofNat value :: leBytes width (value / 256)

/-- The number a little-endian byte string stands for. -/
def leValue : Bytes → Nat
  | [] => 0
  | byte :: rest => byte.toNat + 256 * leValue rest

@[simp] theorem leBytes_length (width value : Nat) : (leBytes width value).length = width := by
  induction width generalizing value with
  | zero => rfl
  | succ width ih => simp [leBytes, ih]

theorem leValue_leBytes (width value : Nat) :
    leValue (leBytes width value) = value % 256 ^ width := by
  induction width generalizing value with
  | zero => simp [leBytes, leValue, Nat.mod_one]
  | succ width ih =>
    have low : (UInt8.ofNat value).toNat = value % 256 := UInt8.toNat_ofNat
    rw [leBytes, leValue, ih, low, pow_succ', Nat.mod_mul]

/-- **A byte shifted above the bytes read so far**: the bitwise sum is the sum. -/
theorem or_shiftLeft_byte {value index : Nat} (low : value < 256 ^ index) (byte : UInt8) :
    value ||| byte.toNat <<< (index * 8) = value + 256 ^ index * byte.toNat := by
  have power : 2 ^ (index * 8) = 256 ^ index := by rw [Nat.mul_comm, Nat.pow_mul]
  rw [Nat.or_comm, ← Nat.shiftLeft_add_eq_or_of_lt (by rw [power]; exact low), Nat.shiftLeft_eq,
    power, Nat.add_comm, Nat.mul_comm]

theorem add_byte_lt {value index : Nat} (low : value < 256 ^ index) (byte : UInt8) :
    value + 256 ^ index * byte.toNat < 256 ^ (index + 1) := by
  have room : 256 ^ index * byte.toNat ≤ 256 ^ index * 255 :=
    Nat.mul_le_mul_left _ (Nat.le_of_lt_succ byte.toNat_lt)
  rw [Nat.pow_succ]
  omega

/-- The bytes above the next one, with it and without. -/
theorem add_byte_add (value index low high : Nat) :
    value + 256 ^ index * low + 256 ^ (index + 1) * high =
      value + 256 ^ index * (low + 256 * high) := by
  rw [Nat.pow_succ, Nat.mul_add, Nat.mul_assoc, Nat.add_assoc]

/-! ### Readers -/

/-- A reader: the unread bytes before, the value and the unread bytes after. -/
abbrev Reader := StateT Bytes Option

namespace Reader

variable {α β : Type}

/-- Take `count` bytes. -/
def take (count : Nat) : Reader Bytes := fun data =>
  if count ≤ data.length then some (data.take count, data.drop count) else none

/-- Take one byte. -/
def byte : Reader UInt8
  | [] => none
  | first :: rest => some (first, rest)

/-- Take a little-endian number of `width` bytes. -/
def number (width : Nat) : Reader Nat := do
  let bytes ← take width
  return leValue bytes

/-- The same reader `count` times. -/
def many (count : Nat) (item : Reader α) : Reader (List α) :=
  match count with
  | 0 => return []
  | count + 1 => do
    let first ← item
    let rest ← many count item
    return first :: rest

/-- Take one byte, which must be `value`. -/
def expect (value : UInt8) : Reader Unit := do
  let first ← byte
  if first = value then return () else fun _ => none

/-- Read inside a slice already taken; what is left of the slice is ignored. -/
def within (slice : Bytes) (reader : Reader α) : Reader α := fun data =>
  (reader slice).map fun step => (step.1, data)

/-- **`used` spells `value`**: the reader takes exactly `used`, whatever follows. -/
def Spells (reader : Reader α) (used : Bytes) (value : α) : Prop :=
  ∀ rest, reader (used ++ rest) = some (value, rest)

/-- **A local reader**: a successful read took a spelling of its value. -/
def Local (reader : Reader α) : Prop :=
  ∀ data value rest, reader data = some (value, rest) →
    ∃ used, data = used ++ rest ∧ Spells reader used value

theorem bind_eq_some {reader : Reader α} {next : α → Reader β} {data rest : Bytes} {value : β}
    (read : (reader >>= next) data = some (value, rest)) :
    ∃ middle between, reader data = some (middle, between) ∧
      next middle between = some (value, rest) := by
  change (reader data).bind (fun step => next step.1 step.2) = _ at read
  obtain ⟨⟨middle, between⟩, first, second⟩ := Option.bind_eq_some_iff.mp read
  exact ⟨middle, between, first, second⟩

theorem bind_of_some {reader : Reader α} {next : α → Reader β} {data between : Bytes} {middle : α}
    (read : reader data = some (middle, between)) :
    (reader >>= next) data = next middle between := by
  change (reader data).bind (fun step => next step.1 step.2) = _
  rw [read]
  rfl

/-! ### Spellings -/

theorem Spells.pure (value : α) : Spells (Pure.pure value : Reader α) [] value :=
  fun _ => rfl

theorem Spells.bind {reader : Reader α} {next : α → Reader β} {used used' : Bytes} {middle : α}
    {value : β} (first : Spells reader used middle) (second : Spells (next middle) used' value) :
    Spells (reader >>= next) (used ++ used') value := by
  intro rest
  rw [List.append_assoc, bind_of_some (first _)]
  exact second rest

/-- A last step that takes nothing. -/
theorem Spells.map {reader : Reader α} {used : Bytes} {middle : α}
    (first : Spells reader used middle)
    (f : α → β) : Spells (reader >>= fun value => Pure.pure (f value)) used (f middle) := by
  have whole : Spells (reader >>= fun value => Pure.pure (f value)) (used ++ []) (f middle) :=
    first.bind (Spells.pure (f middle))
  rwa [List.append_nil] at whole

theorem spells_take (used : Bytes) : Spells (take used.length) used used := by
  intro rest
  simp [take]

theorem spells_byte (value : UInt8) : Spells byte [value] value :=
  fun _ => rfl

theorem spells_expect (value : UInt8) : Spells (expect value) [value] () := by
  have accepted : Spells (if value = value then Pure.pure () else fun _ => none) [] () := by
    rw [if_pos rfl]
    exact Spells.pure ()
  exact (spells_byte value).bind accepted

/-- A slice that starts with a spelling is read as what it spells. -/
theorem Spells.within {reader : Reader α} {used : Bytes} {value : α}
    (inner : Spells reader used value)
    (padding : Bytes) : Spells (within (used ++ padding) reader) [] value := by
  intro rest
  show (reader (used ++ padding)).map _ = _
  rw [inner padding]
  rfl

theorem spells_number {width value : Nat} (fits : value < 256 ^ width) :
    Spells (number width) (leBytes width value) value := by
  have read := (spells_take (leBytes width value)).map leValue
  rw [leBytes_length, leValue_leBytes, Nat.mod_eq_of_lt fits] at read
  exact read

theorem Spells.many {item : Reader α} {spell : α → Bytes} (values : List α)
    (each : ∀ value ∈ values, Spells item (spell value) value) :
    Spells (many values.length item) (values.flatMap spell) values := by
  induction values with
  | nil => exact Spells.pure []
  | cons value values ih =>
    have rest := ih fun other member => each other (List.mem_cons_of_mem _ member)
    exact (each value List.mem_cons_self).bind (rest.map (value :: ·))

/-- **A number is its first byte and the number behind it.** -/
theorem number_succ (width : Nat) :
    number (width + 1) = byte >>= fun first => number width >>= fun rest =>
      Pure.pure (first.toNat + 256 * rest) := by
  funext data
  cases data with
  | nil => rfl
  | cons first rest =>
    change ((take (width + 1) (first :: rest)).bind fun step =>
        some (leValue step.1, step.2)) =
      ((take width rest).bind fun step => some (leValue step.1, step.2)).bind fun step =>
        some (first.toNat + 256 * step.1, step.2)
    unfold take
    by_cases enough : width ≤ rest.length
    · rw [if_pos (by simpa using enough), if_pos enough]
      rfl
    · rw [if_neg (by simpa using enough), if_neg enough]
      rfl

/-- Expecting a byte is taking one and comparing it. -/
theorem expect_bind (value : UInt8) (next : Reader α) :
    (expect value >>= fun _ => next) =
      byte >>= fun first => if first ≠ value then fun _ => none else next := by
  funext data
  cases data with
  | nil => rfl
  | cons first rest =>
    change ((if first = value then Pure.pure () else fun _ => none : Reader Unit) rest).bind
      (fun step => next step.2) = (if first ≠ value then fun _ => none else next : Reader α) rest
    by_cases same : first = value
    · rw [if_pos same, if_neg (not_not.mpr same)]
      rfl
    · rw [if_neg same, if_pos same]
      rfl

/-- **Two bytes are expected by taking both and then comparing them.** -/
theorem expect_two (one two : UInt8) (next : Reader α) :
    (expect one >>= fun _ => expect two >>= fun _ => next) =
      byte >>= fun first => byte >>= fun second =>
        if first ≠ one ∨ second ≠ two then fun _ => none else next := by
  rw [expect_bind, expect_bind]
  funext data
  rcases data with _ | ⟨first, _ | ⟨second, rest⟩⟩
  · rfl
  · change (if first ≠ one then fun _ => none else byte >>= _ : Reader α) [] = none
    split
    · rfl
    · rfl
  · change (if first ≠ one then fun _ => none else byte >>= _ : Reader α) (second :: rest) =
      (if first ≠ one ∨ second ≠ two then fun _ => none else next : Reader α) rest
    by_cases different : first = one
    · by_cases other : second = two
      · rw [if_neg (not_not.mpr different), if_neg (by simp [different, other])]
        change (if second ≠ two then fun _ => none else next : Reader α) rest = next rest
        rw [if_neg (not_not.mpr other)]
      · rw [if_neg (not_not.mpr different), if_pos (Or.inr other)]
        change (if second ≠ two then fun _ => none else next : Reader α) rest = none
        rw [if_pos other]
    · rw [if_pos different, if_pos (Or.inl different)]

/-! ### Local readers -/

theorem Local.pure (value : α) : Local (Pure.pure value : Reader α) := by
  rintro data value' rest read
  obtain ⟨rfl, rfl⟩ := Prod.mk.inj (Option.some.inj read)
  exact ⟨[], rfl, Spells.pure value⟩

theorem Local.fail : Local (fun _ => none : Reader α) :=
  fun _ _ _ read => by cases read

theorem Local.bind {reader : Reader α} {next : α → Reader β} (first : Local reader)
    (second : ∀ middle, Local (next middle)) : Local (reader >>= next) := by
  intro data value rest read
  obtain ⟨middle, between, one, two⟩ := bind_eq_some read
  obtain ⟨used, rfl, spells⟩ := first _ _ _ one
  obtain ⟨used', rfl, spells'⟩ := second middle _ _ _ two
  exact ⟨used ++ used', (List.append_assoc _ _ _).symm, spells.bind spells'⟩

theorem Local.ite {condition : Prop} [Decidable condition] {yes no : Reader α}
    (first : Local yes) (second : Local no) : Local (if condition then yes else no) := by
  split
  · exact first
  · exact second

theorem local_take (count : Nat) : Local (take count) := by
  intro data value rest read
  unfold take at read
  split at read
  case isFalse => cases read
  case isTrue enough =>
    obtain ⟨rfl, rfl⟩ := Prod.mk.inj (Option.some.inj read)
    refine ⟨data.take count, (List.take_append_drop _ _).symm, ?_⟩
    have spells := spells_take (data.take count)
    rwa [List.length_take, Nat.min_eq_left enough] at spells

theorem local_byte : Local byte := by
  intro data value rest read
  cases data with
  | nil => cases read
  | cons first others =>
    obtain ⟨rfl, rfl⟩ := Prod.mk.inj (Option.some.inj read)
    exact ⟨[first], rfl, spells_byte first⟩

theorem local_number (width : Nat) : Local (number width) :=
  (local_take width).bind fun _ => Local.pure _

theorem local_expect (value : UInt8) : Local (expect value) :=
  local_byte.bind fun _ => Local.ite (Local.pure ()) Local.fail

theorem local_within (slice : Bytes) (reader : Reader α) : Local (within slice reader) := by
  intro data value rest read
  obtain ⟨⟨found, left⟩, inner, same⟩ := Option.map_eq_some_iff.mp read
  obtain ⟨rfl, rfl⟩ := Prod.mk.inj same
  refine ⟨[], rfl, fun more => ?_⟩
  show (reader slice).map _ = _
  rw [inner]
  rfl

theorem Local.many {item : Reader α} (each : Local item) (count : Nat) :
    Local (many count item) := by
  induction count with
  | zero => exact Local.pure []
  | succ count ih => exact each.bind fun _ => ih.bind fun _ => Local.pure _

/-- **Later bytes do not influence a read that succeeded.** -/
theorem Local.append {reader : Reader α} (loc : Local reader) {data rest : Bytes} {value : α}
    (read : reader data = some (value, rest)) (more : Bytes) :
    reader (data ++ more) = some (value, rest ++ more) := by
  obtain ⟨used, rfl, spells⟩ := loc _ _ _ read
  rw [List.append_assoc]
  exact spells _

/-- **A strict prefix of a spelling is never read.** -/
theorem Local.none_of_strict_prefix {reader : Reader α} (loc : Local reader) {front back : Bytes}
    {value : α} (spells : Spells reader (front ++ back) value) (torn : back ≠ []) :
    reader front = none := by
  cases read : reader front with
  | none => rfl
  | some step =>
    obtain ⟨other, rest⟩ := step
    have whole := spells []
    rw [List.append_nil, loc.append read back] at whole
    obtain ⟨_, empty⟩ := Prod.mk.inj (Option.some.inj whole)
    exact (torn (List.append_eq_nil_iff.mp empty).2).elim

/-! ### What a successful read took -/

/-- **A successful read took a number of bytes and returned a value that satisfy `post`.** -/
def Yields (reader : Reader α) (post : Nat → α → Prop) : Prop :=
  ∀ data value rest, reader data = some (value, rest) →
    ∃ count, data.length = count + rest.length ∧ post count value

theorem Yields.mono {reader : Reader α} {post post' : Nat → α → Prop} (yields : Yields reader post)
    (weaker : ∀ count value, post count value → post' count value) : Yields reader post' := by
  intro data value rest read
  obtain ⟨count, length, holds⟩ := yields data value rest read
  exact ⟨count, length, weaker count value holds⟩

theorem Yields.pure {value : α} {post : Nat → α → Prop} (holds : post 0 value) :
    Yields (Pure.pure value : Reader α) post := by
  rintro data value' rest read
  obtain ⟨rfl, rfl⟩ := Prod.mk.inj (Option.some.inj read)
  exact ⟨0, (Nat.zero_add _).symm, holds⟩

theorem Yields.fail {post : Nat → α → Prop} : Yields (fun _ => none : Reader α) post :=
  fun _ _ _ read => by cases read

theorem Yields.bind {reader : Reader α} {next : α → Reader β} {middle : Nat → α → Prop}
    {post : Nat → β → Prop} (first : Yields reader middle)
    (second : ∀ count value, middle count value →
      Yields (next value) fun count' result => post (count + count') result) :
    Yields (reader >>= next) post := by
  intro data value rest read
  obtain ⟨found, between, one, two⟩ := bind_eq_some read
  obtain ⟨count, length, holds⟩ := first _ _ _ one
  obtain ⟨count', length', holds'⟩ := second count found holds _ _ _ two
  exact ⟨count + count', by omega, holds'⟩

theorem yields_take (count : Nat) :
    Yields (take count) fun taken value => taken = count ∧ value.length = count := by
  intro data value rest read
  unfold take at read
  split at read
  case isFalse => cases read
  case isTrue enough =>
    obtain ⟨rfl, rfl⟩ := Prod.mk.inj (Option.some.inj read)
    exact ⟨count, by rw [List.length_drop]; omega, rfl, by rw [List.length_take]; omega⟩

theorem yields_byte : Yields byte fun taken _ => taken = 1 := by
  intro data value rest read
  cases data with
  | nil => cases read
  | cons first others =>
    obtain ⟨rfl, rfl⟩ := Prod.mk.inj (Option.some.inj read)
    exact ⟨1, by rw [List.length_cons, Nat.add_comm], rfl⟩

theorem yields_expect (value : UInt8) : Yields (expect value) fun taken _ => taken = 1 := by
  refine yields_byte.bind fun taken first one => ?_
  split
  · exact Yields.pure one
  · exact Yields.fail

theorem yields_number (width : Nat) : Yields (number width) fun taken _ => taken = width :=
  (yields_take width).bind fun _ _ taken => Yields.pure taken.1

/-- Reading inside a slice takes nothing, and takes at most the slice there. -/
theorem Yields.within {reader : Reader α} {post : Nat → α → Prop} (inner : Yields reader post)
    (slice : Bytes) :
    Yields (within slice reader) fun taken value =>
      taken = 0 ∧ ∃ count ≤ slice.length, post count value := by
  intro data value rest read
  obtain ⟨⟨found, left⟩, read', same⟩ := Option.map_eq_some_iff.mp read
  obtain ⟨rfl, rfl⟩ := Prod.mk.inj same
  obtain ⟨count, length, holds⟩ := inner _ _ _ read'
  exact ⟨0, (Nat.zero_add _).symm, rfl, count, by omega, holds⟩

theorem Yields.many {item : Reader α} {cost : α → Nat}
    (each : Yields item fun taken value => cost value ≤ taken) (count : Nat) :
    Yields (many count item) fun taken values => (values.map cost).sum ≤ taken := by
  induction count with
  | zero => exact Yields.pure le_rfl
  | succ count ih =>
    refine each.bind fun taken first paid => ?_
    refine ih.bind fun taken' rest paid' => Yields.pure ?_
    rw [List.map_cons, List.sum_cons]
    omega

end Reader

end SunKV.Lib
