/-
**The chain of log files: writer, rotation and chain reader.**

The directory of the log maps file names to contents. Beside the primary file `base` it may hold
archived segments `base.1`, `base.2`, …, and files that are none of these. `Lister` is the order in
which a directory iterator gives the names, which nothing fixes.

* `appendBytes` — the writer with its limit: a full primary is renamed to the next free number
  (`rotate`), a fresh one opened, and the buffer cut at whatever byte fills the file.
* `readChain` — the segments in order of their numbers, then the primary, each decoded on its own.
* `Laid` — what the directory holds after `log` was appended: the log cut every `limit` bytes.
  `Laid.appendBytes` keeps it, `Laid.readChain` reads it.
-/

import SunKV.Lib.Decimal
import SunKV.Persistence.WalReader
import SunKV.Storage.Effect

namespace SunKV.Persistence

open SunKV.Lib SunKV.Storage

/-! ### Directory and names -/

/-- The files of a directory. -/
abbrev Directory := Dict Bytes

/-- An order of enumeration for every directory. -/
structure Lister where
  list : Directory → List Bytes
  perm : ∀ directory, (list directory).Perm directory.keys

/-- The names in key order. -/
def Lister.sorted : Lister := ⟨fun directory => directory.keys, fun _ => List.Perm.refl _⟩

/-- `INT_MAX`. -/
def intMax : Nat := 2 ^ 31 - 1

/-- `std::to_string(int)`. -/
def intToString (value : Int32) : Bytes :=
  if value < 0 then ascii '-' :: decimal value.toInt.natAbs else decimal value.toInt.toNat

/-- `allDigits`. -/
def allDigits (suffix : Bytes) : Bool := !suffix.isEmpty && suffix.all isDigit

/-- `std::stoi` of a string of digits: it throws above `INT_MAX`. -/
def stoi (digits : Bytes) : Option Nat :=
  if decimalValue digits ≤ intMax then some (decimalValue digits) else none

/-- The number of a segment of `base`, by its file name. -/
def segmentNumber (base name : Bytes) : Option Nat :=
  if name.length ≤ base.length + 1 then none
  else if name.take base.length ≠ base then none
  else if name[base.length]? ≠ some (ascii '.') then none
  else if !allDigits (name.drop (base.length + 1)) then none
  else stoi (name.drop (base.length + 1))

/-- `base.suffix`. -/
def dotted (base suffix : Bytes) : Bytes := base ++ ascii '.' :: suffix

/-- The name of a segment. -/
def segmentName (base : Bytes) (number : Nat) : Bytes := dotted base (decimal number)

/-! ### The writer -/

section Writer

variable (lister : Lister) (base : Bytes) (limit : Nat)

/-- `maxNumericWalSuffix`. -/
def maxNumericWalSuffix (directory : Directory) : Nat :=
  (lister.list directory).foldl (fun highest name =>
    match segmentNumber base name with
    | some number => if highest < number then number else highest
    | none => highest) 0

/-- `open(path, O_CREAT | O_APPEND)`. -/
def openAppend (directory : Directory) : Directory :=
  if base ∈ directory then directory else directory.insert base []

/-- `rotate_`: the sum is a 32-bit `int`. -/
def rotate (directory : Directory) : Directory :=
  match directory[base]? with
  | none => openAppend base directory
  | some content =>
    if content = [] then openAppend base directory
    else
      let next : Int32 := Int32.ofNat (maxNumericWalSuffix lister base directory) + 1
      openAppend base ((directory.erase base).insert (dotted base (intToString next)) content)

/-- `writeAll` on the open primary. -/
def writeAll (directory : Directory) (data : Bytes) : Directory :=
  directory.insert base (directory[base]?.getD [] ++ data)

/-- The loop of `appendBytes`. The fuel covers a rotation and a write for every byte. -/
def appendLoop : Nat → Directory → Bytes → Directory
  | 0, directory, _ => directory
  | fuel + 1, directory, data =>
    if data = [] then directory
    else
      let size := (directory[base]?.getD []).length
      if limit ≤ size then appendLoop fuel (rotate lister base directory) data
      else
        let chunk := min data.length (limit - size)
        appendLoop fuel (writeAll base directory (data.take chunk)) (data.drop chunk)

/-- `WalWriter::appendBytes`. -/
def appendBytes (directory : Directory) (data : Bytes) : Directory :=
  if data = [] then directory
  else if limit = 0 then writeAll base directory data
  else appendLoop lister base limit (2 * data.length + 1) directory data

/-- `WalWriter::append`. -/
def append (directory : Directory) (batch : MutationBatch) : Directory :=
  if batch.isEmpty then directory else appendBytes lister base limit directory (encodeBatch batch)

end Writer

/-! ### The chain reader -/

/-- `walSegmentPathsOrdered`. -/
def walSegmentsOrdered (lister : Lister) (base : Bytes) (directory : Directory) : List Bytes :=
  let numbered := (lister.list directory).filterMap fun name =>
    (segmentNumber base name).map fun number => (number, name)
  (numbered.insertionSort fun first second => first.1 ≤ second.1).map Prod.snd ++
    if base ∈ directory then [base] else []

/-- The loop of `readAllMutationsWalChain` over the files. -/
def readSegments : List (Option Bytes) → Option (List Mutation)
  | [] => some []
  | file :: files => do
    let chunk ← readAllMutations file
    let later ← readSegments files
    return chunk ++ later

/-- `WalReader::readAllMutationsWalChain`. -/
def readChain (lister : Lister) (base : Bytes) (directory : Directory) : Option (List Mutation) :=
  readSegments ((walSegmentsOrdered lister base directory).map fun name => directory[name]?)

/-! ### Names of segments -/

theorem dotted_injective (base : Bytes) : Function.Injective (dotted base) := by
  intro first second same
  exact (List.cons.inj (List.append_cancel_left same)).2

theorem dotted_ne (base suffix : Bytes) : dotted base suffix ≠ base := by
  intro same
  have length := congrArg List.length same
  simp [dotted] at length

theorem segmentName_ne (base : Bytes) (number : Nat) : segmentName base number ≠ base :=
  dotted_ne base _

theorem segmentName_injective (base : Bytes) : Function.Injective (segmentName base) :=
  (dotted_injective base).comp decimal_injective

theorem segmentNumber_dotted (base suffix : Bytes) :
    segmentNumber base (dotted base suffix) =
      if !allDigits suffix then none else stoi suffix := by
  have first : (dotted base suffix).take base.length = base := by simp [dotted]
  have dot : (dotted base suffix)[base.length]? = some (ascii '.') := by simp [dotted]
  have rest : (dotted base suffix).drop (base.length + 1) = suffix := by
    rw [dotted, List.drop_append, List.drop_eq_nil_of_le (Nat.le_succ _), Nat.add_sub_cancel_left]
    rfl
  cases suffix with
  | nil => simp [segmentNumber, dotted, allDigits]
  | cons byte bytes =>
    have long : ¬ (dotted base (byte :: bytes)).length ≤ base.length + 1 := by
      simp [dotted]
    rw [segmentNumber, if_neg long, if_neg (not_not.mpr first), if_neg (not_not.mpr dot), rest]

theorem allDigits_decimal (number : Nat) : allDigits (decimal number) = true := by
  simp only [allDigits, Bool.and_eq_true, Bool.not_eq_true', List.isEmpty_eq_false_iff,
    List.all_eq_true]
  exact ⟨decimal_ne_nil number, decimal_digits number⟩

theorem segmentNumber_segmentName (base : Bytes) {number : Nat} (small : number ≤ intMax) :
    segmentNumber base (segmentName base number) = some number := by
  rw [segmentName, segmentNumber_dotted, allDigits_decimal]
  simp [stoi, decimalValue_decimal, small]

/-- The primary is no segment of itself. -/
theorem segmentNumber_base (base : Bytes) : segmentNumber base base = none := by
  simp [segmentNumber]

theorem intToString_succ {number : Nat} (small : number < intMax) :
    intToString (Int32.ofNat number + 1) = decimal (number + 1) := by
  have bound : number < 2 ^ 31 - 1 := small
  have value : (Int32.ofNat number + 1).toInt = ((number + 1 : Nat) : Int) := by
    rw [Int32.toInt_add, Int32.toInt_ofNat_of_lt (by omega)]
    show ((number : Int) + 1).bmod (2 ^ 32) = _
    rw [Int.bmod_eq_of_le (by omega) (by omega)]
    rfl
  have positive : ¬ Int32.ofNat number + 1 < 0 := by
    rw [Int32.lt_iff_toInt_lt, value]
    exact Int.not_lt.mpr (Int.natCast_nonneg _)
  rw [intToString, if_neg positive, value, Int.toNat_natCast]

/-- Past `INT_MAX` the sum wraps, and the numeral gets a sign. -/
theorem intToString_wrap :
    intToString (Int32.ofNat intMax + 1) = ascii '-' :: decimal (2 ^ 31) := by
  have value : (Int32.ofNat intMax + 1).toInt = -2 ^ 31 := by decide
  have negative : Int32.ofNat intMax + 1 < 0 := by decide
  rw [intToString, if_pos negative, value]
  rfl

theorem segmentNumber_wrapped (base : Bytes) :
    segmentNumber base (dotted base (intToString (Int32.ofNat intMax + 1))) = none := by
  rw [segmentNumber_dotted, intToString_wrap]
  simp [allDigits, isDigit, ascii]

/-! ### The layout of a log -/

/-- **The directory holds `log`, cut every `limit` bytes**: `count` segments have been archived and
the primary holds the rest. Only the first `INT_MAX` of them have a number. -/
structure Laid (base : Bytes) (limit count : Nat) (log : Bytes) (directory : Directory) : Prop where
  low : count * limit ≤ log.length
  high : log.length ≤ (count + 1) * limit
  primary : directory[base]? = some (log.drop (count * limit))
  archived : ∀ index < min count intMax,
    directory[segmentName base (index + 1)]? = some ((log.drop (index * limit)).take limit)
  only : ∀ name ∈ directory, ∀ number, segmentNumber base name = some number →
    ∃ index < min count intMax, number = index + 1 ∧ name = segmentName base (index + 1)

/-- A directory without primary and without segments. -/
def NoChain (base : Bytes) (directory : Directory) : Prop :=
  base ∉ directory ∧ ∀ name ∈ directory, segmentNumber base name = none

theorem noChain_empty (base : Bytes) : NoChain base ∅ :=
  ⟨Std.ExtTreeMap.not_mem_empty, fun _ member => (Std.ExtTreeMap.not_mem_empty member).elim⟩

section Layout

variable {lister : Lister} {base : Bytes} {limit count : Nat} {log : Bytes} {directory : Directory}

theorem mem_insert_iff (name : Bytes) (content : Bytes) (other : Bytes) :
    other ∈ directory.insert name content ↔ other = name ∨ other ∈ directory := by
  rw [Std.ExtTreeMap.mem_insert, Std.LawfulEqCmp.compare_eq_iff_eq, eq_comm]

theorem Laid.of_noChain (fresh : NoChain base directory) :
    Laid base limit 0 [] (openAppend base directory) := by
  rw [openAppend, if_neg fresh.1]
  refine ⟨by simp, by simp, ?_, fun index few => by omega, fun name member number found => ?_⟩
  · rw [getElem?_insert_eq, if_pos rfl, List.drop_nil]
  · rcases (mem_insert_iff _ _ _).mp member with rfl | old
    · rw [segmentNumber_base] at found
      cases found
    · rw [fresh.2 name old] at found
      cases found

theorem Laid.mem_base (laid : Laid base limit count log directory) : base ∈ directory :=
  Std.ExtTreeMap.mem_iff_isSome_getElem?.mpr (by rw [laid.primary]; rfl)

theorem Laid.openAppend (laid : Laid base limit count log directory) :
    openAppend base directory = directory := if_pos laid.mem_base

theorem Laid.size (laid : Laid base limit count log directory) :
    (directory[base]?.getD []).length = log.length - count * limit := by
  rw [laid.primary, Option.getD_some, List.length_drop]

/-- Writing into the room the primary has left. -/
theorem Laid.writeAll (laid : Laid base limit count log directory) {data : Bytes}
    (room : log.length + data.length ≤ (count + 1) * limit) :
    Laid base limit count (log ++ data) (writeAll base directory data) where
  low := by
    rw [List.length_append]
    exact laid.low.trans (Nat.le_add_right _ _)
  high := by rwa [List.length_append]
  primary := by
    rw [Persistence.writeAll, getElem?_insert_eq, if_pos rfl, laid.primary, Option.getD_some,
      List.drop_append_of_le_length laid.low]
  archived := by
    intro index few
    have inside : (index + 1) * limit ≤ log.length :=
      le_trans (Nat.mul_le_mul_right _ (by omega)) laid.low
    rw [Nat.add_mul, Nat.one_mul] at inside
    rw [Persistence.writeAll, getElem?_insert_eq, if_neg (segmentName_ne base _),
      laid.archived index few,
      List.drop_append_of_le_length (by omega), List.take_append_of_le_length]
    rw [List.length_drop]
    omega
  only := by
    intro name member number found
    rcases (mem_insert_iff _ _ _).mp member with rfl | old
    · rw [segmentNumber_base] at found
      cases found
    · exact laid.only name old number found

/-- The numbers found in a listing, with the highest of them so far. -/
theorem foldl_highest (base : Bytes) (names : List Bytes) (start : Nat) :
    let highest := names.foldl (fun highest name =>
      match segmentNumber base name with
      | some number => if highest < number then number else highest
      | none => highest) start
    start ≤ highest ∧
      (∀ name ∈ names, ∀ number, segmentNumber base name = some number → number ≤ highest) ∧
      (highest = start ∨ ∃ name ∈ names, segmentNumber base name = some highest) := by
  induction names generalizing start with
  | nil => simp
  | cons name names ih =>
    cases found : segmentNumber base name with
    | none =>
      obtain ⟨above, all, reached⟩ := ih start
      simp only [List.foldl_cons, found]
      refine ⟨above, fun other member number known => ?_, ?_⟩
      · rcases List.mem_cons.mp member with rfl | later
        · rw [found] at known
          cases known
        · exact all other later number known
      · rcases reached with same | ⟨other, member, known⟩
        · exact Or.inl same
        · exact Or.inr ⟨other, List.mem_cons_of_mem _ member, known⟩
    | some first =>
      obtain ⟨above, all, reached⟩ := ih (if start < first then first else start)
      have least : first ≤ if start < first then first else start := by split <;> omega
      have start_le : start ≤ if start < first then first else start := by split <;> omega
      simp only [List.foldl_cons, found]
      refine ⟨start_le.trans above, fun other member number known => ?_, ?_⟩
      · rcases List.mem_cons.mp member with rfl | later
        · rw [found] at known
          obtain rfl := Option.some.inj known
          exact least.trans above
        · exact all other later number known
      · rcases reached with same | ⟨other, member, known⟩
        · by_cases less : start < first
          · rw [if_pos less] at same
            refine Or.inr ⟨name, List.mem_cons_self, ?_⟩
            rw [if_pos less, same, found]
          · rw [if_neg less] at same
            rw [if_neg less]
            exact Or.inl same
        · exact Or.inr ⟨other, List.mem_cons_of_mem _ member, known⟩

theorem Lister.mem_list (name : Bytes) : name ∈ lister.list directory ↔ name ∈ directory := by
  rw [(lister.perm directory).mem_iff, Std.ExtTreeMap.mem_keys]

theorem Laid.maxNumericWalSuffix (laid : Laid base limit count log directory) :
    maxNumericWalSuffix lister base directory = min count intMax := by
  obtain ⟨_, all, reached⟩ := foldl_highest base (lister.list directory) 0
  change ∀ name ∈ _, ∀ number, _ → number ≤ Persistence.maxNumericWalSuffix lister base directory
    at all
  change Persistence.maxNumericWalSuffix lister base directory = 0 ∨ ∃ name ∈ _, _ =
    some (Persistence.maxNumericWalSuffix lister base directory) at reached
  refine le_antisymm ?_ ?_
  · rcases reached with none | ⟨name, member, found⟩
    · omega
    · obtain ⟨index, few, same, _⟩ :=
        laid.only name ((Lister.mem_list name).mp member) _ found
      omega
  · cases kept : min count intMax with
    | zero => exact Nat.zero_le _
    | succ index =>
      have held := laid.archived index (by omega)
      refine all (segmentName base (index + 1)) ((Lister.mem_list _).mpr ?_) _ ?_
      · exact Std.ExtTreeMap.mem_iff_isSome_getElem?.mpr (by rw [held]; rfl)
      · exact segmentNumber_segmentName base (by omega)

/-- The name the next archived segment gets. -/
def nextName (base : Bytes) (count : Nat) : Bytes :=
  dotted base (intToString (Int32.ofNat (min count intMax) + 1))

theorem nextName_of_lt (base : Bytes) {count : Nat} (few : count < intMax) :
    nextName base count = segmentName base (count + 1) := by
  rw [nextName, Nat.min_eq_left few.le, intToString_succ few, segmentName]

theorem segmentNumber_nextName (base : Bytes) {count : Nat} (many : intMax ≤ count) :
    segmentNumber base (nextName base count) = none := by
  rw [nextName, Nat.min_eq_right many, segmentNumber_wrapped]

/-- No archived segment has the name the next one gets. -/
theorem nextName_ne (base : Bytes) (count : Nat) {index : Nat} (few : index < min count intMax) :
    segmentName base (index + 1) ≠ nextName base count := by
  intro same
  by_cases room : count < intMax
  · rw [nextName_of_lt base room] at same
    have := segmentName_injective base same
    omega
  · have small : index + 1 ≤ intMax := by omega
    have found := segmentNumber_segmentName base small
    rw [same, segmentNumber_nextName base (not_lt.mp room)] at found
    cases found

theorem Laid.rotate_eq (laid : Laid base limit count log directory)
    (occupied : count * limit < log.length) :
    rotate lister base directory =
      ((directory.erase base).insert (nextName base count) (log.drop (count * limit))).insert
        base [] := by
  have content : log.drop (count * limit) ≠ [] := by
    rw [ne_eq, List.drop_eq_nil_iff]
    omega
  have closed : base ∉ (directory.erase base).insert (nextName base count)
      (log.drop (count * limit)) := by
    rw [mem_insert_iff, not_or]
    exact ⟨fun same => dotted_ne base _ same.symm, by simp⟩
  rw [rotate, laid.primary]
  dsimp only
  rw [if_neg content, laid.maxNumericWalSuffix]
  exact if_neg closed

/-- **A full primary is archived under the next number.** -/
theorem Laid.rotate (positive : 0 < limit) (laid : Laid base limit count log directory)
    (full : log.length = (count + 1) * limit) :
    Laid base limit (count + 1) log (rotate lister base directory) := by
  have split := Nat.add_one_mul count limit
  have lookup : ∀ name, (Persistence.rotate lister base directory)[name]? =
      if name = base then some [] else if name = nextName base count then
        some (log.drop (count * limit)) else directory[name]? := by
    intro name
    rw [laid.rotate_eq (by omega), getElem?_insert_eq, getElem?_insert_eq, getElem?_erase_eq]
    by_cases atBase : name = base
    · rw [if_pos atBase, if_pos atBase]
    · rw [if_neg atBase, if_neg atBase, if_neg atBase]
  refine ⟨full.ge, by rw [full]; exact Nat.mul_le_mul_right _ (by omega), ?_, ?_, ?_⟩
  · rw [lookup, if_pos rfl, ← full, List.drop_length]
  · intro index few
    rw [lookup, if_neg (segmentName_ne base _)]
    by_cases old : index < min count intMax
    · rw [if_neg (nextName_ne base count old), laid.archived index old]
    · obtain rfl : index = count := by omega
      rw [nextName_of_lt base (by omega), if_pos rfl, List.take_of_length_le]
      rw [List.length_drop]
      omega
  · intro name member number found
    have held : (Persistence.rotate lister base directory)[name]?.isSome :=
      Std.ExtTreeMap.mem_iff_isSome_getElem?.mp member
    rw [lookup] at held
    by_cases atBase : name = base
    · rw [atBase, segmentNumber_base] at found
      cases found
    by_cases atNext : name = nextName base count
    · by_cases room : count < intMax
      · refine ⟨count, by omega, ?_, by rw [atNext, nextName_of_lt base room]⟩
        rw [atNext, nextName_of_lt base room, segmentNumber_segmentName base room] at found
        exact (Option.some.inj found).symm
      · rw [atNext, segmentNumber_nextName base (not_lt.mp room)] at found
        cases found
    · rw [if_neg atBase, if_neg atNext] at held
      obtain ⟨index, few, same⟩ :=
        laid.only name (Std.ExtTreeMap.mem_iff_isSome_getElem?.mpr held) number found
      exact ⟨index, by omega, same⟩

variable (lister) in
/-- **The loop of `appendBytes` keeps the layout.** A full primary costs one extra round, and
after a write the primary is not empty. -/
theorem Laid.appendLoop (positive : 0 < limit) {fuel : Nat} (data : Bytes)
    (laid : Laid base limit count log directory) (enough : 2 * data.length ≤ fuel)
    (enough' : log.length = (count + 1) * limit → 2 * data.length < fuel) :
    ∃ count', Laid base limit count' (log ++ data)
        (appendLoop lister base limit fuel directory data) ∧
      (data = [] ∧ count' = count ∨ count' * limit < (log ++ data).length) := by
  induction fuel generalizing count log directory data with
  | zero =>
    obtain rfl : data = [] := List.eq_nil_of_length_eq_zero (by omega)
    exact ⟨count, by rwa [List.append_nil], Or.inl ⟨rfl, rfl⟩⟩
  | succ fuel ih =>
    unfold Persistence.appendLoop
    by_cases empty : data = []
    · subst empty
      exact ⟨count, by rwa [List.append_nil, if_pos rfl], Or.inl ⟨rfl, rfl⟩⟩
    rw [if_neg empty, laid.size]
    have low := laid.low
    have high := laid.high
    have split := Nat.add_one_mul count limit
    have some : 0 < data.length := List.length_pos_of_ne_nil empty
    by_cases full : limit ≤ log.length - count * limit
    · have brim : log.length = (count + 1) * limit := by omega
      have more := Nat.add_one_mul (count + 1) limit
      have fuelLeft := enough' brim
      simp only [full, if_true]
      obtain ⟨count', laid', outcome⟩ := ih data (laid.rotate positive brim) (by omega)
        (fun same => by omega)
      refine ⟨count', laid', Or.inr ?_⟩
      rcases outcome with ⟨none, _⟩ | inside
      · exact (empty none).elim
      · exact inside
    · simp only [full, if_false]
      generalize size : min data.length (limit - (log.length - count * limit)) = chunk
      have written : (data.take chunk).length = chunk := by
        rw [List.length_take]
        omega
      have left : (data.drop chunk).length = data.length - chunk := List.length_drop
      have whole : log ++ data.take chunk ++ data.drop chunk = log ++ data := by
        rw [List.append_assoc, List.take_append_drop]
      obtain ⟨count', laid', outcome⟩ := ih (data.drop chunk)
        (laid.writeAll (by rw [written]; omega)) (by omega) (fun _ => by omega)
      rw [whole] at laid' outcome
      refine ⟨count', laid', Or.inr ?_⟩
      rcases outcome with ⟨_, rfl⟩ | inside
      · rw [List.length_append]
        omega
      · exact inside

/-- The directory between two calls of the writer: the primary is empty only with an empty log. -/
def Stored (base : Bytes) (limit : Nat) (log : Bytes) (directory : Directory) : Prop :=
  Laid base limit ((log.length - 1) / limit) log directory

/-- The number of archived segments is fixed by the length of the log. -/
theorem Laid.stored (positive : 0 < limit) (laid : Laid base limit count log directory)
    (settled : count = 0 ∨ count * limit < log.length) : Stored base limit log directory := by
  have exact_count : (log.length - 1) / limit = count := by
    have high := laid.high
    have split := Nat.add_one_mul count limit
    rcases settled with rfl | inside
    · exact Nat.div_eq_of_lt (by omega)
    · exact Nat.div_eq_of_lt_le (by omega) (by omega)
  rw [Stored, exact_count]
  exact laid

/-- **`appendBytes` appends to the log.** -/
theorem Stored.appendBytes (positive : 0 < limit) (stored : Stored base limit log directory)
    (data : Bytes) :
    Stored base limit (log ++ data) (appendBytes lister base limit directory data) := by
  unfold Persistence.appendBytes
  by_cases empty : data = []
  · rw [if_pos empty, empty, List.append_nil]
    exact stored
  · rw [if_neg empty, if_neg positive.ne']
    obtain ⟨count', laid', outcome⟩ := Laid.appendLoop lister positive data stored
      (Nat.le_succ _) (fun _ => Nat.lt_succ_self _)
    refine laid'.stored positive (Or.inr ?_)
    rcases outcome with ⟨none, _⟩ | inside
    · exact (empty none).elim
    · exact inside

theorem Stored.append (positive : 0 < limit) (stored : Stored base limit log directory)
    (batch : MutationBatch) :
    Stored base limit (log ++ encodeBatch batch) (append lister base limit directory batch) := by
  unfold Persistence.append
  cases batch with
  | nil =>
    rw [encodeBatch_nil, List.append_nil]
    exact stored
  | cons mutation batch =>
    rw [List.isEmpty_cons, if_neg Bool.false_ne_true]
    exact stored.appendBytes positive _

/-! ### Reading the layout -/

/-- **The segments come in the order they were archived, then the primary.** -/
theorem Laid.walSegmentsOrdered (laid : Laid base limit count log directory) :
    walSegmentsOrdered lister base directory =
      (List.range (min count intMax)).map (fun index => segmentName base (index + 1)) ++
        [base] := by
  let target := (List.range (min count intMax)).map fun index =>
    (index + 1, segmentName base (index + 1))
  let numbered := (lister.list directory).filterMap fun name =>
    (segmentNumber base name).map fun number => (number, name)
  have distinct : numbered.Nodup := by
    refine List.Nodup.filterMap ?_ ((lister.perm directory).nodup_iff.mpr
      Std.ExtTreeMap.nodup_keys)
    intro first second entry inFirst inSecond
    obtain ⟨_, _, rfl⟩ := Option.map_eq_some_iff.mp inFirst
    obtain ⟨_, _, same⟩ := Option.map_eq_some_iff.mp inSecond
    exact (congrArg Prod.snd same).symm
  have increasing : target.Pairwise fun first second => first.1 < second.1 := by
    refine List.pairwise_map.mpr ?_
    exact List.pairwise_lt_range.imp fun less => Nat.succ_lt_succ less
  have members : ∀ entry, entry ∈ numbered ↔ entry ∈ target := by
    rintro ⟨number, name⟩
    rw [List.mem_filterMap, List.mem_map]
    constructor
    · rintro ⟨other, member, found⟩
      obtain ⟨_, known, same⟩ := Option.map_eq_some_iff.mp found
      obtain ⟨rfl, rfl⟩ := Prod.mk.inj same
      obtain ⟨index, few, rfl, rfl⟩ := laid.only _ ((Lister.mem_list _).mp member) _ known
      exact ⟨index, List.mem_range.mpr few, rfl⟩
    · rintro ⟨index, few, same⟩
      obtain ⟨rfl, rfl⟩ := Prod.mk.inj same
      have few := List.mem_range.mp few
      have held := laid.archived index few
      refine ⟨segmentName base (index + 1), (Lister.mem_list _).mpr ?_, ?_⟩
      · exact Std.ExtTreeMap.mem_iff_isSome_getElem?.mpr (by rw [held]; rfl)
      · rw [segmentNumber_segmentName base (by omega)]
        rfl
  have perm : numbered.Perm target :=
    (List.perm_ext_iff_of_nodup distinct (increasing.imp fun less same => by
      rw [same] at less; exact lt_irrefl _ less)).mpr members
  have sorted : numbered.insertionSort (fun first second => first.1 ≤ second.1) = target := by
    refine List.Perm.eq_of_pairwise ?_ (List.pairwise_insertionSort _ _)
      (increasing.imp fun less => less.le) ((List.perm_insertionSort _ _).trans perm)
    intro first second inFirst inSecond below above
    have inTarget := ((List.perm_insertionSort _ _).trans perm).mem_iff.mp inFirst
    obtain ⟨index, _, rfl⟩ := List.mem_map.mp inTarget
    obtain ⟨index', _, rfl⟩ := List.mem_map.mp inSecond
    obtain rfl : index = index' := by
      dsimp only at below above
      omega
    rfl
  show (numbered.insertionSort _).map Prod.snd ++ _ = _
  rw [sorted, if_pos laid.mem_base, List.map_map]
  rfl

/-- **The chain reader decodes the pieces the log was cut into**, one by one. -/
theorem Laid.readChain (laid : Laid base limit count log directory) :
    readChain lister base directory =
      readSegments ((List.range (min count intMax)).map
        (fun index => some ((log.drop (index * limit)).take limit)) ++
          [some (log.drop (count * limit))]) := by
  rw [Persistence.readChain, laid.walSegmentsOrdered, List.map_append, List.map_map,
    List.map_singleton, laid.primary]
  congr 2
  refine List.map_congr_left fun index member => ?_
  exact laid.archived index (List.mem_range.mp member)

end Layout

/-! ### A log in a single file -/

/-- The directory holds the log in its primary file, and no segment. -/
structure Single (base : Bytes) (content : Bytes) (directory : Directory) : Prop where
  primary : directory[base]? = some content
  only : ∀ name ∈ directory, segmentNumber base name = none

section Single

variable {base content : Bytes} {directory : Directory}

theorem walSegmentsOrdered_of_only (lister : Lister)
    (only : ∀ name ∈ directory, segmentNumber base name = none) :
    walSegmentsOrdered lister base directory = if base ∈ directory then [base] else [] := by
  have none : ((lister.list directory).filterMap fun name =>
      (segmentNumber base name).map fun number => (number, name)) = [] := by
    refine List.filterMap_eq_nil_iff.mpr fun name member => ?_
    rw [only name ((Lister.mem_list name).mp member)]
    rfl
  rw [walSegmentsOrdered, none]
  rfl

/-- A directory without a chain reads as an empty log. -/
theorem NoChain.readChain (lister : Lister) (fresh : NoChain base directory) :
    readChain lister base directory = some [] := by
  rw [Persistence.readChain, walSegmentsOrdered_of_only lister fresh.2, if_neg fresh.1]
  rfl

theorem Single.mem_base (single : Single base content directory) : base ∈ directory :=
  Std.ExtTreeMap.mem_iff_isSome_getElem?.mpr (by rw [single.primary]; rfl)

theorem Single.readChain (lister : Lister) (single : Single base content directory) :
    readChain lister base directory = readAllMutations (some content) := by
  rw [Persistence.readChain, walSegmentsOrdered_of_only lister single.only,
    if_pos single.mem_base, List.map_singleton, single.primary, readSegments, readSegments]
  cases readAllMutations (some content) with
  | none => rfl
  | some mutations => exact congrArg some (List.append_nil mutations)

/-- Replacing the contents of the primary. -/
theorem Single.insert (only : ∀ name ∈ directory, segmentNumber base name = none)
    (content : Bytes) : Single base content (directory.insert base content) where
  primary := by rw [getElem?_insert_eq, if_pos rfl]
  only := by
    intro name member
    rcases (mem_insert_iff _ _ _).mp member with rfl | old
    · exact segmentNumber_base _
    · exact only name old

theorem NoChain.openAppend (fresh : NoChain base directory) :
    Single base [] (openAppend base directory) := by
  rw [Persistence.openAppend, if_neg fresh.1]
  exact Single.insert fresh.2 []

theorem Single.openAppend (single : Single base content directory) :
    openAppend base directory = directory := if_pos single.mem_base

theorem Single.appendBytes (lister : Lister) (single : Single base content directory)
    (data : Bytes) : Single base (content ++ data) (appendBytes lister base 0 directory data) := by
  unfold Persistence.appendBytes
  by_cases empty : data = []
  · rw [if_pos empty, empty, List.append_nil]
    exact single
  · rw [if_neg empty, if_pos rfl, writeAll, single.primary, Option.getD_some]
    exact Single.insert single.only _

/-- **Without a limit `append` appends the encoded batch to the primary.** -/
theorem Single.append (lister : Lister) (single : Single base content directory)
    (batch : MutationBatch) :
    Single base (content ++ encodeBatch batch) (append lister base 0 directory batch) := by
  unfold Persistence.append
  cases batch with
  | nil =>
    rw [encodeBatch_nil, List.append_nil]
    exact single
  | cons mutation batch =>
    rw [List.isEmpty_cons, if_neg Bool.false_ne_true]
    exact single.appendBytes lister _

end Single

end SunKV.Persistence
