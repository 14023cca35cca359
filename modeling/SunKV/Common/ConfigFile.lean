/-
**The configuration file.**

`saveToFile` writes the options as lines that `loadFromFile` reads: but a value in quotes loses
them, blanks at its ends are lost, a line break ends it, and an empty value is undefined behaviour.

* `Slot` — an option with its source; `slot_setFromKeyValue`, `slot_setAll` — the options are
  independent of each other;
* `parse_print` — a member can be read from its text;
* `load_sample` — the lines of the written file, `newline_of_load` — no value that was read has a
  line break;
* `load_save_iff` — **a saved configuration is loaded as it was exactly if every string in it is
  plain**.
-/

import SunKV.Common.Config
import SunKV.Lib.Finite

namespace SunKV.Common

open SunKV.Lib SunKV.Storage

/-! ### The table -/

theorem mem_specs (key : ConfigKey) : key ∈ specs := by
  cases key <;> decide

theorem nodup_names : (specs.map ConfigKey.name).Nodup := by decide +kernel

theorem nodup_specs : specs.Nodup := nodup_names.of_map

theorem name_injective : Function.Injective ConfigKey.name := fun first second same =>
  List.inj_on_of_nodup_map nodup_names (mem_specs first) (mem_specs second) same

theorem name_of_specByKey {name : Bytes} {key : ConfigKey} (found : specByKey name = some key) :
    key.name = name := by
  simpa using List.find?_some found

theorem specByKey_eq_some {name : Bytes} {key : ConfigKey} :
    specByKey name = some key ↔ key.name = name := by
  refine ⟨name_of_specByKey, ?_⟩
  rintro rfl
  cases found : specByKey key.name with
  | none => simpa using List.find?_eq_none.mp found key (mem_specs key)
  | some other => rw [name_injective (name_of_specByKey found)]

/-- The initialisers of the members are the defaults of the table. -/
theorem parse_default (key : ConfigKey) :
    key.spec.type.parse (utf8 key.spec.defaultValue) = some (Config.members.values key) := by
  cases key <;> decide +kernel

/-- What stands around the values: one line each, a name that `parseLine` finds again. -/
theorem texts_of_table : ∀ key ∈ specs,
    10 ∉ utf8 key.spec.group ∧ 10 ∉ utf8 key.spec.description ∧ 10 ∉ utf8 key.spec.defaultValue ∧
      10 ∉ key.name ∧ 61 ∉ key.name ∧ key.name ≠ [] ∧ key.name.head? ≠ some 35 ∧
      key.name.head? ≠ some 59 ∧ strip Config.isBlank (key.name ++ [32]) = key.name := by
  decide +kernel

/-! ### Texts of members -/

/-- **A plain text**: one line, without blanks or quotes around it. -/
structure Plain (text : Bytes) : Prop where
  filled : text ≠ []
  oneLine : 10 ∉ text
  front : ∀ byte ∈ text.head?, Config.isBlank byte = false
  back : ∀ byte ∈ text.getLast?, Config.isBlank byte = false
  bare : Config.quoted text = false

/-- The characters of a number. -/
theorem byte_of_toDecimal {value : Int} {byte : UInt8} (member : byte ∈ toDecimal value) :
    byte = 45 ∨ isDigit byte = true := by
  cases value with
  | ofNat number => exact Or.inr (decimal_digits number byte member)
  | negSucc number =>
    rcases List.mem_cons.mp member with rfl | digit
    · exact Or.inl rfl
    · exact Or.inr (decimal_digits _ byte digit)

theorem toDecimal_ne_nil (value : Int) : toDecimal value ≠ [] := by
  cases value with
  | ofNat number => exact decimal_ne_nil number
  | negSucc number => exact List.cons_ne_nil _ _

theorem black_of_numeral {byte : UInt8} (numeral : byte = 45 ∨ isDigit byte = true) :
    isSpace byte = false ∧ byte ≠ 10 ∧ byte ≠ 34 ∧ byte ≠ 39 := by
  rcases numeral with rfl | digit
  · decide
  · simp only [isDigit, Bool.and_eq_true, decide_eq_true_eq, UInt8.le_iff_toNat_le] at digit
    have other {small : UInt8} (low : small.toNat < 48) : byte ≠ small := by
      rintro rfl
      exact absurd digit.1 (by simpa using low)
    refine ⟨?_, other (by decide), other (by decide), other (by decide)⟩
    have late : ¬ byte ≤ 13 := fun early => by
      have low := digit.1
      simp only [UInt8.le_iff_toNat_le, UInt8.reduceToNat] at early low
      omega
    simp [isSpace, other (show (32 : UInt8).toNat < 48 by decide), late]

theorem isBlank_of_not_isSpace {byte : UInt8} (black : isSpace byte = false) :
    Config.isBlank byte = false := by
  simp only [Config.isBlank, Bool.or_eq_false_iff, decide_eq_false_iff_not]
  constructor <;> rintro rfl <;> simp [isSpace] at black

theorem plain_toDecimal (value : Int) : Plain (toDecimal value) where
  filled := toDecimal_ne_nil value
  oneLine newline := (black_of_numeral (byte_of_toDecimal newline)).2.1 rfl
  front byte head := isBlank_of_not_isSpace
    (black_of_numeral (byte_of_toDecimal (List.mem_of_mem_head? head))).1
  back byte last := isBlank_of_not_isSpace
    (black_of_numeral (byte_of_toDecimal (List.mem_of_mem_getLast? last))).1
  bare := by
    have head {quote : UInt8} (first : (toDecimal value).head? = some quote) :=
      black_of_numeral (byte_of_toDecimal (List.mem_of_mem_head? first))
    have double : (toDecimal value).head? ≠ some 34 := fun first => (head first).2.2.1 rfl
    have single : (toDecimal value).head? ≠ some 39 := fun first => (head first).2.2.2 rfl
    simp [Config.quoted, double, single]

theorem trim_toDecimal (value : Int) : trim (toDecimal value) = toDecimal value :=
  strip_eq_self_iff.mpr
    ⟨fun _ head => (black_of_numeral (byte_of_toDecimal (List.mem_of_mem_head? head))).1,
      fun _ last => (black_of_numeral (byte_of_toDecimal (List.mem_of_mem_getLast? last))).1⟩

/-- `stoi` reads the whole text of a number. -/
theorem stoi_toDecimal (value : Int32) :
    stoi (toDecimal value.toInt) = some (value, (toDecimal value.toInt).length) := by
  have low := value.le_toInt
  have high := value.toInt_lt
  have back := Int32.ofInt_toInt value
  have filled (number : Nat) : (decimal number).isEmpty = false := by simp [decimal_ne_nil]
  have done (number : Nat) : (decimal number).dropWhile isDigit = [] :=
    List.dropWhile_eq_nil_iff.mpr (decimal_digits number)
  generalize value.toInt = integer at low high back ⊢
  cases integer with
  | ofNat number =>
    rw [Int.ofNat_eq_natCast] at high back
    simp only [stoi, toDecimal, splitSign_decimal, takeWhile_isDigit_decimal, filled,
      decimalValue_decimal, done, one_mul]
    rw [if_neg (by simp; omega), back]
    rfl
  | negSucc number =>
    have dash : isSpace 45 = false := by decide
    simp only [stoi, toDecimal, List.dropWhile_cons, dash, splitSign, if_true, Bool.false_eq_true,
      if_false, takeWhile_isDigit_decimal, filled, decimalValue_decimal, done]
    rw [if_neg (by simp; omega)]
    have same : -1 * ((number + 1 : Nat) : Int) = Int.negSucc number := by omega
    rw [same, back]
    rfl

theorem parseIntLoose_toDecimal (value : Int32) :
    parseIntLoose (toDecimal value.toInt) = some value := by
  simp [parseIntLoose, trim_toDecimal, stoi_toDecimal]

theorem parseBoolLoose_printBool (value : Bool) :
    parseBoolLoose (printBool value) = some value := by
  cases value <;> decide +kernel

/-- **A member can be read from its text.** -/
theorem parse_print (type : ValueType) (value : type.Value) :
    type.parse (type.print value) = some value := by
  cases type with
  | string => rfl
  | int => exact parseIntLoose_toDecimal value
  | bool => exact parseBoolLoose_printBool value

theorem plain_printBool (value : Bool) : Plain (printBool value) := by
  cases value <;> constructor <;> decide +kernel

/-- Only a string can be anything but plain. -/
theorem plain_print (type : ValueType) (value : type.Value) (other : type ≠ .string) :
    Plain (type.print value) := by
  cases type with
  | string => exact absurd rfl other
  | int => exact plain_toDecimal _
  | bool => exact plain_printBool value

/-! ### Values in a file -/

namespace Config

/-- A value is read as it is written exactly if there is nothing around it. -/
theorem readValue_eq_self_iff {raw : Bytes} :
    readValue raw = some raw ↔
      raw ≠ [] ∧ (∀ byte ∈ raw.head?, isBlank byte = false) ∧
        (∀ byte ∈ raw.getLast?, isBlank byte = false) ∧ quoted raw = false := by
  rw [← and_assoc (a := ∀ byte ∈ raw.head?, _), ← strip_eq_self_iff]
  have shorter : (strip isBlank raw).length ≤ raw.length := length_strip_le raw
  simp only [readValue]
  constructor
  · intro same
    split at same
    · cases same
    case isFalse filled =>
      split at same
      case isTrue =>
        have length := congrArg List.length (Option.some.inj same)
        have positive := List.length_pos_iff.mpr filled
        rw [List.length_dropLast, List.length_tail] at length
        omega
      case isFalse bare =>
        have stripped := Option.some.inj same
        rw [stripped] at filled bare
        exact ⟨filled, stripped, Bool.eq_false_iff.mpr bare⟩
  · rintro ⟨filled, stripped, bare⟩
    rw [stripped, if_neg filled, if_neg (Bool.eq_false_iff.mp bare)]

/-- What is read has no other bytes. -/
theorem readValue_subset {raw value : Bytes} (read : readValue raw = some value) : value ⊆ raw := by
  simp only [readValue] at read
  split at read
  · cases read
  · split at read
    · cases read
      exact fun _ member =>
        strip_subset raw (List.mem_of_mem_tail (List.mem_of_mem_dropLast member))
    · cases read
      exact strip_subset raw

end Config

/-! ### The options, one by one -/

/-- An option: its value, and where it is from. -/
@[ext] structure Slot (type : ValueType) where
  value : type.Value
  source : Option Source

namespace Slot

variable {type : ValueType} (slot : Slot type)

/-- A source sets the option, if it may and the text is one of the type. -/
def set (src : Source) (value : Bytes) : Slot type :=
  if slot.source.any fun held => src.rank < held.rank then slot
  else (type.parse value).elim slot fun parsed => ⟨parsed, some src⟩

/-- A source that is as high as the one there was. -/
theorem set_of_le {src held : Source} {value : Bytes} {parsed : type.Value}
    (source : slot.source = some held) (high : held.rank ≤ src.rank)
    (parses : type.parse value = some parsed) : slot.set src value = ⟨parsed, some src⟩ := by
  rw [set, if_neg (by simpa [source] using high), parses, Option.elim_some]

end Slot

namespace Config

variable (config : Config)

/-- An option in a configuration. -/
def slot (key : ConfigKey) : Slot key.spec.type := ⟨config.values key, config.sourceMap key⟩

theorem value_slot (key : ConfigKey) : (config.slot key).value = config.values key := rfl

theorem setFromKeyValue_unknown {name : Bytes} (unknown : specByKey name = none) (value : Bytes)
    (src : Source) : config.setFromKeyValue name value src = (false, config) := by
  rw [setFromKeyValue, unknown]

/-- A row of the table: the member stays as it is, or is stored with its source. -/
theorem setFromKeyValue_cases (key : ConfigKey) (value : Bytes) (src : Source) :
    ((config.setFromKeyValue key.name value src).2 = config ∧
      (config.slot key).set src value = config.slot key) ∨
    ∃ parsed, (config.setFromKeyValue key.name value src).2 = { config with
        values := Function.update config.values key parsed
        sourceMap := Function.update config.sourceMap key (some src) } ∧
      (config.slot key).set src value = ⟨parsed, some src⟩ := by
  simp only [setFromKeyValue, specByKey_eq_some.mpr rfl]
  by_cases lower : (config.sourceMap key).any fun held => src.rank < held.rank
  · exact Or.inl ⟨by rw [if_pos lower], if_pos lower⟩
  · have kept : (config.slot key).set src value = (key.spec.type.parse value).elim (config.slot key)
        fun parsed => ⟨parsed, some src⟩ := if_neg lower
    rw [if_neg lower, kept]
    cases key.spec.type.parse value with
    | none => exact Or.inl ⟨rfl, rfl⟩
    | some parsed => exact Or.inr ⟨parsed, rfl, rfl⟩

/-- **Setting one option leaves the others alone.** -/
theorem slot_setFromKeyValue (name value : Bytes) (src : Source) (key : ConfigKey) :
    (config.setFromKeyValue name value src).2.slot key =
      if name = key.name then (config.slot key).set src value else config.slot key := by
  cases found : specByKey name with
  | none =>
    rw [config.setFromKeyValue_unknown found, if_neg]
    rintro rfl
    rw [specByKey_eq_some.mpr rfl] at found
    cases found
  | some other =>
    obtain rfl := name_of_specByKey found
    by_cases same : other = key
    · subst same
      rw [if_pos rfl]
      rcases config.setFromKeyValue_cases other value src with ⟨stays, kept⟩ | ⟨parsed, set, stored⟩
      · rw [stays, kept]
      · rw [set, stored]
        simp [slot]
    · rw [if_neg fun named => same (name_injective named)]
      rcases config.setFromKeyValue_cases other value src with ⟨stays, -⟩ | ⟨parsed, set, -⟩
      · rw [stays]
      · rw [set]
        simp [slot, Ne.symm same]

/-- Over many entries an option only sees those with its name. -/
theorem slot_setAll (src : Source) (entries : List (Bytes × Bytes)) (key : ConfigKey) :
    (config.setAll src entries).slot key =
      (entries.filter fun entry => entry.1 = key.name).foldl
        (fun slot entry => slot.set src entry.2) (config.slot key) := by
  induction entries generalizing config with
  | nil => rfl
  | cons entry entries ih =>
    have step := ih (config.setFromKeyValue entry.1 entry.2 src).2
    rw [slot_setFromKeyValue] at step
    by_cases named : entry.1 = key.name
    · rw [if_pos named] at step
      rw [List.filter_cons_of_pos (by simpa using named), List.foldl_cons]
      exact step
    · rw [if_neg named] at step
      rw [List.filter_cons_of_neg (by simpa using named)]
      exact step

/-- The other state is not touched. -/
theorem setFromKeyValue_rest (name value : Bytes) (src : Source) :
    (config.setFromKeyValue name value src).2.configMap = config.configMap ∧
      (config.setFromKeyValue name value src).2.logLevelFromCli = config.logLevelFromCli := by
  cases found : specByKey name with
  | none =>
    rw [config.setFromKeyValue_unknown found]
    exact ⟨rfl, rfl⟩
  | some key =>
    obtain rfl := name_of_specByKey found
    rcases config.setFromKeyValue_cases key value src with ⟨stays, -⟩ | ⟨parsed, set, -⟩
    · rw [stays]
      exact ⟨rfl, rfl⟩
    · rw [set]
      exact ⟨rfl, rfl⟩

theorem setAll_rest (src : Source) (entries : List (Bytes × Bytes)) :
    (config.setAll src entries).configMap = config.configMap ∧
      (config.setAll src entries).logLevelFromCli = config.logLevelFromCli := by
  induction entries generalizing config with
  | nil => exact ⟨rfl, rfl⟩
  | cons entry entries ih =>
    obtain ⟨map, cli⟩ := ih (config.setFromKeyValue entry.1 entry.2 src).2
    obtain ⟨map', cli'⟩ := config.setFromKeyValue_rest entry.1 entry.2 src
    exact ⟨map.trans map', cli.trans cli'⟩

/-! ### Lines -/

/-- The lines of a text, one after the other. -/
def readLines (content : Bytes) (target : Config) : Option Config :=
  (lines 10 content).foldlM loadLine target

theorem loadText_eq (config : Config) (content : Bytes) :
    config.loadText content = (readLines content config).map fun read =>
      read.setAll .configFile read.configMap.toList := by
  rw [loadText, readLines, Option.map_eq_bind]
  rfl

theorem readLines_line {line : Bytes} (whole : 10 ∉ line) (rest : Bytes) (target : Config) :
    readLines (line ++ 10 :: rest) target = (target.loadLine line).bind (readLines rest) := by
  rw [readLines, lines_concat whole, List.foldlM_cons]
  rfl

/-- A comment is skipped. -/
theorem readLines_comment {comment : Bytes} (whole : 10 ∉ comment) (rest : Bytes)
    (target : Config) :
    readLines (35 :: (comment ++ 10 :: rest)) target = readLines rest target := by
  have line : 10 ∉ (35 :: comment : Bytes) := by simpa using whole
  have skipped : target.loadLine (35 :: comment) = some target := if_pos (Or.inr (Or.inl rfl))
  rw [← List.cons_append, readLines_line line, skipped, Option.bind_some]

/-- An empty line is skipped. -/
theorem readLines_blank (rest : Bytes) (target : Config) :
    readLines (10 :: rest) target = readLines rest target := by
  have skipped : target.loadLine [] = some target := if_pos (Or.inl rfl)
  rw [← List.nil_append (10 :: rest), readLines_line List.not_mem_nil, skipped, Option.bind_some]

/-- An entry of a file. -/
def enter (target : Config) (key : ConfigKey) (value : Bytes) : Config :=
  { target with configMap := target.configMap.insert key.name value }

/-- The line of an option. -/
theorem loadLine_option (key : ConfigKey) (raw : Bytes) (target : Config) :
    target.loadLine (key.name ++ (utf8 " = " ++ raw)) = (readValue raw).map (target.enter key) := by
  obtain ⟨-, -, -, -, noEqual, filled, noHash, noSemicolon, found⟩ :=
    texts_of_table key (mem_specs key)
  have front : ∀ byte ∈ key.name ++ [32], decide (byte ≠ 61) = true := by
    intro byte member
    rcases List.mem_append.mp member with inside | blank
    · exact decide_eq_true fun equal => noEqual (equal ▸ inside)
    · rw [List.mem_singleton.mp blank]
      decide
  have shape : key.name ++ (utf8 " = " ++ raw) = (key.name ++ [32]) ++ 61 :: 32 :: raw := by
    rw [List.append_assoc]
    rfl
  have head : (key.name ++ (utf8 " = " ++ raw)).head? = key.name.head? := by
    rw [List.head?_append_of_ne_nil _ filled]
  have notSkipped : ¬ (key.name ++ (utf8 " = " ++ raw) = [] ∨
      (key.name ++ (utf8 " = " ++ raw)).head? = some 35 ∨
      (key.name ++ (utf8 " = " ++ raw)).head? = some 59) := by
    rw [head]
    simp [filled, noHash, noSemicolon]
  have blank : readValue (32 :: raw) = readValue raw := by
    simp only [readValue, strip_cons (show isBlank 32 = true by decide)]
  rw [loadLine, if_neg notSkipped, parseLine, shape, if_neg (by simp),
    List.takeWhile_append_of_pos front, List.dropWhile_append_of_pos front]
  simp [blank, found, enter, Option.map_eq_bind, Function.comp_def]

/-- A line of the comment at the top. -/
theorem readLines_note {note : Bytes}
    (shape : note = 35 :: (note.tail.dropLast ++ [10]) ∧ 10 ∉ note.tail.dropLast) (more : Bytes)
    (target : Config) : readLines (note ++ more) target = readLines more target := by
  rw [shape.1, List.cons_append, List.append_assoc, List.singleton_append,
    readLines_comment shape.2]

/-- The empty line and the comment in front of a group. -/
theorem readLines_group (key : ConfigKey) (more : Bytes) (target : Config) :
    readLines (utf8 "\n# [" ++ (utf8 key.spec.group ++ utf8 "]\n") ++ more) target =
      readLines more target := by
  have group := (texts_of_table key (mem_specs key)).1
  have opened : utf8 "\n# [" = [10, 35, 32, 91] := by decide +kernel
  have closed : utf8 "]\n" = [93, 10] := by decide +kernel
  have shape : utf8 "\n# [" ++ (utf8 key.spec.group ++ utf8 "]\n") ++ more =
      10 :: 35 :: (32 :: 91 :: utf8 key.spec.group ++ [93] ++ 10 :: more) := by
    rw [opened, closed]
    simp
  rw [shape, readLines_blank, readLines_comment]
  simp [group]

section Sample

variable (config : Config) (clean : ∀ key, 10 ∉ config.getAsString key)

include clean

/-- The comment and the line of an option. -/
theorem readLines_option (key : ConfigKey) (more : Bytes) (target : Config) :
    readLines (utf8 "# " ++ utf8 key.spec.description ++ utf8 " (default: " ++
        utf8 key.spec.defaultValue ++ utf8 ")\n" ++ key.name ++ utf8 " = " ++
        config.getAsString key ++ utf8 "\n" ++ more) target =
      ((readValue (config.getAsString key)).map (target.enter key)).bind (readLines more) := by
  obtain ⟨-, description, default, name, -⟩ := texts_of_table key (mem_specs key)
  have hash : utf8 "# " = [35, 32] := by decide +kernel
  have closed : utf8 ")\n" = [41, 10] := by decide +kernel
  have newline : utf8 "\n" = [10] := by decide +kernel
  have middle : 10 ∉ utf8 " (default: " := by decide +kernel
  have equal : 10 ∉ utf8 " = " := by decide +kernel
  have shape : utf8 "# " ++ utf8 key.spec.description ++ utf8 " (default: " ++
        utf8 key.spec.defaultValue ++ utf8 ")\n" ++ key.name ++ utf8 " = " ++
        config.getAsString key ++ utf8 "\n" ++ more =
      35 :: (32 :: (utf8 key.spec.description ++ utf8 " (default: " ++
        utf8 key.spec.defaultValue ++ [41]) ++ 10 ::
        (key.name ++ (utf8 " = " ++ config.getAsString key) ++ 10 :: more)) := by
    rw [hash, closed, newline]
    simp
  rw [shape, readLines_comment, readLines_line, loadLine_option]
  · simp [name, equal, clean key]
  · simp [description, middle, default]

/-- **The lines that `generateSampleConfig` writes**, as `loadFromFile` reads them. -/
theorem readLines_sampleFrom (lastGroup : String) (keys : List ConfigKey) (target : Config) :
    readLines (config.sampleFrom lastGroup keys) target =
      keys.foldlM (fun target key => (readValue (config.getAsString key)).map (target.enter key))
        target := by
  induction keys generalizing lastGroup target with
  | nil => exact readLines_blank [] target
  | cons key rest ih =>
    have option := config.readLines_option clean key (config.sampleFrom key.spec.group rest) target
    rw [sampleFrom, List.foldlM_cons]
    simp only [List.append_assoc] at option ⊢
    split
    case isTrue =>
      rw [readLines_group key _ target, option]
      exact congrArg _ (funext fun target => ih key.spec.group target)
    case isFalse =>
      rw [List.nil_append, option]
      exact congrArg _ (funext fun target => ih key.spec.group target)

theorem readLines_generateSampleConfig (target : Config) :
    readLines config.generateSampleConfig target =
      specs.foldlM (fun target key => (readValue (config.getAsString key)).map (target.enter key))
        target := by
  have blank : utf8 "# Generated automatically\n\n" =
      utf8 "# Generated automatically\n" ++ [10] := by
    decide +kernel
  rw [generateSampleConfig, blank]
  simp only [List.append_assoc]
  rw [readLines_note (by decide +kernel), readLines_note (by decide +kernel),
    readLines_note (by decide +kernel), readLines_note (by decide +kernel), List.singleton_append,
    readLines_blank, config.readLines_sampleFrom clean]

end Sample

/-! ### Reading, then setting -/

/-- An option after the entries of the map have been set. -/
theorem slot_setAll_map (src : Source) (map : Dict Bytes) (config : Config) (key : ConfigKey) :
    (config.setAll src map.toList).slot key =
      (map[key.name]?).elim (config.slot key) fun value => (config.slot key).set src value := by
  rw [slot_setAll]
  cases found : map[key.name]? with
  | none =>
    have others : map.toList.filter (fun entry => entry.1 = key.name) = [] := by
      refine List.filter_eq_nil_iff.mpr fun entry inside => ?_
      have apart : entry.1 ≠ key.name := by
        intro same
        have held := Std.ExtTreeMap.mem_toList_iff_getElem?_eq_some.mp
          (show (entry.1, entry.2) ∈ map.toList from inside)
        rw [same, found] at held
        cases held
      simpa using apart
    rw [others]
    rfl
  | some value =>
    have once : (map.toList.map Prod.fst).Nodup := by
      have keys := nodup_keys map
      rwa [← Std.ExtTreeMap.map_fst_toList_eq_keys] at keys
    rw [filter_key_eq once (Std.ExtTreeMap.mem_toList_iff_getElem?_eq_some.mpr found)]
    rfl

/-- **A new configuration** has the initialisers of the members, as defaults. -/
theorem slot_getInstance (key : ConfigKey) :
    getInstance.slot key = ⟨members.values key, some .default⟩ := by
  have once :
      ((specs.map fun key => (key.name, utf8 key.spec.defaultValue)).map Prod.fst).Nodup := by
    rw [List.map_map]
    exact nodup_names
  rw [getInstance, initSchemaDefaultsOnce, slot_setAll,
    filter_key_eq once (List.mem_map.mpr ⟨key, mem_specs key, rfl⟩), List.foldl_cons,
    List.foldl_nil, Slot.set, parse_default]
  rfl

theorem configMap_getInstance : getInstance.configMap = ∅ := (members.setAll_rest _ _).1

/-- The entries of the written file, for any texts of the options. -/
theorem entered (text : ConfigKey → Bytes) {keys : List ConfigKey} (once : keys.Nodup)
    {target read : Config}
    (ran : keys.foldlM (fun target key => (readValue (text key)).map (target.enter key)) target =
      some read) :
    read.values = target.values ∧ read.sourceMap = target.sourceMap ∧
      (∀ key ∈ keys, ∃ value, readValue (text key) = some value ∧
        read.configMap[key.name]? = some value) ∧
      ∀ other, other ∉ keys → read.configMap[other.name]? = target.configMap[other.name]? := by
  induction keys generalizing target with
  | nil =>
    cases ran
    exact ⟨rfl, rfl, by simp, fun _ _ => rfl⟩
  | cons key rest ih =>
    obtain ⟨fresh, once⟩ := List.nodup_cons.mp once
    rw [List.foldlM_cons] at ran
    obtain ⟨next, entered, ran⟩ := Option.bind_eq_some_iff.mp ran
    obtain ⟨value, found, rfl⟩ := Option.map_eq_some_iff.mp entered
    obtain ⟨values, sources, inside, outside⟩ := ih once ran
    refine ⟨values, sources, ?_, ?_⟩
    · intro other member
      rcases List.mem_cons.mp member with rfl | later
      · refine ⟨value, found, ?_⟩
        rw [outside other fresh]
        simp [enter]
      · exact inside other later
    · intro other absent
      obtain ⟨apart, absent⟩ := not_or.mp (mt List.mem_cons.mpr absent)
      rw [outside other absent]
      have names : ¬ compare key.name other.name = .eq := fun same =>
        apart (name_injective (Std.compare_eq_iff_eq.mp same)).symm
      simp [enter, Std.ExtTreeMap.getElem?_insert, names]

/-- Values that can be read are entered. -/
theorem enters (text : ConfigKey → Bytes) (keys : List ConfigKey)
    (fine : ∀ key ∈ keys, readValue (text key) = some (text key)) (target : Config) :
    ∃ read, keys.foldlM (fun target key => (readValue (text key)).map (target.enter key)) target =
      some read := by
  induction keys generalizing target with
  | nil => exact ⟨target, rfl⟩
  | cons key rest ih =>
    obtain ⟨read, ran⟩ := ih (fun key member => fine key (List.mem_cons_of_mem _ member))
      (target.enter key (text key))
    refine ⟨read, ?_⟩
    rw [List.foldlM_cons, fine key List.mem_cons_self]
    exact ran

/-! ### No line breaks -/

theorem tidy_parse {type : ValueType} {text : Bytes} (fine : 10 ∉ text) {parsed : type.Value}
    (parses : type.parse text = some parsed) : 10 ∉ type.print parsed := by
  cases type with
  | string => exact Option.some.inj parses ▸ fine
  | int => exact (plain_print .int parsed (by decide)).oneLine
  | bool => exact (plain_print .bool parsed (by decide)).oneLine

/-- **No value with a line break**, in the members or in the entries of the files. -/
structure Tidy (config : Config) : Prop where
  members : ∀ key, 10 ∉ config.getAsString key
  entries : ∀ (name value : Bytes), config.configMap[name]? = some value → 10 ∉ value

theorem tidy_getInstance : getInstance.Tidy where
  members key := by
    rw [getAsString, ← value_slot, slot_getInstance]
    exact tidy_parse (texts_of_table key (mem_specs key)).2.2.1 (parse_default key)
  entries name value held := by
    rw [configMap_getInstance] at held
    simp at held

theorem Tidy.loadLine {config next : Config} (tidy : config.Tidy) {line : Bytes} (whole : 10 ∉ line)
    (loaded : config.loadLine line = some next) : next.Tidy := by
  unfold Config.loadLine at loaded
  split at loaded
  · cases loaded
    exact tidy
  · unfold parseLine at loaded
    split at loaded
    · cases loaded
      exact tidy
    · obtain ⟨value, read, entered⟩ := Option.bind_eq_some_iff.mp loaded
      cases entered
      have fine : 10 ∉ value := fun newline => whole
        ((List.dropWhile_suffix _).subset (List.mem_of_mem_tail (readValue_subset read newline)))
      refine ⟨tidy.members, fun name held found => ?_⟩
      rw [Std.ExtTreeMap.getElem?_insert] at found
      split at found
      · cases found
        exact fine
      · exact tidy.entries name held found

theorem Tidy.readLines {config read : Config} (tidy : config.Tidy) {content : Bytes}
    (ran : Config.readLines content config = some read) : read.Tidy := by
  have whole : ∀ line ∈ lines 10 content, 10 ∉ line := fun _ => not_mem_of_mem_lines
  unfold Config.readLines at ran
  generalize lines 10 content = all at ran whole
  induction all generalizing config with
  | nil =>
    cases ran
    exact tidy
  | cons line rest ih =>
    obtain ⟨next, loaded, ran⟩ := Option.bind_eq_some_iff.mp (List.foldlM_cons.symm.trans ran)
    exact ih (tidy.loadLine (whole line List.mem_cons_self) loaded) ran
      fun line member => whole line (List.mem_cons_of_mem _ member)

end Config

theorem Slot.tidy_set {type : ValueType} {slot : Slot type} (tidy : 10 ∉ type.print slot.value)
    {value : Bytes} (fine : 10 ∉ value) (src : Source) :
    10 ∉ type.print (slot.set src value).value := by
  unfold Slot.set
  split
  · exact tidy
  · cases parses : type.parse value with
    | none => exact tidy
    | some parsed => exact Config.tidy_parse fine parses

namespace Config

/-- **What is loaded from a file has no line breaks.** -/
theorem Tidy.loadText {config loaded : Config} (tidy : config.Tidy) {content : Bytes}
    (ran : config.loadText content = some loaded) : loaded.Tidy := by
  obtain ⟨read, reads, rfl⟩ := Option.map_eq_some_iff.mp ((loadText_eq _ _).symm.trans ran)
  have tidy : read.Tidy := tidy.readLines reads
  refine ⟨fun key => ?_, ?_⟩
  · have slot := slot_setAll_map .configFile read.configMap read key
    rw [getAsString, ← value_slot, slot]
    cases held : read.configMap[key.name]? with
    | none => exact tidy.members key
    | some value =>
      have before : 10 ∉ key.spec.type.print (read.slot key).value := tidy.members key
      exact Slot.tidy_set before (tidy.entries key.name value held) _
  · rw [(read.setAll_rest _ _).1]
    exact tidy.entries

/-! ### The round trip -/

/-- The values that a written configuration is loaded with. -/
theorem values_of_load {config : Config} (clean : ∀ key, 10 ∉ config.getAsString key)
    {loaded : Config} (ran : getInstance.loadText config.generateSampleConfig = some loaded)
    (key : ConfigKey) :
    ∃ value, readValue (config.getAsString key) = some value ∧
      loaded.values key = (key.spec.type.parse value).getD (members.values key) := by
  obtain ⟨read, reads, rfl⟩ := Option.map_eq_some_iff.mp ((loadText_eq _ _).symm.trans ran)
  have folded := (config.readLines_generateSampleConfig clean getInstance).symm.trans reads
  obtain ⟨values, sources, inside, -⟩ := entered config.getAsString nodup_specs folded
  have start : read.slot key = ⟨members.values key, some .default⟩ := by
    rw [← slot_getInstance, slot, values, sources]
    rfl
  obtain ⟨value, found, held⟩ := inside key (mem_specs key)
  refine ⟨value, found, ?_⟩
  rw [← value_slot, slot_setAll_map, held, start, Option.elim_some, Slot.set,
    if_neg (by simp [Source.rank])]
  cases key.spec.type.parse value with
  | none => rfl
  | some parsed => rfl

/-- A string is what its text says. -/
theorem print_of_string {type : ValueType} (string : type = .string) {member default : type.Value}
    {value : Bytes} (given : member = (type.parse value).getD default) :
    type.print member = value := by
  subst string
  exact given

/-- **Saving and loading**: a configuration that is written to a file and loaded by a new process
has its values again exactly if every string in it is plain. -/
theorem load_save_iff (config : Config) :
    (∃ loaded, getInstance.loadText config.generateSampleConfig = some loaded ∧
        loaded.values = config.values) ↔
      ∀ key, key.spec.type = .string → Plain (config.getAsString key) := by
  constructor
  · rintro ⟨loaded, ran, same⟩ key string
    have clean : ∀ key, 10 ∉ config.getAsString key := fun key => by
      have tidy := (tidy_getInstance.loadText ran).members key
      rwa [getAsString, same] at tidy
    obtain ⟨value, read, given⟩ := values_of_load clean ran key
    rw [same] at given
    have whole : readValue (config.getAsString key) = some (config.getAsString key) :=
      read.trans (congrArg some (print_of_string string given).symm)
    obtain ⟨filled, front, back, bare⟩ := readValue_eq_self_iff.mp whole
    exact ⟨filled, clean key, front, back, bare⟩
  · intro plain
    have plain : ∀ key, Plain (config.getAsString key) := fun key => by
      by_cases string : key.spec.type = .string
      · exact plain key string
      · exact plain_print _ _ string
    have whole (key : ConfigKey) : readValue (config.getAsString key) =
        some (config.getAsString key) :=
      readValue_eq_self_iff.mpr
        ⟨(plain key).filled, (plain key).front, (plain key).back, (plain key).bare⟩
    have clean (key : ConfigKey) := (plain key).oneLine
    obtain ⟨read, ran⟩ :=
      enters config.getAsString specs (fun key _ => whole key) getInstance
    have loads : getInstance.loadText config.generateSampleConfig =
        some (read.setAll .configFile read.configMap.toList) := by
      rw [loadText_eq, config.readLines_generateSampleConfig clean, ran, Option.map_some]
    refine ⟨_, loads, funext fun key => ?_⟩
    obtain ⟨value, found, given⟩ := values_of_load clean loads key
    cases (whole key).symm.trans found
    rw [given, getAsString, parse_print, Option.getD_some]

end Config

end SunKV.Common
