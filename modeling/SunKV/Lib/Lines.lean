/-
**Lines and blanks.**

* `lines` — what a loop over `std::getline` sees of a text; a text made of lines gives them back
  (`lines_concat`), and no line has the separator in it (`not_mem_of_mem_lines`);
* `strip` — a text without the blanks at its ends; `strip_eq_self_iff` says which texts it leaves
  as they are.
-/

import Mathlib.Data.List.DropRight

namespace SunKV.Lib

variable {α : Type}

/-! ### Lines -/

section Lines

variable [DecidableEq α] (separator : α)

/-- **The lines of a text.** The last one need not be ended. -/
def lines : List α → List (List α)
  | [] => []
  | symbol :: rest =>
    if symbol = separator then [] :: lines rest
    else
      match lines rest with
      | [] => [[symbol]]
      | line :: later => (symbol :: line) :: later

variable {separator}

/-- The first line of a text, and the others. -/
theorem lines_concat {line : List α} (whole : separator ∉ line) (rest : List α) :
    lines separator (line ++ separator :: rest) = line :: lines separator rest := by
  induction line with
  | nil => simp [lines]
  | cons symbol line ih =>
    obtain ⟨other, whole⟩ := not_or.mp (mt List.mem_cons.mpr whole)
    rw [List.cons_append, lines, if_neg (Ne.symm other), ih whole]

theorem not_mem_of_mem_lines {text line : List α} (member : line ∈ lines separator text) :
    separator ∉ line := by
  induction text generalizing line with
  | nil => cases member
  | cons symbol rest ih =>
    rw [lines] at member
    split at member
    case isTrue =>
      rcases List.mem_cons.mp member with rfl | later
      · exact List.not_mem_nil
      · exact ih later
    case isFalse other =>
      split at member
      case h_1 =>
        rw [List.mem_singleton.mp member, List.mem_singleton]
        exact Ne.symm other
      case h_2 line later found =>
        rw [found] at ih
        rcases List.mem_cons.mp member with rfl | later
        · rw [List.mem_cons, not_or]
          exact ⟨Ne.symm other, ih List.mem_cons_self⟩
        · exact ih (List.mem_cons_of_mem _ later)

end Lines

/-! ### Blanks -/

section Strip

variable (blank : α → Bool)

/-- **A text without the blanks at its ends.** -/
def strip (text : List α) : List α := (text.dropWhile blank).rdropWhile blank

variable {blank}

theorem length_dropWhile_le (text : List α) : (text.dropWhile blank).length ≤ text.length :=
  (List.dropWhile_suffix blank).length_le

theorem length_rdropWhile_le (text : List α) : (text.rdropWhile blank).length ≤ text.length :=
  (List.rdropWhile_prefix blank text).length_le

theorem length_strip_le (text : List α) : (strip blank text).length ≤ text.length :=
  (length_rdropWhile_le _).trans (length_dropWhile_le text)

theorem strip_subset (text : List α) : strip blank text ⊆ text :=
  fun _ member => (List.dropWhile_suffix blank).subset
    ((List.rdropWhile_prefix blank _).subset member)

theorem dropWhile_eq_self_iff_head {text : List α} :
    text.dropWhile blank = text ↔ ∀ symbol ∈ text.head?, blank symbol = false := by
  cases text with
  | nil => simp
  | cons symbol rest => simp [List.dropWhile_eq_self_iff]

theorem rdropWhile_eq_self_iff_last {text : List α} :
    text.rdropWhile blank = text ↔ ∀ symbol ∈ text.getLast?, blank symbol = false := by
  rw [List.rdropWhile_eq_self_iff]
  rcases List.eq_nil_or_concat text with rfl | ⟨init, last, rfl⟩ <;> simp

theorem strip_eq_self_iff {text : List α} :
    strip blank text = text ↔
      (∀ symbol ∈ text.head?, blank symbol = false) ∧
        ∀ symbol ∈ text.getLast?, blank symbol = false := by
  rw [← dropWhile_eq_self_iff_head, ← rdropWhile_eq_self_iff_last]
  constructor
  · intro same
    have front : text.dropWhile blank = text := (List.dropWhile_suffix blank).eq_of_length_le
      ((congrArg List.length same).ge.trans (length_rdropWhile_le _))
    rw [strip, front] at same
    exact ⟨front, same⟩
  · rintro ⟨front, back⟩
    rw [strip, front, back]

/-- A blank in front is not seen. -/
theorem strip_cons {symbol : α} (unseen : blank symbol = true) (text : List α) :
    strip blank (symbol :: text) = strip blank text := by
  rw [strip, List.dropWhile_cons_of_pos unseen, strip]

end Strip

end SunKV.Lib
