/-
**Sets that are ordered by a key.**

`OrderedSet key` is `std::set` with a comparison that looks at a key of its elements only: they are
kept in the order of their keys, and two elements with one key are the same element to it, so that
`emplace` adds nothing where there is one already.

* `emplace_perm`, `emplace_of_present` — what `emplace` adds.
* `count_emplace`, `count_eraseFirst` — how often an image of the elements occurs afterwards.
* `below_append_above` — the elements before a bound and the others.
-/

import Mathlib.Data.List.Sort
import Mathlib.Order.Defs.LinearOrder

namespace SunKV.Lib

/-- A `std::set` of `α` that compares keys. -/
structure OrderedSet {α κ : Type} [LinearOrder κ] (key : α → κ) where
  elems : List α
  sorted : elems.Pairwise fun first second => key first < key second

namespace OrderedSet

variable {α κ : Type} [LinearOrder κ] {key : α → κ}

/-- No elements. -/
def empty : OrderedSet key := ⟨[], List.Pairwise.nil⟩

variable (set : OrderedSet key)

/-- `*begin()`. -/
def begin? : Option α := set.elems.head?

/-- An element that is placed among others with other keys. -/
theorem sorted_orderedInsert {elems : List α} {added : α}
    (sorted : elems.Pairwise fun first second => key first < key second)
    (fresh : ∀ elem ∈ elems, key elem ≠ key added) :
    (elems.orderedInsert (fun first second => key first ≤ key second) added).Pairwise
      fun first second => key first < key second := by
  induction elems with
  | nil => exact List.pairwise_singleton _ _
  | cons head tail ih =>
    obtain ⟨least, rest⟩ := List.pairwise_cons.mp sorted
    rw [List.orderedInsert_cons]
    split
    case isTrue le =>
      have less : key added < key head :=
        lt_of_le_of_ne le (Ne.symm (fresh head List.mem_cons_self))
      refine List.pairwise_cons.mpr ⟨fun elem member => ?_, sorted⟩
      rcases List.mem_cons.mp member with rfl | member
      · exact less
      · exact less.trans (least elem member)
    case isFalse greater =>
      refine List.pairwise_cons.mpr ⟨fun elem member => ?_, ih rest fun elem member =>
        fresh elem (List.mem_cons_of_mem _ member)⟩
      rcases (List.mem_orderedInsert _).mp member with rfl | member
      · exact not_le.mp greater
      · exact least elem member

/-- `emplace`. -/
def emplace (added : α) : OrderedSet key :=
  if fresh : ∀ elem ∈ set.elems, key elem ≠ key added then
    ⟨set.elems.orderedInsert (fun first second => key first ≤ key second) added,
      sorted_orderedInsert set.sorted fresh⟩
  else set

/-- The elements from `begin()` to `lower_bound(bound)`. -/
def below (bound : κ) : List α := set.elems.takeWhile fun elem => key elem < bound

/-- The set without them. -/
def above (bound : κ) : OrderedSet key :=
  ⟨set.elems.dropWhile fun elem => key elem < bound,
    set.sorted.sublist (List.dropWhile_sublist _)⟩

/-- The set without the first element of a kind. -/
def eraseFirst (kind : α → Bool) : OrderedSet key :=
  ⟨set.elems.eraseP kind, set.sorted.sublist List.eraseP_sublist⟩

/-- **A fresh key is added.** -/
theorem emplace_perm {added : α} (fresh : ∀ elem ∈ set.elems, key elem ≠ key added) :
    (set.emplace added).elems.Perm (added :: set.elems) := by
  rw [emplace, dif_pos fresh]
  exact List.perm_orderedInsert _ _ _

/-- **A key that is there is not.** -/
theorem emplace_of_present {added : α} (present : ¬ ∀ elem ∈ set.elems, key elem ≠ key added) :
    set.emplace added = set :=
  dif_neg present

theorem emplace_ne_nil (added : α) : (set.emplace added).elems ≠ [] := by
  by_cases fresh : ∀ elem ∈ set.elems, key elem ≠ key added
  · intro none
    have perm := set.emplace_perm fresh
    rw [none] at perm
    exact List.cons_ne_nil _ _ perm.nil_eq.symm
  · rw [set.emplace_of_present fresh]
    intro none
    rw [none] at fresh
    exact fresh nofun

section Count

variable {β : Type} [DecidableEq β] (image : α → β)

theorem count_emplace {added : α} (fresh : ∀ elem ∈ set.elems, key elem ≠ key added) (value : β) :
    ((set.emplace added).elems.map image).count value =
      (set.elems.map image).count value + if image added = value then 1 else 0 := by
  rw [((set.emplace_perm fresh).map image).count_eq, List.map_cons, List.count_cons]
  simp only [beq_iff_eq]

theorem count_emplace_le (added : α) (value : β) :
    ((set.emplace added).elems.map image).count value ≤
      (set.elems.map image).count value + if image added = value then 1 else 0 := by
  by_cases fresh : ∀ elem ∈ set.elems, key elem ≠ key added
  · exact Nat.le_of_eq (set.count_emplace image fresh value)
  · rw [set.emplace_of_present fresh]
    exact Nat.le_add_right _ _

theorem count_eraseFirst (gone value : β) :
    ((set.eraseFirst fun elem => image elem = gone).elems.map image).count value =
      (set.elems.map image).count value - if gone = value then 1 else 0 := by
  have erased : (set.eraseFirst fun elem => image elem = gone).elems.map image =
      (set.elems.map image).erase gone := by
    rw [List.erase_eq_eraseP', List.eraseP_map]
    rfl
  rw [erased, List.count_erase]
  simp only [beq_iff_eq]

end Count

theorem below_append_above (bound : κ) : set.below bound ++ (set.above bound).elems = set.elems :=
  List.takeWhile_append_dropWhile

end OrderedSet

end SunKV.Lib
