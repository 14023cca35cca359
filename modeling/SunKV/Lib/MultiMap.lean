/-
**Maps to finite sets, without empty ones.**

A `MultiMap` keeps a set of items under every key. `add` creates the set of a key that has none,
`drop` removes a set with its last item, so no key is left with an empty set (`Filled`).

* `mem_add`, `mem_drop`, `mem_dropAll` — the items under a key afterwards.
* `Filled.add`, `Filled.drop`, `Filled.dropAll` — no empty set appears.
-/

import Mathlib

namespace SunKV.Lib

/-- Finite sets of items under keys. -/
abbrev MultiMap (α κ : Type) [Ord α] := Std.ExtTreeMap α (Finset κ) compare

namespace MultiMap

variable {α κ : Type} [Ord α] [Std.TransOrd α] {map : MultiMap α κ} {key other : α}

/-- The items under a key. -/
def items (map : MultiMap α κ) (key : α) : Finset κ := map[key]?.getD ∅

/-- How many items there are under all keys. -/
def total (map : MultiMap α κ) : Nat := (map.toList.map fun entry => entry.2.card).sum

/-- No key has an empty set. -/
def Filled (map : MultiMap α κ) : Prop :=
  ∀ (key : α) (items : Finset κ), map[key]? = some items → items ≠ ∅

theorem Filled.empty : Filled (∅ : MultiMap α κ) := by
  intro key items found
  simp at found

theorem Filled.insert (filled : map.Filled) {set : Finset κ} (some : set ≠ ∅) :
    Filled (map.insert key set) := by
  intro other items found
  rw [Std.ExtTreeMap.getElem?_insert] at found
  split at found
  · obtain rfl := Option.some.inj found
    exact some
  · exact filled other items found

section Items

variable [Std.LawfulEqOrd α] [DecidableEq α]

theorem items_insert (set : Finset κ) :
    MultiMap.items (map.insert key set) other = if key = other then set else map.items other := by
  unfold items
  rw [Std.ExtTreeMap.getElem?_insert]
  by_cases same : key = other
  · simp [same]
  · simp [same]

theorem items_erase :
    MultiMap.items (map.erase key) other = if key = other then ∅ else map.items other := by
  unfold items
  rw [Std.ExtTreeMap.getElem?_erase]
  by_cases same : key = other
  · simp [same]
  · simp [same]

end Items

/-! ### Adding and dropping -/

variable [DecidableEq κ] {item one : κ}

/-- One more item under a key. -/
def add (map : MultiMap α κ) (key : α) (item : κ) : MultiMap α κ :=
  map.insert key (insert item (map.items key))

/-- An item taken from under a key, the key with its last one. -/
def drop (item : κ) (map : MultiMap α κ) (key : α) : MultiMap α κ :=
  match map[key]? with
  | none => map
  | some items =>
    if items.erase item = ∅ then map.erase key else map.insert key (items.erase item)

/-- An item taken from under many keys. -/
def dropAll (item : κ) (map : MultiMap α κ) (keys : List α) : MultiMap α κ :=
  keys.foldl (drop item) map

theorem Filled.add (filled : map.Filled) : (map.add key item).Filled :=
  filled.insert (Finset.insert_ne_empty _ _)

theorem Filled.drop (filled : map.Filled) : (MultiMap.drop item map key).Filled := by
  unfold MultiMap.drop
  split
  · exact filled
  · split
    case isTrue =>
      intro other items found
      rw [Std.ExtTreeMap.getElem?_erase] at found
      split at found
      · cases found
      · exact filled other items found
    case isFalse more => exact filled.insert more

theorem Filled.dropAll (filled : map.Filled) (keys : List α) :
    (MultiMap.dropAll item map keys).Filled := by
  unfold MultiMap.dropAll
  induction keys generalizing map with
  | nil => exact filled
  | cons key keys ih => exact ih filled.drop

section Members

variable [Std.LawfulEqOrd α] [DecidableEq α]

theorem mem_add :
    one ∈ (map.add key item).items other ↔ (one = item ∧ other = key) ∨ one ∈ map.items other := by
  rw [add, items_insert]
  by_cases same : key = other
  · subst same
    simp
  · simp [same, Ne.symm same]

theorem items_drop :
    (drop item map key).items other =
      if key = other then (map.items key).erase item else map.items other := by
  unfold drop
  split
  case h_1 absent =>
    by_cases same : key = other
    · subst same
      simp [items, absent]
    · rw [if_neg same]
  case h_2 set found =>
    have held : map.items key = set := by simp [items, found]
    split
    case isTrue last => rw [items_erase, held, last]
    case isFalse more => rw [items_insert, held]

theorem mem_drop :
    one ∈ (drop item map key).items other ↔
      one ∈ map.items other ∧ ¬ (one = item ∧ other = key) := by
  rw [items_drop]
  by_cases same : key = other
  · subst same
    simp [and_comm]
  · simp [same, Ne.symm same]

theorem mem_dropAll {keys : List α} :
    one ∈ (dropAll item map keys).items other ↔
      one ∈ map.items other ∧ ¬ (one = item ∧ other ∈ keys) := by
  unfold dropAll
  induction keys generalizing map with
  | nil => simp
  | cons key keys ih =>
    rw [List.foldl_cons, ih, mem_drop, List.mem_cons]
    tauto

end Members

end MultiMap

end SunKV.Lib
