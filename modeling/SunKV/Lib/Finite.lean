/-
**Ordered containers as finite sets and finite maps.**

An ordered tree set is, as a mathematical object, a `Finset`, and an ordered tree map a `Finmap`.
`toFinset` and `toFinmap` forget the order, and carry insertions, removals and sizes across.

* `foldl_insert_count` — inserting a list one by one counts the members that were not there;
* `foldl_erase_count` — erasing a list one by one counts the members that were there.
* `totalWeight_insert`, `totalWeight_erase` — the total weight of the entries of a map changes by
  what the key holds before and after.
-/

import Mathlib.Algebra.BigOperators.Group.Finset.Basic
import Mathlib.Algebra.GroupWithZero.Nat
import Mathlib.Data.Finmap
import Mathlib.Data.Finset.Card
import Std.Data.ExtTreeMap.Lemmas
import Std.Data.ExtTreeSet.Lemmas

namespace SunKV.Lib

variable {α β : Type} [Ord α] [Std.TransOrd α] [Std.LawfulEqOrd α]

theorem nodup_toList (set : Std.ExtTreeSet α compare) : set.toList.Nodup := by
  refine Std.ExtTreeSet.distinct_toList.imp ?_
  rintro first second apart rfl
  exact apart Std.compare_self

theorem nodup_keys (map : Std.ExtTreeMap α β compare) : map.keys.Nodup := by
  refine Std.ExtTreeMap.distinct_keys.imp ?_
  rintro first second apart rfl
  exact apart Std.compare_self

variable [DecidableEq α]

/-! ### Sets -/

/-- The members of an ordered set. -/
def toFinset (set : Std.ExtTreeSet α compare) : Finset α := set.toList.toFinset

section Set

variable {set : Std.ExtTreeSet α compare}

@[simp] theorem mem_toFinset {member : α} : member ∈ toFinset set ↔ member ∈ set := by
  simp [toFinset]

@[simp] theorem toFinset_empty : toFinset (∅ : Std.ExtTreeSet α compare) = ∅ := by
  ext member
  simp

@[simp] theorem toFinset_insert (member : α) :
    toFinset (set.insert member) = insert member (toFinset set) := by
  ext other
  rw [mem_toFinset, Std.ExtTreeSet.mem_insert, Std.compare_eq_iff_eq, Finset.mem_insert,
    mem_toFinset, eq_comm]

@[simp] theorem toFinset_erase (member : α) :
    toFinset (set.erase member) = (toFinset set).erase member := by
  ext other
  rw [mem_toFinset, Std.ExtTreeSet.mem_erase, Finset.mem_erase, mem_toFinset, ne_eq,
    Std.compare_eq_iff_eq, ne_eq, eq_comm]

theorem card_toFinset : (toFinset set).card = set.size := by
  rw [toFinset, List.toFinset_card_of_nodup (nodup_toList set), Std.ExtTreeSet.length_toList]

/-- A sum over the members listed is a sum over the members. -/
theorem sum_toList (weight : α → Nat) :
    (set.toList.map weight).sum = ∑ member ∈ toFinset set, weight member := by
  rw [toFinset, List.sum_toFinset weight (nodup_toList set)]

theorem toFinset_eq_empty_iff : toFinset set = ∅ ↔ set.isEmpty = true := by
  rw [← Finset.card_eq_zero, card_toFinset, Std.ExtTreeSet.isEmpty_eq_size_beq_zero, beq_iff_eq]

end Set

/-! ### Maps -/

/-- The entries of an ordered map. -/
def toFinmap (map : Std.ExtTreeMap α β compare) : Finmap fun _ : α => β :=
  (map.toList.map fun entry => (⟨entry.1, entry.2⟩ : Sigma fun _ : α => β)).toFinmap

section Map

variable {map : Std.ExtTreeMap α β compare}

@[simp] theorem lookup_toFinmap (key : α) : (toFinmap map).lookup key = map[key]? := by
  have nodup : (map.toList.map fun entry =>
      (⟨entry.1, entry.2⟩ : Sigma fun _ : α => β)).NodupKeys := by
    rw [List.NodupKeys, List.keys, List.map_map]
    have keys := nodup_keys map
    rwa [← Std.ExtTreeMap.map_fst_toList_eq_keys] at keys
  refine Option.ext fun value => ?_
  rw [toFinmap, Finmap.dlookup_list_toFinmap, ← Option.mem_def, List.mem_dlookup_iff nodup,
    ← Std.ExtTreeMap.mem_toList_iff_getElem?_eq_some]
  simp

@[simp] theorem mem_toFinmap {key : α} : key ∈ toFinmap map ↔ key ∈ map := by
  rw [Finmap.mem_iff, Std.ExtTreeMap.mem_iff_isSome_getElem?, Option.isSome_iff_exists,
    lookup_toFinmap]

@[simp] theorem toFinmap_empty : toFinmap (∅ : Std.ExtTreeMap α β compare) = ∅ :=
  Finmap.ext_lookup fun key => by simp

@[simp] theorem toFinmap_insert (key : α) (value : β) :
    toFinmap (map.insert key value) = (toFinmap map).insert key value := by
  refine Finmap.ext_lookup fun other => ?_
  rw [lookup_toFinmap, Std.ExtTreeMap.getElem?_insert]
  by_cases here : other = key
  · subst here
    rw [if_pos Std.compare_self, Finmap.lookup_insert]
  · rw [if_neg fun same => here (Std.compare_eq_iff_eq.mp same).symm,
      Finmap.lookup_insert_of_ne _ here, lookup_toFinmap]

@[simp] theorem toFinmap_erase (key : α) : toFinmap (map.erase key) = (toFinmap map).erase key := by
  refine Finmap.ext_lookup fun other => ?_
  rw [lookup_toFinmap, Std.ExtTreeMap.getElem?_erase]
  by_cases here : other = key
  · subst here
    rw [if_pos Std.compare_self, Finmap.lookup_erase]
  · rw [if_neg fun same => here (Std.compare_eq_iff_eq.mp same).symm,
      Finmap.lookup_erase_ne here, lookup_toFinmap]

theorem keys_toFinmap : (toFinmap map).keys = map.keys.toFinset := by
  ext key
  rw [Finmap.mem_keys, mem_toFinmap, List.mem_toFinset, Std.ExtTreeMap.mem_keys]

theorem card_keys_toFinmap : (toFinmap map).keys.card = map.size := by
  rw [keys_toFinmap, List.toFinset_card_of_nodup (nodup_keys map), Std.ExtTreeMap.length_keys]

theorem toFinmap_eq_empty_iff : toFinmap map = ∅ ↔ map.isEmpty = true := by
  rw [Std.ExtTreeMap.isEmpty_iff]
  refine ⟨fun empty => ?_, fun empty => by rw [empty, toFinmap_empty]⟩
  refine Std.ExtTreeMap.ext_getElem? fun {key} => ?_
  rw [← lookup_toFinmap, empty]
  simp

end Map

/-- In a list without a repeated key an entry is the only one with its key. -/
theorem filter_key_eq {α β : Type} [DecidableEq α] {entries : List (α × β)}
    (once : (entries.map Prod.fst).Nodup) {key : α} {value : β} (member : (key, value) ∈ entries) :
    entries.filter (fun entry => entry.1 = key) = [(key, value)] := by
  induction entries with
  | nil => cases member
  | cons entry entries ih =>
    obtain ⟨fresh, once⟩ := List.nodup_cons.mp once
    rcases List.mem_cons.mp member with rfl | later
    · have others : entries.filter (fun entry => entry.1 = key) = [] := by
        refine List.filter_eq_nil_iff.mpr fun other inside => ?_
        have apart : other.1 ≠ key := fun same => fresh (List.mem_map.mpr ⟨other, inside, same⟩)
        simpa using apart
      rw [List.filter_cons_of_pos (by simp), others]
    · have apart : entry.1 ≠ key := fun same =>
        fresh (List.mem_map.mpr ⟨(key, value), later, same.symm⟩)
      rw [List.filter_cons_of_neg (by simpa using apart), ih once later]

/-! ### Counting folds -/

section Fold

variable {γ : Type} (view : γ → Finset α) (has : γ → α → Bool) (update : γ → α → γ)

omit [Ord α] [Std.TransOrd α] [Std.LawfulEqOrd α] in
/-- **Insertion one by one** ends in the union, and counts the members that were not there. -/
theorem foldl_insert_count (has_iff : ∀ held member, has held member = true ↔ member ∈ view held)
    (view_update : ∀ held member, view (update held member) = insert member (view held))
    (members : List α) (start : γ) (count : Int) :
    let out := members.foldl (fun (held, added) member =>
      (update held member, if has held member then added else added + 1)) (start, count)
    view out.1 = view start ∪ members.toFinset ∧
      out.2 = count + (members.toFinset \ view start).card := by
  induction members generalizing start count with
  | nil => simp
  | cons member members ih =>
    obtain ⟨content, counted⟩ := ih (update start member)
      (if has start member then count else count + 1)
    refine ⟨?_, ?_⟩
    · rw [List.foldl_cons, content, view_update, List.toFinset_cons, Finset.insert_union,
        Finset.union_insert]
    · rw [List.foldl_cons, counted, view_update, List.toFinset_cons]
      by_cases known : member ∈ view start
      · rw [if_pos ((has_iff start member).mpr known), Finset.insert_eq_of_mem known,
          Finset.insert_sdiff_of_mem _ known]
      · have fresh : ¬ has start member = true := fun found => known ((has_iff _ _).mp found)
        have split : insert member members.toFinset \ view start =
            insert member (members.toFinset \ insert member (view start)) := by
          ext other
          by_cases here : other = member
          · subst here
            simp [known]
          · simp [here]
        rw [if_neg fresh, split, Finset.card_insert_of_notMem (by simp)]
        push_cast
        omega

omit [Ord α] [Std.TransOrd α] [Std.LawfulEqOrd α] in
/-- **Removal one by one** ends in the difference, and counts the members that were there. -/
theorem foldl_erase_count (has_iff : ∀ held member, has held member = true ↔ member ∈ view held)
    (view_update : ∀ held member, view (update held member) = (view held).erase member)
    (members : List α) (start : γ) (count : Int) :
    let out := members.foldl (fun (held, removed) member =>
      (update held member, if has held member then removed + 1 else removed)) (start, count)
    view out.1 = view start \ members.toFinset ∧
      out.2 = count + (view start ∩ members.toFinset).card := by
  induction members generalizing start count with
  | nil => simp
  | cons member members ih =>
    obtain ⟨content, counted⟩ := ih (update start member)
      (if has start member then count + 1 else count)
    refine ⟨?_, ?_⟩
    · rw [List.foldl_cons, content, view_update, List.toFinset_cons]
      ext other
      by_cases here : other = member
      · subst here
        simp
      · simp [here]
    · rw [List.foldl_cons, counted, view_update, List.toFinset_cons]
      by_cases known : member ∈ view start
      · have split : view start ∩ insert member members.toFinset =
            insert member ((view start).erase member ∩ members.toFinset) := by
          ext other
          by_cases here : other = member
          · subst here
            simp [known]
          · simp [here]
        rw [if_pos ((has_iff start member).mpr known), split,
          Finset.card_insert_of_notMem (by simp)]
        push_cast
        omega
      · have absent : ¬ has start member = true := fun found => known ((has_iff _ _).mp found)
        rw [if_neg absent, Finset.erase_eq_of_notMem known, Finset.inter_insert_of_notMem known]

end Fold

/-! ### Weights -/

section Weight

variable (weight : α → β → Nat)

/-- The weight of what a map holds under a key. -/
def heldWeight (map : Std.ExtTreeMap α β compare) (key : α) : Nat :=
  (map[key]?).elim 0 (weight key)

/-- The total weight of the entries of a map. -/
def totalWeight (map : Std.ExtTreeMap α β compare) : Nat :=
  (map.toList.map fun entry => weight entry.1 entry.2).sum

variable {map : Std.ExtTreeMap α β compare}

theorem totalWeight_eq_sum {keys : Finset α} (covered : ∀ key ∈ map, key ∈ keys) :
    totalWeight weight map = ∑ key ∈ keys, heldWeight weight map key := by
  have listed : totalWeight weight map = (map.keys.map (heldWeight weight map)).sum := by
    rw [totalWeight, ← Std.ExtTreeMap.map_fst_toList_eq_keys, List.map_map]
    refine congrArg List.sum (List.map_congr_left fun entry member => ?_)
    have held := Std.ExtTreeMap.mem_toList_iff_getElem?_eq_some.mp member
    simp [heldWeight, held]
  have inside : map.keys.toFinset ⊆ keys := fun key member => covered key (by simpa using member)
  rw [listed, ← List.sum_toFinset _ (nodup_keys map)]
  refine Finset.sum_subset inside fun key _ absent => ?_
  have none : map[key]? = none := Std.ExtTreeMap.getElem?_eq_none (by simpa using absent)
  rw [heldWeight, none]
  rfl

theorem totalWeight_empty : totalWeight weight (∅ : Std.ExtTreeMap α β compare) = 0 :=
  (totalWeight_eq_sum weight fun _ member => by simp at member).trans Finset.sum_empty

/-- Two maps that differ in one key. -/
theorem totalWeight_of_agree {other : Std.ExtTreeMap α β compare} {key : α}
    (agree : ∀ apart, apart ≠ key → other[apart]? = map[apart]?) :
    totalWeight weight other + heldWeight weight map key =
      totalWeight weight map + heldWeight weight other key := by
  let keys : Finset α := insert key (map.keys.toFinset ∪ other.keys.toFinset)
  have here : key ∈ keys := Finset.mem_insert_self _ _
  have elsewhere : ∑ apart ∈ keys.erase key, heldWeight weight other apart =
      ∑ apart ∈ keys.erase key, heldWeight weight map apart := by
    refine Finset.sum_congr rfl fun apart member => ?_
    rw [heldWeight, heldWeight, agree apart (Finset.ne_of_mem_erase member)]
  have mine : totalWeight weight map = ∑ apart ∈ keys, heldWeight weight map apart :=
    totalWeight_eq_sum weight (by simp +contextual [keys])
  have others : totalWeight weight other = ∑ apart ∈ keys, heldWeight weight other apart :=
    totalWeight_eq_sum weight (by simp +contextual [keys])
  rw [mine, others, ← Finset.add_sum_erase keys _ here, ← Finset.add_sum_erase keys _ here,
    elsewhere]
  omega

theorem totalWeight_insert (key : α) (value : β) :
    totalWeight weight (map.insert key value) + heldWeight weight map key =
      totalWeight weight map + weight key value := by
  have stored : heldWeight weight (map.insert key value) key = weight key value := by
    simp [heldWeight]
  rw [← stored]
  refine totalWeight_of_agree weight fun apart different => ?_
  rw [Std.ExtTreeMap.getElem?_insert,
    if_neg fun same => different (Std.compare_eq_iff_eq.mp same).symm]

theorem totalWeight_erase (key : α) :
    totalWeight weight (map.erase key) + heldWeight weight map key = totalWeight weight map := by
  have gone : heldWeight weight (map.erase key) key = 0 := by
    simp [heldWeight]
  rw [← Nat.add_zero (totalWeight weight map), ← gone]
  refine totalWeight_of_agree weight fun apart different => ?_
  rw [Std.ExtTreeMap.getElem?_erase,
    if_neg fun same => different (Std.compare_eq_iff_eq.mp same).symm]

theorem heldWeight_le (key : α) : heldWeight weight map key ≤ totalWeight weight map := by
  rw [← totalWeight_erase weight key]
  exact Nat.le_add_left _ _

end Weight

end SunKV.Lib
