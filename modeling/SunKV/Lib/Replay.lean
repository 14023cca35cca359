/-
**Replaying a log of whole-value events onto a key-value store.**

An event stores a value under a key, deletes a key or empties the store. It never reads what it
overwrites, so after a replay a key holds what the last event that mentions it says, whatever it
held before (`replay_of_mentions`), and a key no event mentions keeps its value
(`replay_of_not_mentions`). Lists of events that mention no common key commute (`replay_comm`).

A running total of the weights of what the store holds, updated by the difference each event
makes, is off by a constant that no event changes, except that emptying the store zeroes it
(`balance_charges`); so a second replay leaves both the store and the total (`replay_replay`,
`charges_charges`).

`Forgets dead kept full` relates a store to one that still holds some dead values the first has
dropped; replaying the same events on both keeps the relation (`Forgets.replay`).
-/

import Mathlib

namespace SunKV.Lib

/-- A write event. -/
inductive Event (κ ν : Type) : Type
  | put (key : κ) (value : ν)
  | del (key : κ)
  | clear

/-- A store, as what it holds under each key. -/
abbrev Store (κ ν : Type) := κ → Option ν

variable {κ ν : Type}

/-- The event says what the store holds under `key` afterwards. -/
def Event.Mentions (key : κ) : Event κ ν → Prop
  | .put other _ => other = key
  | .del other => other = key
  | .clear => True

variable [DecidableEq κ]

/-- One event. -/
def Event.apply : Event κ ν → Store κ ν → Store κ ν
  | .put key value, store => Function.update store key (some value)
  | .del key, store => Function.update store key none
  | .clear, _ => fun _ => none

/-- A list of events, first to last. -/
def replay : List (Event κ ν) → Store κ ν → Store κ ν
  | [], store => store
  | event :: events, store => replay events (event.apply store)

@[simp] theorem replay_nil (store : Store κ ν) : replay [] store = store := rfl

@[simp] theorem replay_cons (event : Event κ ν) (events : List (Event κ ν)) (store : Store κ ν) :
    replay (event :: events) store = replay events (event.apply store) := rfl

theorem replay_append (first second : List (Event κ ν)) (store : Store κ ν) :
    replay (first ++ second) store = replay second (replay first store) := by
  induction first generalizing store with
  | nil => rfl
  | cons event first ih => exact ih _

/-- A mentioned key does not depend on the store before. -/
theorem Event.apply_of_mentions {event : Event κ ν} {key : κ} (mentions : event.Mentions key)
    (first second : Store κ ν) : event.apply first key = event.apply second key := by
  cases event with
  | put other value =>
    obtain rfl : other = key := mentions
    simp [Event.apply]
  | del other =>
    obtain rfl : other = key := mentions
    simp [Event.apply]
  | clear => rfl

theorem Event.apply_of_not_mentions {event : Event κ ν} {key : κ}
    (silent : ¬ event.Mentions key) (store : Store κ ν) : event.apply store key = store key := by
  cases event with
  | put other value => exact Function.update_of_ne (fun same => silent same.symm) _ _
  | del other => exact Function.update_of_ne (fun same => silent same.symm) _ _
  | clear => exact (silent trivial).elim

/-- **A replay works key by key.** -/
theorem replay_congr (events : List (Event κ ν)) {first second : Store κ ν} {key : κ}
    (same : first key = second key) : replay events first key = replay events second key := by
  induction events generalizing first second with
  | nil => exact same
  | cons event events ih =>
    refine ih ?_
    by_cases mentions : event.Mentions key
    · exact event.apply_of_mentions mentions _ _
    · rw [event.apply_of_not_mentions mentions, event.apply_of_not_mentions mentions, same]

/-- **The last writer wins**: a mentioned key does not depend on the store before. -/
theorem replay_of_mentions (events : List (Event κ ν)) {key : κ}
    (mentioned : ∃ event ∈ events, event.Mentions key) (first second : Store κ ν) :
    replay events first key = replay events second key := by
  induction events generalizing first second with
  | nil =>
    obtain ⟨event, member, _⟩ := mentioned
    cases member
  | cons head events ih =>
    by_cases later : ∃ event ∈ events, event.Mentions key
    · exact ih later _ _
    · obtain ⟨event, member, mentions⟩ := mentioned
      rcases List.mem_cons.mp member with rfl | member
      · exact replay_congr events (event.apply_of_mentions mentions _ _)
      · exact (later ⟨event, member, mentions⟩).elim

theorem replay_of_not_mentions (events : List (Event κ ν)) {key : κ}
    (silent : ∀ event ∈ events, ¬ event.Mentions key) (store : Store κ ν) :
    replay events store key = store key := by
  induction events generalizing store with
  | nil => rfl
  | cons head events ih =>
    rw [replay_cons, ih fun event member => silent event (List.mem_cons_of_mem _ member),
      head.apply_of_not_mentions (silent head List.mem_cons_self)]

/-- Two stores that agree on the keys no event mentions end up the same. -/
theorem replay_eq_of_covered (events : List (Event κ ν)) {first second : Store κ ν}
    (covered : ∀ key, (∃ event ∈ events, event.Mentions key) ∨ first key = second key) :
    replay events first = replay events second := by
  funext key
  rcases covered key with mentioned | same
  · exact replay_of_mentions events mentioned first second
  · exact replay_congr events same

/-- **A replay is idempotent.** -/
theorem replay_replay (events : List (Event κ ν)) (store : Store κ ν) :
    replay events (replay events store) = replay events store := by
  refine replay_eq_of_covered events fun key => ?_
  by_cases mentioned : ∃ event ∈ events, event.Mentions key
  · exact .inl mentioned
  · refine .inr (replay_of_not_mentions events (fun event member mentions => ?_) store)
    exact mentioned ⟨event, member, mentions⟩

/-! ### Counters -/

section Counter

variable {G : Type} [AddCommGroup G] (weight : κ → ν → G)

/-- The weight of what a store holds under a key. -/
def weigh (store : Store κ ν) (key : κ) : G := (store key).elim 0 (weight key)

/-- A running total of the weights, as an event updates it: by the difference it makes. -/
def Event.charge : Event κ ν → Store κ ν → G → G
  | .put key value, store, used => used - weigh weight store key + weight key value
  | .del key, store, used => used - weigh weight store key
  | .clear, _, _ => 0

/-- The running total after a list of events. -/
def charges : List (Event κ ν) → Store κ ν → G → G
  | [], _, used => used
  | event :: events, store, used =>
    charges events (event.apply store) (event.charge weight store used)

theorem charges_append (first second : List (Event κ ν)) (store : Store κ ν) (used : G) :
    charges weight (first ++ second) store used =
      charges weight second (replay first store) (charges weight first store used) := by
  induction first generalizing store used with
  | nil => rfl
  | cons event first ih => exact ih _ _

/-- How far a running total is off the weights of some keys. -/
def balance (keys : Finset κ) (store : Store κ ν) (used : G) : G :=
  used - ∑ key ∈ keys, weigh weight store key

theorem sum_weigh_update {keys : Finset κ} {key : κ} (member : key ∈ keys) (store : Store κ ν)
    (value : Option ν) :
    ∑ other ∈ keys, weigh weight (Function.update store key value) other =
      ∑ other ∈ keys, weigh weight store other - weigh weight store key +
        value.elim 0 (weight key) := by
  have same : ∀ other ∈ keys.erase key,
      weigh weight (Function.update store key value) other = weigh weight store other := by
    intro other apart
    rw [weigh, weigh, Function.update_of_ne (Finset.ne_of_mem_erase apart)]
  have here : weigh weight (Function.update store key value) key = value.elim 0 (weight key) := by
    rw [weigh, Function.update_self]
  rw [← Finset.sum_erase_add keys _ member, Finset.sum_congr rfl same, here,
    ← Finset.sum_erase_add keys (weigh weight store) member, add_sub_cancel_right]

/-- The keys an event names. -/
def Event.keys : Event κ ν → Finset κ
  | .put key _ => {key}
  | .del key => {key}
  | .clear => ∅

/-- The event empties the store. -/
def Event.isClear : Event κ ν → Bool
  | .clear => true
  | _ => false

/-- **An event keeps the balance, or zeroes it.** -/
theorem Event.balance_charge (event : Event κ ν) {keys : Finset κ} (named : event.keys ⊆ keys)
    (store : Store κ ν) (used : G) :
    balance weight keys (event.apply store) (event.charge weight store used) =
      if event.isClear then 0 else balance weight keys store used := by
  cases event with
  | put key value =>
    have member : key ∈ keys := named (Finset.mem_singleton_self key)
    rw [balance, Event.apply, sum_weigh_update weight member]
    show used - weigh weight store key + weight key value - _ = balance weight keys store used
    rw [balance, Option.elim_some]
    abel
  | del key =>
    have member : key ∈ keys := named (Finset.mem_singleton_self key)
    rw [balance, Event.apply, sum_weigh_update weight member]
    show used - weigh weight store key - _ = balance weight keys store used
    rw [balance, Option.elim_none]
    abel
  | clear => simp [balance, Event.apply, Event.charge, Event.isClear, weigh]

/-- So does a list of events. -/
theorem balance_charges (events : List (Event κ ν)) {keys : Finset κ}
    (named : ∀ event ∈ events, event.keys ⊆ keys) (store : Store κ ν) (used : G) :
    balance weight keys (replay events store) (charges weight events store used) =
      if events.any Event.isClear then 0 else balance weight keys store used := by
  induction events generalizing store used with
  | nil => rfl
  | cons event events ih =>
    have later := ih (fun other member => named other (List.mem_cons_of_mem _ member))
      (event.apply store) (event.charge weight store used)
    rw [event.balance_charge weight (named event List.mem_cons_self)] at later
    rw [replay_cons, charges, later, List.any_cons]
    cases event.isClear with
    | true => simp
    | false => simp

omit [AddCommGroup G] in
theorem exists_keys (events : List (Event κ ν)) :
    ∃ keys : Finset κ, ∀ event ∈ events, event.keys ⊆ keys := by
  induction events with
  | nil => exact ⟨∅, fun _ member => (List.not_mem_nil member).elim⟩
  | cons event events ih =>
    obtain ⟨keys, named⟩ := ih
    refine ⟨event.keys ∪ keys, fun other member => ?_⟩
    rcases List.mem_cons.mp member with rfl | member
    · exact Finset.subset_union_left
    · exact (named other member).trans Finset.subset_union_right

/-- **The running total of a second replay is that of the first.** -/
theorem charges_charges (events : List (Event κ ν)) (store : Store κ ν) (used : G) :
    charges weight events (replay events store) (charges weight events store used) =
      charges weight events store used := by
  obtain ⟨keys, named⟩ := exists_keys events
  have first := balance_charges weight events named store used
  have second := balance_charges weight events named (replay events store)
    (charges weight events store used)
  rw [first, replay_replay] at second
  have same : balance weight keys (replay events store)
      (charges weight events (replay events store) (charges weight events store used)) =
      balance weight keys (replay events store) (charges weight events store used) := by
    rw [second, first]
    split <;> rfl
  exact sub_left_inj.mp same

end Counter

/-- No key is mentioned by both. -/
def Apart (first second : List (Event κ ν)) : Prop :=
  ∀ key, (∃ event ∈ first, event.Mentions key) → ∀ event ∈ second, ¬ event.Mentions key

/-- **Events on different keys commute.** -/
theorem replay_comm {first second : List (Event κ ν)} (apart : Apart first second)
    (store : Store κ ν) : replay (first ++ second) store = replay (second ++ first) store := by
  funext key
  rw [replay_append, replay_append]
  by_cases mentioned : ∃ event ∈ first, event.Mentions key
  · rw [replay_of_not_mentions second (apart key mentioned)]
    exact replay_of_mentions first mentioned _ _
  · have silent : ∀ event ∈ first, ¬ event.Mentions key :=
      fun event member mentions => mentioned ⟨event, member, mentions⟩
    rw [replay_of_not_mentions first silent]
    exact replay_congr second (replay_of_not_mentions first silent store)

/-! ### Stores that differ in dead values only -/

/-- `kept` is `full` after dropping some dead values. -/
def Forgets (dead : ν → Prop) (kept full : Store κ ν) : Prop :=
  ∀ key, kept key = full key ∨ kept key = none ∧ ∃ value, full key = some value ∧ dead value

omit [DecidableEq κ] in
theorem Forgets.refl (dead : ν → Prop) (store : Store κ ν) : Forgets dead store store :=
  fun _ => Or.inl rfl

omit [DecidableEq κ] in
theorem Forgets.mono {dead dead' : ν → Prop} {kept full : Store κ ν}
    (forgets : Forgets dead kept full) (weaker : ∀ value, dead value → dead' value) :
    Forgets dead' kept full := by
  intro key
  rcases forgets key with same | ⟨gone, value, held, isDead⟩
  · exact Or.inl same
  · exact Or.inr ⟨gone, value, held, weaker value isDead⟩

omit [DecidableEq κ] in
theorem Forgets.trans {dead : ν → Prop} {first second third : Store κ ν}
    (one : Forgets dead first second) (two : Forgets dead second third) :
    Forgets dead first third := by
  intro key
  rcases one key with same | ⟨gone, value, held, isDead⟩
  · rw [same]
    exact two key
  · rcases two key with same' | ⟨gone', _⟩
    · exact Or.inr ⟨gone, value, by rw [← same', held], isDead⟩
    · rw [gone'] at held
      cases held

omit [DecidableEq κ] in
theorem Forgets.of_kept {dead : ν → Prop} {kept full : Store κ ν} (forgets : Forgets dead kept full)
    {key : κ} {value : ν} (held : kept key = some value) : full key = some value := by
  rcases forgets key with same | ⟨gone, _⟩
  · rw [← same, held]
  · rw [gone] at held
    cases held

/-- **Replaying the same events keeps the relation.** -/
theorem Forgets.replay {dead : ν → Prop} {kept full : Store κ ν}
    (forgets : Forgets dead kept full) (events : List (Event κ ν)) :
    Forgets dead (replay events kept) (Lib.replay events full) := by
  intro key
  by_cases mentioned : ∃ event ∈ events, event.Mentions key
  · exact Or.inl (replay_of_mentions events mentioned _ _)
  · have silent : ∀ event ∈ events, ¬ event.Mentions key :=
      fun event member mentions => mentioned ⟨event, member, mentions⟩
    rw [replay_of_not_mentions events silent, replay_of_not_mentions events silent]
    exact forgets key

/-- The living part of a store. -/
def living (alive : ν → Bool) (store : Store κ ν) : Store κ ν :=
  fun key => (store key).filter alive

omit [DecidableEq κ] in
/-- **Dropping dead values does not change the living part.** -/
theorem Forgets.living_eq {alive : ν → Bool} {kept full : Store κ ν}
    (forgets : Forgets (fun value => alive value = false) kept full) :
    living alive kept = living alive full := by
  funext key
  rcases forgets key with same | ⟨gone, value, held, isDead⟩
  · rw [living, living, same]
  · rw [living, living, gone, held, Option.filter_some, isDead]
    rfl

end SunKV.Lib
