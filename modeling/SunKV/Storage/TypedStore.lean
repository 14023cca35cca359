/-
**The typed store: what the engine is for.**

A key holds a string, a non-empty sequence, a non-empty finite set or a non-empty finite map
(`TypedValue`): an empty container cannot be built, so it cannot be stored. A command about a
container acts on the collection the key stands for, a missing key standing for the empty one, and
what it leaves is packed again: nothing, if it is empty (`Container.on`). A command of another type
answers `WrongType` and changes nothing.

* `Command.typed` — the meaning of a command on strings, keys and containers;
* `typedRun` — what a list of such commands answers, and the store it leaves.
-/

import SunKV.Lib.Finite
import SunKV.Storage.Engine

namespace SunKV.Storage

open SunKV.Lib

/-! ### Values and containers -/

/-- **What a key can hold.** -/
inductive TypedValue (σ : Type)
  | string (text : σ)
  | list (items : List σ) (filled : items ≠ [])
  | set (members : Finset σ) (filled : members ≠ ∅)
  | hash (fields : Finmap fun _ : σ => σ) (filled : fields ≠ ∅)

/-- The type of a value. -/
def TypedValue.type {σ : Type} : TypedValue σ → DataType
  | .string _ => .string
  | .list _ _ => .list
  | .set _ _ => .set
  | .hash _ _ => .hash

/-- What a command answers. -/
inductive Answer (σ : Type)
  | flag (value : Bool)
  | int (value : Int)
  | element (value : Option σ)
  | members (values : Finset σ)
  | fields (values : Finmap fun _ : σ => σ)

/-- The status and the answer of a command, and what its key holds afterwards. -/
structure TypedStep (σ : Type) where
  status : StatusCode
  answer : Answer σ
  held : Option (TypedValue σ)

/-- A kind of container: collections of type `γ`, and the values of a type that hold one. -/
structure Container (σ γ : Type) where
  type : DataType
  empty : γ
  pack : γ → Option (TypedValue σ)
  unpack : TypedValue σ → Option γ
  unpack_of_pack : ∀ {content value}, pack content = some value → unpack value = some content
  isSome_unpack : ∀ value, (unpack value).isSome = decide (value.type = type)
  pack_empty : pack empty = none

namespace Container

variable {σ γ : Type}

/-- **A command on a container**, given what it answers and what it leaves. -/
def on (container : Container σ γ) (blank : Answer σ) (act : γ → Answer σ × γ) :
    Option (TypedValue σ) → TypedStep σ
  | none => ⟨.ok, (act container.empty).1, container.pack (act container.empty).2⟩
  | some value =>
    match container.unpack value with
    | none => ⟨.wrongType, blank, some value⟩
    | some content => ⟨.ok, (act content).1, container.pack (act content).2⟩

/-- A question about a container leaves it alone. -/
def ask (container : Container σ γ) (blank : Answer σ) (answer : γ → Answer σ) :
    Option (TypedValue σ) → TypedStep σ
  | none => ⟨.ok, answer container.empty, none⟩
  | some value =>
    match container.unpack value with
    | none => ⟨.wrongType, blank, some value⟩
    | some content => ⟨.ok, answer content, some value⟩

/-- What is packed is not empty, and the value is made of it. -/
theorem eq_of_packed {empty content : γ} [Decidable (content = empty)]
    {wrap : content ≠ empty → TypedValue σ} {value : TypedValue σ}
    (packed : (if filled : content = empty then none else some (wrap filled)) = some value) :
    ∃ filled, value = wrap filled := by
  by_cases filled : content = empty
  · rw [dif_pos filled] at packed
    cases packed
  · rw [dif_neg filled] at packed
    exact ⟨filled, (Option.some.inj packed).symm⟩

variable [DecidableEq σ]

/-- Sequences. -/
def lists : Container σ (List σ) where
  type := .list
  empty := []
  pack items := if filled : items = [] then none else some (.list items filled)
  unpack
    | .list items _ => some items
    | _ => none
  unpack_of_pack := by
    intro content value packed
    obtain ⟨filled, rfl⟩ := eq_of_packed packed
    rfl
  isSome_unpack value := by cases value <;> rfl
  pack_empty := dif_pos rfl

/-- Finite sets. -/
def sets : Container σ (Finset σ) where
  type := .set
  empty := ∅
  pack members := if filled : members = ∅ then none else some (.set members filled)
  unpack
    | .set members _ => some members
    | _ => none
  unpack_of_pack := by
    intro content value packed
    obtain ⟨filled, rfl⟩ := eq_of_packed packed
    rfl
  isSome_unpack value := by cases value <;> rfl
  pack_empty := dif_pos rfl

/-- Finite maps. -/
def hashes : Container σ (Finmap fun _ : σ => σ) where
  type := .hash
  empty := ∅
  pack fields := if filled : fields = ∅ then none else some (.hash fields filled)
  unpack
    | .hash fields _ => some fields
    | _ => none
  unpack_of_pack := by
    intro content value packed
    obtain ⟨filled, rfl⟩ := eq_of_packed packed
    rfl
  isSome_unpack value := by cases value <;> rfl
  pack_empty := dif_pos rfl

omit [DecidableEq σ] in
@[simp] theorem isSome_pack_lists {items : List σ} :
    (lists.pack items).isSome = true ↔ items ≠ [] := by
  by_cases empty : items = [] <;> simp [lists, empty]

@[simp] theorem isSome_pack_sets {members : Finset σ} :
    (sets.pack members).isSome = true ↔ members ≠ ∅ := by
  by_cases empty : members = ∅ <;> simp [sets, empty]

@[simp] theorem isSome_pack_hashes {fields : Finmap fun _ : σ => σ} :
    (hashes.pack fields).isSome = true ↔ fields ≠ ∅ := by
  by_cases empty : fields = ∅ <;> simp [hashes, empty]

end Container

/-! ### Actions -/

section Actions

variable {σ : Type} [DecidableEq σ]

/-- The element at an index: from the front for `0 ≤ i < n`, from the back for `-n ≤ i < 0`. -/
def itemAt (items : List σ) (index : Int) : Option σ :=
  if 0 ≤ index ∧ index < items.length then items[index.toNat]?
  else if -items.length ≤ index ∧ index < 0 then items[(items.length + index).toNat]?
  else none

/-- The sequence after a push, with its length. -/
def lengthened (items : List σ) : Answer σ × List σ := (.int items.length, items)

/-- The set with the members added, and how many were not in it. -/
def withMembers (added : List σ) (members : Finset σ) : Answer σ × Finset σ :=
  (.int (added.toFinset \ members).card, members ∪ added.toFinset)

/-- The set without the members, and how many were in it. -/
def withoutMembers (removed : List σ) (members : Finset σ) : Answer σ × Finset σ :=
  (.int (members ∩ removed.toFinset).card, members \ removed.toFinset)

/-- The map with the field set, and whether it is new. -/
def withField (field value : σ) (fields : Finmap fun _ : σ => σ) :
    Answer σ × Finmap fun _ : σ => σ :=
  (.int (if field ∈ fields then 0 else 1), fields.insert field value)

/-- The map without the fields, and how many it had. -/
def withoutFields (removed : List σ) (fields : Finmap fun _ : σ => σ) :
    Answer σ × Finmap fun _ : σ => σ :=
  (.int (fields.keys ∩ removed.toFinset).card,
    removed.foldl (fun fields field => fields.erase field) fields)

theorem withoutMembers_empty (removed : List σ) : withoutMembers removed ∅ = (.int 0, ∅) := by
  simp [withoutMembers]

theorem withoutFields_empty (removed : List σ) : withoutFields removed ∅ = (.int 0, ∅) := by
  have gone : removed.foldl (fun fields field => fields.erase field)
      (∅ : Finmap fun _ : σ => σ) = ∅ := by
    induction removed with
    | nil => rfl
    | cons field removed ih =>
      have none : (∅ : Finmap fun _ : σ => σ).erase field = ∅ :=
        Finmap.ext_lookup fun other => by
          by_cases here : other = field
          · subst here
            simp
          · simp [Finmap.lookup_erase_ne here]
      rw [List.foldl_cons, none, ih]
  rw [withoutFields, gone]
  simp

/-- A string is read as it is, a missing one as none. -/
def readString : Option (TypedValue σ) → TypedStep σ
  | none => ⟨.ok, .element none, none⟩
  | some (.string text) => ⟨.ok, .element (some text), some (.string text)⟩
  | some value => ⟨.wrongType, .element none, some value⟩

end Actions

/-- **The meaning of a command**, as a step on what its key holds. The commands about time, and
those about no key, have none here. -/
def Command.typed : Command → Option (Option (TypedValue Bytes) → TypedStep Bytes)
  | .set _ value => some fun _ => ⟨.ok, .flag true, some (.string value)⟩
  | .get _ => some readString
  | .del _ => some fun held => ⟨.ok, .int (if held.isSome then 1 else 0), none⟩
  | .keyExists _ => some fun held => ⟨.ok, .int (if held.isSome then 1 else 0), held⟩
  | .lpush _ values => some <| Container.lists.on (.int 0) fun items =>
      lengthened (values.reverse ++ items)
  | .rpush _ values => some <| Container.lists.on (.int 0) fun items =>
      lengthened (items ++ values)
  | .lpop _ => some <| Container.lists.on (.element none) fun items =>
      (.element items.head?, items.tail)
  | .rpop _ => some <| Container.lists.on (.element none) fun items =>
      (.element items.getLast?, items.dropLast)
  | .llen _ => some <| Container.lists.ask (.int 0) fun items => .int items.length
  | .lindex _ index => some <| Container.lists.ask (.element none) fun items =>
      .element (itemAt items index)
  | .sadd _ members => some <| Container.sets.on (.int 0) (withMembers members)
  | .srem _ members => some <| Container.sets.on (.int 0) (withoutMembers members)
  | .scard _ => some <| Container.sets.ask (.int 0) fun members => .int members.card
  | .sismember _ member => some <| Container.sets.ask (.int 0) fun members =>
      .int (if member ∈ members then 1 else 0)
  | .smembers _ => some <| Container.sets.ask (.members ∅) .members
  | .hset _ field value => some <| Container.hashes.on (.int 0) (withField field value)
  | .hget _ field => some <| Container.hashes.ask (.element none) fun fields =>
      .element (fields.lookup field)
  | .hdel _ fields => some <| Container.hashes.on (.int 0) (withoutFields fields)
  | .hlen _ => some <| Container.hashes.ask (.int 0) fun fields => .int fields.keys.card
  | .hexists _ field => some <| Container.hashes.ask (.int 0) fun fields =>
      .int (if field ∈ fields then 1 else 0)
  | .hgetall _ => some <| Container.hashes.ask (.fields ∅) .fields
  | .expire _ _ | .persist _ | .ttl _ | .pttl _ | .dbsize | .keys => none

/-! ### Runs -/

/-- A typed store. -/
abbrev TypedStore := Bytes → Option (TypedValue Bytes)

/-- **A run of commands on a typed store**: the steps, and the store they leave. -/
def typedRun : List Command → TypedStore → List (TypedStep Bytes) × TypedStore
  | [], store => ([], store)
  | command :: commands, store =>
    match command.key?, command.typed with
    | some key, some act =>
      let step := act (store key)
      let (steps, final) := typedRun commands (Function.update store key step.held)
      (step :: steps, final)
    | _, _ => typedRun commands store

end SunKV.Storage
