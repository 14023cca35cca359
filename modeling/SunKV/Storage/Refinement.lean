/-
**The engine refines the typed store.**

`Depicts` relates what a key holds in the engine to what it holds in the typed store: the type tag
says which field is meant, and a stored container is never empty. `Reply.Shows` relates the replies:
the members of a set and the fields of a hash are listed in increasing order.

* `Represents` — a type tag and a field of the engine's values represent a kind of container; the
  families of the engine then agree with `Container.on` and `Container.ask`, once for all kinds.
* `Command.agrees` — one command of the engine is one step of the typed store.
* `exec_refines_typedRun` — every run from the empty store answers as the typed store does.
-/

import SunKV.Storage.TypedStore
import SunKV.Storage.Expiry
import SunKV.Storage.Failure

namespace SunKV.Storage

open SunKV.Lib

/-! ### The abstraction -/

/-- What a value of the engine stands for; an empty container stands for nothing. -/
def DataValue.typed (value : DataValue) : Option (TypedValue Bytes) :=
  match value.type with
  | .string => some (.string value.stringValue)
  | .list => Container.lists.pack value.listValue
  | .set => Container.sets.pack (toFinset value.setValue)
  | .hash => Container.hashes.pack (toFinmap value.hashValue)

/-- What a key holds in the engine stands for what it holds in the typed store. -/
def Depicts (held : Option Record) (entry : Option (TypedValue Bytes)) : Prop :=
  held.map (fun record => record.value.typed) = entry.map some

theorem depicts_none : Depicts none none := rfl

theorem depicts_some {record : Record} {value : TypedValue Bytes}
    (stands : record.value.typed = some value) : Depicts (some record) (some value) := by
  simp [Depicts, stands]

/-- The two cases of `Depicts`. -/
theorem Depicts.cases {held : Option Record} {entry : Option (TypedValue Bytes)}
    (depicts : Depicts held entry) :
    (held = none ∧ entry = none) ∨
      ∃ record value,
        held = some record ∧ entry = some value ∧ record.value.typed = some value := by
  cases held with
  | none =>
    cases entry with
    | none => exact .inl ⟨rfl, rfl⟩
    | some value => exact absurd depicts (by simp [Depicts])
  | some record =>
    cases entry with
    | none => exact absurd depicts (by simp [Depicts])
    | some value => exact .inr ⟨record, value, rfl, rfl, by simpa [Depicts] using depicts⟩

theorem Depicts.isSome_eq {held : Option Record} {entry : Option (TypedValue Bytes)}
    (depicts : Depicts held entry) : held.isSome = entry.isSome := by
  rcases depicts.cases with ⟨rfl, rfl⟩ | ⟨record, value, rfl, rfl, -⟩
  · rfl
  · rfl

/-- A reply of the engine shows an answer of the typed store. -/
def Reply.Shows : Reply → Answer Bytes → Prop
  | .flag value, .flag answer => value = answer
  | .int value, .int answer => value = answer
  | .element value, .element answer => value = answer
  | .elements values, .members members =>
      values.Pairwise (fun first second => compare first second = .lt) ∧
        values.toFinset = members
  | .pairs values, .fields fields =>
      (values.map Prod.fst).Pairwise (fun first second => compare first second = .lt) ∧
        ∀ field value, (field, value) ∈ values ↔ fields.lookup field = some value
  | _, _ => False

theorem shows_no_fields : (Reply.pairs []).Shows (.fields ∅) :=
  ⟨List.Pairwise.nil, by simp⟩

/-- A transition of the engine agrees with a step of the typed store. -/
structure Agrees (step : Transition Reply) (spec : TypedStep Bytes) : Prop where
  status : step.status = spec.status
  value : step.value.Shows spec.answer
  held : Depicts step.held spec.held

/-! ### Containers -/

/-- A value has the type of what it stands for. -/
theorem DataValue.type_of_typed {value : DataValue} {entry : TypedValue Bytes}
    (stands : value.typed = some entry) : entry.type = value.type := by
  have packed : ∀ {γ : Type} (container : Container Bytes γ) {content : γ},
      container.pack content = some entry → entry.type = container.type := by
    intro γ container content found
    have unpacked := container.isSome_unpack entry
    rw [container.unpack_of_pack found] at unpacked
    simpa using unpacked.symm
  unfold DataValue.typed at stands
  cases type : value.type with
  | string => rw [type] at stands; cases stands; rfl
  | list => rw [type] at stands; exact packed Container.lists stands
  | set => rw [type] at stands; exact packed Container.sets stands
  | hash => rw [type] at stands; exact packed Container.hashes stands

/-- Values of a container's type represent its collections by one of their fields. -/
structure Represents {γ : Type} (container : Container Bytes γ) (content : DataValue → γ) :
    Prop where
  typed_eq : ∀ {value : DataValue}, value.type = container.type →
    value.typed = container.pack (content value)
  content_blank : content (DataValue.blank container.type) = container.empty

theorem represents_lists : Represents Container.lists DataValue.listValue where
  typed_eq := fun {value} same => by rw [DataValue.typed, same]; rfl
  content_blank := rfl

theorem represents_sets : Represents Container.sets fun value => toFinset value.setValue where
  typed_eq := fun {value} same => by rw [DataValue.typed, same]; rfl
  content_blank := toFinset_empty

theorem represents_hashes : Represents Container.hashes fun value => toFinmap value.hashValue where
  typed_eq := fun {value} same => by rw [DataValue.typed, same]; rfl
  content_blank := toFinmap_empty

namespace Represents

variable {γ : Type} {container : Container Bytes γ} {content : DataValue → γ}
  {held : Option Record} {entry : Option (TypedValue Bytes)}

/-- The three situations of a command on a container: no key, a key of the type, a key of another
type. -/
theorem cases (represents : Represents container content) (depicts : Depicts held entry) :
    (held = none ∧ entry = none) ∨
      (∃ record value, held = some record ∧ entry = some value ∧
        record.value.typed = some value ∧ record.value.type = container.type ∧
        container.unpack value = some (content record.value)) ∨
      ∃ record value, held = some record ∧ entry = some value ∧
        record.value.typed = some value ∧ record.value.type ≠ container.type ∧
        container.unpack value = none := by
  rcases depicts.cases with absent | ⟨record, value, rfl, rfl, stands⟩
  · exact .inl absent
  · by_cases same : record.value.type = container.type
    · refine .inr (.inl ⟨record, value, rfl, rfl, stands, same, ?_⟩)
      rw [represents.typed_eq same] at stands
      exact container.unpack_of_pack stands
    · refine .inr (.inr ⟨record, value, rfl, rfl, stands, same, ?_⟩)
      rw [← Option.not_isSome_iff_eq_none, container.isSome_unpack, DataValue.type_of_typed stands]
      simpa using same

/-- **Reads** agree. -/
theorem agrees_read {α : Type} [Inhabited α] (represents : Represents container content)
    (depicts : Depicts held entry) {wrap : α → Reply} {absent : α} {view : DataValue → α}
    {blank : Answer Bytes} {answer : γ → Answer Bytes}
    (missing : (wrap absent).Shows (answer container.empty))
    (seen : ∀ value : DataValue, value.type = container.type →
      (wrap (view value)).Shows (answer (content value)))
    (refused : (wrap default).Shows blank) :
    Agrees ((Transition.read container.type absent view held).reply wrap)
      (container.ask blank answer entry) := by
  rcases represents.cases depicts with ⟨rfl, rfl⟩ |
    ⟨record, value, rfl, rfl, stands, same, unpacked⟩ |
    ⟨record, value, rfl, rfl, stands, other, unpacked⟩
  · exact ⟨rfl, missing, depicts_none⟩
  · simp only [Transition.read, Container.ask, unpacked]
    rw [if_neg (not_not.mpr same)]
    exact ⟨rfl, seen _ same, depicts⟩
  · simp only [Transition.read, Container.ask, unpacked]
    rw [if_pos other]
    exact ⟨rfl, refused, depicts⟩

/-- **Writes into a container** agree: they leave something in it. -/
theorem agrees_grow (represents : Represents container content) (depicts : Depicts held entry)
    {fill : DataValue → DataValue × Int} {act : γ → Answer Bytes × γ}
    (sameType : ∀ value, (fill value).1.type = value.type)
    (filled : ∀ value, content (fill value).1 = (act (content value)).2)
    (counted : ∀ value, (act (content value)).1 = .int (fill value).2)
    (nonempty : ∀ collection, (container.pack (act collection).2).isSome) :
    Agrees ((Transition.grow acceptsAll container.type fill held).reply .int)
      (container.on (.int 0) act entry) := by
  -- What is stored stands for what the typed store packs.
  have stored : ∀ record : Record, record.value.type = container.type →
      Depicts (some { record with value := (fill record.value).1 })
        (container.pack (act (content record.value)).2) := by
    intro record same
    obtain ⟨packed, found⟩ := Option.isSome_iff_exists.mp (nonempty (content record.value))
    rw [found]
    refine depicts_some ?_
    rw [represents.typed_eq ((sameType _).trans same), filled, found]
  rcases represents.cases depicts with ⟨rfl, rfl⟩ |
    ⟨record, value, rfl, rfl, stands, same, unpacked⟩ |
    ⟨record, value, rfl, rfl, stands, other, unpacked⟩
  · have fresh := stored { value := .blank container.type } rfl
    have count := counted (.blank container.type)
    rw [represents.content_blank] at fresh count
    simp only [Transition.grow, Transition.store, acceptsAll, if_true, Container.on]
    exact ⟨rfl, by rw [count]; rfl, fresh⟩
  · simp only [Transition.grow, Transition.store, acceptsAll, if_true, Container.on, unpacked]
    rw [if_pos same]
    exact ⟨rfl, by rw [counted]; rfl, stored record same⟩
  · simp only [Transition.grow, Container.on, unpacked]
    rw [if_neg other]
    exact ⟨rfl, rfl, depicts⟩

/-- What is left of a container after a removal is stored, or nothing is. -/
theorem depicts_remove {α : Type} [Inhabited α] (represents : Represents container content)
    (held : Option Record) (record : Record) (left : DataValue) (value : α) {empty : Bool}
    {collection : γ} (type : left.type = container.type) (holds : content left = collection)
    (vanishes : empty = (container.pack collection).isNone) :
    (Transition.remove acceptsAll held { record with value := left } empty value).status = .ok ∧
      (Transition.remove acceptsAll held { record with value := left } empty value).value = value ∧
      Depicts
        (Transition.remove acceptsAll held { record with value := left } empty value).held
        (container.pack collection) := by
  cases packed : container.pack collection with
  | none =>
    rw [packed] at vanishes
    subst vanishes
    exact ⟨rfl, rfl, depicts_none⟩
  | some stored =>
    rw [packed] at vanishes
    subst vanishes
    refine ⟨rfl, rfl, depicts_some ?_⟩
    rw [represents.typed_eq type, holds, packed]

/-- **Removals from a container** agree: an emptied one is gone. -/
theorem agrees_shrink (represents : Represents container content) (depicts : Depicts held entry)
    {shrink : DataValue → DataValue × Bool × Int} {act : γ → Answer Bytes × γ}
    (sameType : ∀ value, (shrink value).1.type = value.type)
    (holds : ∀ value, content (shrink value).1 = (act (content value)).2)
    (vanishes : ∀ value, (shrink value).2.1 = (container.pack (act (content value)).2).isNone)
    (counted : ∀ value, (act (content value)).1 = .int (shrink value).2.2)
    (nothing : act container.empty = (.int 0, container.empty)) :
    Agrees ((Transition.shrink acceptsAll container.type shrink held).reply .int)
      (container.on (.int 0) act entry) := by
  rcases represents.cases depicts with ⟨rfl, rfl⟩ |
    ⟨record, value, rfl, rfl, stands, same, unpacked⟩ |
    ⟨record, value, rfl, rfl, stands, other, unpacked⟩
  · simp only [Transition.shrink, Container.on, nothing, container.pack_empty]
    exact ⟨rfl, rfl, depicts_none⟩
  · obtain ⟨ok, count, left⟩ := represents.depicts_remove (some record) record
      (shrink record.value).1 (shrink record.value).2.2 ((sameType _).trans same) (holds _)
      (vanishes _)
    simp only [Transition.shrink, Container.on, unpacked]
    rw [if_neg (not_not.mpr same)]
    refine ⟨ok, ?_, left⟩
    rw [counted]
    exact count
  · simp only [Transition.shrink, Container.on, unpacked]
    rw [if_pos other]
    exact ⟨rfl, rfl, depicts⟩

end Represents

/-- **Pops** agree: a stored list always has an element to give. -/
theorem agrees_pop {held : Option Record} {entry : Option (TypedValue Bytes)}
    (depicts : Depicts held entry) {pop : List Bytes → Option (Bytes × List Bytes)}
    {act : List Bytes → Answer Bytes × List Bytes}
    (popped : ∀ items, items ≠ [] →
      ∃ element left,
        pop items = some (element, left) ∧ act items = (.element (some element), left))
    (nothing : act [] = (.element none, [])) :
    Agrees ((Transition.pop acceptsAll pop held).reply .element)
      (Container.lists.on (.element none) act entry) := by
  rcases represents_lists.cases depicts with ⟨rfl, rfl⟩ |
    ⟨record, value, rfl, rfl, stands, same, unpacked⟩ |
    ⟨record, value, rfl, rfl, stands, other, unpacked⟩
  · have empty : Container.lists.on (.element none) act none = ⟨.ok, .element none, none⟩ := by
      show TypedStep.mk _ (act []).1 (Container.lists.pack (act []).2) = _
      rw [nothing]
      rfl
    rw [empty]
    exact ⟨rfl, rfl, depicts_none⟩
  · have filled : record.value.listValue ≠ [] := by
      rw [represents_lists.typed_eq same] at stands
      exact Container.isSome_pack_lists.mp (Option.isSome_of_eq_some stands)
    obtain ⟨element, left, taken, acts⟩ := popped _ filled
    have vanishes : left.isEmpty = (Container.lists.pack left).isNone := by
      cases left <;> rfl
    obtain ⟨ok, given, rest⟩ := represents_lists.depicts_remove (some record) record
      { record.value with listValue := left } (some element) same rfl vanishes
    have isList : ¬ record.value.type ≠ .list := not_not.mpr same
    simp only [Transition.pop, Container.on, unpacked, taken, acts]
    rw [if_neg isList]
    exact ⟨ok, given, rest⟩
  · have notList : record.value.type ≠ .list := other
    simp only [Transition.pop, Container.on, unpacked]
    rw [if_pos notList]
    exact ⟨rfl, rfl, depicts⟩

/-- **Reads of a string** agree. -/
theorem agrees_readString {held : Option Record} {entry : Option (TypedValue Bytes)}
    (depicts : Depicts held entry) :
    Agrees ((Transition.read .string none (fun value => some value.stringValue) held).reply
      .element) (readString entry) := by
  rcases depicts.cases with ⟨rfl, rfl⟩ | ⟨record, value, rfl, rfl, stands⟩
  · exact ⟨rfl, rfl, depicts_none⟩
  · have type := DataValue.type_of_typed stands
    by_cases same : record.value.type = .string
    · rw [DataValue.typed, same] at stands
      cases stands
      simp only [Transition.read]
      rw [if_neg (not_not.mpr same)]
      exact ⟨rfl, rfl, depicts⟩
    · have other : readString (some value) = ⟨.wrongType, .element none, some value⟩ := by
        cases value with
        | string text => exact absurd type.symm same
        | _ => rfl
      rw [other]
      simp only [Transition.read]
      rw [if_pos same]
      exact ⟨rfl, rfl, depicts⟩

/-! ### The collections of the engine -/

theorem foldl_cons_eq (values items : List Bytes) :
    values.foldl (fun list item => item :: list) items = values.reverse ++ items := by
  induction values generalizing items with
  | nil => rfl
  | cons value values ih => simp [ih]

theorem foldl_append_eq (values items : List Bytes) :
    values.foldl (fun list item => list ++ [item]) items = items ++ values := by
  induction values generalizing items with
  | nil => simp
  | cons value values ih => simp [ih]

theorem elementAt_nil (index : Int) : elementAt [] index = none := by
  unfold elementAt
  refine if_pos ?_
  simp only [List.length_nil]
  omega

/-- The two readings of an index agree. -/
theorem elementAt_eq_itemAt (items : List Bytes) (index : Int) :
    elementAt items index = itemAt items index := by
  unfold elementAt itemAt
  dsimp only
  by_cases negative : index < 0
  · have notFront : ¬ (0 ≤ index ∧ index < items.length) := by omega
    rw [if_pos negative, if_neg notFront]
    by_cases inside : -(items.length : Int) ≤ index
    · rw [if_neg (by omega), if_pos ⟨inside, negative⟩]
    · have notBack : ¬ (-(items.length : Int) ≤ index ∧ index < 0) := fun back => inside back.1
      rw [if_pos (by omega), if_neg notBack]
  · have notBack : ¬ (-(items.length : Int) ≤ index ∧ index < 0) := fun back => negative back.2
    rw [if_neg negative, if_neg notBack]
    by_cases inside : index < items.length
    · rw [if_neg (by omega), if_pos (by omega)]
    · have notFront : ¬ (0 ≤ index ∧ index < items.length) := fun front => inside front.2
      rw [if_pos (by omega), if_neg notFront]

theorem insertMembers_eq (members : List Bytes) (held : StringSet) :
    toFinset (insertMembers members held).1 = toFinset held ∪ members.toFinset ∧
      (insertMembers members held).2 = (members.toFinset \ toFinset held).card := by
  have counted := foldl_insert_count toFinset (fun held member => held.contains member)
    (fun held member => held.insert member) (by simp) (by simp) members held 0
  rwa [zero_add] at counted

theorem eraseMembers_eq (members : List Bytes) (held : StringSet) :
    toFinset (eraseMembers members held).1 = toFinset held \ members.toFinset ∧
      (eraseMembers members held).2 = (toFinset held ∩ members.toFinset).card := by
  have counted := foldl_erase_count toFinset (fun held member => held.contains member)
    (fun held member => held.erase member) (by simp) (by simp) members held 0
  rwa [zero_add] at counted

theorem isNone_pack_sets (set : StringSet) :
    (Container.sets.pack (toFinset set)).isNone = set.isEmpty := by
  rw [Bool.eq_iff_iff, Option.isNone_iff_eq_none, ← Option.not_isSome_iff_eq_none,
    Container.isSome_pack_sets, not_not, toFinset_eq_empty_iff]

theorem isNone_pack_hashes (map : Dict Bytes) :
    (Container.hashes.pack (toFinmap map)).isNone = map.isEmpty := by
  rw [Bool.eq_iff_iff, Option.isNone_iff_eq_none, ← Option.not_isSome_iff_eq_none,
    Container.isSome_pack_hashes, not_not, toFinmap_eq_empty_iff]

theorem eraseFields_count (fields : List Bytes) (held : Dict Bytes) :
    (eraseFields fields held).2 = ((toFinmap held).keys ∩ fields.toFinset).card := by
  have counted := foldl_erase_count (fun held => (toFinmap held).keys)
    (fun (held : Dict Bytes) field => held.contains field)
    (fun held field => held.erase field) (by simp [Finmap.mem_keys])
    (by simp [Finmap.keys_erase]) fields held 0
  rw [zero_add] at counted
  exact counted.2

theorem toFinmap_eraseFields (fields : List Bytes) (held : Dict Bytes) :
    toFinmap (eraseFields fields held).1 =
      fields.foldl (fun fields field => fields.erase field) (toFinmap held) := by
  have step : ∀ (state : Dict Bytes × Int) (field : Bytes),
      (toFinmap state.1).erase field = toFinmap (state.1.erase field) :=
    fun _ field => (toFinmap_erase field).symm
  exact (List.foldl_hom (fun state : Dict Bytes × Int => toFinmap state.1) step).symm

/-! ### Commands -/

section Commands

variable {now : Int64} {held : Option Record} {entry : Option (TypedValue Bytes)}

/-- Pushes agree, at either end. -/
theorem agrees_push (depicts : Depicts held entry) {fill : DataValue → DataValue × Int}
    {longer : List Bytes → List Bytes}
    (fills : ∀ value : DataValue, fill value =
      ({ value with listValue := longer value.listValue },
        ((longer value.listValue).length : Int)))
    (nonempty : ∀ items, longer items ≠ []) :
    Agrees ((Transition.grow acceptsAll .list fill held).reply .int)
      (Container.lists.on (.int 0) (fun items => lengthened (longer items)) entry) := by
  refine represents_lists.agrees_grow depicts (fun value => ?_) (fun value => ?_) (fun value => ?_)
    fun items => ?_
  · rw [fills]
  · rw [fills]
    rfl
  · rw [fills]
    rfl
  · simp [lengthened, nonempty]

theorem agrees_sadd (depicts : Depicts held entry) {members : List Bytes}
    (filled : members ≠ []) :
    Agrees ((Transition.grow acceptsAll .set (addMembers members) held).reply .int)
      (Container.sets.on (.int 0) (withMembers members) entry) := by
  refine represents_sets.agrees_grow depicts (fun _ => rfl) (fun value => ?_) (fun value => ?_)
    fun collection => ?_
  · exact (insertMembers_eq members value.setValue).1
  · rw [withMembers, addMembers, (insertMembers_eq members value.setValue).2]
  · simp [withMembers, filled]

theorem agrees_srem (depicts : Depicts held entry) (members : List Bytes) :
    Agrees ((Transition.shrink acceptsAll .set (dropMembers members) held).reply .int)
      (Container.sets.on (.int 0) (withoutMembers members) entry) := by
  refine represents_sets.agrees_shrink depicts (fun _ => rfl) (fun value => ?_) (fun value => ?_)
    (fun value => ?_) (withoutMembers_empty members)
  · exact (eraseMembers_eq members value.setValue).1
  · rw [withoutMembers, ← (eraseMembers_eq members value.setValue).1, isNone_pack_sets]
    rfl
  · rw [withoutMembers, dropMembers, (eraseMembers_eq members value.setValue).2]

theorem agrees_hset (depicts : Depicts held entry) (field value : Bytes) :
    Agrees ((Transition.grow acceptsAll .hash (setField field value) held).reply .int)
      (Container.hashes.on (.int 0) (withField field value) entry) := by
  refine represents_hashes.agrees_grow depicts (fun _ => rfl) (fun held => ?_) (fun held => ?_)
    fun collection => ?_
  · exact toFinmap_insert field value
  · simp [withField, setField]
  · refine Container.isSome_pack_hashes.mpr fun empty => ?_
    have empty : collection.insert field value = ∅ := empty
    have present : field ∈ collection.insert field value := Finmap.mem_insert.mpr (.inl rfl)
    rw [empty] at present
    exact Finmap.notMem_empty present

theorem agrees_hdel (depicts : Depicts held entry) (fields : List Bytes) :
    Agrees ((Transition.shrink acceptsAll .hash (dropFields fields) held).reply .int)
      (Container.hashes.on (.int 0) (withoutFields fields) entry) := by
  refine represents_hashes.agrees_shrink depicts (fun _ => rfl) (fun value => ?_)
    (fun value => ?_) (fun value => ?_) (withoutFields_empty fields)
  · exact toFinmap_eraseFields fields value.hashValue
  · rw [withoutFields, ← toFinmap_eraseFields, isNone_pack_hashes]
    rfl
  · rw [withoutFields, dropFields, eraseFields_count]

theorem shows_toList (map : Dict Bytes) :
    (Reply.pairs map.toList).Shows (.fields (toFinmap map)) := by
  refine ⟨?_, fun field item => ?_⟩
  · rw [Std.ExtTreeMap.map_fst_toList_eq_keys]
    exact Std.ExtTreeMap.ordered_keys
  · rw [Std.ExtTreeMap.mem_toList_iff_getElem?_eq_some, lookup_toFinmap]

/-- **One command of the engine is one step of the typed store**, if no expired record is in the
way. -/
theorem Command.agrees {command : Command} {act : Option (TypedValue Bytes) → TypedStep Bytes}
    (typed : command.typed = some act) (valid : command.invalid = false)
    (depicts : Depicts held entry) (alive : live now held = held) :
    Agrees (command.transition now acceptsAll held) (act entry) := by
  rw [Command.transition, if_neg (by simp [valid])]
  have seen : Depicts (live now held) entry := by rwa [alive]
  cases command with
  | expire k ttlSeconds => cases typed
  | persist k => cases typed
  | ttl k => cases typed
  | pttl k => cases typed
  | dbsize => cases typed
  | keys => cases typed
  | set k value => cases typed; exact ⟨rfl, rfl, depicts_some rfl⟩
  | del k =>
    cases typed
    rw [Command.act, depicts.isSome_eq]
    exact ⟨rfl, rfl, depicts_none⟩
  | keyExists k =>
    cases typed
    rw [Command.act, seen.isSome_eq]
    exact ⟨rfl, rfl, seen⟩
  | get k => cases typed; exact agrees_readString seen
  | lpush k values =>
    cases typed
    have filled : values ≠ [] := List.isEmpty_eq_false_iff.mp valid
    exact agrees_push seen (fun _ => by rw [pushFront, foldl_cons_eq]) (by simp [filled])
  | rpush k values =>
    cases typed
    have filled : values ≠ [] := List.isEmpty_eq_false_iff.mp valid
    exact agrees_push seen (fun _ => by rw [pushBack, foldl_append_eq]) (by simp [filled])
  | lpop k =>
    cases typed
    refine agrees_pop seen (fun items filled => ?_) rfl
    obtain ⟨first, rest, rfl⟩ := List.exists_cons_of_ne_nil filled
    exact ⟨first, rest, rfl, rfl⟩
  | rpop k =>
    cases typed
    refine agrees_pop seen (fun items filled => ?_) rfl
    have last := List.getLast?_eq_some_getLast filled
    exact ⟨items.getLast filled, items.dropLast, by rw [popBack, last]; rfl, by rw [last]⟩
  | llen k =>
    cases typed
    exact represents_lists.agrees_read seen rfl (fun _ _ => rfl) rfl
  | lindex k index =>
    cases typed
    refine represents_lists.agrees_read seen ?_ (fun value _ => ?_) rfl
    · exact (elementAt_nil index).symm.trans (elementAt_eq_itemAt [] index)
    · exact elementAt_eq_itemAt value.listValue index
  | sadd k members => cases typed; exact agrees_sadd seen (List.isEmpty_eq_false_iff.mp valid)
  | srem k members => cases typed; exact agrees_srem seen members
  | scard k =>
    cases typed
    refine represents_sets.agrees_read seen rfl (fun value _ => ?_) rfl
    exact congrArg Nat.cast card_toFinset.symm
  | sismember k member =>
    cases typed
    refine represents_sets.agrees_read seen rfl (fun value _ => ?_) rfl
    simp [Reply.Shows]
  | smembers k =>
    cases typed
    exact represents_sets.agrees_read seen ⟨List.Pairwise.nil, rfl⟩
      (fun value _ => ⟨Std.ExtTreeSet.ordered_toList, rfl⟩) ⟨List.Pairwise.nil, rfl⟩
  | hset k field value => cases typed; exact agrees_hset seen field value
  | hget k field =>
    cases typed
    exact represents_hashes.agrees_read seen rfl (fun _ _ => (lookup_toFinmap field).symm) rfl
  | hdel k fields => cases typed; exact agrees_hdel seen fields
  | hlen k =>
    cases typed
    refine represents_hashes.agrees_read seen rfl (fun value _ => ?_) rfl
    exact congrArg Nat.cast card_keys_toFinmap.symm
  | hexists k field =>
    cases typed
    refine represents_hashes.agrees_read seen rfl (fun value _ => ?_) rfl
    simp [Reply.Shows]
  | hgetall k =>
    cases typed
    exact represents_hashes.agrees_read seen shows_no_fields
      (fun value _ => shows_toList value.hashValue) shows_no_fields

end Commands

/-! ### Deadlines -/

/-- The deadline of what a key holds; none is −1. -/
def deadlineOf (held : Option Record) : Int64 := (held.map Record.expireAtUs).getD (-1)

/-- What is left has the deadline of what was held. -/
def KeepsDeadline {α : Type} (held : Option Record) (step : Transition α) : Prop :=
  ∀ record, step.held = some record → record.expireAtUs = deadlineOf held

section Deadlines

variable {α : Type} [Inhabited α] {accepts : Record → Bool} {held : Option Record}

omit [Inhabited α] in
theorem keepsDeadline_of_held {step : Transition α} (same : step.held = held) :
    KeepsDeadline held step := by
  intro record left
  rw [← same, left]
  rfl

theorem keepsDeadline_store {record : Record} {value : α}
    (same : record.expireAtUs = deadlineOf held) {before : Option Record}
    (kept : ∀ record, before = some record → record.expireAtUs = deadlineOf held) :
    KeepsDeadline held (Transition.store accepts before record value) := by
  unfold Transition.store
  split
  · rintro _ ⟨⟩
    exact same
  · exact kept

theorem keepsDeadline_remove {record : Record} {empty : Bool} {value : α}
    (same : record.expireAtUs = deadlineOf held) :
    KeepsDeadline held (Transition.remove accepts held record empty value) := by
  cases empty with
  | true => rintro _ ⟨⟩
  | false =>
    refine keepsDeadline_store same fun record found => ?_
    rw [found]
    rfl

theorem keepsDeadline_read (wantType : DataType) (absent : α) (view : DataValue → α) :
    KeepsDeadline held (Transition.read wantType absent view held) :=
  keepsDeadline_of_held (held_read wantType absent view)

theorem keepsDeadline_grow (wantType : DataType) (fill : DataValue → DataValue × Int) :
    KeepsDeadline held (Transition.grow accepts wantType fill held) := by
  cases held with
  | none =>
    unfold Transition.grow
    dsimp only
    split
    · refine keepsDeadline_store rfl ?_
      rintro _ ⟨⟩
      rfl
    · rintro _ ⟨⟩
  | some record =>
    unfold Transition.grow
    dsimp only
    split
    · refine keepsDeadline_store rfl ?_
      rintro _ ⟨⟩
      rfl
    · exact keepsDeadline_of_held rfl

theorem keepsDeadline_shrink (wantType : DataType)
    (shrink : DataValue → DataValue × Bool × Int) :
    KeepsDeadline held (Transition.shrink accepts wantType shrink held) := by
  cases held with
  | none => exact keepsDeadline_of_held rfl
  | some record =>
    unfold Transition.shrink
    dsimp only
    split
    · exact keepsDeadline_of_held rfl
    · exact keepsDeadline_remove rfl

theorem keepsDeadline_pop (pop : List Bytes → Option (Bytes × List Bytes)) :
    KeepsDeadline held (Transition.pop accepts pop held) := by
  cases held with
  | none => exact keepsDeadline_of_held rfl
  | some record =>
    unfold Transition.pop
    dsimp only
    split
    · exact keepsDeadline_of_held rfl
    · cases pop record.value.listValue with
      | none => exact keepsDeadline_of_held rfl
      | some popped => exact keepsDeadline_remove rfl

/-- **Only `set` touches the deadline**, among the commands that are not about time. -/
theorem Command.keepsDeadline {command : Command} {now : Int64}
    (typed : command.typed.isSome) (notSet : ∀ key value, command ≠ .set key value) :
    KeepsDeadline (live now held) (command.act now accepts held) := by
  cases command with
  | set k value => exact absurd rfl (notSet k value)
  | expire k ttlSeconds => cases typed
  | persist k => cases typed
  | ttl k => cases typed
  | pttl k => cases typed
  | dbsize => cases typed
  | keys => cases typed
  | del k => rintro _ ⟨⟩
  | keyExists k => exact keepsDeadline_of_held rfl
  | lpush k values => exact keepsDeadline_grow _ _
  | rpush k values => exact keepsDeadline_grow _ _
  | sadd k members => exact keepsDeadline_grow _ _
  | hset k field value => exact keepsDeadline_grow _ _
  | lpop k => exact keepsDeadline_pop _
  | rpop k => exact keepsDeadline_pop _
  | srem k members => exact keepsDeadline_shrink _ _
  | hdel k fields => exact keepsDeadline_shrink _ _
  | get k => exact keepsDeadline_read (α := Option Bytes) _ _ _
  | llen k => exact keepsDeadline_read (α := Int) _ _ _
  | lindex k index => exact keepsDeadline_read (α := Option Bytes) _ _ _
  | scard k => exact keepsDeadline_read (α := Int) _ _ _
  | sismember k member => exact keepsDeadline_read (α := Int) _ _ _
  | smembers k => exact keepsDeadline_read (α := List Bytes) _ _ _
  | hget k field => exact keepsDeadline_read (α := Option Bytes) _ _ _
  | hlen k => exact keepsDeadline_read (α := Int) _ _ _
  | hexists k field => exact keepsDeadline_read (α := Int) _ _ _
  | hgetall k => exact keepsDeadline_read (α := List (Bytes × Bytes)) _ _ _

end Deadlines

/-! ### Runs -/

/-- **A run of commands on the engine**: the results, and the world they leave. -/
def Env.execAll (env : Env) : List Command → World → List (StorageResult Reply) × World
  | [], world => ([], world)
  | command :: commands, world =>
    let (result, next) := env.exec command.program world
    let (results, final) := env.execAll commands next
    (result :: results, final)

/-- A command on strings, keys and containers, with a non-empty list of elements where it takes
one. -/
def Command.Plain (command : Command) : Prop :=
  command.typed.isSome ∧ command.invalid = false

/-- Every record is in the typed store, and has no deadline. -/
structure Mirrors (world : World) (store : TypedStore) : Prop where
  unlimited : world.Unlimited
  depicts : ∀ key, Depicts (world.view key) (store key)
  forever : ∀ key record, world.view key = some record → record.expireAtUs = -1

theorem mirrors_empty : Mirrors {} fun _ => none where
  unlimited := rfl
  depicts := fun _ => depicts_none
  forever := fun _ _ found => (Option.some_ne_none _ found.symm).elim

/-- A command with a meaning in the typed store is about a key. -/
theorem Command.key_of_typed {command : Command} (typed : command.typed.isSome) :
    ∃ key, command.key? = some key := by
  cases command with
  | dbsize => cases typed
  | keys => cases typed
  | _ => exact ⟨_, rfl⟩

section Runs

variable {world : World} {store : TypedStore}

theorem Mirrors.alive (mirrors : Mirrors world store) (now : Int64) (key : Bytes) :
    live now (world.view key) = world.view key := by
  cases found : world.view key with
  | none => rfl
  | some record =>
    refine live_of_not_expired ?_
    rw [isExpired, mirrors.forever key record found]
    rfl

/-- A plain command leaves no deadline where there was none. -/
theorem Command.forever_of_plain {command : Command} (plain : command.Plain) {now : Int64}
    {held : Option Record} (alive : live now held = held) (forever : deadlineOf held = -1)
    {record : Record} (left : (command.transition now acceptsAll held).held = some record) :
    record.expireAtUs = -1 := by
  rw [Command.transition, if_neg (by simp [plain.2])] at left
  by_cases isSet : ∃ key value, command = .set key value
  · obtain ⟨key, value, rfl⟩ := isSet
    cases left
    rfl
  · rw [← forever, ← alive]
    exact Command.keepsDeadline plain.1 (fun key value same => isSet ⟨key, value, same⟩) record left

/-- **One command keeps the engine and the typed store together**, and answers the same. -/
theorem Mirrors.step (mirrors : Mirrors world store) (env : Env) {command : Command}
    (plain : command.Plain)
    {key : Bytes} (about : command.key? = some key)
    {act : Option (TypedValue Bytes) → TypedStep Bytes} (typed : command.typed = some act) :
    let ran := env.exec command.program world
    ran.1.status = (act (store key)).status ∧ ran.1.value.Shows (act (store key)).answer ∧
      Mirrors ran.2 (Function.update store key (act (store key)).held) := by
  intro ran
  obtain ⟨status, value, view, limit⟩ := command.exec_eq env world about
  rw [mirrors.unlimited.accepts_eq] at status value view
  have alive := mirrors.alive (env.now world.readings) key
  have agrees := Command.agrees typed plain.2 (mirrors.depicts key) alive
  refine ⟨status.trans agrees.status, ?_, ?_, ?_, ?_⟩
  · rw [value]
    exact agrees.value
  · exact limit.trans mirrors.unlimited
  · intro other
    rw [view]
    by_cases here : other = key
    · subst here
      simpa using agrees.held
    · simpa [here] using mirrors.depicts other
  · intro other record found
    rw [view] at found
    by_cases here : other = key
    · subst here
      rw [Function.update_self] at found
      refine Command.forever_of_plain plain alive ?_ found
      cases held : world.view other with
      | none => rfl
      | some record => exact mirrors.forever other record held
    · rw [Function.update_of_ne here] at found
      exact mirrors.forever other record found

/-- A result of the engine is a step of the typed store. -/
def StorageResult.Matches (result : StorageResult Reply) (step : TypedStep Bytes) : Prop :=
  result.status = step.status ∧ result.value.Shows step.answer

/-- **A run keeps the engine and the typed store together.** -/
theorem Mirrors.run (env : Env) (commands : List Command)
    (plain : ∀ command ∈ commands, command.Plain)
    (mirrors : Mirrors world store) :
    List.Forall₂ StorageResult.Matches (env.execAll commands world).1
        (typedRun commands store).1 ∧
      Mirrors (env.execAll commands world).2 (typedRun commands store).2 := by
  induction commands generalizing world store with
  | nil => exact ⟨List.Forall₂.nil, mirrors⟩
  | cons command commands ih =>
    have here := plain command List.mem_cons_self
    obtain ⟨key, about⟩ := Command.key_of_typed here.1
    obtain ⟨act, typed⟩ := Option.isSome_iff_exists.mp here.1
    obtain ⟨status, value, next⟩ := mirrors.step env here about typed
    obtain ⟨later, final⟩ := ih (fun command found => plain command (List.mem_cons_of_mem _ found))
      next
    simp only [Env.execAll, typedRun, about, typed]
    exact ⟨List.Forall₂.cons ⟨status, value⟩ later, final⟩

end Runs

/-- **The engine refines the typed store**: in every run from the empty store of commands on
strings, keys and containers, at any times and without a storage limit, every status and value is
that of the typed store, and so is every key at the end. -/
theorem exec_refines_typedRun (env : Env) (commands : List Command)
    (plain : ∀ command ∈ commands, command.Plain) :
    let ran := env.execAll commands {}
    let spec := typedRun commands fun _ => none
    List.Forall₂ StorageResult.Matches ran.1 spec.1 ∧
      ∀ key, Depicts (ran.2.view key) (spec.2 key) := by
  obtain ⟨answers, final⟩ := Mirrors.run env commands plain mirrors_empty
  exact ⟨answers, final.depicts⟩

/-- `LPUSH k a b` and `RPOP k` from the empty store. -/
theorem exec_refines_typedRun_lists :
    let commands : List Command := [.lpush [107] [[97], [98]], .rpop [107]]
    (∀ command ∈ commands, command.Plain) ∧
      List.Forall₂ StorageResult.Matches ((Env.still 0).execAll commands {}).1
        (typedRun commands fun _ => none).1 := by
  intro commands
  have plain : ∀ command ∈ commands, command.Plain := by
    simp [commands, Command.Plain, Command.typed, Command.invalid]
  exact ⟨plain, (exec_refines_typedRun (Env.still 0) commands plain).1⟩

end SunKV.Storage
