/-
**Sizes of what the store returns.**

The numbers that the storage API returns are 64 bits wide in the source, and its strings and vectors
have limits of their own; the model has no such limits. A store and the arguments of an operation
that keep within them (`World.Fits`, `Command.Short`) give a result that does too (`result_fits`):
lengths and counts do not overflow, and neither do the times that are left.
-/

import SunKV.Client.Codec
import SunKV.Server.Dispatch
import SunKV.Storage.Refinement

namespace SunKV.Storage

open SunKV.Lib
open SunKV.Client (maxElements)

/-! ### Limits -/

/-- A reply of the store as its type in the source allows it, and short enough for a vector of the
client. -/
def Reply.Fits : Reply → Prop
  | .flag _ => True
  | .int value => -2 ^ 63 ≤ value ∧ value < 2 ^ 63
  | .element value => ∀ bytes ∈ value, bytes.length < 2 ^ 63
  | .elements values => values.length ≤ maxElements ∧ ∀ bytes ∈ values, bytes.length < 2 ^ 63
  | .pairs values => 2 * values.length ≤ maxElements ∧
      ∀ pair ∈ values, pair.1.length < 2 ^ 63 ∧ pair.2.length < 2 ^ 63

/-- A value of possible size. -/
structure DataValue.Fits (value : DataValue) : Prop where
  string : value.stringValue.length < 2 ^ 63
  list : value.listValue.length ≤ maxElements ∧ ∀ item ∈ value.listValue, item.length < 2 ^ 63
  set : value.setValue.size ≤ maxElements ∧
    ∀ item ∈ value.setValue.toList, item.length < 2 ^ 63
  hash : 2 * value.hashValue.size ≤ maxElements ∧
    ∀ pair ∈ value.hashValue.toList, pair.1.length < 2 ^ 63 ∧ pair.2.length < 2 ^ 63

/-- **A store of possible size.** -/
structure World.Fits (world : World) : Prop where
  size : world.backend.map.size ≤ maxElements
  keys : ∀ key ∈ world.backend.map.keys, key.length < 2 ^ 63
  values : ∀ key record, world.view key = some record → record.value.Fits

/-- **Arguments of possible size.** -/
def Command.Short : Command → Prop
  | .lpush _ items | .rpush _ items | .sadd _ items | .srem _ items | .hdel _ items =>
      items.length ≤ 2 ^ 62
  | _ => True

instance (value : DataValue) : Decidable value.Fits :=
  decidable_of_iff (value.stringValue.length < 2 ^ 63 ∧
      (value.listValue.length ≤ maxElements ∧ ∀ item ∈ value.listValue, item.length < 2 ^ 63) ∧
      (value.setValue.size ≤ maxElements ∧
        ∀ item ∈ value.setValue.toList, item.length < 2 ^ 63) ∧
      2 * value.hashValue.size ≤ maxElements ∧
        ∀ pair ∈ value.hashValue.toList, pair.1.length < 2 ^ 63 ∧ pair.2.length < 2 ^ 63)
    ⟨fun ⟨string, list, set, hash⟩ => ⟨string, list, set, hash⟩,
      fun fits => ⟨fits.string, fits.list, fits.set, fits.hash⟩⟩

/-- The size of a store, record by record. -/
theorem World.fits_iff {world : World} : world.Fits ↔ world.backend.map.size ≤ maxElements ∧
    ∀ entry ∈ world.backend.map.toList, entry.1.length < 2 ^ 63 ∧ entry.2.value.Fits := by
  constructor
  · rintro ⟨size, keys, values⟩
    refine ⟨size, fun entry member => ?_⟩
    have found := Std.ExtTreeMap.mem_toList_iff_getElem?_eq_some.mp member
    refine ⟨keys entry.1 (Std.ExtTreeMap.mem_keys.mpr ?_), values entry.1 entry.2 found⟩
    exact Std.ExtTreeMap.mem_iff_isSome_getElem?.mpr (by rw [found]; rfl)
  · rintro ⟨size, entries⟩
    refine ⟨size, fun key member => ?_, fun key record found => ?_⟩
    · have known := Std.ExtTreeMap.mem_iff_isSome_getElem?.mp (Std.ExtTreeMap.mem_keys.mp member)
      obtain ⟨record, found⟩ := Option.isSome_iff_exists.mp known
      exact (entries (key, record) (Std.ExtTreeMap.mem_toList_iff_getElem?_eq_some.mpr found)).1
    · exact (entries (key, record) (Std.ExtTreeMap.mem_toList_iff_getElem?_eq_some.mpr found)).2

instance (world : World) : Decidable world.Fits := decidable_of_iff' _ World.fits_iff

instance (command : Command) : Decidable command.Short := by
  unfold Command.Short
  split <;> infer_instance

/-! ### Replies that fit -/

theorem maxElements_le : maxElements ≤ 2 ^ 61 := by decide

theorem Reply.fits_int {value : Int} (low : 0 ≤ value) (high : value < 2 ^ 63) :
    (Reply.int value).Fits :=
  ⟨(by decide : (-2 ^ 63 : Int) ≤ 0).trans low, high⟩

theorem Reply.fits_zero : (Reply.int 0).Fits := Reply.fits_int (by decide) (by decide)

theorem Reply.fits_bit (found : Bool) : (Reply.int (if found then 1 else 0)).Fits := by
  cases found
  · exact Reply.fits_zero
  · exact Reply.fits_int (by decide) (by decide)

/-- A length or a count of something that fits. -/
theorem Reply.fits_size {size : Nat} (few : size ≤ maxElements) : (Reply.int size).Fits :=
  Reply.fits_int (Int.natCast_nonneg size)
    (few.trans_lt (maxElements_le.trans_lt (by decide)))

theorem Reply.fits_none : (Reply.element none).Fits := nofun

theorem Reply.fits_nil : (Reply.elements []).Fits := ⟨by decide, List.forall_mem_nil _⟩

theorem Reply.fits_noPairs : (Reply.pairs []).Fits := ⟨by decide, List.forall_mem_nil _⟩

section Families

variable {α : Type} [Inhabited α] {accepts : Record → Bool} {wantType : DataType}
  {held : Option Record} {q : Reply → Prop} {wrap : α → Reply}

theorem Transition.store_value {record : Record} {value : α} (fine : q (wrap value))
    (blank : q (wrap default)) :
    q ((Transition.store accepts held record value).reply wrap).value := by
  unfold Transition.store
  split
  · exact fine
  · exact blank

theorem Transition.remove_value {record : Record} {empty : Bool} {value : α}
    (fine : q (wrap value)) (blank : q (wrap default)) :
    q ((Transition.remove accepts held record empty value).reply wrap).value := by
  unfold Transition.remove
  split
  · exact fine
  · exact Transition.store_value fine blank

theorem Transition.read_value {absent : α} {view : DataValue → α} (missing : q (wrap absent))
    (blank : q (wrap default))
    (fine : ∀ record, held = some record → q (wrap (view record.value))) :
    q ((Transition.read wantType absent view held).reply wrap).value := by
  cases held with
  | none => exact missing
  | some record =>
    rw [Transition.read]
    split
    · exact blank
    · exact fine record rfl

theorem Transition.grow_value {fill : DataValue → DataValue × Int} (blank : q (.int 0))
    (fresh : q (.int (fill (DataValue.blank wantType)).2))
    (fine : ∀ record, held = some record → q (.int (fill record.value).2)) :
    q ((Transition.grow accepts wantType fill held).reply .int).value := by
  cases held with
  | none =>
    rw [Transition.grow]
    split
    · exact Transition.store_value fresh blank
    · exact blank
  | some record =>
    rw [Transition.grow]
    split
    · exact Transition.store_value (fine record rfl) blank
    · exact blank

theorem Transition.shrink_value {shrink : DataValue → DataValue × Bool × Int}
    (blank : q (.int 0))
    (fine : ∀ record, held = some record → q (.int (shrink record.value).2.2)) :
    q ((Transition.shrink accepts wantType shrink held).reply .int).value := by
  cases held with
  | none => exact blank
  | some record =>
    rw [Transition.shrink]
    split
    · exact blank
    · exact Transition.remove_value (fine record rfl) blank

theorem Transition.pop_value {pop : List Bytes → Option (Bytes × List Bytes)}
    (blank : q (.element none))
    (fine : ∀ record, held = some record → ∀ elem left,
      pop record.value.listValue = some (elem, left) → q (.element (some elem))) :
    q ((Transition.pop accepts pop held).reply .element).value := by
  cases held with
  | none => exact blank
  | some record =>
    rw [Transition.pop]
    split
    · exact blank
    · split
      case h_1 => exact blank
      case h_2 elem left popped => exact Transition.remove_value (fine record rfl _ _ popped) blank

end Families

/-! ### Every operation -/

section Commands

variable {now : Int64} {accepts : Record → Bool} {held : Option Record}

/-- Pushing on a list of possible length. -/
theorem Reply.fits_pushed {before pushed : Nat} (few : before ≤ maxElements)
    (short : pushed ≤ 2 ^ 62) : (Reply.int (before + pushed : Nat)).Fits := by
  have bound := few.trans maxElements_le
  refine Reply.fits_int (Int.natCast_nonneg _) ?_
  push_cast
  omega

/-- Counting some of the arguments. -/
theorem Reply.fits_card {items : List Bytes} {part : Finset Bytes} (among : part ⊆ items.toFinset)
    (short : items.length ≤ 2 ^ 62) : (Reply.int part.card).Fits := by
  have few : part.card ≤ items.length := (Finset.card_le_card among).trans items.toFinset_card_le
  exact Reply.fits_int (Int.natCast_nonneg _) (by omega)

theorem DataValue.blank_fits (type : DataType) : (DataValue.blank type).Fits := by
  refine ⟨?_, ⟨?_, nofun⟩, ⟨?_, ?_⟩, ⟨?_, ?_⟩⟩
  all_goals simp [DataValue.blank, maxElements]

section Values

variable {value : DataValue}

theorem DataValue.Fits.pushFront (fits : value.Fits) {values : List Bytes}
    (short : values.length ≤ 2 ^ 62) : (Reply.int (Storage.pushFront values value).2).Fits := by
  rw [Storage.pushFront, foldl_cons_eq, List.length_append, List.length_reverse, Nat.add_comm]
  exact Reply.fits_pushed fits.list.1 short

theorem DataValue.Fits.pushBack (fits : value.Fits) {values : List Bytes}
    (short : values.length ≤ 2 ^ 62) : (Reply.int (Storage.pushBack values value).2).Fits := by
  rw [Storage.pushBack, foldl_append_eq, List.length_append]
  exact Reply.fits_pushed fits.list.1 short

theorem DataValue.Fits.elementAt (fits : value.Fits) (index : Int) :
    (Reply.element (Storage.elementAt value.listValue index)).Fits := by
  intro bytes found
  rw [Option.mem_def, Storage.elementAt, Option.ite_none_left_eq_some] at found
  exact fits.list.2 bytes (List.mem_of_getElem? found.2)

theorem DataValue.Fits.getField (fits : value.Fits) (field : Bytes) :
    (Reply.element value.hashValue[field]?).Fits := by
  intro bytes found
  exact (fits.hash.2 (field, bytes) (Std.ExtTreeMap.mem_toList_iff_getElem?_eq_some.mpr found)).2

theorem DataValue.Fits.members (fits : value.Fits) :
    (Reply.elements value.setValue.toList).Fits := by
  refine ⟨?_, fits.set.2⟩
  rw [Std.ExtTreeSet.length_toList]
  exact fits.set.1

theorem DataValue.Fits.fields (fits : value.Fits) :
    (Reply.pairs value.hashValue.toList).Fits := by
  refine ⟨?_, fits.hash.2⟩
  rw [Std.ExtTreeMap.length_toList]
  exact fits.hash.1

theorem fits_addMembers {members : List Bytes} (short : members.length ≤ 2 ^ 62)
    (value : DataValue) : (Reply.int (addMembers members value).2).Fits := by
  unfold addMembers
  dsimp only
  rw [(insertMembers_eq members value.setValue).2]
  exact Reply.fits_card Finset.sdiff_subset short

theorem fits_dropMembers {members : List Bytes} (short : members.length ≤ 2 ^ 62)
    (value : DataValue) : (Reply.int (dropMembers members value).2.2).Fits := by
  unfold dropMembers
  dsimp only
  rw [(eraseMembers_eq members value.setValue).2]
  exact Reply.fits_card Finset.inter_subset_right short

theorem fits_setField (field item : Bytes) (value : DataValue) :
    (Reply.int (setField field item value).2).Fits := by
  unfold setField
  dsimp only
  split
  · exact Reply.fits_zero
  · exact Reply.fits_bit true

theorem fits_dropFields {fields : List Bytes} (short : fields.length ≤ 2 ^ 62)
    (value : DataValue) : (Reply.int (dropFields fields value).2.2).Fits := by
  unfold dropFields
  dsimp only
  rw [eraseFields_count fields value.hashValue]
  exact Reply.fits_card Finset.inter_subset_right short

theorem mem_of_popFront {items left : List Bytes} {elem : Bytes}
    (popped : popFront items = some (elem, left)) : elem ∈ items := by
  cases items with
  | nil => cases popped
  | cons first rest =>
    obtain ⟨rfl, -⟩ := Prod.mk.inj (Option.some.inj popped)
    exact List.mem_cons_self

theorem mem_of_popBack {items left : List Bytes} {elem : Bytes}
    (popped : popBack items = some (elem, left)) : elem ∈ items := by
  obtain ⟨last, isLast, same⟩ := Option.map_eq_some_iff.mp popped
  obtain ⟨rfl, -⟩ := Prod.mk.inj same
  exact List.mem_of_getLast? isLast

end Values

/-- A list gives one of its elements. -/
theorem Transition.pop_fits {pop : List Bytes → Option (Bytes × List Bytes)}
    (fits : ∀ record, held = some record → record.value.Fits)
    (among : ∀ {items left elem}, pop items = some (elem, left) → elem ∈ items) :
    ((Transition.pop accepts pop held).reply .element).value.Fits := by
  refine Transition.pop_value Reply.fits_none ?_
  rintro record found elem left popped bytes ⟨⟩
  exact (fits record found).list.2 elem (among popped)

/-- The time left, in any unit. -/
theorem Transition.remaining_fits (unit : Int64) :
    ((Transition.remaining unit now held).reply .int).value.Fits := by
  have absent : (Reply.int (-2)).Fits := ⟨by decide, by decide⟩
  cases held with
  | none => exact absent
  | some record =>
    rw [Transition.remaining]
    split
    · exact (⟨by decide, by decide⟩ : (Reply.int (-1)).Fits)
    · split
      · exact absent
      · exact ⟨Int64.le_toInt _, Int64.toInt_lt _⟩

theorem Transition.expire_fits (ttlSeconds : Int64) :
    ((Transition.expire accepts now ttlSeconds held).reply .int).value.Fits := by
  cases held with
  | none => exact Reply.fits_zero
  | some record =>
    rw [Transition.expire]
    split
    · exact Reply.fits_bit true
    · exact Transition.store_value (Reply.fits_bit true) Reply.fits_zero

theorem Transition.persist_fits :
    ((Transition.persist accepts held).reply .int).value.Fits := by
  cases held with
  | none => exact Reply.fits_zero
  | some record =>
    refine Transition.store_value ?_ Reply.fits_zero
    split
    · exact Reply.fits_bit true
    · exact Reply.fits_zero

/-- What a valid command returns, by what its key holds. -/
theorem Command.act_fits {command : Command} (short : command.Short)
    (fits : ∀ record, held = some record → record.value.Fits) :
    (command.act now accepts held).value.Fits := by
  have alive : ∀ record, live now held = some record → record.value.Fits :=
    fun record found => fits record (live_eq_some found).1
  cases command with
  | set k value => exact trivial
  | del k => exact Reply.fits_bit _
  | get k =>
    refine Transition.read_value Reply.fits_none Reply.fits_none ?_
    rintro record found bytes ⟨⟩
    exact (alive record found).string
  | keyExists k => exact Reply.fits_bit _
  | expire k ttlSeconds => exact Transition.expire_fits ttlSeconds
  | persist k => exact Transition.persist_fits
  | ttl k => exact Transition.remaining_fits _
  | pttl k => exact Transition.remaining_fits _
  | lpush k values =>
    exact Transition.grow_value Reply.fits_zero ((DataValue.blank_fits _).pushFront short)
      fun record found => (alive record found).pushFront short
  | rpush k values =>
    exact Transition.grow_value Reply.fits_zero ((DataValue.blank_fits _).pushBack short)
      fun record found => (alive record found).pushBack short
  | lpop k => exact Transition.pop_fits alive mem_of_popFront
  | rpop k => exact Transition.pop_fits alive mem_of_popBack
  | llen k =>
    exact Transition.read_value Reply.fits_zero Reply.fits_zero fun record found =>
      Reply.fits_size (alive record found).list.1
  | lindex k index =>
    exact Transition.read_value Reply.fits_none Reply.fits_none fun record found =>
      (alive record found).elementAt index
  | sadd k members =>
    exact Transition.grow_value Reply.fits_zero (fits_addMembers short _) fun _ _ =>
      fits_addMembers short _
  | srem k members =>
    exact Transition.shrink_value Reply.fits_zero fun _ _ => fits_dropMembers short _
  | scard k =>
    exact Transition.read_value Reply.fits_zero Reply.fits_zero fun record found =>
      Reply.fits_size (alive record found).set.1
  | sismember k member =>
    exact Transition.read_value Reply.fits_zero Reply.fits_zero fun _ _ => Reply.fits_bit _
  | smembers k =>
    exact Transition.read_value Reply.fits_nil Reply.fits_nil fun record found =>
      (alive record found).members
  | hset k field item =>
    exact Transition.grow_value Reply.fits_zero (fits_setField field item _) fun _ _ =>
      fits_setField field item _
  | hget k field =>
    exact Transition.read_value Reply.fits_none Reply.fits_none fun record found =>
      (alive record found).getField field
  | hdel k fields =>
    exact Transition.shrink_value Reply.fits_zero fun _ _ => fits_dropFields short _
  | hlen k =>
    refine Transition.read_value Reply.fits_zero Reply.fits_zero fun record found =>
      Reply.fits_size ?_
    have few := (alive record found).hash.1
    omega
  | hexists k field =>
    exact Transition.read_value Reply.fits_zero Reply.fits_zero fun _ _ => Reply.fits_bit _
  | hgetall k =>
    exact Transition.read_value Reply.fits_noPairs Reply.fits_noPairs fun record found =>
      (alive record found).fields
  | dbsize => exact Reply.fits_zero
  | keys => exact Reply.fits_nil

/-- A command that fails returns something that fits. -/
theorem Command.blankReply_fits (command : Command) : command.blankReply.Fits := by
  cases command with
  | set k value => exact trivial
  | get k => exact Reply.fits_none
  | lpop k => exact Reply.fits_none
  | rpop k => exact Reply.fits_none
  | lindex k index => exact Reply.fits_none
  | hget k field => exact Reply.fits_none
  | keys => exact Reply.fits_nil
  | smembers k => exact Reply.fits_nil
  | hgetall k => exact Reply.fits_noPairs
  | _ => exact Reply.fits_zero

theorem Command.wrap_value (command : Command) (env : Env) (world : World) :
    command.wrap (env.exec command.operation world).1.value =
      (env.exec command.program world).1.value := by
  rw [command.program_eq, Env.exec_bind]
  rfl

/-- **An operation on a store of possible size returns what its type allows.** -/
theorem Command.result_fits {command : Command} (short : command.Short) (env : Env) {world : World}
    (fits : world.Fits) : (command.wrap (env.exec command.operation world).1.value).Fits := by
  rw [command.wrap_value]
  cases about : command.key? with
  | some key =>
    rw [(command.exec_eq env world about).2.1, Command.transition]
    split
    · exact command.blankReply_fits
    · exact command.act_fits short (fits.values key)
  | none =>
    cases command with
    | dbsize => exact Reply.fits_size fits.size
    | keys =>
      have order := env.order_perm world.readings world.backend.keys
      refine ⟨?_, fun key member => fits.keys key (order.mem_iff.mp member)⟩
      show ((env.order world.readings world.backend.keys).length : Int) ≤ maxElements
      rw [order.length_eq, InMemoryBackend.keys, Std.ExtTreeMap.length_keys]
      exact fits.size
    | _ => cases about

end Commands

end SunKV.Storage
