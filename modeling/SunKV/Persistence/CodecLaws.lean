/-
**Laws of the binary formats.**

* `spells_record`, `decodeOneStatus_encode`, `decodeSnapshot_encode` — round trips, for values
  whose unused fields are empty and whose encodings fit the 32-bit lengths.
* `decodeOneStatus_append` — an entry that was decoded stays decoded when more bytes follow.
* `decodeOneStatus_torn` — every strict prefix of an entry is an incomplete tail, wherever it ends.
* `decodeSnapshot_torn` — no strict prefix of a snapshot is read.
* `decodeOneStatus_cost` — a decoded entry took at least as many bytes as its encoding has.
-/

import SunKV.Persistence.Codec

namespace SunKV.Persistence

open SunKV.Lib SunKV.Lib.Reader SunKV.Storage

/-! ### Primitives -/

/-- Four bytes carry a number modulo `2 ^ 32`. -/
theorem spells_u32_mod (value : Nat) : Spells readU32 (appendU32 value) (value % 2 ^ 32) := by
  have read := (spells_take (leBytes 4 value)).map leValue
  rw [leBytes_length, leValue_leBytes] at read
  exact read

theorem spells_u32 {value : Nat} (fits : value < 2 ^ 32) :
    Spells readU32 (appendU32 value) value := by
  have read := spells_u32_mod value
  rwa [Nat.mod_eq_of_lt fits] at read

theorem spells_u64 (value : UInt64) : Spells readU64 (appendU64 value) value := by
  have small : value.toNat < 256 ^ 8 := by
    have := value.toNat_lt
    norm_num at this ⊢
    exact this
  have read := (spells_number small).map UInt64.ofNat
  rwa [UInt64.ofNat_toNat] at read

theorem spells_i64 (value : Int64) : Spells readI64 (appendI64 value) value := by
  have small : value.toUInt64.toNat < 256 ^ 8 := by
    have := value.toUInt64.toNat_lt
    norm_num at this ⊢
    exact this
  have read := (spells_number small).map fun number => (UInt64.ofNat number).toInt64
  rwa [UInt64.ofNat_toNat, Int64.toInt64_toUInt64] at read

theorem spells_string {value : Bytes} (fits : value.length < 2 ^ 32) :
    Spells readString (appendString value) value :=
  (spells_u32 fits).bind (spells_take value)

@[simp] theorem appendU32_length (value : Nat) : (appendU32 value).length = 4 := leBytes_length _ _

@[simp] theorem appendI64_length (value : Int64) : (appendI64 value).length = 8 :=
  leBytes_length _ _

@[simp] theorem appendU64_length (value : UInt64) : (appendU64 value).length = 8 :=
  leBytes_length _ _

@[simp] theorem appendString_length (value : Bytes) :
    (appendString value).length = 4 + value.length := by
  simp [appendString]

/-! ### Containers from what was read -/

theorem mem_setOf (items : List Bytes) (item : Bytes) : item ∈ setOf items ↔ item ∈ items := by
  have general : ∀ held : StringSet,
      item ∈ items.foldl (fun held item => held.insert item) held ↔ item ∈ items ∨ item ∈ held := by
    induction items with
    | nil => simp
    | cons first rest ih =>
      intro held
      rw [List.foldl_cons, ih, Std.ExtTreeSet.mem_insert, Std.LawfulEqCmp.compare_eq_iff_eq,
        List.mem_cons, eq_comm (a := first)]
      tauto
  rw [setOf, general]
  simp [Std.ExtTreeSet.not_mem_empty]

theorem setOf_toList (members : StringSet) : setOf members.toList = members :=
  Std.ExtTreeSet.ext_mem fun item => by rw [mem_setOf, Std.ExtTreeSet.mem_toList]

/-- The first value read for a field is the one kept. -/
theorem getElem?_hashOf (entries : List (Bytes × Bytes)) (field : Bytes) :
    (hashOf entries)[field]? = entries.lookup field := by
  have general : ∀ held : Dict Bytes,
      (entries.foldl (fun held entry => held.insertIfNew entry.1 entry.2) held)[field]? =
        (held[field]?).or (entries.lookup field) := by
    induction entries with
    | nil => simp
    | cons first rest ih =>
      intro held
      rw [List.foldl_cons, ih, Std.ExtTreeMap.getElem?_insertIfNew, List.lookup_cons]
      simp only [Std.LawfulEqCmp.compare_eq_iff_eq]
      by_cases same : first.1 = field
      · subst same
        by_cases present : first.1 ∈ held <;> simp [present]
      · have other : (field == first.1) = false := beq_eq_false_iff_ne.mpr (Ne.symm same)
        simp [same, other]
  rw [hashOf, general, Std.ExtTreeMap.getElem?_empty, Option.none_or]

theorem nodup_toList (fields : Dict Bytes) : (fields.toList.map Prod.fst).Nodup := by
  refine (List.pairwise_map.mpr ?_)
  refine Std.ExtTreeMap.distinct_keys_toList.imp fun differ same => differ ?_
  simp [same]

theorem hashOf_toList (fields : Dict Bytes) : hashOf fields.toList = fields := by
  refine Std.ExtTreeMap.ext_getElem? fun field => Option.ext fun value => ?_
  rw [getElem?_hashOf, ← Std.ExtTreeMap.mem_toList_iff_getElem?_eq_some, List.lookup_eq_some_iff]
  constructor
  · rintro ⟨before, after, split, _⟩
    simp [split]
  · intro member
    obtain ⟨before, after, split⟩ := List.append_of_mem member
    refine ⟨before, after, split, fun entry early => ?_⟩
    have distinct := nodup_toList fields
    rw [split, List.map_append, List.map_cons] at distinct
    have apart := (List.nodup_append.mp distinct).2.2 entry.1 (List.mem_map_of_mem early) field
      List.mem_cons_self
    simpa using Ne.symm apart

/-! ### Round trips -/

theorem spells_entry {entry : Bytes × Bytes} (field : entry.1.length < 2 ^ 32)
    (value : entry.2.length < 2 ^ 32) :
    Spells readEntry (appendString entry.1 ++ appendString entry.2) entry :=
  (spells_string field).bind ((spells_string value).map fun value => (entry.1, value))

/-- A counted list, each item spelled, reads back. -/
theorem spells_counted {α : Type} {item : Reader α} {spell : α → Bytes} {items : List α}
    (takes : ∀ item ∈ items, 0 < (spell item).length)
    (each : ∀ value ∈ items, Spells item (spell value) value)
    (fits : (appendU32 items.length ++ items.flatMap spell).length < 2 ^ 32) :
    Spells (readU32 >>= fun count => many count item)
      (appendU32 items.length ++ items.flatMap spell) items := by
  have short := length_le_length_flatMap spell items takes
  rw [List.length_append] at fits
  exact (spells_u32 (by omega)).bind (Spells.many items each)

theorem spells_strings {items : List Bytes}
    (fits : (appendU32 items.length ++ items.flatMap appendString).length < 2 ^ 32) :
    Spells (readU32 >>= fun count => many count readString)
      (appendU32 items.length ++ items.flatMap appendString) items := by
  refine spells_counted (fun item _ => by rw [appendString_length]; omega)
    (fun item member => ?_) fits
  have short := length_le_flatMap appendString member
  rw [appendString_length] at short
  rw [List.length_append] at fits
  exact spells_string (by omega)

theorem spells_entries {entries : List (Bytes × Bytes)}
    (fits : (appendU32 entries.length ++
      entries.flatMap fun entry => appendString entry.1 ++ appendString entry.2).length < 2 ^ 32) :
    Spells (readU32 >>= fun count => many count readEntry)
      (appendU32 entries.length ++
        entries.flatMap fun entry => appendString entry.1 ++ appendString entry.2) entries := by
  refine spells_counted (fun entry _ => ?_) (fun entry member => ?_) fits
  · rw [List.length_append, appendString_length]
    omega
  · have short := length_le_flatMap
      (fun entry : Bytes × Bytes => appendString entry.1 ++ appendString entry.2) member
    simp only [List.length_append, appendString_length] at short
    rw [List.length_append] at fits
    exact spells_entry (by omega) (by omega)

/-- A well-formed value is its blank with the field of its type filled in. -/
theorem DataValue.WellFormed.eq_blank {value : DataValue} (wf : value.WellFormed) :
    value = match value.type with
      | .string => { DataValue.blank .string with stringValue := value.stringValue }
      | .list => { DataValue.blank .list with listValue := value.listValue }
      | .set => { DataValue.blank .set with setValue := value.setValue }
      | .hash => { DataValue.blank .hash with hashValue := value.hashValue } := by
  obtain ⟨type, stringValue, listValue, setValue, hashValue, ttlSeconds⟩ := value
  obtain ⟨string, list, set, hash, ttl⟩ := wf
  cases type <;> simp_all [DataValue.blank]

theorem spells_payload {value : DataValue} (wf : value.WellFormed)
    (fits : (encodePayload value).length < 2 ^ 32) :
    Spells (decodePayload (dataTypeByte value.type)) (encodePayload value) value := by
  have filled := DataValue.WellFormed.eq_blank wf
  unfold encodePayload at fits ⊢
  cases tag : value.type with
  | string =>
    simp only [tag, appendString_length] at fits filled ⊢
    have short : value.stringValue.length < 2 ^ 32 := by omega
    have read := (spells_string short).map fun bytes =>
      { DataValue.blank .string with stringValue := bytes }
    rwa [← filled] at read
  | list =>
    simp only [tag] at fits filled ⊢
    have read := (spells_strings fits).map fun items =>
      { DataValue.blank .list with listValue := items }
    rw [← filled, bind_assoc] at read
    exact read
  | set =>
    simp only [tag] at fits filled ⊢
    have read := (spells_strings fits).map fun items =>
      { DataValue.blank .set with setValue := setOf items }
    rw [setOf_toList, ← filled, bind_assoc] at read
    exact read
  | hash =>
    simp only [tag] at fits filled ⊢
    have read := (spells_entries fits).map fun entries =>
      { DataValue.blank .hash with hashValue := hashOf entries }
    rw [hashOf_toList, ← filled, bind_assoc] at read
    exact read

theorem spells_dataValue {value : DataValue} (wf : value.WellFormed) (expireAtUs : Int64)
    (fits : (encodePayload value).length < 2 ^ 32) :
    Spells decodeDataValue (encodeDataValue value expireAtUs) (value, expireAtUs) := by
  have inner := (spells_payload wf fits).within []
  rw [List.append_nil] at inner
  have read : Spells decodeDataValue
      ([ascii 'D'] ++ ([ascii 'V'] ++ ([kVersion] ++ ([dataTypeByte value.type] ++ ([0] ++ ([0] ++
        (appendI64 expireAtUs ++ (appendU32 (encodePayload value).length ++
          (encodePayload value ++ []))))))))) (value, expireAtUs) :=
    (spells_expect _).bind <| (spells_expect _).bind <| (spells_expect _).bind <|
      (spells_byte _).bind <| (spells_byte _).bind <| (spells_byte _).bind <|
      (spells_i64 _).bind <| (spells_u32 fits).bind <| (spells_take _).bind <|
      inner.map _
  simpa [encodeDataValue] using read

/-- The encoding fits the 32-bit length in front of it. -/
def Record.Sized (record : Record) : Prop := (encodeRecord record).length < 2 ^ 32

theorem encodeDataValue_length (value : DataValue) (expireAtUs : Int64) :
    (encodeDataValue value expireAtUs).length = 18 + (encodePayload value).length := by
  simp [encodeDataValue]
  omega

theorem encodeRecord_length (record : Record) :
    (encodeRecord record).length = 33 + (encodePayload record.value).length := by
  simp [encodeRecord, encodeDataValue_length]
  omega

theorem spells_record {record : Record} (wf : record.value.WellFormed)
    (sized : Record.Sized record) :
    Spells readRecord (encodeRecord record) record := by
  have length : (encodeRecord record).length < 2 ^ 32 := sized
  rw [encodeRecord_length] at length
  have payload : (encodePayload record.value).length < 2 ^ 32 := by omega
  have value : (encodeDataValue record.value record.expireAtUs).length < 2 ^ 32 := by
    rw [encodeDataValue_length]
    omega
  have inner := (spells_dataValue wf record.expireAtUs payload).within []
  rw [List.append_nil] at inner
  have read : Spells readRecord
      ([ascii 'R'] ++ ([ascii 'C'] ++ ([kVersion] ++ (appendU64 record.version ++
        (appendU32 (encodeDataValue record.value record.expireAtUs).length ++
          (encodeDataValue record.value record.expireAtUs ++ [])))))) record :=
    (spells_expect _).bind <| (spells_expect _).bind <| (spells_expect _).bind <|
      (spells_u64 _).bind <| (spells_u32 value).bind <| (spells_take _).bind <|
      inner.map _
  simpa [encodeRecord] using read

theorem decodeRecord_encode {record : Record} (wf : record.value.WellFormed)
    (sized : Record.Sized record) : decodeRecord (encodeRecord record) = some record := by
  have read := spells_record wf sized []
  rw [List.append_nil] at read
  rw [decodeRecord, read]
  rfl

/-- **A mutation the log can carry**: a record only in a `PutRecord`, well formed, and with every
length within 32 bits. -/
structure Encodable (mutation : Mutation) : Prop where
  key : mutation.key.length < 2 ^ 32
  record : ∀ record, mutation.record = some record →
    mutation.type = .putRecord ∧ record.value.WellFormed ∧ Record.Sized record

theorem encodable_del {key : Bytes} (fits : key.length < 2 ^ 32) (ts : Int64) :
    Encodable (.del key ts) :=
  ⟨fits, fun _ held => by cases held⟩

theorem encodable_clear (ts : Int64) : Encodable (.clear ts) :=
  ⟨Nat.two_pow_pos 32, fun _ held => by cases held⟩

theorem encodable_put {key : Bytes} (fits : key.length < 2 ^ 32) {record : Record}
    (wf : record.value.WellFormed) (sized : Record.Sized record) (ts : Int64) :
    Encodable (.put key record ts) := by
  refine ⟨fits, fun other held => ?_⟩
  obtain rfl := Option.some.inj held
  exact ⟨rfl, wf, sized⟩

theorem Encodable.recordFits {mutation : Mutation} (enc : Encodable mutation) :
    (encodeMutationRecord mutation).length < 2 ^ 32 := by
  unfold encodeMutationRecord
  split
  case h_1 record _ held => exact (enc.record record held).2.2
  case h_2 => norm_num

theorem encodeMutation_length (mutation : Mutation) :
    (encodeMutation mutation).length =
      20 + mutation.key.length + (encodeMutationRecord mutation).length := by
  simp [encodeMutation]
  omega

/-- The fields of an entry, after its header. -/
def encodeFields (mutation : Mutation) : Bytes :=
  appendI64 mutation.tsUs ++ ([mutation.type.toByte] ++ (appendString mutation.key ++
    (appendU32 (encodeMutationRecord mutation).length ++ encodeMutationRecord mutation)))

theorem encodeMutation_eq (mutation : Mutation) :
    encodeMutation mutation = [ascii 'W', ascii '2', kVersion] ++ encodeFields mutation := by
  simp [encodeMutation, encodeFields]

theorem spells_fields {mutation : Mutation} (enc : Encodable mutation) :
    Spells readFields (encodeFields mutation)
      ({ mutation with record := none }, encodeMutationRecord mutation) := by
  have read : Spells readFields (encodeFields mutation)
      ({ type := .ofByte mutation.type.toByte, key := mutation.key, tsUs := mutation.tsUs },
        encodeMutationRecord mutation) :=
    (spells_i64 _).bind <| (spells_byte _).bind <| (spells_string enc.key).bind <|
      (spells_u32 enc.recordFits).bind <| (spells_take _).map _
  rw [MutationType.ofByte_toByte] at read
  exact read

/-- The four outcomes of `decodeOneStatus`, by how far it comes. -/
theorem decodeOneStatus_cases (data : Bytes) :
    (data.length < 3 ∧ decodeOneStatus data = .incompleteTail) ∨
    (∃ m0 m1 version body, data = m0 :: m1 :: version :: body ∧
      (m0 ≠ ascii 'W' ∨ m1 ≠ ascii '2' ∨ version ≠ kVersion) ∧ decodeOneStatus data = .corrupt) ∨
    (∃ body, data = [ascii 'W', ascii '2', kVersion] ++ body ∧ readFields body = none ∧
      decodeOneStatus data = .incompleteTail) ∨
    ∃ body mutation recordBytes rest, data = [ascii 'W', ascii '2', kVersion] ++ body ∧
      readFields body = some ((mutation, recordBytes), rest) ∧
      decodeOneStatus data = finishEntry mutation recordBytes rest := by
  match data with
  | [] => exact Or.inl ⟨by decide, rfl⟩
  | [_] => exact Or.inl ⟨by simp, rfl⟩
  | [_, _] => exact Or.inl ⟨by simp, rfl⟩
  | m0 :: m1 :: version :: body =>
    have header : readHeader (m0 :: m1 :: version :: body) = some ((m0, m1, version), body) := rfl
    by_cases magic : m0 ≠ ascii 'W' ∨ m1 ≠ ascii '2'
    · refine Or.inr (Or.inl ⟨m0, m1, version, body, rfl, ?_, ?_⟩)
      · rcases magic with first | second
        · exact Or.inl first
        · exact Or.inr (Or.inl second)
      · simp only [decodeOneStatus, header, magic, if_true]
    by_cases other : version ≠ kVersion
    · refine Or.inr (Or.inl ⟨m0, m1, version, body, rfl, Or.inr (Or.inr other), ?_⟩)
      simp only [decodeOneStatus, header, magic, if_false, other, not_false_eq_true, if_true, ne_eq]
    obtain ⟨rfl, rfl⟩ : m0 = ascii 'W' ∧ m1 = ascii '2' := by simpa using magic
    obtain rfl : version = kVersion := not_not.mp other
    refine Or.inr (Or.inr ?_)
    cases read : readFields body with
    | none =>
      refine Or.inl ⟨body, rfl, read, ?_⟩
      simp only [decodeOneStatus, header, magic, if_false, other, read]
    | some step =>
      obtain ⟨⟨mutation, recordBytes⟩, rest⟩ := step
      refine Or.inr ⟨body, mutation, recordBytes, rest, rfl, read, ?_⟩
      simp only [decodeOneStatus, header, magic, if_false, other, read]

theorem decodeOneStatus_of_fields {body rest recordBytes : Bytes} {mutation : Mutation}
    (read : readFields body = some ((mutation, recordBytes), rest)) :
    decodeOneStatus ([ascii 'W', ascii '2', kVersion] ++ body) =
      finishEntry mutation recordBytes rest := by
  have header : readHeader ([ascii 'W', ascii '2', kVersion] ++ body) =
      some ((ascii 'W', ascii '2', kVersion), body) := rfl
  simp only [decodeOneStatus, header, ne_eq, not_true_eq_false, or_self, if_false, read]

theorem local_string : Local readString := (local_number 4).bind fun _ => local_take _

theorem local_i64 : Local readI64 := (local_number 8).bind fun _ => Local.pure _

theorem local_fields : Local readFields :=
  local_i64.bind fun _ => local_byte.bind fun _ => local_string.bind fun _ =>
    (local_number 4).bind fun _ => (local_take _).bind fun _ => Local.pure _

theorem finishEntry_append {mutation decoded : Mutation} {recordBytes rest rest' : Bytes}
    (done : finishEntry mutation recordBytes rest = .ok decoded rest') (more : Bytes) :
    finishEntry mutation recordBytes (rest ++ more) = .ok decoded (rest' ++ more) := by
  unfold finishEntry at done ⊢
  split at done
  case isTrue empty =>
    obtain ⟨rfl, rfl⟩ := DecodeStatus.ok.inj done
    rw [if_pos empty]
  case isFalse occupied =>
    rw [if_neg occupied]
    split at done
    case h_1 => cases done
    case h_2 record found =>
      obtain ⟨rfl, rfl⟩ := DecodeStatus.ok.inj done
      rfl

/-- **An entry that was decoded stays decoded when more bytes follow.** -/
theorem decodeOneStatus_append {data rest : Bytes} {mutation : Mutation}
    (done : decodeOneStatus data = .ok mutation rest) (more : Bytes) :
    decodeOneStatus (data ++ more) = .ok mutation (rest ++ more) := by
  rcases decodeOneStatus_cases data with ⟨_, short⟩ | ⟨_, _, _, _, _, _, corrupt⟩ |
    ⟨_, _, _, short⟩ | ⟨body, decoded, recordBytes, left, rfl, read, finished⟩
  · cases short.symm.trans done
  · cases corrupt.symm.trans done
  · cases short.symm.trans done
  · rw [List.append_assoc, decodeOneStatus_of_fields (local_fields.append read more)]
    exact finishEntry_append (finished.symm.trans done) more

/-- Bytes that are no entry stay so when more bytes follow. -/
theorem decodeOneStatus_corrupt_append {data : Bytes} (bad : decodeOneStatus data = .corrupt)
    (more : Bytes) : decodeOneStatus (data ++ more) = .corrupt := by
  rcases decodeOneStatus_cases data with ⟨_, short⟩ | ⟨m0, m1, version, body, rfl, wrong, _⟩ |
    ⟨_, _, _, short⟩ | ⟨body, decoded, recordBytes, left, rfl, read, finished⟩
  · cases short.symm.trans bad
  · rcases decodeOneStatus_cases (m0 :: m1 :: version :: body ++ more) with ⟨few, _⟩ |
      ⟨_, _, _, _, _, _, corrupt⟩ | ⟨_, same, _⟩ | ⟨_, _, _, _, same, _⟩
    · simp only [List.length_cons, List.length_append] at few
      omega
    · exact corrupt
    · simp_all
    · simp_all
  · cases short.symm.trans bad
  · rw [List.append_assoc, decodeOneStatus_of_fields (local_fields.append read more)]
    have failed := finished.symm.trans bad
    unfold finishEntry at failed ⊢
    split at failed
    · cases failed
    case isFalse occupied =>
      rw [if_neg occupied]
      split at failed
      · rfl
      · cases failed

theorem encodeMutationRecord_eq_nil {mutation : Mutation} (enc : Encodable mutation) :
    encodeMutationRecord mutation = [] ↔ mutation.record = none := by
  cases held : mutation.record with
  | none => simp [encodeMutationRecord, held]
  | some record =>
    obtain ⟨type, _⟩ := enc.record record held
    simp [encodeMutationRecord, held, type, encodeRecord]

/-- **Round trip of an entry.** -/
theorem decodeOneStatus_encode {mutation : Mutation} (enc : Encodable mutation) (rest : Bytes) :
    decodeOneStatus (encodeMutation mutation ++ rest) = .ok mutation rest := by
  rw [encodeMutation_eq, List.append_assoc, decodeOneStatus_of_fields (spells_fields enc rest),
    finishEntry]
  cases held : mutation.record with
  | none =>
    rw [if_pos ((encodeMutationRecord_eq_nil enc).mpr held), ← held]
  | some record =>
    obtain ⟨type, wf, sized⟩ := enc.record record held
    have occupied : encodeMutationRecord mutation ≠ [] := by
      rw [ne_eq, encodeMutationRecord_eq_nil enc, held]
      simp
    have bytes : encodeMutationRecord mutation = encodeRecord record := by
      simp [encodeMutationRecord, held, type]
    rw [if_neg occupied, bytes, decodeRecord_encode wf sized]
    show DecodeStatus.ok { mutation with record := some record } rest = _
    rw [← held]

/-- **Round trip of an entry inside a buffer**: the cursor in front of it comes to stand behind it,
whatever surrounds it. -/
theorem decodeOneStatusAt_encode {mutation : Mutation} (enc : Encodable mutation)
    (front rest : Bytes) :
    decodeOneStatusAt (front ++ encodeMutation mutation ++ rest) front.length =
      .ok mutation (front.length + (encodeMutation mutation).length) := by
  have behind : (front ++ encodeMutation mutation ++ rest).drop front.length =
      encodeMutation mutation ++ rest := by
    rw [List.append_assoc, List.drop_left]
  have offset : (front ++ encodeMutation mutation ++ rest).length - rest.length =
      front.length + (encodeMutation mutation).length := by
    rw [List.length_append, List.length_append]
    omega
  rw [decodeOneStatusAt, behind, decodeOneStatus_encode enc]
  dsimp only
  rw [offset]

/-- A hash under a key of two bytes, between other bytes. -/
theorem decodeOneStatusAt_encode_hash :
    let record : Record :=
      { value := { DataValue.blank .hash with hashValue := (∅ : Dict Bytes).insert [1] [2, 3] }
        expireAtUs := -7
        version := 9 }
    let mutation := Mutation.put [107, 108] record (-1)
    decodeOneStatusAt ([87, 50] ++ encodeMutation mutation ++ [87]) 2 =
      .ok mutation (2 + (encodeMutation mutation).length) := by
  intro record mutation
  have wf : record.value.WellFormed :=
    ⟨fun _ => rfl, fun _ => rfl, fun _ => rfl, fun other => (other rfl).elim, rfl⟩
  have sized : Record.Sized record := by
    show _ < _
    decide +kernel
  exact decodeOneStatusAt_encode (encodable_put (by decide) wf sized (-1)) [87, 50] [87]

/-- **A torn entry is an incomplete tail**, wherever it is cut. -/
theorem decodeOneStatus_torn {mutation : Mutation} (enc : Encodable mutation) {front back : Bytes}
    (split : encodeMutation mutation = front ++ back) (torn : back ≠ []) :
    decodeOneStatus front = .incompleteTail := by
  have whole := decodeOneStatus_encode enc []
  rw [List.append_nil, split] at whole
  cases found : decodeOneStatus front with
  | incompleteTail => rfl
  | corrupt =>
    have bad := decodeOneStatus_corrupt_append found back
    cases bad.symm.trans whole
  | ok decoded rest =>
    have done := decodeOneStatus_append found back
    obtain ⟨_, empty⟩ := DecodeStatus.ok.inj (done.symm.trans whole)
    exact (torn (List.append_eq_nil_iff.mp empty).2).elim

/-! ### Bytes taken -/

/-- Distinct members of a list weigh no more than the list. -/
theorem sum_le_of_nodup {α : Type} {chosen items : List α} (distinct : chosen.Nodup)
    (inside : chosen ⊆ items) (weight : α → Nat) :
    (chosen.map weight).sum ≤ (items.map weight).sum := by
  obtain ⟨middle, same, sublist⟩ := List.subperm_of_subset distinct inside
  rw [← (same.map weight).sum_eq]
  exact (sublist.map weight).sum_le_sum fun _ _ => Nat.zero_le _

theorem length_flatMap_setOf_le (items : List Bytes) :
    ((setOf items).toList.flatMap appendString).length ≤
      (items.map fun item => (appendString item).length).sum := by
  rw [List.length_flatMap]
  refine sum_le_of_nodup ?_ (fun item member => ?_) _
  · refine Std.ExtTreeSet.distinct_toList.imp fun differ same => differ ?_
    simp [same]
  · exact (mem_setOf items item).mp (Std.ExtTreeSet.mem_toList.mp member)

theorem length_flatMap_hashOf_le (entries : List (Bytes × Bytes)) :
    ((hashOf entries).toList.flatMap fun entry =>
        appendString entry.1 ++ appendString entry.2).length ≤
      (entries.map fun entry => (appendString entry.1 ++ appendString entry.2).length).sum := by
  rw [List.length_flatMap]
  refine sum_le_of_nodup (nodup_toList _).of_map (fun entry member => ?_) _
  have held := Std.ExtTreeMap.mem_toList_iff_getElem?_eq_some.mp member
  rw [getElem?_hashOf, List.lookup_eq_some_iff] at held
  obtain ⟨before, after, split, _⟩ := held
  simp [split]

theorem yields_string :
    Yields readString fun taken value => (appendString value).length ≤ taken := by
  refine (yields_number 4).bind fun taken length four => ?_
  refine (yields_take length).mono fun taken' value took => ?_
  rw [appendString_length]
  omega

theorem yields_entry : Yields readEntry fun taken entry =>
    (appendString entry.1 ++ appendString entry.2).length ≤ taken := by
  refine yields_string.bind fun taken field paid => ?_
  refine yields_string.bind fun taken' value paid' => Yields.pure ?_
  show (appendString field ++ appendString value).length ≤ _
  rw [List.length_append]
  omega

/-- A counted list costs four bytes and its items. -/
theorem yields_counted {α β : Type} {item : Reader α} {cost : α → Nat}
    (each : Yields item fun taken value => cost value ≤ taken) (build : List α → β)
    {post : Nat → β → Prop}
    (enough : ∀ taken items, 4 + (items.map cost).sum ≤ taken → post taken (build items)) :
    Yields (readU32 >>= fun count => many count item >>= fun items => pure (build items)) post := by
  refine (yields_number 4).bind fun taken count four => ?_
  refine (Yields.many each count).bind fun taken' items paid => Yields.pure (enough _ _ ?_)
  omega

theorem yields_payload (type : UInt8) :
    Yields (decodePayload type) fun taken value => (encodePayload value).length ≤ taken := by
  unfold decodePayload
  split
  · exact yields_string.bind fun taken value paid => Yields.pure paid
  split
  · refine yields_counted yields_string _ fun taken items paid => ?_
    show (appendU32 items.length ++ items.flatMap appendString).length ≤ taken
    rw [List.length_append, appendU32_length, List.length_flatMap]
    exact paid
  split
  · refine yields_counted yields_string _ fun taken items paid => ?_
    have fewer := length_flatMap_setOf_le items
    show (appendU32 (setOf items).toList.length ++
      (setOf items).toList.flatMap appendString).length ≤ taken
    rw [List.length_append, appendU32_length]
    omega
  split
  · refine yields_counted yields_entry _ fun taken entries paid => ?_
    have fewer := length_flatMap_hashOf_le entries
    show (appendU32 (hashOf entries).toList.length ++ (hashOf entries).toList.flatMap fun entry =>
      appendString entry.1 ++ appendString entry.2).length ≤ taken
    rw [List.length_append, appendU32_length]
    omega
  · exact Yields.fail

theorem yields_i64 : Yields readI64 fun taken _ => taken = 8 :=
  (yields_number 8).bind fun _ _ eight => Yields.pure eight

theorem yields_u64 : Yields readU64 fun taken _ => taken = 8 :=
  (yields_number 8).bind fun _ _ eight => Yields.pure eight

theorem yields_dataValue : Yields decodeDataValue fun taken decoded =>
    18 + (encodePayload decoded.1).length ≤ taken := by
  refine (yields_expect _).bind fun t1 _ one => ?_
  refine (yields_expect _).bind fun t2 _ two => ?_
  refine (yields_expect _).bind fun t3 _ three => ?_
  refine yields_byte.bind fun t4 type four => ?_
  refine yields_byte.bind fun t5 _ five => ?_
  refine yields_byte.bind fun t6 _ six => ?_
  refine yields_i64.bind fun t7 expireAtUs seven => ?_
  refine (yields_number 4).bind fun t8 length eight => ?_
  refine (yields_take length).bind fun t9 payload nine => ?_
  refine ((yields_payload type).within payload).bind fun t10 value inner => Yields.pure ?_
  obtain ⟨none, count, short, paid⟩ := inner
  show 18 + (encodePayload value).length ≤ _
  omega

theorem yields_record : Yields readRecord fun taken record =>
    (encodeRecord record).length ≤ taken := by
  refine (yields_expect _).bind fun t1 _ one => ?_
  refine (yields_expect _).bind fun t2 _ two => ?_
  refine (yields_expect _).bind fun t3 _ three => ?_
  refine yields_u64.bind fun t4 version four => ?_
  refine (yields_number 4).bind fun t5 length five => ?_
  refine (yields_take length).bind fun t6 slice six => ?_
  refine (yields_dataValue.within slice).bind fun t7 decoded inner => Yields.pure ?_
  obtain ⟨none, count, short, paid⟩ := inner
  rw [encodeRecord_length]
  show 33 + (encodePayload decoded.1).length ≤ _
  omega

theorem encodeRecord_length_le {data : Bytes} {record : Record}
    (found : decodeRecord data = some record) : (encodeRecord record).length ≤ data.length := by
  obtain ⟨⟨record', rest⟩, read, rfl⟩ := Option.map_eq_some_iff.mp found
  obtain ⟨count, length, paid⟩ := yields_record _ _ _ read
  exact paid.trans (by omega)

theorem yields_fields : Yields readFields fun taken fields =>
    17 + fields.1.key.length + fields.2.length ≤ taken ∧ fields.1.record = none := by
  refine yields_i64.bind fun t1 tsUs one => ?_
  refine yields_byte.bind fun t2 type two => ?_
  refine yields_string.bind fun t3 key three => ?_
  refine (yields_number 4).bind fun t4 length four => ?_
  refine (yields_take length).bind fun t5 recordBytes five => Yields.pure ⟨?_, rfl⟩
  rw [appendString_length] at three
  show 17 + key.length + recordBytes.length ≤ _
  omega

/-- **A decoded entry took at least as many bytes as its encoding has.** -/
theorem decodeOneStatus_cost {data rest : Bytes} {mutation : Mutation}
    (done : decodeOneStatus data = .ok mutation rest) :
    (encodeMutation mutation).length + rest.length ≤ data.length := by
  rcases decodeOneStatus_cases data with ⟨_, short⟩ | ⟨_, _, _, _, _, _, corrupt⟩ |
    ⟨_, _, _, short⟩ | ⟨body, decoded, recordBytes, left, rfl, read, finished⟩
  · cases short.symm.trans done
  · cases corrupt.symm.trans done
  · cases short.symm.trans done
  obtain ⟨count, length, paid, noRecord⟩ := yields_fields _ _ _ read
  dsimp only at paid noRecord
  have last := finished.symm.trans done
  unfold finishEntry at last
  rw [encodeMutation_length, List.length_append, length]
  show _ ≤ 3 + (count + left.length)
  split at last
  case isTrue empty =>
    obtain ⟨rfl, rfl⟩ := DecodeStatus.ok.inj last
    have noBytes : encodeMutationRecord decoded = [] := by simp [encodeMutationRecord, noRecord]
    rw [noBytes, List.length_nil]
    omega
  case isFalse occupied =>
    split at last
    case h_1 => cases last
    case h_2 record found =>
      obtain ⟨rfl, rfl⟩ := DecodeStatus.ok.inj last
      have inner := encodeRecord_length_le found
      have few : (encodeMutationRecord { decoded with record := some record }).length ≤
          (encodeRecord record).length := by
        unfold encodeMutationRecord
        split
        case h_1 held => obtain rfl := Option.some.inj held; exact le_rfl
        case h_2 => exact Nat.zero_le _
      dsimp only
      omega

theorem encodeMutation_pos (mutation : Mutation) : 0 < (encodeMutation mutation).length := by
  rw [encodeMutation_length]
  omega

/-! ### Snapshots -/

theorem spells_snapshotRecord {entry : Bytes × Record} (key : entry.1.length < 2 ^ 32)
    (wf : entry.2.value.WellFormed) (sized : Record.Sized entry.2) :
    Spells readSnapshotRecord (encodeSnapshotRecord entry) entry := by
  have inner := (spells_record wf sized).within []
  rw [List.append_nil] at inner
  have read : Spells readSnapshotRecord
      (appendString entry.1 ++ (appendU32 (encodeRecord entry.2).length ++
        (encodeRecord entry.2 ++ []))) entry :=
    (spells_string key).bind <| (spells_u32 sized).bind <| (spells_take _).bind <| inner.map _
  simpa [encodeSnapshotRecord] using read

/-- The header, the count modulo `2 ^ 32` and that many of the records. -/
theorem spells_snapshot {records : List (Bytes × Record)}
    (fits : ∀ entry ∈ records, entry.1.length < 2 ^ 32 ∧ entry.2.value.WellFormed ∧
      Record.Sized entry.2) :
    Spells readSnapshot
      ([ascii 'S'] ++ ([ascii '2'] ++ ([kVersion] ++ (appendU32 records.length ++
        (records.take (records.length % 2 ^ 32)).flatMap encodeSnapshotRecord))))
      (records.take (records.length % 2 ^ 32)) := by
  have count : (records.take (records.length % 2 ^ 32)).length = records.length % 2 ^ 32 := by
    rw [List.length_take]
    exact Nat.min_eq_left (Nat.mod_le _ _)
  have kept : Spells (many (records.take (records.length % 2 ^ 32)).length readSnapshotRecord)
      ((records.take (records.length % 2 ^ 32)).flatMap encodeSnapshotRecord)
      (records.take (records.length % 2 ^ 32)) := by
    refine Spells.many _ fun entry member => ?_
    obtain ⟨key, wf, sized⟩ := fits entry (List.mem_of_mem_take member)
    exact spells_snapshotRecord key wf sized
  rw [count] at kept
  exact (spells_expect _).bind <| (spells_expect _).bind <| (spells_expect _).bind <|
    (spells_u32_mod _).bind kept

/-- **Round trip of a snapshot.** The count is taken modulo `2 ^ 32`, so only that many of the
records come back. -/
theorem decodeSnapshot_encode {records : List (Bytes × Record)}
    (fits : ∀ entry ∈ records, entry.1.length < 2 ^ 32 ∧ entry.2.value.WellFormed ∧
      Record.Sized entry.2) :
    decodeSnapshot (encodeSnapshot records) = some (records.take (records.length % 2 ^ 32)) := by
  -- the records past the count stand at the end of the file, where nothing reads them
  have whole : encodeSnapshot records =
      ([ascii 'S'] ++ ([ascii '2'] ++ ([kVersion] ++ (appendU32 records.length ++
        (records.take (records.length % 2 ^ 32)).flatMap encodeSnapshotRecord)))) ++
      (records.drop (records.length % 2 ^ 32)).flatMap encodeSnapshotRecord := by
    have parts : records.flatMap encodeSnapshotRecord =
        (records.take (records.length % 2 ^ 32)).flatMap encodeSnapshotRecord ++
          (records.drop (records.length % 2 ^ 32)).flatMap encodeSnapshotRecord := by
      rw [← List.flatMap_append, List.take_append_drop]
    rw [encodeSnapshot, parts]
    simp only [List.append_assoc, List.cons_append, List.nil_append]
  rw [decodeSnapshot, whole, spells_snapshot fits]
  rfl

theorem local_snapshot : Local readSnapshot := by
  refine (local_expect _).bind fun _ => (local_expect _).bind fun _ => (local_expect _).bind
    fun _ => (local_number 4).bind fun count => Local.many ?_ count
  exact local_string.bind fun _ => (local_number 4).bind fun _ => (local_take _).bind fun _ =>
    (local_within _ _).bind fun _ => Local.pure _

/-- **A snapshot cut anywhere is not read.** -/
theorem decodeSnapshot_torn {records : List (Bytes × Record)} (few : records.length < 2 ^ 32)
    (fits : ∀ entry ∈ records, entry.1.length < 2 ^ 32 ∧ entry.2.value.WellFormed ∧
      Record.Sized entry.2) {front back : Bytes} (whole : encodeSnapshot records = front ++ back)
    (torn : back ≠ []) : decodeSnapshot front = none := by
  have spells := spells_snapshot fits
  rw [Nat.mod_eq_of_lt few, List.take_length] at spells
  have same : [ascii 'S'] ++ ([ascii '2'] ++ ([kVersion] ++ (appendU32 records.length ++
      records.flatMap encodeSnapshotRecord))) = front ++ back := by
    rw [← whole, encodeSnapshot]
    simp only [List.cons_append, List.nil_append]
  rw [same] at spells
  rw [decodeSnapshot, local_snapshot.none_of_strict_prefix spells torn]
  rfl

end SunKV.Persistence
