/-
**Every command does what its batch says.**

One lemma per family of the engine (`sound_unlessExpired`, `sound_readContainer`,
`sound_growContainer`, `sound_storeOrDrop`, `sound_popList`, `sound_shrinkContainer`), each by the
three outcomes of the expiry check (`live_cases`), and from them:

* `Command.effect` — every command on a key, on a backend without limit whose record under the key
  is proper, has an `Effect`;
* `Command.effect_keyless` — `dbsize` and `keys` change nothing and log nothing;
* `Command.sound` — both in one statement.

`exec_dumpAllLiveRecords` is the one engine operation that writes without logging: it deletes
expired records.
-/

import SunKV.Storage.Effect

namespace SunKV.Storage

open SunKV.Lib

variable {env : Env} {key : Bytes} {world : World} {α : Type}

/-! ### Values with one field replaced -/

namespace DataValue.WellFormed

variable {value : DataValue}

theorem withList (wf : value.WellFormed) (isList : value.type = .list) {list : List Bytes}
    (occupied : list ≠ []) : ({ value with listValue := list } : DataValue).Proper where
  wellFormed := ⟨wf.string, fun other => (other isList).elim, wf.set, wf.hash, wf.ttl⟩
  occupied := by simpa [DataValue.Vacant, isList] using occupied

theorem withSet (wf : value.WellFormed) (isSet : value.type = .set) {members : StringSet}
    (occupied : members ≠ ∅) : ({ value with setValue := members } : DataValue).Proper where
  wellFormed := ⟨wf.string, wf.list, fun other => (other isSet).elim, wf.hash, wf.ttl⟩
  occupied := by simpa [DataValue.Vacant, isSet] using occupied

theorem withHash (wf : value.WellFormed) (isHash : value.type = .hash) {fields : Dict Bytes}
    (occupied : fields ≠ ∅) : ({ value with hashValue := fields } : DataValue).Proper where
  wellFormed := ⟨wf.string, wf.list, wf.set, fun other => (other isHash).elim, wf.ttl⟩
  occupied := by simpa [DataValue.Vacant, isHash] using occupied

end DataValue.WellFormed

theorem DataValue.ofString_proper (value : Bytes) : (DataValue.ofString value).Proper :=
  ⟨DataValue.ofString_wellFormed value, fun vacant => vacant⟩

/-- Values pushed to the front stand in reverse order. -/
theorem pushFront_listValue (values : List Bytes) (value : DataValue) :
    (pushFront values value).1.listValue = values.reverse ++ value.listValue := by
  simp [pushFront]

theorem pushBack_listValue (values : List Bytes) (value : DataValue) :
    (pushBack values value).1.listValue = value.listValue ++ values := by
  unfold pushBack
  induction values generalizing value with
  | nil => simp
  | cons item values ih =>
    have step := ih { value with listValue := value.listValue ++ [item] }
    simpa using step

theorem mem_insertMembers (members : List Bytes) (held : StringSet) (item : Bytes) :
    item ∈ (insertMembers members held).1 ↔ item ∈ members ∨ item ∈ held := by
  unfold insertMembers
  -- the count is carried along, so the statement is about every start of it
  generalize (0 : Int) = added
  induction members generalizing held added with
  | nil => simp
  | cons member members ih =>
    rw [List.foldl_cons, ih, Std.ExtTreeSet.mem_insert, Std.LawfulEqCmp.compare_eq_iff_eq,
      List.mem_cons]
    constructor
    · rintro (inRest | rfl | inHeld)
      · exact Or.inl (Or.inr inRest)
      · exact Or.inl (Or.inl rfl)
      · exact Or.inr inHeld
    · rintro ((rfl | inRest) | inHeld)
      · exact Or.inr (Or.inl rfl)
      · exact Or.inl inRest
      · exact Or.inr (Or.inr inHeld)

/-! ### The expiry check -/

/-- The three outcomes: no record, an expired one, a live one. -/
theorem live_cases (env : Env) (world : World) (key : Bytes) :
    world.view key = none ∨
      (∃ record, world.view key = some record ∧
        isExpired record (env.now world.readings) = true) ∨
      ∃ record, world.view key = some record ∧
        isExpired record (env.now world.readings) = false := by
  cases held : world.view key with
  | none => exact Or.inl rfl
  | some record =>
    cases expired : isExpired record (env.now world.readings) with
    | true => exact Or.inr (Or.inl ⟨record, rfl, expired⟩)
    | false => exact Or.inr (Or.inr ⟨record, rfl, expired⟩)

theorem exec_getLive_absent (absent : world.view key = none) :
    env.exec (getLiveRecordOrExpire key) world = ((none, []), world) := by
  simp [getLiveRecordOrExpire, absent]

theorem exec_getLive_expired {record : Record} (held : world.view key = some record)
    (expired : isExpired record (env.now world.readings) = true) :
    env.exec (getLiveRecordOrExpire key) world =
      ((none, [.del key (env.now world.readings)]), world.tick.drop key) := by
  simp [getLiveRecordOrExpire, held, expired]

theorem exec_getLive_live {record : Record} (held : world.view key = some record)
    (live : isExpired record (env.now world.readings) = false) :
    env.exec (getLiveRecordOrExpire key) world = ((some record, []), world.tick) := by
  simp [getLiveRecordOrExpire, held, live]

/-! ### The families -/

/-- The operation has the effect its batch says. -/
def Sound (env : Env) (key : Bytes) (world : World) (operation : Engine (StorageResult α)) : Prop :=
  Effect env key world (env.exec operation world).1.mutations (env.exec operation world).2

theorem sound_err [Inhabited α] (unlimited : world.Unlimited) (status : StatusCode) :
    Sound env key world (return (StorageResult.err status : StorageResult α)) :=
  Effect.nothing unlimited

theorem sound_ok (unlimited : world.Unlimited) (value : α) :
    Sound env key world (return StorageResult.ok value) :=
  Effect.nothing unlimited

/-- A wrapper of the reply changes neither the batch nor the store. -/
theorem Sound.reply {operation : Engine (StorageResult α)} (sound : Sound env key world operation)
    (wrap : α → Reply) :
    Sound env key world (do return (← operation).reply wrap) := by
  unfold Sound
  simp only [Env.exec_bind, Env.exec_pure]
  exact sound

theorem sound_unlessExpired (unlimited : world.Unlimited) (absent : α)
    (live : Record → Int64 → Engine (StorageResult α))
    (sound : ∀ record, world.view key = some record →
      Sound env key world.tick (live record (env.now world.readings))) :
    Sound env key world (unlessExpired key absent live) := by
  unfold Sound unlessExpired
  rcases live_cases env world key with missing | ⟨record, held, expired⟩ | ⟨record, held, alive⟩
  · simp only [Env.exec_bind, Env.exec_getRecord, missing, Env.exec_pure]
    exact .nothing unlimited
  · simp only [Env.exec_bind, Env.exec_getRecord, held, Env.exec_nowEpochUs, expired, if_true,
      Env.exec_delKey, Env.exec_pure]
    exact (Effect.del unlimited.tick _).tickBefore
  · simp only [Env.exec_bind, Env.exec_getRecord, held, Env.exec_nowEpochUs, alive,
      Bool.false_eq_true, if_false]
    exact (sound record held).tickBefore

/-- `putRecord` of a proper record with its batch, at a time read earlier. -/
theorem sound_store [Inhabited α] (unlimited : world.Unlimited) (record : Record)
    (proper : record.value.Proper) (reply : α) (ts : Int64) :
    Sound env key world (do
      if ← putRecord key record then
        return .ok reply [Mutation.put key record ts]
      else
        return .err .quotaExceeded) := by
  unfold Sound
  simp only [Env.exec_bind, Env.exec_putRecord unlimited, if_true, Env.exec_pure]
  exact .put unlimited proper ts

theorem sound_delete (unlimited : world.Unlimited) (reply : α) (ts : Int64) :
    Sound env key world (do
      let _ ← delKey key
      return .ok reply [Mutation.del key ts]) := by
  unfold Sound
  simp only [Env.exec_bind, Env.exec_delKey, Env.exec_pure]
  exact .del unlimited ts

/-- What follows a `getLiveRecordOrExpire`. -/
theorem sound_getLive (unlimited : world.Unlimited) {absent : α}
    {next : Option Record × MutationBatch → Engine (StorageResult α)}
    (without : ∀ muts, next (none, muts) = return .ok absent muts)
    (live : ∀ record, world.view key = some record →
      Sound env key world.tick (next (some record, []))) :
    Sound env key world (getLiveRecordOrExpire key >>= next) := by
  unfold Sound
  rcases live_cases env world key with missing | ⟨record, held, expired⟩ | ⟨record, held, alive⟩
  · simp only [Env.exec_bind, exec_getLive_absent missing, without, Env.exec_pure]
    exact .nothing unlimited
  · simp only [Env.exec_bind, exec_getLive_expired held expired, without, Env.exec_pure]
    exact (Effect.del unlimited.tick _).tickBefore
  · simp only [Env.exec_bind, exec_getLive_live held alive]
    exact (live record held).tickBefore

theorem sound_readContainer [Inhabited α] (unlimited : world.Unlimited) (wantType : DataType)
    (absent : α) (view : DataValue → α) :
    Sound env key world (readContainer wantType key absent view) := by
  refine sound_getLive unlimited (fun _ => rfl) fun record held => ?_
  dsimp only
  split
  · exact sound_err unlimited.tick _
  · exact sound_ok unlimited.tick _

theorem sound_growContainer (unlimited : world.Unlimited)
    (proper : ∀ record, world.view key = some record → record.value.Proper) {wantType : DataType}
    (container : wantType ≠ .string) {grow : DataValue → DataValue × Int}
    (grows : ∀ value, value.WellFormed → value.type = wantType → (grow value).1.Proper) :
    Sound env key world (growContainer wantType key grow) := by
  have blank : (grow (DataValue.blank wantType)).1.Proper :=
    grows _ (DataValue.blank_wellFormed _) rfl
  unfold Sound growContainer getOrInitContainer
  rcases live_cases env world key with missing | ⟨record, held, expired⟩ | ⟨record, held, alive⟩
  · have filled : (world.put key { value := .blank wantType }).tick.Unlimited :=
      (unlimited.put _ _).tick
    simp only [Env.exec_bind, exec_getLive_absent missing, Env.exec_putRecord unlimited, if_true,
      Env.exec_nowEpochUs, Env.exec_pure, StorageResult.ok, ne_eq, not_true_eq_false, if_false,
      Env.exec_putRecord filled]
    exact (Effect.create unlimited container blank missing _ _).tickAfter
  · have dropped : (world.tick.drop key).Unlimited := unlimited.tick.drop key
    have filled : ((world.tick.drop key).put key { value := .blank wantType }).tick.Unlimited :=
      (dropped.put _ _).tick
    simp only [Env.exec_bind, exec_getLive_expired held expired, Env.exec_putRecord dropped,
      if_true, Env.exec_nowEpochUs, Env.exec_pure, StorageResult.ok, ne_eq, not_true_eq_false,
      if_false, Env.exec_putRecord filled]
    exact (Effect.recreate unlimited container blank held expired _ _).tickAfter
  · simp only [Env.exec_bind, exec_getLive_live held alive]
    by_cases same : record.value.type = wantType
    · simp only [same, if_true, Env.exec_pure, StorageResult.ok, ne_eq, not_true_eq_false, if_false,
        Env.exec_bind, Env.exec_putRecord unlimited.tick, Env.exec_nowEpochUs, List.nil_append]
      refine (Effect.put unlimited.tick ?_ _).tickAfter.tickBefore
      exact grows _ (proper record held).wellFormed same
    · have wrong : StatusCode.wrongType ≠ .ok := by decide
      simp only [same, if_false, Env.exec_pure, StorageResult.err, ne_eq, wrong, not_false_eq_true,
        if_true]
      exact (Effect.nothing unlimited.tick).tickBefore

theorem sound_storeOrDrop [Inhabited α] (unlimited : world.Unlimited) {record : Record}
    {empty : Bool} (proper : empty = false → record.value.Proper) (reply : α) :
    Sound env key world (storeOrDrop key record empty [] reply) := by
  unfold Sound storeOrDrop
  cases empty with
  | true =>
    simp only [if_true, Env.exec_bind, Env.exec_delKey, Env.exec_nowEpochUs, Env.exec_pure]
    exact (Effect.del unlimited _).tickAfter
  | false =>
    simp only [Bool.false_eq_true, if_false, Env.exec_bind, Env.exec_putRecord unlimited, if_true,
      Env.exec_nowEpochUs, Env.exec_pure]
    exact (Effect.put unlimited (proper rfl) _).tickAfter

theorem sound_shrinkContainer (unlimited : world.Unlimited)
    (proper : ∀ record, world.view key = some record → record.value.Proper) {wantType : DataType}
    {shrink : DataValue → DataValue × Bool × Int}
    (shrinks : ∀ value, value.WellFormed → value.type = wantType → (shrink value).2.1 = false →
      (shrink value).1.Proper) :
    Sound env key world (shrinkContainer wantType key shrink) := by
  refine sound_getLive unlimited (fun _ => rfl) fun record held => ?_
  dsimp only
  split
  · exact sound_err unlimited.tick _
  case isFalse same =>
    refine sound_storeOrDrop unlimited.tick ?_ _
    exact shrinks _ (proper record held).wellFormed (not_not.mp same)

theorem sound_popList (unlimited : world.Unlimited)
    (proper : ∀ record, world.view key = some record → record.value.Proper)
    (pop : List Bytes → Option (Bytes × List Bytes)) :
    Sound env key world (popList key pop) := by
  refine sound_getLive unlimited (fun _ => rfl) fun record held => ?_
  dsimp only
  split
  · exact sound_err unlimited.tick _
  case isFalse same =>
    cases popped : pop record.value.listValue with
    | none => exact sound_ok unlimited.tick _
    | some taken =>
      refine sound_storeOrDrop unlimited.tick (fun occupied => ?_) _
      refine (proper record held).wellFormed.withList (not_not.mp same) ?_
      simpa using occupied

/-! ### Every operation -/

theorem sound_set (unlimited : world.Unlimited) (value : Bytes) :
    Sound env key world (Storage.set key value) := by
  unfold Sound Storage.set
  simp only [Env.exec_bind, Env.exec_putRecord unlimited, if_true, Env.exec_nowEpochUs,
    Env.exec_pure]
  exact (Effect.put unlimited (DataValue.ofString_proper value) _).tickAfter

/-- `del` of an absent key logs nothing, since nothing goes. -/
theorem sound_del (unlimited : world.Unlimited) : Sound env key world (Storage.del key) := by
  unfold Sound Storage.del
  by_cases held : key ∈ world.backend.map
  · have found : (world.backend.delKey key).1 = true := by simp [InMemoryBackend.delKey, held]
    simp only [Env.exec_bind, Env.exec_delKey, found, if_true, Env.exec_nowEpochUs, Env.exec_pure]
    exact (Effect.del unlimited _).tickAfter
  · have same : world.backend.delKey key = (false, world.backend) := by
      simp [InMemoryBackend.delKey, held]
    have unchanged : world.drop key = world := by
      rw [World.drop, same]
    simp only [Env.exec_bind, Env.exec_delKey, same, unchanged, Bool.false_eq_true, if_false,
      Env.exec_pure]
    exact .nothing unlimited

theorem sound_get (unlimited : world.Unlimited) : Sound env key world (Storage.get key) := by
  refine sound_unlessExpired unlimited _ _ fun record _ => ?_
  split
  · exact sound_err unlimited.tick _
  · exact sound_ok unlimited.tick _

theorem sound_keyExists (unlimited : world.Unlimited) : Sound env key world (keyExists key) :=
  sound_unlessExpired unlimited _ _ fun _ _ => sound_ok unlimited.tick _

section Proper

variable (proper : ∀ record, world.view key = some record → record.value.Proper)

include proper

theorem sound_expire (unlimited : world.Unlimited) (ttlSeconds : Int64) :
    Sound env key world (expire key ttlSeconds) := by
  unfold expire
  split
  · exact sound_err unlimited _
  refine sound_unlessExpired unlimited _ _ fun record held => ?_
  split
  · exact sound_delete unlimited.tick _ _
  · exact sound_store unlimited.tick
      { record with expireAtUs := env.now world.readings + ttlSeconds * 1000000 }
      (proper record held) _ _

theorem sound_persist (unlimited : world.Unlimited) : Sound env key world (persist key) :=
  sound_unlessExpired unlimited _ _ fun record held =>
    sound_store unlimited.tick { record with expireAtUs := -1 } (proper record held) _ _

theorem sound_lpush (unlimited : world.Unlimited) (values : List Bytes) :
    Sound env key world (lpush key values) := by
  unfold lpush
  split
  · exact sound_err unlimited _
  case isFalse occupied =>
    refine sound_growContainer unlimited proper (by decide) fun value wf isList => ?_
    refine wf.withList isList fun vacant => occupied ?_
    have pushed := pushFront_listValue values value
    rw [show (pushFront values value).1.listValue = [] from vacant] at pushed
    exact List.isEmpty_iff.mpr
      (List.reverse_eq_nil_iff.mp (List.append_eq_nil_iff.mp pushed.symm).1)

theorem sound_rpush (unlimited : world.Unlimited) (values : List Bytes) :
    Sound env key world (rpush key values) := by
  unfold rpush
  split
  · exact sound_err unlimited _
  case isFalse occupied =>
    refine sound_growContainer unlimited proper (by decide) fun value wf isList => ?_
    refine wf.withList isList fun vacant => occupied ?_
    have pushed := pushBack_listValue values value
    rw [show (pushBack values value).1.listValue = [] from vacant] at pushed
    exact List.isEmpty_iff.mpr (List.append_eq_nil_iff.mp pushed.symm).2

theorem sound_sadd (unlimited : world.Unlimited) (members : List Bytes) :
    Sound env key world (sadd key members) := by
  unfold sadd
  split
  · exact sound_err unlimited _
  case isFalse occupied =>
    refine sound_growContainer unlimited proper (by decide) fun value wf isSet => ?_
    refine wf.withSet isSet fun vacant => ?_
    obtain ⟨item, inMembers⟩ := List.isEmpty_eq_false_iff_exists_mem.mp (by simpa using occupied)
    have inside := (mem_insertMembers members value.setValue item).mpr (Or.inl inMembers)
    rw [vacant] at inside
    exact Std.ExtTreeSet.not_mem_empty inside

theorem sound_srem (unlimited : world.Unlimited) (members : List Bytes) :
    Sound env key world (srem key members) := by
  unfold srem
  split
  · exact sound_err unlimited _
  refine sound_shrinkContainer unlimited proper fun value wf isSet occupied => ?_
  exact wf.withSet isSet (Std.ExtTreeSet.isEmpty_eq_false_iff.mp occupied)

theorem sound_hset (unlimited : world.Unlimited) (field value : Bytes) :
    Sound env key world (hset key field value) :=
  sound_growContainer unlimited proper (by decide) fun _ wf isHash =>
    wf.withHash isHash Std.ExtTreeMap.insert_ne_empty

theorem sound_hdel (unlimited : world.Unlimited) (fields : List Bytes) :
    Sound env key world (hdel key fields) := by
  unfold hdel
  split
  · exact sound_err unlimited _
  refine sound_shrinkContainer unlimited proper fun value wf isHash occupied => ?_
  exact wf.withHash isHash (Std.ExtTreeMap.isEmpty_eq_false_iff.mp occupied)

end Proper

theorem sound_remaining (unlimited : world.Unlimited) (unit : Int64) :
    Sound env key world (remaining unit key) := by
  refine sound_unlessExpired unlimited _ _ fun record _ => ?_
  split
  · exact sound_ok unlimited.tick _
  split
  · exact sound_delete unlimited.tick _ _
  · exact sound_ok unlimited.tick _

/-- **Every command on a key does what its batch says.** -/
theorem Command.effect (command : Command) (about : command.key? = some key)
    (unlimited : world.Unlimited)
    (proper : ∀ record, world.view key = some record → record.value.Proper) :
    Sound env key world command.program := by
  cases command with
  | dbsize => cases about
  | keys => cases about
  | set k value => cases about; exact (sound_set unlimited value).reply _
  | get k => cases about; exact (sound_get unlimited).reply _
  | del k => cases about; exact (sound_del unlimited).reply _
  | keyExists k => cases about; exact (sound_keyExists unlimited).reply _
  | expire k ttlSeconds => cases about; exact (sound_expire proper unlimited ttlSeconds).reply _
  | persist k => cases about; exact (sound_persist proper unlimited).reply _
  | ttl k => cases about; exact (sound_remaining unlimited _).reply _
  | pttl k => cases about; exact (sound_remaining unlimited _).reply _
  | lpush k values => cases about; exact (sound_lpush proper unlimited values).reply _
  | rpush k values => cases about; exact (sound_rpush proper unlimited values).reply _
  | lpop k => cases about; exact (sound_popList unlimited proper _).reply _
  | rpop k => cases about; exact (sound_popList unlimited proper _).reply _
  | llen k => cases about; exact (sound_readContainer unlimited _ _ _).reply _
  | lindex k index => cases about; exact (sound_readContainer unlimited _ _ _).reply _
  | sadd k members => cases about; exact (sound_sadd proper unlimited members).reply _
  | srem k members => cases about; exact (sound_srem proper unlimited members).reply _
  | scard k => cases about; exact (sound_readContainer unlimited _ _ _).reply _
  | sismember k member => cases about; exact (sound_readContainer unlimited _ _ _).reply _
  | smembers k => cases about; exact (sound_readContainer unlimited _ _ _).reply _
  | hset k field value => cases about; exact (sound_hset proper unlimited field value).reply _
  | hget k field => cases about; exact (sound_readContainer unlimited _ _ _).reply _
  | hdel k fields => cases about; exact (sound_hdel proper unlimited fields).reply _
  | hlen k => cases about; exact (sound_readContainer unlimited _ _ _).reply _
  | hexists k field => cases about; exact (sound_readContainer unlimited _ _ _).reply _
  | hgetall k => cases about; exact (sound_readContainer unlimited _ _ _).reply _

/-- **A command about no key changes nothing and logs nothing.** -/
theorem Command.effect_keyless (command : Command) (about : command.key? = none) (key : Bytes)
    (unlimited : world.Unlimited) : Sound env key world command.program := by
  cases command with
  | dbsize => exact Effect.nothing unlimited
  | keys => exact (Effect.nothing unlimited).tickAfter
  | _ => cases about

/-- Every record a store holds is proper. -/
def ProperStore (store : Store Bytes Record) : Prop :=
  ∀ key record, store key = some record → record.value.Proper

/-- **Every command does what its batch says**, on its own key or, if it has none, on any. -/
theorem Command.sound (command : Command) (env : Env) {world : World}
    (unlimited : world.Unlimited) (proper : ProperStore world.view) :
    Sound env (command.key?.getD []) world command.program := by
  cases about : command.key? with
  | none => exact command.effect_keyless about [] unlimited
  | some key => exact command.effect about unlimited (proper key)

/-! ### The snapshot pass -/

/-- The record had expired at one of the first `readings` readings of the clock. -/
def Env.Dead (env : Env) (readings : Nat) (record : Record) : Prop :=
  ∃ reading < readings, isExpired record (env.now reading) = true

theorem Env.Dead.mono {env : Env} {readings readings' : Nat} {record : Record}
    (dead : env.Dead readings record) (later : readings ≤ readings') :
    env.Dead readings' record := by
  obtain ⟨reading, past, expired⟩ := dead
  exact ⟨reading, past.trans_le later, expired⟩

/-- **A snapshot pass** deletes expired records only, and dumps records that are there. -/
theorem exec_dumpRecords (env : Env) (world : World) (keys : List Bytes) :
    Forgets (env.Dead (env.exec (dumpRecords keys) world).2.readings)
      (env.exec (dumpRecords keys) world).2.view world.view ∧
    ∀ entry ∈ (env.exec (dumpRecords keys) world).1, world.view entry.1 = some entry.2 := by
  induction keys generalizing world with
  | nil => exact ⟨Forgets.refl _ _, fun entry member => by cases member⟩
  | cons key keys ih =>
    rw [dumpRecords]
    rcases live_cases env world key with missing | ⟨record, held, expired⟩ | ⟨record, held, alive⟩
    · simp only [Env.exec_bind, exec_getLive_absent missing, Env.exec_pure]
      exact ih world
    · simp only [Env.exec_bind, exec_getLive_expired held expired, Env.exec_pure]
      obtain ⟨forgets, dumped⟩ := ih (world.tick.drop key)
      have readings := readings_le env (world.tick.drop key) (dumpRecords keys)
      have step :
          Forgets (env.Dead (world.readings + 1)) (world.tick.drop key).view world.view := by
        intro other
        rw [World.drop_view, World.tick_view, Event.apply, Function.update_apply]
        split
        case isTrue same =>
          rw [same]
          exact Or.inr ⟨rfl, record, held, world.readings, Nat.lt_succ_self _, expired⟩
        case isFalse => exact Or.inl rfl
      refine ⟨forgets.trans (step.mono fun value dead => dead.mono readings), ?_⟩
      intro entry member
      have found := dumped entry member
      rw [World.drop_view, World.tick_view, Event.apply, Function.update_apply] at found
      split at found
      · cases found
      · exact found
    · simp only [Env.exec_bind, exec_getLive_live held alive, Env.exec_pure]
      obtain ⟨forgets, dumped⟩ := ih world.tick
      refine ⟨forgets, fun entry member => ?_⟩
      rcases List.mem_cons.mp member with rfl | later
      · exact held
      · exact dumped entry later

theorem exec_dumpAllLiveRecords (env : Env) (world : World) :
    Forgets (env.Dead (env.exec dumpAllLiveRecords world).2.readings)
      (env.exec dumpAllLiveRecords world).2.view world.view ∧
    ∀ entry ∈ (env.exec dumpAllLiveRecords world).1, world.view entry.1 = some entry.2 :=
  exec_dumpRecords env world.tick (env.order world.readings world.backend.keys)

end SunKV.Storage
