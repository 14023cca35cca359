/-
**What a command does to the store is what its mutations say.**

`World.view` reads a backend as an abstract store, `events` reads a batch of mutations as replay
events. On a backend without storage limit, every command leaves the store that replaying its own
batch gives (`Effect.view`), and its batch has one of five shapes (`BatchShape`):

* `nothing` — no write;
* `put`, `del` — one write event on the command's key;
* `create` — an empty container, then the filled one;
* `recreate` — the lazy deletion of an expired record, then as `create`.

No stored record holds an empty container between commands (`DataValue.Proper`), so the middle
state of the last two shapes is never one a client can see.
-/

import SunKV.Lib.Replay
import SunKV.Storage.Engine

namespace SunKV.Storage

open SunKV.Lib

/-! ### The abstract store -/

/-- The backend as a store. -/
def World.view (world : World) : Store Bytes Record := fun key => world.backend.map[key]?

theorem World.mem_map_iff {world : World} {key : Bytes} :
    key ∈ world.backend.map ↔ (world.view key).isSome :=
  Std.ExtTreeMap.mem_iff_isSome_getElem?

theorem World.map_eq_of_view_eq {first second : World} (same : first.view = second.view) :
    first.backend.map = second.backend.map :=
  Std.ExtTreeMap.ext_getElem? fun key => congrFun same key

/-- The event a mutation stands for; a malformed one stands for none. -/
def Mutation.event? (mutation : Mutation) : Option (Event Bytes Record) :=
  match mutation.type with
  | .putRecord => mutation.record.map (.put mutation.key)
  | .delKey => some (.del mutation.key)
  | .clearAll => some .clear
  | .unlisted _ _ => none

/-- The events of a batch. -/
def events (batch : MutationBatch) : List (Event Bytes Record) := batch.filterMap Mutation.event?

@[simp] theorem events_nil : events [] = [] := rfl

@[simp] theorem events_append (first second : MutationBatch) :
    events (first ++ second) = events first ++ events second := List.filterMap_append

@[simp] theorem events_put (key : Bytes) (record : Record) (ts : Int64) (batch : MutationBatch) :
    events (Mutation.put key record ts :: batch) = .put key record :: events batch := rfl

@[simp] theorem events_del (key : Bytes) (ts : Int64) (batch : MutationBatch) :
    events (Mutation.del key ts :: batch) = .del key :: events batch := rfl

/-- Only a `PutRecord` with a record stands for a put. -/
theorem Mutation.of_event_put {mutation : Mutation} {key : Bytes} {record : Record}
    (found : mutation.event? = some (.put key record)) :
    mutation.key = key ∧ mutation.record = some record := by
  unfold Mutation.event? at found
  cases type : mutation.type with
  | putRecord =>
    rw [type] at found
    obtain ⟨held, stored, same⟩ := Option.map_eq_some_iff.mp found
    obtain ⟨rfl, rfl⟩ := Event.put.inj same
    exact ⟨rfl, stored⟩
  | delKey => rw [type] at found; cases found
  | clearAll => rw [type] at found; cases found
  | unlisted code outside => rw [type] at found; cases found

/-- A value a client can see: well formed, and no empty container. -/
structure DataValue.Proper (value : DataValue) : Prop where
  wellFormed : value.WellFormed
  occupied : ¬ value.Vacant

/-! ### Steps on a world -/

/-- The world after a `putRecord`. -/
def World.put (world : World) (key : Bytes) (record : Record) : World :=
  { world with backend := (world.backend.putRecord key record).2 }

/-- The world after a `delKey`. -/
def World.drop (world : World) (key : Bytes) : World :=
  { world with backend := (world.backend.delKey key).2 }

/-- The world after a reading of the environment. -/
def World.tick (world : World) : World :=
  { world with readings := world.readings + 1 }

/-- No storage limit is set. -/
def World.Unlimited (world : World) : Prop := world.backend.Unlimited

theorem getElem?_insert_eq {ν : Type} (map : Dict ν) (key : Bytes) (value : ν) (other : Bytes) :
    (map.insert key value)[other]? = if other = key then some value else map[other]? := by
  rw [Std.ExtTreeMap.getElem?_insert]
  refine if_congr ?_ rfl rfl
  exact ⟨fun same => (Std.LawfulEqCmp.eq_of_compare same).symm, fun same => by simp [same]⟩

theorem getElem?_erase_eq {ν : Type} (map : Dict ν) (key other : Bytes) :
    (map.erase key)[other]? = if other = key then none else map[other]? := by
  rw [Std.ExtTreeMap.getElem?_erase]
  refine if_congr ?_ rfl rfl
  exact ⟨fun same => (Std.LawfulEqCmp.eq_of_compare same).symm, fun same => by simp [same]⟩

section Steps

variable {world : World}

theorem World.put_view (unlimited : world.Unlimited) (key : Bytes) (record : Record) :
    (world.put key record).view = (Event.put key record).apply world.view := by
  funext other
  rw [World.view, World.put, (putRecord_of_unlimited unlimited key record).2.1,
    getElem?_insert_eq, Event.apply, Function.update_apply]
  rfl

@[simp] theorem World.drop_view (key : Bytes) :
    (world.drop key).view = (Event.del key).apply world.view := by
  funext other
  rw [World.view, World.drop, delKey_map, getElem?_erase_eq, Event.apply, Function.update_apply]
  rfl

@[simp] theorem World.tick_view : world.tick.view = world.view := rfl

theorem World.Unlimited.put (unlimited : world.Unlimited) (key : Bytes) (record : Record) :
    (world.put key record).Unlimited := (putRecord_of_unlimited unlimited key record).2.2

theorem World.Unlimited.drop (unlimited : world.Unlimited) (key : Bytes) :
    (world.drop key).Unlimited := delKey_unlimited unlimited key

theorem World.Unlimited.tick (unlimited : world.Unlimited) : world.tick.Unlimited := unlimited

end Steps

/-! ### Execution of the single calls -/

namespace Env

variable {env : Env} {world : World} {α β : Type}

@[simp] theorem exec_pure (value : α) : env.exec (pure value) world = (value, world) := rfl

@[simp] theorem exec_bind (first : Engine α) (rest : α → Engine β) :
    env.exec (first >>= rest) world =
      env.exec (rest (env.exec first world).1) (env.exec first world).2 :=
  Program.run_bind _ _ _ _

@[simp] theorem exec_getRecord (key : Bytes) :
    env.exec (getRecord key) world = (world.view key, world) := rfl

@[simp] theorem exec_nowEpochUs :
    env.exec nowEpochUs world = (env.now world.readings, world.tick) := rfl

@[simp] theorem exec_delKey (key : Bytes) :
    env.exec (delKey key) world = ((world.backend.delKey key).1, world.drop key) := rfl

theorem exec_putRecord (unlimited : world.Unlimited) (key : Bytes) (record : Record) :
    env.exec (putRecord key record) world = (true, world.put key record) :=
  Prod.ext (putRecord_of_unlimited unlimited key record).1 rfl

end Env

/-! ### Shapes of batches -/

/-- The batches a command on `key` can return, when the key holds `held` at its start and the
environment has been read `readings` times at its end. -/
inductive BatchShape (env : Env) (held : Option Record) (readings : Nat) (key : Bytes) :
    MutationBatch → Prop
  | nothing : BatchShape env held readings key []
  | put (record : Record) (ts : Int64) (proper : record.value.Proper) :
      BatchShape env held readings key [.put key record ts]
  | del (ts : Int64) : BatchShape env held readings key [.del key ts]
  | create (type : DataType) (record : Record) (ts ts' : Int64) (container : type ≠ .string)
      (proper : record.value.Proper) (absent : held = none) :
      BatchShape env held readings key
        [.put key { value := .blank type } ts, .put key record ts']
  | recreate (old : Record) (reading : Nat) (type : DataType) (record : Record) (ts ts' : Int64)
      (container : type ≠ .string) (proper : record.value.Proper) (stale : held = some old)
      (past : reading < readings) (expired : isExpired old (env.now reading) = true) :
      BatchShape env held readings key
        [.del key (env.now reading), .put key { value := .blank type } ts, .put key record ts']

theorem BatchShape.mono {env : Env} {held : Option Record} {readings readings' : Nat} {key : Bytes}
    {batch : MutationBatch} (shape : BatchShape env held readings key batch)
    (later : readings ≤ readings') : BatchShape env held readings' key batch := by
  cases shape with
  | nothing => exact .nothing
  | put record ts proper => exact .put record ts proper
  | del ts => exact .del ts
  | create type record ts ts' container proper absent =>
    exact .create type record ts ts' container proper absent
  | recreate old reading type record ts ts' container proper stale past expired =>
    exact .recreate old reading type record ts ts' container proper stale (past.trans_le later)
      expired

/-- Every mutation of a command is a put of a well-formed record or a deletion, on its key. -/
theorem BatchShape.mem {env : Env} {held : Option Record} {readings : Nat} {key : Bytes}
    {batch : MutationBatch} (shape : BatchShape env held readings key batch) {mutation : Mutation}
    (member : mutation ∈ batch) :
    (∃ ts, mutation = .del key ts) ∨
      ∃ record ts, record.value.WellFormed ∧ mutation = .put key record ts := by
  cases shape with
  | nothing => cases member
  | put record ts proper =>
    obtain rfl := List.mem_singleton.mp member
    exact Or.inr ⟨record, ts, proper.wellFormed, rfl⟩
  | del ts =>
    obtain rfl := List.mem_singleton.mp member
    exact Or.inl ⟨ts, rfl⟩
  | create type record ts ts' container proper absent =>
    simp only [List.mem_cons, List.not_mem_nil, or_false] at member
    rcases member with rfl | rfl
    · exact Or.inr ⟨_, ts, DataValue.blank_wellFormed type, rfl⟩
    · exact Or.inr ⟨record, ts', proper.wellFormed, rfl⟩
  | recreate old reading type record ts ts' container proper stale past expired =>
    simp only [List.mem_cons, List.not_mem_nil, or_false] at member
    rcases member with rfl | rfl | rfl
    · exact Or.inl ⟨_, rfl⟩
    · exact Or.inr ⟨_, ts, DataValue.blank_wellFormed type, rfl⟩
    · exact Or.inr ⟨record, ts', proper.wellFormed, rfl⟩

/-- The empty container in the middle of a batch is overwritten by its end: a record that is there
afterwards was there before, or is proper. -/
theorem BatchShape.proper {env : Env} {held : Option Record} {readings : Nat} {key : Bytes}
    {batch : MutationBatch} (shape : BatchShape env held readings key batch)
    {store : Store Bytes Record} {other : Bytes} {record : Record}
    (found : replay (events batch) store other = some record) :
    store other = some record ∨ record.value.Proper := by
  cases shape with
  | nothing => exact Or.inl found
  | put new ts proper =>
    simp only [events_put, events_nil, replay_cons, replay_nil, Event.apply,
      Function.update_apply] at found
    split at found
    · obtain rfl := Option.some.inj found
      exact Or.inr proper
    · exact Or.inl found
  | del ts =>
    simp only [events_del, events_nil, replay_cons, replay_nil, Event.apply,
      Function.update_apply] at found
    split at found
    · cases found
    · exact Or.inl found
  | create type new ts ts' container proper absent =>
    simp only [events_put, events_nil, replay_cons, replay_nil, Event.apply, Function.update_idem,
      Function.update_apply] at found
    split at found
    · obtain rfl := Option.some.inj found
      exact Or.inr proper
    · exact Or.inl found
  | recreate old reading type new ts ts' container proper stale past expired =>
    simp only [events_put, events_del, events_nil, replay_cons, replay_nil, Event.apply,
      Function.update_idem, Function.update_apply] at found
    split at found
    · obtain rfl := Option.some.inj found
      exact Or.inr proper
    · exact Or.inl found

/-- **What running a command on `key` does.** -/
structure Effect (env : Env) (key : Bytes) (before : World) (batch : MutationBatch)
    (after : World) : Prop where
  unlimited : after.Unlimited
  readings : before.readings ≤ after.readings
  view : after.view = replay (events batch) before.view
  shape : BatchShape env (before.view key) after.readings key batch

namespace Effect

variable {env : Env} {key : Bytes} {before after : World} {batch : MutationBatch}

theorem tickAfter (effect : Effect env key before batch after) :
    Effect env key before batch after.tick where
  unlimited := effect.unlimited.tick
  readings := effect.readings.trans (Nat.le_succ _)
  view := effect.view
  shape := effect.shape.mono (Nat.le_succ _)

theorem tickBefore (effect : Effect env key before.tick batch after) :
    Effect env key before batch after where
  unlimited := effect.unlimited
  readings := (Nat.le_succ _).trans effect.readings
  view := effect.view
  shape := effect.shape

theorem nothing (unlimited : before.Unlimited) : Effect env key before [] before where
  unlimited := unlimited
  readings := le_rfl
  view := rfl
  shape := .nothing

theorem put (unlimited : before.Unlimited) {record : Record} (proper : record.value.Proper)
    (ts : Int64) : Effect env key before [.put key record ts] (before.put key record) where
  unlimited := unlimited.put key record
  readings := le_rfl
  view := World.put_view unlimited key record
  shape := .put record ts proper

theorem del (unlimited : before.Unlimited) (ts : Int64) :
    Effect env key before [.del key ts] (before.drop key) where
  unlimited := unlimited.drop key
  readings := le_rfl
  view := World.drop_view key
  shape := .del ts

theorem create (unlimited : before.Unlimited) {type : DataType} (container : type ≠ .string)
    {record : Record} (proper : record.value.Proper) (absent : before.view key = none)
    (ts ts' : Int64) :
    Effect env key before [.put key { value := .blank type } ts, .put key record ts']
      ((before.put key { value := .blank type }).tick.put key record) where
  unlimited := (unlimited.put _ _).tick.put _ _
  readings := Nat.le_succ _
  view := by
    rw [World.put_view (unlimited.put _ _).tick, World.tick_view, World.put_view unlimited]
    rfl
  shape := .create type record ts ts' container proper absent

theorem recreate (unlimited : before.Unlimited) {type : DataType} (container : type ≠ .string)
    {record old : Record} (proper : record.value.Proper) (stale : before.view key = some old)
    (expired : isExpired old (env.now before.readings) = true) (ts ts' : Int64) :
    Effect env key before
      [.del key (env.now before.readings), .put key { value := .blank type } ts,
        .put key record ts']
      (((before.tick.drop key).put key { value := .blank type }).tick.put key record) where
  unlimited := ((unlimited.tick.drop _).put _ _).tick.put _ _
  readings := by
    show before.readings ≤ before.readings + 1 + 1
    omega
  view := by
    rw [World.put_view ((unlimited.tick.drop _).put _ _).tick, World.tick_view,
      World.put_view (unlimited.tick.drop _), World.drop_view, World.tick_view]
    rfl
  shape := by
    refine .recreate old before.readings type record ts ts' container proper stale ?_ expired
    show before.readings < before.readings + 1 + 1
    omega

end Effect

end SunKV.Storage
