/-
**Failures: when a command fails, and what it leaves behind.**

A command fails on its arguments (`Command.invalid`), on the type of the live record
(`Command.mistyped`), or on a record the storage limit refuses (`Command.writes` lists the records
it stores).

* `Command.status_eq` — the status, from the state before.
* `Command.keeps_of_failure` — a command that fails leaves its key as it was, or without an expired
  record; the one exception is `Stranded`: a container created on demand that fits the limit only
  as long as it is empty.
* `unchanged_of_failure_iff` — so a failure changes no live record and adds no key, except there.
-/

import SunKV.Storage.Transition

namespace SunKV.Storage

open SunKV.Lib

/-! ### When a command fails -/

/-- The record has another type than the wanted one. -/
def mismatch (wantType : DataType) : Option Record → Bool
  | none => false
  | some record => decide (record.value.type ≠ wantType)

/-- The type a command wants its key to have. -/
def Command.wants : Command → Option DataType
  | .get _ => some .string
  | .lpush _ _ | .rpush _ _ | .lpop _ | .rpop _ | .llen _ | .lindex _ _ => some .list
  | .sadd _ _ | .srem _ _ | .scard _ | .sismember _ _ | .smembers _ => some .set
  | .hset _ _ _ | .hget _ _ | .hdel _ _ | .hlen _ | .hexists _ _ | .hgetall _ => some .hash
  | .set _ _ | .del _ | .keyExists _ | .expire _ _ | .persist _ | .ttl _ | .pttl _ | .dbsize
  | .keys => none

/-- The live record is of another type than the command wants. -/
def Command.mistyped (command : Command) (held : Option Record) : Bool :=
  match command.wants with
  | none => false
  | some wantType => mismatch wantType held

section Writes

variable (held : Option Record)

/-- The records a write into a container stores, one after the other. -/
def growWrites (wantType : DataType) (fill : DataValue → DataValue × Int) : List Record :=
  match held with
  | none =>
    [{ value := .blank wantType }, { value := (fill (.blank wantType)).1 }]
  | some record =>
    if record.value.type = wantType then [{ record with value := (fill record.value).1 }] else []

/-- The record a removal stores, if something is left. -/
def shrinkWrites (wantType : DataType) (shrink : DataValue → DataValue × Bool × Int) :
    List Record :=
  match held with
  | none => []
  | some record =>
    if record.value.type ≠ wantType then []
    else if (shrink record.value).2.1 then []
    else [{ record with value := (shrink record.value).1 }]

/-- The record a pop stores, if something is left. -/
def popWrites (pop : List Bytes → Option (Bytes × List Bytes)) : List Record :=
  match held with
  | none => []
  | some record =>
    if record.value.type ≠ .list then []
    else
      match pop record.value.listValue with
      | none => []
      | some (_, left) =>
        if left.isEmpty then []
        else [{ record with value := { record.value with listValue := left } }]

/-- **The records a command stores**, given the live record. -/
def Command.writes (now : Int64) : Command → List Record
  | .set _ value => [{ value := DataValue.ofString value }]
  | .expire _ ttlSeconds =>
      if ttlSeconds = 0 then []
      else held.toList.map fun record =>
        { record with expireAtUs := now + ttlSeconds * 1000000 }
  | .persist _ => held.toList.map fun record => { record with expireAtUs := -1 }
  | .lpush _ values => growWrites held .list (pushFront values)
  | .rpush _ values => growWrites held .list (pushBack values)
  | .sadd _ members => growWrites held .set (addMembers members)
  | .hset _ field value => growWrites held .hash (setField field value)
  | .lpop _ => popWrites held popFront
  | .rpop _ => popWrites held popBack
  | .srem _ members => shrinkWrites held .set (dropMembers members)
  | .hdel _ fields => shrinkWrites held .hash (dropFields fields)
  | .get _ | .del _ | .keyExists _ | .ttl _ | .pttl _ | .llen _ | .lindex _ _ | .scard _
  | .sismember _ _ | .smembers _ | .hget _ _ | .hlen _ | .hexists _ _ | .hgetall _ | .dbsize
  | .keys => []

end Writes

/-- The status of a command with valid arguments. -/
def statusOf (accepts : Record → Bool) (mistyped : Bool) (writes : List Record) : StatusCode :=
  if mistyped then .wrongType else if writes.all accepts then .ok else .quotaExceeded

section Status

variable {α : Type} [Inhabited α] {accepts : Record → Bool} {held : Option Record}

theorem status_store (record : Record) (value : α) :
    (Transition.store accepts held record value).status = statusOf accepts false [record] := by
  unfold Transition.store statusOf
  cases fits : accepts record with
  | true => simp [Transition.ok, fits]
  | false => simp [Transition.err, fits]

theorem status_read (wantType : DataType) (absent : α) (view : DataValue → α) :
    (Transition.read wantType absent view held).status =
      statusOf accepts (mismatch wantType held) [] := by
  cases held with
  | none => rfl
  | some record =>
    unfold Transition.read statusOf mismatch
    by_cases same : record.value.type = wantType
    · simp [same, Transition.ok]
    · simp [same, Transition.err]

theorem status_remove (record : Record) (empty : Bool) (value : α) :
    (Transition.remove accepts held record empty value).status =
      statusOf accepts false (if empty then [] else [record]) := by
  cases empty with
  | true => rfl
  | false => exact status_store record value

theorem status_grow (wantType : DataType) (fill : DataValue → DataValue × Int) :
    (Transition.grow accepts wantType fill held).status =
      statusOf accepts (mismatch wantType held) (growWrites held wantType fill) := by
  cases held with
  | none =>
    unfold Transition.grow growWrites
    dsimp only
    split
    case isTrue fits =>
      rw [status_store]
      simp [statusOf, mismatch, fits]
    case isFalse full =>
      simp [statusOf, mismatch, full, Transition.err]
  | some record =>
    unfold Transition.grow growWrites mismatch
    dsimp only
    by_cases same : record.value.type = wantType
    · rw [if_pos same, if_pos same, status_store]
      simp [same]
    · rw [if_neg same]
      simp [same, statusOf, Transition.err]

theorem status_shrink (wantType : DataType) (shrink : DataValue → DataValue × Bool × Int) :
    (Transition.shrink accepts wantType shrink held).status =
      statusOf accepts (mismatch wantType held) (shrinkWrites held wantType shrink) := by
  cases held with
  | none => rfl
  | some record =>
    unfold Transition.shrink shrinkWrites mismatch
    dsimp only
    by_cases same : record.value.type = wantType
    · rw [if_neg (not_not.mpr same), if_neg (not_not.mpr same), status_remove]
      simp [same]
    · rw [if_pos same]
      simp [same, statusOf, Transition.err]

theorem status_pop (pop : List Bytes → Option (Bytes × List Bytes)) :
    (Transition.pop accepts pop held).status =
      statusOf accepts (mismatch .list held) (popWrites held pop) := by
  cases held with
  | none => rfl
  | some record =>
    unfold Transition.pop popWrites mismatch
    dsimp only
    by_cases same : record.value.type = .list
    · rw [if_neg (not_not.mpr same), if_neg (not_not.mpr same)]
      cases pop record.value.listValue with
      | none => simp [same, statusOf, Transition.ok]
      | some popped =>
        dsimp only
        rw [status_remove]
        simp [same]
    · rw [if_pos same]
      simp [same, statusOf, Transition.err]

theorem status_expire (now ttlSeconds : Int64) :
    (Transition.expire accepts now ttlSeconds held).status =
      statusOf accepts false (if ttlSeconds = 0 then []
        else held.toList.map fun record =>
          { record with expireAtUs := now + ttlSeconds * 1000000 }) := by
  cases held with
  | none =>
    split
    · rfl
    · rfl
  | some record =>
    unfold Transition.expire
    dsimp only
    split
    · rfl
    · exact status_store _ _

theorem status_persist :
    (Transition.persist accepts held).status =
      statusOf accepts false (held.toList.map fun record => { record with expireAtUs := -1 }) := by
  cases held with
  | none => rfl
  | some record => exact status_store _ _

theorem status_remaining (unit now : Int64) :
    (Transition.remaining unit now held).status = .ok := by
  cases held with
  | none => rfl
  | some record =>
    unfold Transition.remaining
    dsimp only
    split
    · rfl
    · split
      · rfl
      · rfl

end Status

/-- **The status of a command**, from its arguments, the live record and the limit. -/
theorem Command.status_eq (command : Command) (now : Int64) (accepts : Record → Bool)
    (held : Option Record) :
    (command.transition now accepts held).status =
      if command.invalid then .invalidArg
      else statusOf accepts (command.mistyped (live now held))
        (command.writes (live now held) now) := by
  unfold Command.transition
  split
  · rfl
  · cases command with
    | set k value => exact status_store (α := Bool) _ _
    | lpush k values => exact status_grow _ _
    | rpush k values => exact status_grow _ _
    | sadd k members => exact status_grow _ _
    | hset k field value => exact status_grow _ _
    | lpop k => exact status_pop _
    | rpop k => exact status_pop _
    | srem k members => exact status_shrink _ _
    | hdel k fields => exact status_shrink _ _
    | expire k ttlSeconds => exact status_expire _ _
    | persist k => exact status_persist
    | ttl k => exact status_remaining _ _
    | pttl k => exact status_remaining _ _
    | get k => exact status_read (α := Option Bytes) _ _ _
    | llen k => exact status_read (α := Int) _ _ _
    | lindex k index => exact status_read (α := Option Bytes) _ _ _
    | scard k => exact status_read (α := Int) _ _ _
    | sismember k member => exact status_read (α := Int) _ _ _
    | smembers k => exact status_read (α := List Bytes) _ _ _
    | hget k field => exact status_read (α := Option Bytes) _ _ _
    | hlen k => exact status_read (α := Int) _ _ _
    | hexists k field => exact status_read (α := Int) _ _ _
    | hgetall k => exact status_read (α := List (Bytes × Bytes)) _ _ _
    | del k => rfl
    | keyExists k => rfl
    | dbsize => rfl
    | keys => rfl

/-! ### What a failure leaves behind -/

section Held

variable {α : Type} [Inhabited α] {accepts : Record → Bool} {held : Option Record}

/-- The step succeeds, or leaves what the key held. -/
def Settled (held : Option Record) (step : Transition α) : Prop :=
  step.status = .ok ∨ step.held = held

theorem settled_store (record : Record) (value : α) :
    Settled held (Transition.store accepts held record value) := by
  unfold Transition.store
  split
  · exact .inl rfl
  · exact .inr rfl

theorem settled_remove (record : Record) (empty : Bool) (value : α) :
    Settled held (Transition.remove accepts held record empty value) := by
  cases empty with
  | true => exact .inl rfl
  | false => exact settled_store record value

/-- A read leaves the live record. -/
theorem held_read (wantType : DataType) (absent : α) (view : DataValue → α) :
    (Transition.read wantType absent view held).held = held := by
  cases held with
  | none => rfl
  | some record =>
    unfold Transition.read
    dsimp only
    split
    · rfl
    · rfl

theorem settled_shrink (wantType : DataType) (shrink : DataValue → DataValue × Bool × Int) :
    Settled held (Transition.shrink accepts wantType shrink held) := by
  cases held with
  | none => exact .inl rfl
  | some record =>
    unfold Transition.shrink
    dsimp only
    split
    · exact .inr rfl
    · exact settled_remove _ _ _

theorem settled_pop (pop : List Bytes → Option (Bytes × List Bytes)) :
    Settled held (Transition.pop accepts pop held) := by
  cases held with
  | none => exact .inl rfl
  | some record =>
    unfold Transition.pop
    dsimp only
    split
    · exact .inr rfl
    · cases pop record.value.listValue with
      | none => exact .inl rfl
      | some popped => exact settled_remove _ _ _

theorem settled_expire (now ttlSeconds : Int64) :
    Settled held (Transition.expire accepts now ttlSeconds held) := by
  cases held with
  | none => exact .inl rfl
  | some record =>
    unfold Transition.expire
    dsimp only
    split
    · exact .inl rfl
    · exact settled_store _ _

theorem settled_persist : Settled held (Transition.persist accepts held) := by
  cases held with
  | none => exact .inl rfl
  | some record => exact settled_store _ _

/-- A failed write into a container leaves the live record, or the empty container it has just
created. -/
theorem settled_grow (wantType : DataType) (fill : DataValue → DataValue × Int) :
    Settled held (Transition.grow accepts wantType fill held) ∨
      (held = none ∧ accepts { value := .blank wantType } = true ∧
        accepts { value := (fill (.blank wantType)).1 } = false) := by
  cases held with
  | none =>
    unfold Transition.grow
    dsimp only
    split
    case isTrue fits =>
      cases stored : accepts { value := (fill (.blank wantType)).1 } with
      | true =>
        rw [Transition.store, if_pos stored]
        exact .inl (.inl rfl)
      | false => exact .inr ⟨rfl, fits, rfl⟩
    case isFalse => exact .inl (.inr rfl)
  | some record =>
    unfold Transition.grow
    dsimp only
    split
    · exact .inl (settled_store _ _)
    · exact .inl (.inr rfl)

/-- A container whose filling is refused stays behind, empty. -/
theorem grow_of_stranded {wantType : DataType} {fill : DataValue → DataValue × Int}
    (blank : accepts { value := .blank wantType } = true)
    (filled : accepts { value := (fill (.blank wantType)).1 } = false) :
    Transition.grow accepts wantType fill none =
      .err .quotaExceeded (some { value := .blank wantType }) := by
  simp [Transition.grow, Transition.store, blank, filled]

end Held

/-- What a command does to a container it may have to create. -/
def Command.fills : Command → Option (DataType × (DataValue → DataValue × Int))
  | .lpush _ values => some (.list, pushFront values)
  | .rpush _ values => some (.list, pushBack values)
  | .sadd _ members => some (.set, addMembers members)
  | .hset _ field value => some (.hash, setField field value)
  | _ => none

/-- The key holds no live record, and the limit lets in the empty container that the command
creates but not the filled one. -/
def Command.Stranded (command : Command) (now : Int64) (accepts : Record → Bool)
    (held : Option Record) : Prop :=
  command.invalid = false ∧ live now held = none ∧
    ∃ wantType fill, command.fills = some (wantType, fill) ∧
      accepts { value := .blank wantType } = true ∧
      accepts { value := (fill (.blank wantType)).1 } = false

section Step

variable {now : Int64} {accepts : Record → Bool} {held : Option Record}

theorem Command.act_of_fills {command : Command} {wantType : DataType}
    {fill : DataValue → DataValue × Int} (fills : command.fills = some (wantType, fill)) :
    command.act now accepts held =
      (Transition.grow accepts wantType fill (live now held)).reply .int := by
  cases command with
  | lpush k values => cases fills; rfl
  | rpush k values => cases fills; rfl
  | sadd k members => cases fills; rfl
  | hset k field value => cases fills; rfl
  | _ => cases fills

/-- The command leaves its key as it was, or with its live record only. -/
def Command.Keeps (command : Command) (now : Int64) (accepts : Record → Bool)
    (held : Option Record) : Prop :=
  (command.transition now accepts held).held = held ∨
    (command.transition now accepts held).held = live now held

/-- The commands that only look. `ttl` and `pttl` are not among them: a difference that wraps makes
them drop a live record. -/
def Command.reads : Command → Bool
  | .get _ | .keyExists _ | .llen _ | .lindex _ _ | .scard _ | .sismember _ _ | .smembers _
  | .hget _ _ | .hlen _ | .hexists _ _ | .hgetall _ | .dbsize | .keys => true
  | .set _ _ | .del _ | .expire _ _ | .persist _ | .ttl _ | .pttl _ | .lpush _ _ | .rpush _ _
  | .lpop _ | .rpop _ | .sadd _ _ | .srem _ _ | .hset _ _ _ | .hdel _ _ => false

theorem Command.keeps_of_reads {command : Command} (reads : command.reads = true) :
    command.Keeps now accepts held := by
  cases command with
  | get k => exact Or.inr (held_read (α := Option Bytes) _ _ _)
  | keyExists k => exact Or.inr rfl
  | llen k => exact Or.inr (held_read (α := Int) _ _ _)
  | lindex k index => exact Or.inr (held_read (α := Option Bytes) _ _ _)
  | scard k => exact Or.inr (held_read (α := Int) _ _ _)
  | sismember k member => exact Or.inr (held_read (α := Int) _ _ _)
  | smembers k => exact Or.inr (held_read (α := List Bytes) _ _ _)
  | hget k field => exact Or.inr (held_read (α := Option Bytes) _ _ _)
  | hlen k => exact Or.inr (held_read (α := Int) _ _ _)
  | hexists k field => exact Or.inr (held_read (α := Int) _ _ _)
  | hgetall k => exact Or.inr (held_read (α := List (Bytes × Bytes)) _ _ _)
  | dbsize => exact Or.inl rfl
  | keys => exact Or.inl rfl
  | _ => cases reads

/-- A command that fails leaves its key as it was, or with its live record only, or `Stranded`. -/
theorem Command.keeps_of_failure (command : Command)
    (failed : (command.transition now accepts held).status ≠ .ok) :
    command.Keeps now accepts held ∨ command.Stranded now accepts held := by
  by_cases reads : command.reads = true
  · exact .inl (keeps_of_reads reads)
  unfold Command.Keeps
  unfold Command.transition at failed ⊢
  split
  case isTrue => exact .inl (.inl rfl)
  case isFalse valid =>
    rw [if_neg valid] at failed
    have grown : ∀ {wantType fill}, command.fills = some (wantType, fill) →
        ((command.act now accepts held).held = held ∨
          (command.act now accepts held).held = live now held) ∨
          command.Stranded now accepts held := by
      intro wantType fill fills
      rw [act_of_fills fills] at failed ⊢
      rcases settled_grow wantType fill with settled | ⟨none, blank, filled⟩
      · exact .inl (.inr (settled.resolve_left failed))
      · exact .inr ⟨by simpa using valid, none, wantType, fill, fills, blank, filled⟩
    cases command with
    | lpush k values => exact grown rfl
    | rpush k values => exact grown rfl
    | sadd k members => exact grown rfl
    | hset k field value => exact grown rfl
    | set k value => exact .inl (.inl ((settled_store (α := Bool) _ _).resolve_left failed))
    | lpop k => exact .inl (.inr ((settled_pop _).resolve_left failed))
    | rpop k => exact .inl (.inr ((settled_pop _).resolve_left failed))
    | srem k members => exact .inl (.inr ((settled_shrink _ _).resolve_left failed))
    | hdel k fields => exact .inl (.inr ((settled_shrink _ _).resolve_left failed))
    | expire k ttlSeconds => exact .inl (.inr ((settled_expire _ _).resolve_left failed))
    | persist k => exact .inl (.inr (settled_persist.resolve_left failed))
    | ttl k => exact absurd (status_remaining _ _) failed
    | pttl k => exact absurd (status_remaining _ _) failed
    | del k => exact absurd rfl failed
    | _ => exact absurd rfl reads

/-- A stranded command is refused, and a key without a live record holds an empty container. -/
theorem Command.Stranded.transition_eq {command : Command}
    (stranded : command.Stranded now accepts held) :
    (command.transition now accepts held).status = .quotaExceeded ∧
      live now held = none ∧
      ∃ wantType, (command.transition now accepts held).held =
        some { value := .blank wantType } := by
  obtain ⟨valid, none, wantType, fill, fills, blank, filled⟩ := stranded
  have step : command.transition now accepts held =
      (Transition.err .quotaExceeded (some { value := .blank wantType })).reply .int := by
    rw [Command.transition, if_neg (by simp [valid]), act_of_fills fills, none,
      grow_of_stranded blank filled]
  rw [step]
  exact ⟨rfl, none, wantType, rfl⟩

/-- A failure keeps the live record and adds none, unless the command is stranded. -/
theorem Command.kept_of_failure_iff (command : Command) (now : Int64) (accepts : Record → Bool)
    (held : Option Record) :
    ((command.transition now accepts held).status ≠ .ok →
      live now (command.transition now accepts held).held = live now held ∧
        ((command.transition now accepts held).held.isSome → held.isSome)) ↔
      ¬ command.Stranded now accepts held := by
  constructor
  · rintro kept stranded
    obtain ⟨refused, none, wantType, left⟩ := stranded.transition_eq
    obtain ⟨same, -⟩ := kept (by rw [refused]; decide)
    rw [none, left, live_of_forever] at same
    exact absurd same (by simp)
  · intro sound failed
    rcases command.keeps_of_failure failed with (same | purged) | stranded
    · rw [same]
      exact ⟨rfl, id⟩
    · rw [purged, live_live]
      refine ⟨rfl, fun found => ?_⟩
      obtain ⟨record, found⟩ := Option.isSome_iff_exists.mp found
      rw [(live_eq_some found).1]
      rfl
    · exact absurd stranded sound

end Step

/-- `dbsize` and `keys` succeed, and leave the backend alone. -/
theorem Command.exec_of_no_key (env : Env) (world : World) {command : Command}
    (nowhere : command.key? = none) :
    (env.exec command.program world).1.status = .ok ∧
      (env.exec command.program world).2.backend = world.backend := by
  cases command with
  | dbsize => exact ⟨rfl, rfl⟩
  | keys => exact ⟨rfl, rfl⟩
  | _ => cases nowhere

/-- **A failed command changes no live record and adds no key**, in every state and under every
storage limit, exactly when it is not stranded: the limit does not lie between the empty container
that it creates and the filled one. -/
theorem unchanged_of_failure_iff (env : Env) (world : World) (command : Command) :
    let now := env.now world.readings
    let ran := env.exec command.program world
    (ran.1.status ≠ .ok →
      (∀ key, live now (ran.2.view key) = live now (world.view key)) ∧
        ∀ key, key ∈ ran.2.backend.map → key ∈ world.backend.map) ↔
      ∀ key, command.key? = some key →
        ¬ command.Stranded now (world.backend.accepts key) (world.view key) := by
  intro now ran
  cases about : command.key? with
  | none =>
    have fine : ran.1.status = .ok := (command.exec_of_no_key env world about).1
    exact ⟨fun _ key found => (Option.some_ne_none key found.symm).elim,
      fun _ failed => absurd fine failed⟩
  | some key =>
    obtain ⟨status, -, view, -⟩ := command.exec_eq env world about
    have found : ∀ k, k ∈ ran.2.backend.map ↔
        (Function.update world.view key (command.transition now (world.backend.accepts key)
          (world.view key)).held k).isSome := fun k => by
      rw [← view]
      exact World.mem_map_iff
    rw [status, view]
    simp only [found, World.mem_map_iff]
    rw [Function.forall_update_iff world.view
        fun k held => live now held = live now (world.view k),
      Function.forall_update_iff world.view
        fun k held => held.isSome = true → (world.view k).isSome = true]
    simpa using command.kept_of_failure_iff now (world.backend.accepts key) (world.view key)

/-- A limit that lets in the empty list under a key, and no more. -/
def emptyListLimit : World := { backend := { maxStorageBytes := 133 } }

/-- `LPUSH k v` on an empty store with room for an empty list is refused, and leaves the key `k`
behind. -/
theorem stranded_lpush :
    let ran := (Env.still 0).exec (Command.lpush [107] [[118]]).program emptyListLimit
    ran.1.status = .quotaExceeded ∧ emptyListLimit.view [107] = none ∧
      live 0 (ran.2.view [107]) = some { value := .blank .list } := by
  decide

end SunKV.Storage
