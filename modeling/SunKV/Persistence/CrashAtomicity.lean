/-
**A log cut anywhere, and the states a command goes through.**

A command that creates a container submits more than one mutation: the lazy deletion of an expired
record, the empty container, the filled one. Each is an entry of its own, so a cut can fall between
them. `HalfDone batches size` says that it falls inside the last entry of such a batch.

`recoverInto_truncated_iff` — recovery from the log cut at `size` gives the live records the
running engine had after some prefix of the commands exactly when it does not:

* `liveAt_entriesWithin` — before the last entry nothing a client sees has changed;
* `vacant_entriesWithin` — in the last entry the key holds an empty container, which no command
  ever leaves behind.
-/

import SunKV.Persistence.Durability
import SunKV.Persistence.Sessions

namespace SunKV.Persistence

open SunKV.Lib SunKV.Storage

/-! ### Runs of commands -/

/-- The engine after a list of commands. -/
def runCommands (env : Env) (commands : List Command) (world : World) : World :=
  commands.foldl (fun world command => (env.exec command.program world).2) world

/-- The batches a list of commands submits, one per command. -/
def batchesOf (env : Env) : List Command → World → List MutationBatch
  | [], _ => []
  | command :: commands, world =>
    (env.exec command.program world).1.mutations ::
      batchesOf env commands (env.exec command.program world).2

/-- **The cut falls inside the last entry of a batch of two or more.** -/
def HalfDone : List MutationBatch → Nat → Prop
  | [], _ => False
  | batch :: batches, size =>
    (2 ≤ batch.length ∧ (encodeBatch batch.dropLast).length ≤ size ∧
      size < (encodeBatch batch).length) ∨
    ((encodeBatch batch).length ≤ size ∧ HalfDone batches (size - (encodeBatch batch).length))

instance HalfDone.decide : (batches : List MutationBatch) → (size : Nat) →
    Decidable (HalfDone batches size)
  | [], _ => isFalse id
  | batch :: batches, size =>
    have := HalfDone.decide batches (size - (encodeBatch batch).length)
    inferInstanceAs (Decidable (_ ∨ _))

theorem serveAll_world (env : Env) (lister : Lister) (base : Bytes) (commands : List Command)
    (node : Node) :
    (serveAll env lister base (commands.map .command) node).world =
      runCommands env commands node.world := by
  induction commands generalizing node with
  | nil => rfl
  | cons command commands ih => exact ih _

theorem runLog_commands (env : Env) (lister : Lister) (base : Bytes) (commands : List Command)
    (node : Node) :
    runLog env lister base (commands.map .command) node =
      (batchesOf env commands node.world).flatten := by
  induction commands generalizing node with
  | nil => rfl
  | cons command commands ih =>
    rw [List.map_cons, runLog, ih, batchesOf, List.flatten_cons]
    rfl

/-! ### Cuts inside and between batches -/

theorem entriesWithin_append_of_le {front : List Mutation} {size : Nat}
    (fits : (encodeBatch front).length ≤ size) (back : List Mutation) :
    entriesWithin size (front ++ back) =
      front ++ entriesWithin (size - (encodeBatch front).length) back := by
  induction front generalizing size with
  | nil => rfl
  | cons mutation front ih =>
    rw [encodeBatch_cons, List.length_append] at fits
    rw [List.cons_append, entriesWithin, if_pos (by omega), ih (by omega), encodeBatch_cons,
      List.length_append, Nat.sub_add_eq]
    rfl

theorem entriesWithin_append_of_lt {front : List Mutation} {size : Nat}
    (short : size < (encodeBatch front).length) (back : List Mutation) :
    entriesWithin size (front ++ back) = entriesWithin size front := by
  induction front generalizing size with
  | nil => exact absurd short (Nat.not_lt_zero _)
  | cons mutation front ih =>
    rw [encodeBatch_cons, List.length_append] at short
    rw [List.cons_append, entriesWithin, entriesWithin]
    split
    · rw [ih (by omega)]
    · rfl

section Batch

variable {env : Env} {readings : Nat} {key : Bytes} {batch : MutationBatch}
  {store : Store Bytes Record} {size : Nat}

/-- Deleting a record that has expired changes nothing a client sees later. -/
theorem liveAt_del {old : Record} {reading : Nat} (held : store key = some old)
    (expired : isExpired old (env.now reading) = true) {time : Int64}
    (later : env.now reading ≤ time) :
    liveAt time ((Event.del key).apply store) = liveAt time store := by
  refine Forgets.living_eq fun other => ?_
  rw [Event.apply, Function.update_apply]
  split
  case isTrue same =>
    rw [same]
    refine Or.inr ⟨rfl, old, held, ?_⟩
    simp [isExpired_mono later expired]
  case isFalse => exact Or.inl rfl

/-- **Before its last entry, a command has changed nothing a client sees.** -/
theorem liveAt_entriesWithin (shape : BatchShape env (store key) readings key batch)
    (short : size < (encodeBatch batch).length)
    (early : ¬ (2 ≤ batch.length ∧ (encodeBatch batch.dropLast).length ≤ size))
    {time : Int64} (later : ∀ reading < readings, env.now reading ≤ time) :
    liveAt time (replay (events (entriesWithin size batch)) store) = liveAt time store := by
  cases shape with
  | nothing => exact absurd short (Nat.not_lt_zero _)
  | put record ts proper =>
    rw [encodeBatch_cons, encodeBatch_nil, List.append_nil] at short
    rw [entriesWithin, if_neg (by omega)]
    rfl
  | del ts =>
    rw [encodeBatch_cons, encodeBatch_nil, List.append_nil] at short
    rw [entriesWithin, if_neg (by omega)]
    rfl
  | create type record ts ts' container proper absent =>
    have before : ¬ (encodeBatch [Mutation.put key { value := .blank type } ts]).length ≤ size :=
      fun fits => early ⟨le_rfl, fits⟩
    rw [encodeBatch_cons, encodeBatch_nil, List.append_nil] at before
    rw [entriesWithin, if_neg before]
    rfl
  | recreate old reading type record ts ts' container proper stale past expired =>
    have before : ¬ (encodeBatch [Mutation.del key (env.now reading),
        Mutation.put key { value := .blank type } ts]).length ≤ size :=
      fun fits => early ⟨Nat.le_succ 2, fits⟩
    simp only [encodeBatch_cons, encodeBatch_nil, List.append_nil, List.length_append] at before
    rw [entriesWithin]
    split
    · rw [entriesWithin, if_neg (by omega)]
      exact liveAt_del stale expired (later reading past)
    · rfl

/-- **Inside its last entry, a command has put an empty container**, which does not expire. -/
theorem vacant_entriesWithin (shape : BatchShape env (store key) readings key batch)
    (short : size < (encodeBatch batch).length) (long : 2 ≤ batch.length)
    (half : (encodeBatch batch.dropLast).length ≤ size) :
    ∃ type, type ≠ DataType.string ∧
      replay (events (entriesWithin size batch)) store key = some { value := .blank type } := by
  cases shape with
  | nothing => exact absurd long (by decide)
  | put record ts proper => exact absurd long (by simp)
  | del ts => exact absurd long (by simp)
  | create type record ts ts' container proper absent =>
    refine ⟨type, container, ?_⟩
    simp only [encodeBatch_cons, encodeBatch_nil, List.append_nil, List.length_append,
      List.dropLast_cons_cons, List.dropLast_singleton] at half short
    rw [entriesWithin, if_pos half, entriesWithin, if_neg (by omega)]
    simp [Event.apply]
  | recreate old reading type record ts ts' container proper stale past expired =>
    refine ⟨type, container, ?_⟩
    simp only [encodeBatch_cons, encodeBatch_nil, List.append_nil, List.length_append,
      List.dropLast_cons_cons, List.dropLast_singleton] at half short
    rw [entriesWithin, if_pos (by omega), entriesWithin, if_pos (by omega), entriesWithin,
      if_neg (by omega)]
    simp [Event.apply]

end Batch

/-! ### Cuts of a run -/

section Run

variable {env : Env} {world : World}

theorem exec_proper (unlimited : world.Unlimited) (proper : ProperStore world.view)
    (command : Command) : ProperStore (env.exec command.program world).2.view :=
  worldAfter_proper proper (Request.free_of_unlimited unlimited (.command command))

theorem runCommands_facts (unlimited : world.Unlimited) (proper : ProperStore world.view)
    (commands : List Command) :
    (runCommands env commands world).Unlimited ∧
      ProperStore (runCommands env commands world).view ∧
      world.readings ≤ (runCommands env commands world).readings := by
  induction commands generalizing world with
  | nil => exact ⟨unlimited, proper, le_rfl⟩
  | cons command commands ih =>
    have sound := command.sound env unlimited proper
    obtain ⟨unlimited', proper', readings⟩ :=
      ih sound.unlimited (exec_proper unlimited proper command)
    exact ⟨unlimited', proper', sound.readings.trans readings⟩

/-- A cut that leaves no command half done gives the live records after some prefix. -/
theorem exists_prefix_of_not_halfDone (unlimited : world.Unlimited)
    (proper : ProperStore world.view) (commands : List Command) (size : Nat)
    (whole : ¬ HalfDone (batchesOf env commands world) size) :
    ∃ count, ∀ time,
      (∀ reading < (runCommands env commands world).readings, env.now reading ≤ time) →
      liveAt time (replay (events (entriesWithin size (batchesOf env commands world).flatten))
        world.view) = liveAt time (runCommands env (commands.take count) world).view := by
  induction commands generalizing world size with
  | nil => exact ⟨0, fun _ _ => rfl⟩
  | cons command commands ih =>
    have sound : Sound env (command.key?.getD []) world command.program :=
      command.sound env unlimited proper
    have proper' : ProperStore (env.exec command.program world).2.view :=
      exec_proper unlimited proper command
    rw [batchesOf, HalfDone, not_or] at whole
    rw [batchesOf, List.flatten_cons]
    by_cases fits : (encodeBatch (env.exec command.program world).1.mutations).length ≤ size
    · obtain ⟨count, same⟩ := ih sound.unlimited proper' _ fun half => whole.2 ⟨fits, half⟩
      refine ⟨count + 1, fun time later => ?_⟩
      rw [entriesWithin_append_of_le fits, events_append, replay_append, ← sound.view]
      exact same time later
    · refine ⟨0, fun time later => ?_⟩
      rw [entriesWithin_append_of_lt (by omega)]
      refine liveAt_entriesWithin sound.shape (by omega)
        (fun half => whole.1 ⟨half.1, half.2, by omega⟩) fun reading past => later reading ?_
      exact past.trans_le (runCommands_facts sound.unlimited proper' commands).2.2

/-- A cut that leaves a command half done shows an empty container. -/
theorem vacant_of_halfDone (unlimited : world.Unlimited) (proper : ProperStore world.view)
    (commands : List Command) (size : Nat) (half : HalfDone (batchesOf env commands world) size) :
    ∃ key type, type ≠ DataType.string ∧
      replay (events (entriesWithin size (batchesOf env commands world).flatten)) world.view key =
        some { value := .blank type } := by
  induction commands generalizing world size with
  | nil => exact half.elim
  | cons command commands ih =>
    have sound : Sound env (command.key?.getD []) world command.program :=
      command.sound env unlimited proper
    rw [batchesOf, List.flatten_cons]
    rcases half with ⟨long, before, short⟩ | ⟨fits, later⟩
    · rw [entriesWithin_append_of_lt short]
      exact ⟨_, vacant_entriesWithin sound.shape short long before⟩
    · rw [entriesWithin_append_of_le fits, events_append, replay_append, ← sound.view]
      exact ih sound.unlimited (exec_proper unlimited proper command) _ later

end Run

/-! ### Recovery from a cut log -/

theorem blank_vacant {type : DataType} (container : type ≠ .string) :
    (DataValue.blank type).Vacant := by
  cases type with
  | string => exact (container rfl).elim
  | list => rfl
  | set => rfl
  | hash => rfl

/-- What recovery from the log of a run, cut at `size`, leaves in the engine. -/
theorem exec_recoverInto_truncated {env env' : Env} {base : Bytes} {log : List Mutation}
    {node : Node} (durable : Durable env base log node) (lister : Lister) {fresh : World}
    (empty : fresh.backend.map = ∅) (size : Nat) :
    let recovered := env'.exec
      (recoverInto lister base { snapshot := none, wal := truncate base size node.disk.wal }) fresh
    recovered.1 = true ∧
      recovered.2.view = replay (events (entriesWithin size log)) fun _ => none := by
  have file : Single base ((encodeBatch log).take size) (truncate base size node.disk.wal) :=
    durable.file.truncate size
  have nothing : fresh.view = fun _ => none := by
    funext key
    rw [World.view, empty]
    exact Std.ExtTreeMap.getElem?_empty
  have read : readChain lister base (truncate base size node.disk.wal) =
      some (entriesWithin size log) := by
    rw [file.readChain lister, readAllMutations_eq, decodeEntries_take durable.encodable]
  refine exec_recoverInto nothing file.mem_base read (fun mutation member => ?_)
    (fun content stored => by cases stored)
  exact durable.event mutation ((entriesWithin_isPrefix size log).subset member)

/-- **Recovery from a cut log shows the state after some prefix of the commands exactly when the
cut leaves no command half done.** -/
theorem recoverInto_truncated_iff (env : Env) (lister : Lister) (base : Bytes)
    (commands : List Command)
    (sized : ∀ mutation ∈ runLog env lister base (commands.map .command) (Node.start base),
      Sized mutation)
    (size : Nat) (env' : Env) (fresh : World) (empty : fresh.backend.map = ∅) :
    let node := serveAll env lister base (commands.map .command) (Node.start base)
    let recovered := env'.exec
      (recoverInto lister base { snapshot := none, wal := truncate base size node.disk.wal }) fresh
    (recovered.1 = true ∧ ∃ count, ∀ time,
        (∀ reading < node.world.readings, env.now reading ≤ time) →
        liveAt time recovered.2.view =
          liveAt time (runCommands env (commands.take count) {}).view) ↔
      ¬ HalfDone (batchesOf env commands {}) size := by
  intro node recovered
  have durable : Durable env base (runLog env lister base (commands.map .command) (Node.start base))
      node := (Durable.start env base).serveAll lister _ sized
  have log : runLog env lister base (commands.map .command) (Node.start base) =
      (batchesOf env commands {}).flatten := runLog_commands env lister base commands _
  have world : node.world = runCommands env commands {} := serveAll_world env lister base commands _
  have unlimited : World.Unlimited {} := (Durable.start env base).unlimited
  have proper : ProperStore (World.view {}) := (Durable.start env base).proper
  have nothing : World.view {} = fun _ => none := funext fun _ => Std.ExtTreeMap.getElem?_empty
  obtain ⟨done, view⟩ : recovered.1 = true ∧ recovered.2.view = _ :=
    exec_recoverInto_truncated durable lister empty size
  rw [log, ← nothing] at view
  constructor
  · rintro ⟨_, count, same⟩ half
    obtain ⟨key, type, container, held⟩ := vacant_of_halfDone unlimited proper commands size half
    -- at the next reading of the clock the empty container is still there
    have now := same (env.now node.world.readings) fun reading past => env.now_mono past.le
    have found := congrFun now key
    rw [view, liveAt, living, held] at found
    have shown : (runCommands env (commands.take count) {}).view key =
        some { value := .blank type } := (Option.filter_eq_some_iff.mp found.symm).1
    exact ((runCommands_facts unlimited proper _).2.1 key _ shown).occupied
      (blank_vacant container)
  · intro whole
    obtain ⟨count, same⟩ := exists_prefix_of_not_halfDone unlimited proper commands size whole
    refine ⟨done, count, fun time later => ?_⟩
    rw [view]
    rw [world] at later
    exact same time later

/-- A cut inside the first entry of the second command shows the state after the first. -/
theorem recoverInto_truncated_between :
    let node := serveAll (Env.still 0) Lister.sorted [119]
      ([.set [107] [118], .lpush [108] [[1]]].map .command) (Node.start [119])
    let recovered := (Env.still 0).exec (recoverInto Lister.sorted [119]
      { snapshot := none, wal := truncate [119] 70 node.disk.wal }) {}
    recovered.1 = true ∧ ∃ count, liveAt 0 recovered.2.view =
      liveAt 0 (runCommands (Env.still 0) ([.set [107] [118], .lpush [108] [[1]]].take count)
        {}).view := by
  have log : runLog (Env.still 0) Lister.sorted [119]
      ([.set [107] [118], .lpush [108] [[1]]].map .command) (Node.start [119]) =
      [.put [107] { value := .ofString [118] } 0, .put [108] { value := .blank .list } 0,
        .put [108] { value := { DataValue.blank .list with listValue := [[1]] } } 0] := by
    decide +kernel
  have sized : ∀ mutation ∈ runLog (Env.still 0) Lister.sorted [119]
      ([.set [107] [118], .lpush [108] [[1]]].map .command) (Node.start [119]),
      Sized mutation := by
    intro mutation member
    rw [log] at member
    simp only [List.mem_cons, List.not_mem_nil, or_false] at member
    rcases member with rfl | rfl | rfl
    all_goals
      refine ⟨by decide, fun record held => ?_⟩
      obtain rfl := Option.some.inj held
      show _ < _
      decide +kernel
  obtain ⟨done, count, same⟩ := (recoverInto_truncated_iff (Env.still 0) Lister.sorted [119]
    [.set [107] [118], .lpush [108] [[1]]] sized 70 (Env.still 0) {} rfl).mpr (by decide +kernel)
  exact ⟨done, count, same 0 fun _ _ => Int64.le_refl _⟩

/-- A cut between the two entries of the first `LPUSH` on a key: recovery shows an empty list, and
the running engine never did. -/
theorem recoverInto_truncated_half :
    let node := serveAll (Env.still 0) Lister.sorted [119] ([.lpush [107] [[1]]].map .command)
      (Node.start [119])
    let recovered := (Env.still 0).exec (recoverInto Lister.sorted [119]
      { snapshot := none, wal := truncate [119] 58 node.disk.wal }) {}
    recovered.1 = true ∧
      liveAt 0 recovered.2.view [107] = some { value := .blank .list } ∧
      ∀ count, liveAt 0 recovered.2.view ≠
        liveAt 0 (runCommands (Env.still 0) ([.lpush [107] [[1]]].take count) {}).view := by
  refine ⟨by decide +kernel, by decide +kernel, fun count same => ?_⟩
  have shown := congrFun same [107]
  cases count with
  | zero => exact absurd shown (by decide +kernel)
  | succ count =>
    rw [List.take_of_length_le (by simp)] at shown
    exact absurd shown (by decide +kernel)

end SunKV.Persistence
