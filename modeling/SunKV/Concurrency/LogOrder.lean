/-
**The order of the log and the order of the engine.**

A request of a client is two steps: the engine operation, which leaves a batch, and the submission
of the batch. Between the two steps of one client, any step of another may come; nothing ties the
order of submissions to the order of operations.

`Shared` is the engine, the batches waiting to be submitted in the order their operations ran, and
the log. Its invariant `Agrees`: the memory is the replay of the log followed by the waiting
batches. An operation keeps it, unless the storage limit refuses the second of its two writes and so
leaves an empty container that is in no batch; a submission takes a batch out of the middle, which
is harmless if the batches before it mention other keys. `log_agrees` — so if no operation is left
stranded by the limit, and no batch overtakes one with a key in common, the log replays to the
memory.
-/

import SunKV.Persistence.Durability
import SunKV.Storage.Quota

namespace SunKV.Concurrency

open SunKV.Lib SunKV.Storage SunKV.Persistence

/-! ### Steps -/

/-- The engine, the batches waiting to be submitted with their clients, and the log. -/
structure Shared where
  world : World := {}
  waiting : List (Nat × MutationBatch) := []
  log : List Mutation := []

/-- A step: a client's engine operation, or the submission of the batch it left. -/
inductive Step
  | operate (client : Nat) (request : Request)
  | submit (client : Nat)

/-- The waiting batch of a client, and the others. -/
def takeWaiting (client : Nat) :
    List (Nat × MutationBatch) → Option (MutationBatch × List (Nat × MutationBatch))
  | [] => none
  | (owner, batch) :: rest =>
    if owner = client then some (batch, rest)
    else (takeWaiting client rest).map fun taken => (taken.1, (owner, batch) :: taken.2)

/-- **One step.** A client whose batch is waiting submits it before it operates again. -/
def step (env : Env) (shared : Shared) : Step → Option Shared
  | .operate client request =>
    match takeWaiting client shared.waiting with
    | some _ => none
    | none => some
        { shared with
          world := worldAfter env shared.world request
          waiting := shared.waiting ++ [(client, submitted env shared.world request)] }
  | .submit client =>
    match takeWaiting client shared.waiting with
    | none => none
    | some (batch, others) => some { shared with waiting := others, log := shared.log ++ batch }

/-- A run of steps. -/
def run (env : Env) : List Step → Shared → Option Shared
  | [], shared => some shared
  | first :: steps, shared => (step env shared first).bind (run env steps)

/-- **The rule**: the storage limit leaves no operation stranded, and a batch is submitted only when
the batches of earlier operations that still wait mention other keys. -/
def StepOk (env : Env) (shared : Shared) : Step → Prop
  | .operate _ request => request.Free env shared.world
  | .submit client => ∀ batch others, takeWaiting client shared.waiting = some (batch, others) →
      ∀ entry ∈ shared.waiting.takeWhile (fun entry => entry.1 ≠ client),
        Apart (events entry.2) (events batch)

/-- Every step of the run keeps the rule. -/
def Ordered (env : Env) : List Step → Shared → Prop
  | [], _ => True
  | first :: steps, shared =>
    StepOk env shared first ∧ ∀ next, step env shared first = some next → Ordered env steps next

/-! ### The invariant -/

/-- **The memory is the replay of the log and the waiting batches**, up to records that had expired
at a reading of the clock. -/
structure Agrees (env : Env) (shared : Shared) : Prop where
  proper : ProperStore shared.world.view
  memory : Forgets (env.Dead shared.world.readings) shared.world.view
    (replay (events (shared.log ++ shared.waiting.flatMap Prod.snd)) fun _ => none)

/-- An engine that holds nothing yet, with a storage limit; `0` is none. -/
def Shared.start (maxStorageBytes : UInt64) : Shared where
  world := { backend := emptyBackend maxStorageBytes }

theorem Agrees.initial (env : Env) (maxStorageBytes : UInt64) :
    Agrees env (Shared.start maxStorageBytes) where
  proper := (Durable.start env []).proper
  memory := fun _ => Or.inl Std.ExtTreeMap.getElem?_empty

theorem takeWaiting_eq_some {client : Nat} {waiting others : List (Nat × MutationBatch)}
    {batch : MutationBatch} (taken : takeWaiting client waiting = some (batch, others)) :
    ∃ before after, waiting = before ++ (client, batch) :: after ∧ others = before ++ after ∧
      before = waiting.takeWhile fun entry => entry.1 ≠ client := by
  induction waiting generalizing others with
  | nil => cases taken
  | cons entry rest ih =>
    obtain ⟨owner, first⟩ := entry
    rw [takeWaiting] at taken
    split at taken
    case isTrue own =>
      obtain ⟨rfl, rfl⟩ := Prod.mk.inj (Option.some.inj taken)
      exact ⟨[], rest, by rw [own]; rfl, rfl, by simp [own]⟩
    case isFalse other =>
      obtain ⟨⟨batch', others'⟩, found, same⟩ := Option.map_eq_some_iff.mp taken
      obtain ⟨rfl, rfl⟩ := Prod.mk.inj same
      obtain ⟨before, after, rfl, rfl, earlier⟩ := ih found
      refine ⟨(owner, first) :: before, after, rfl, rfl, ?_⟩
      rw [List.takeWhile_cons_of_pos (by simpa using other), ← earlier]

/-- Batches that are apart from a batch one by one are apart from it together. -/
theorem apart_flatMap {before : List (Nat × MutationBatch)} {batch : MutationBatch}
    (each : ∀ entry ∈ before, Apart (events entry.2) (events batch)) :
    Apart (events (before.flatMap Prod.snd)) (events batch) := by
  rintro key ⟨event, member, mentions⟩
  obtain ⟨mutation, inBatches, stands⟩ := List.mem_filterMap.mp member
  obtain ⟨entry, inBefore, inEntry⟩ := List.mem_flatMap.mp inBatches
  exact each entry inBefore key
    ⟨event, List.mem_filterMap.mpr ⟨mutation, inEntry, stands⟩, mentions⟩

theorem Agrees.operate {env : Env} {shared : Shared} (agrees : Agrees env shared) (client : Nat)
    {request : Request} (free : request.Free env shared.world) :
    Agrees env
      { shared with
        world := worldAfter env shared.world request
        waiting := shared.waiting ++ [(client, submitted env shared.world request)] } where
  proper := worldAfter_proper agrees.proper free
  memory := by
    have later : shared.world.readings ≤ (worldAfter env shared.world request).readings :=
      worldAfter_readings request
    have whole : shared.log ++ (shared.waiting ++
        [(client, submitted env shared.world request)]).flatMap Prod.snd =
        (shared.log ++ shared.waiting.flatMap Prod.snd) ++
          submitted env shared.world request := by
      simp
    dsimp only
    rw [whole, events_append, replay_append]
    exact (worldAfter_view agrees.proper free).trans
      ((agrees.memory.replay _).mono fun record dead => dead.mono later)

/-- A submission moves a batch in front of those that ran before it. -/
theorem Agrees.submit {env : Env} {shared : Shared} (agrees : Agrees env shared) {client : Nat}
    (rule : StepOk env shared (.submit client)) {batch : MutationBatch}
    {others : List (Nat × MutationBatch)}
    (taken : takeWaiting client shared.waiting = some (batch, others)) :
    Agrees env { shared with waiting := others, log := shared.log ++ batch } := by
  have apart := rule batch others taken
  obtain ⟨before, after, split, rfl, early⟩ := takeWaiting_eq_some taken
  rw [← early] at apart
  have earlier : Apart (events (before.flatMap Prod.snd)) (events batch) := apart_flatMap apart
  refine ⟨agrees.proper, ?_⟩
  have memory := agrees.memory
  have old : events (shared.log ++ shared.waiting.flatMap Prod.snd) =
      events shared.log ++ ((events (before.flatMap Prod.snd) ++ events batch) ++
        events (after.flatMap Prod.snd)) := by
    simp [split]
  have new : events (shared.log ++ batch ++ (before ++ after).flatMap Prod.snd) =
      events shared.log ++ ((events batch ++ events (before.flatMap Prod.snd)) ++
        events (after.flatMap Prod.snd)) := by
    simp
  rw [old, replay_append, replay_append, replay_comm earlier] at memory
  dsimp only
  rw [new, replay_append, replay_append]
  exact memory

/-- **Every step that keeps the rule keeps the invariant.** -/
theorem Agrees.step {env : Env} {shared next : Shared} (agrees : Agrees env shared) {first : Step}
    (rule : StepOk env shared first) (stepped : step env shared first = some next) :
    Agrees env next := by
  cases first with
  | operate client request =>
    cases taken : takeWaiting client shared.waiting with
    | some found =>
      simp only [Concurrency.step, taken] at stepped
      cases stepped
    | none =>
      simp only [Concurrency.step, taken] at stepped
      obtain rfl := Option.some.inj stepped
      exact agrees.operate client rule
  | submit client =>
    cases taken : takeWaiting client shared.waiting with
    | none =>
      simp only [Concurrency.step, taken] at stepped
      cases stepped
    | some found =>
      obtain ⟨batch, others⟩ := found
      simp only [Concurrency.step, taken] at stepped
      obtain rfl := Option.some.inj stepped
      exact agrees.submit rule taken

theorem Agrees.run {env : Env} {steps : List Step} {shared final : Shared}
    (agrees : Agrees env shared) (ordered : Ordered env steps shared)
    (ran : run env steps shared = some final) : Agrees env final := by
  induction steps generalizing shared with
  | nil =>
    obtain rfl := Option.some.inj ran
    exact agrees
  | cons first steps ih =>
    obtain ⟨next, stepped, rest⟩ := Option.bind_eq_some_iff.mp ran
    exact ih (agrees.step ordered.1 stepped) (ordered.2 next stepped) rest

/-- **If no operation is left stranded and no batch overtakes one with a key in common, the log
replays to the memory**, whatever the storage limit: the live records at every time not before the
end of the run. -/
theorem log_agrees (env : Env) (maxStorageBytes : UInt64) (steps : List Step) (final : Shared)
    (ran : run env steps (Shared.start maxStorageBytes) = some final)
    (finished : final.waiting = []) (ordered : Ordered env steps (Shared.start maxStorageBytes))
    (time : Int64) (later : ∀ reading < final.world.readings, env.now reading ≤ time) :
    liveAt time (replay (events final.log) fun _ => none) = liveAt time final.world.view := by
  have memory := ((Agrees.initial env maxStorageBytes).run ordered ran).memory
  rw [finished, List.flatMap_nil, List.append_nil] at memory
  exact (Forgets.liveAt_eq memory later).symm

/-- Two clients set a key and push to another, and submit in the other order. -/
def setAndPush : List Step :=
  [.operate 0 (.command (.set [107] [1])), .operate 1 (.command (.lpush [108] [[2]])), .submit 1,
    .submit 0]

/-- A limit of 1000 bytes leaves neither of them stranded. -/
theorem log_agrees_apart :
    ∃ final, run (Env.still 0) setAndPush (Shared.start 1000) = some final ∧
      liveAt 0 (replay (events final.log) fun _ => none) = liveAt 0 final.world.view := by
  refine ⟨_, rfl, log_agrees (Env.still 0) 1000 setAndPush _ rfl rfl ?_ 0
    fun _ _ => Int64.le_refl _⟩
  refine ⟨?_, fun next stepped => ?_⟩
  · rintro key - ⟨-, -, wantType, fill, nothing, -⟩
    cases nothing
  obtain rfl := Option.some.inj stepped
  refine ⟨?_, fun next stepped => ?_⟩
  · rintro key ⟨⟩ ⟨-, -, wantType, fill, ⟨⟩, -, refused⟩
    exact absurd refused (by decide +kernel)
  obtain rfl := Option.some.inj stepped
  refine ⟨fun batch others taken entry member => ?_, fun next stepped => ?_⟩
  · cases taken
    obtain rfl := List.mem_singleton.mp member
    rintro key ⟨event, first, mentions⟩ other second mentions'
    obtain rfl := List.mem_singleton.mp first
    rcases List.mem_cons.mp second with rfl | last
    · exact absurd (Eq.trans mentions (Eq.symm mentions')) (by decide)
    · obtain rfl := List.mem_singleton.mp last
      exact absurd (Eq.trans mentions (Eq.symm mentions')) (by decide)
  · obtain rfl := Option.some.inj stepped
    exact ⟨fun batch others taken entry member => (List.not_mem_nil member).elim,
      fun _ _ => trivial⟩

/-- Two clients set one key and submit in the other order: the memory holds the second value, the
log replays to the first. -/
theorem log_disagrees_swapped :
    ∃ final, run (Env.still 0)
        [.operate 0 (.command (.set [107] [1])), .operate 1 (.command (.set [107] [2])),
          .submit 1, .submit 0] (Shared.start 0) = some final ∧ final.waiting = [] ∧
      liveAt 0 final.world.view [107] = some { value := .ofString [2] } ∧
      liveAt 0 (replay (events final.log) fun _ => none) [107] =
        some { value := .ofString [1] } :=
  ⟨_, rfl, rfl, by decide +kernel, by decide +kernel⟩

end SunKV.Concurrency
