/-
**The asynchronous queue and its two consumers.**

In asynchronous mode `submit` pushes a batch onto the queue. The worker and every caller of `flush`
consume it the same way: swap the queue out under the mutex, then, outside it, cut the mutations
into group-commit buffers and append these to the log one by one. Any step of another thread may
come between two steps of one consumer.

* `groupCommit_chunks` — whatever the thresholds, the buffers are encodings of consecutive runs of
  the mutations taken.
* `Intact` — the invariant: what is written, what one consumer holds and what is queued are
  together the mutations submitted, in order. It holds as long as no consumer swaps while another
  holds unwritten buffers (`Alone`).
* `flush_barrier` — so in such runs the log is the encoding of a prefix of the submitted mutations,
  and a `flush` that returns finds every batch in it that was submitted before its call.
-/

import SunKV.Persistence.WalReader

namespace SunKV.Concurrency

open SunKV.Lib SunKV.Storage SunKV.Persistence

/-! ### Group commit -/

/-- The options the queue reads. -/
structure QueueOptions where
  maxQueue : Nat := 100000
  walGroupCommitMaxMutations : Nat := 8192
  walGroupCommitMaxBytes : Nat := 2 * 1024 * 1024

/-- `option > 0 ? option : 1`. -/
def orOne (option : Nat) : Nat := if 0 < option then option else 1

/-- `flushBuf`: an empty buffer is not written. -/
def flushBuf (buf : Bytes) : List Bytes := if buf.isEmpty then [] else [buf]

/-- The loop over the mutations of a round, with the buffer and the count of mutations in it. -/
def groupLoop (options : QueueOptions) : List Mutation → Bytes → Nat → List Bytes
  | [], buf, _ => flushBuf buf
  | mutation :: rest, buf, mutsInBuf =>
    let filled := buf ++ encodeMutation mutation
    if orOne options.walGroupCommitMaxMutations ≤ mutsInBuf + 1 ∨
        (orOne options.walGroupCommitMaxBytes < filled.length ∧ 0 < buf.length) then
      flushBuf filled ++ groupLoop options rest [] 0
    else groupLoop options rest filled (mutsInBuf + 1)

/-- **The buffers of a round**, in the order they are appended. -/
def groupCommit (options : QueueOptions) (batches : List MutationBatch) : List Bytes :=
  groupLoop options batches.flatten [] 0

theorem encodeBatch_eq_nil {batch : MutationBatch} (empty : encodeBatch batch = []) :
    batch = [] := by
  cases batch with
  | nil => rfl
  | cons mutation rest =>
    have pos := encodeMutation_pos mutation
    rw [encodeBatch_cons, List.append_eq_nil_iff] at empty
    rw [empty.1] at pos
    exact absurd pos (Nat.lt_irrefl 0)

/-- `flushBuf` writes the mutations in the buffer. -/
theorem flushBuf_chunks (inBuf : List Mutation) :
    ∃ chunks : List MutationBatch,
      flushBuf (encodeBatch inBuf) = chunks.map encodeBatch ∧ chunks.flatten = inBuf := by
  unfold flushBuf
  split
  case isTrue empty =>
    exact ⟨[], rfl, (encodeBatch_eq_nil (List.isEmpty_iff.mp empty)).symm⟩
  case isFalse => exact ⟨[inBuf], rfl, List.append_nil inBuf⟩

theorem groupLoop_chunks (options : QueueOptions) (mutations inBuf : List Mutation) (count : Nat) :
    ∃ chunks : List MutationBatch,
      groupLoop options mutations (encodeBatch inBuf) count = chunks.map encodeBatch ∧
      chunks.flatten = inBuf ++ mutations := by
  induction mutations generalizing inBuf count with
  | nil =>
    rw [List.append_nil]
    exact flushBuf_chunks inBuf
  | cons mutation rest ih =>
    have filled :
        encodeBatch inBuf ++ encodeMutation mutation = encodeBatch (inBuf ++ [mutation]) := by
      rw [encodeBatch_append, encodeBatch_cons, encodeBatch_nil, List.append_nil]
    rw [groupLoop, filled]
    split
    case isTrue =>
      obtain ⟨now, written, holds⟩ := flushBuf_chunks (inBuf ++ [mutation])
      obtain ⟨later, follow, holdsLater⟩ := ih [] 0
      refine ⟨now ++ later, ?_, ?_⟩
      · rw [written, List.map_append, ← follow]
        rfl
      · rw [List.flatten_append, holds, holdsLater]
        simp
    case isFalse =>
      obtain ⟨chunks, follow, holds⟩ := ih (inBuf ++ [mutation]) (count + 1)
      exact ⟨chunks, follow, by rw [holds]; simp⟩

/-- **The thresholds only decide where the mutations are cut.** -/
theorem groupCommit_chunks (options : QueueOptions) (batches : List MutationBatch) :
    ∃ chunks : List MutationBatch,
      groupCommit options batches = chunks.map encodeBatch ∧ chunks.flatten = batches.flatten :=
  groupLoop_chunks options batches.flatten [] 0

/-! ### Steps -/

/-- A thread that takes batches out of the queue. -/
inductive Consumer
  | worker
  | flush (caller : Nat)
  deriving DecidableEq

/-- Where a caller of `flush` is; `before` counts the batches submitted before the call. -/
inductive FlushPhase
  | outside
  | called (before : Nat)
  | swapped (before : Nat)
  deriving DecidableEq

/-- The queue, the log, the buffers each consumer has yet to append, and every batch submitted. -/
structure Pipeline where
  queue : List MutationBatch := []
  stopped : Bool := false
  wal : Bytes := []
  unwritten : Consumer → List Bytes := fun _ => []
  phase : Nat → FlushPhase := fun _ => .outside
  submitted : List MutationBatch := []

/-- A step of some thread. -/
inductive QueueStep
  | submit (batch : MutationBatch)
  | workerSwap
  | flushCall (caller : Nat)
  | flushSwap (caller : Nat)
  | append (consumer : Consumer)
  | flushReturn (caller : Nat)
  | stop

/-- A consumer takes the whole queue. -/
def Pipeline.swap (options : QueueOptions) (pipeline : Pipeline) (consumer : Consumer) : Pipeline :=
  { pipeline with
    queue := []
    unwritten := Function.update pipeline.unwritten consumer
      (groupCommit options pipeline.queue) }

/-- **One step**, `none` where the thread cannot take it: a submission waits for room, the worker
starts no round before it has finished one, and `flush` returns once its buffers are written. -/
def Pipeline.step (options : QueueOptions) (pipeline : Pipeline) : QueueStep → Option Pipeline
  | .submit batch =>
    if batch.isEmpty then some pipeline
    -- the batch is counted in `dropped_batches_`
    else if pipeline.stopped then some pipeline
    else if pipeline.queue.length < orOne options.maxQueue then
      some { pipeline with
        queue := pipeline.queue ++ [batch]
        submitted := pipeline.submitted ++ [batch] }
    else none
  | .workerSwap =>
    if pipeline.stopped || !(pipeline.unwritten .worker).isEmpty then none
    else some (pipeline.swap options .worker)
  | .flushCall caller =>
    match pipeline.phase caller with
    | .outside => some { pipeline with
        phase := Function.update pipeline.phase caller (.called pipeline.submitted.length) }
    | _ => none
  | .flushSwap caller =>
    match pipeline.phase caller with
    | .called before => some { pipeline.swap options (.flush caller) with
        phase := Function.update pipeline.phase caller (.swapped before) }
    | _ => none
  | .append consumer =>
    match pipeline.unwritten consumer with
    | [] => none
    | buf :: later => some { pipeline with
        wal := pipeline.wal ++ buf
        unwritten := Function.update pipeline.unwritten consumer later }
  | .flushReturn caller =>
    match pipeline.phase caller, pipeline.unwritten (.flush caller) with
    | .swapped _, [] => some { pipeline with
        phase := Function.update pipeline.phase caller .outside }
    | _, _ => none
  | .stop => some { pipeline with stopped := true }

/-- A run of steps. -/
def Pipeline.run (options : QueueOptions) : List QueueStep → Pipeline → Option Pipeline
  | [], pipeline => some pipeline
  | first :: steps, pipeline => (pipeline.step options first).bind (Pipeline.run options steps)

/-- No consumer but this one holds unwritten buffers. -/
def Pipeline.Alone (pipeline : Pipeline) (consumer : Consumer) : Prop :=
  ∀ other, other ≠ consumer → pipeline.unwritten other = []

/-- **The rule**: a consumer swaps only when no other holds unwritten buffers. The worker may look
at an empty queue at any time. -/
def SwapOk (pipeline : Pipeline) : QueueStep → Prop
  | .workerSwap => pipeline.queue = [] ∨ pipeline.Alone .worker
  | .flushSwap caller => pipeline.Alone (.flush caller)
  | _ => True

/-- Every swap of the run keeps the rule. -/
def Exclusive (options : QueueOptions) : List QueueStep → Pipeline → Prop
  | [], _ => True
  | first :: steps, pipeline =>
    SwapOk pipeline first ∧
      ∀ next, pipeline.step options first = some next → Exclusive options steps next

/-! ### The invariant -/

/-- **What is written, what the holder has yet to write and what is queued make up what was
submitted.** -/
structure Flow (pipeline : Pipeline) (written : List Mutation) (holder : Consumer)
    (chunks : List MutationBatch) : Prop where
  wal : pipeline.wal = encodeBatch written
  holds : pipeline.unwritten holder = chunks.map encodeBatch
  alone : pipeline.Alone holder
  order : pipeline.submitted.flatten = written ++ chunks.flatten ++ pipeline.queue.flatten

/-- A `flush` before its swap holds nothing; one past it has the batches from before its call
written or in its own buffers. -/
structure Intact (pipeline : Pipeline) (written : List Mutation) (holder : Consumer)
    (chunks : List MutationBatch) : Prop extends Flow pipeline written holder chunks where
  idle : ∀ caller, (∀ before, pipeline.phase caller ≠ .swapped before) →
    pipeline.unwritten (.flush caller) = []
  called : ∀ caller before, pipeline.phase caller = .called before →
    before ≤ pipeline.submitted.length
  swapped : ∀ caller before, pipeline.phase caller = .swapped before →
    before ≤ pipeline.submitted.length ∧
      (pipeline.submitted.take before).flatten <+:
        written ++ if holder = .flush caller then chunks.flatten else []

section Invariant

variable {options : QueueOptions} {pipeline : Pipeline} {written : List Mutation}
  {holder : Consumer} {chunks : List MutationBatch}

theorem Intact.initial : Intact {} [] .worker [] where
  wal := rfl
  holds := rfl
  alone := fun _ _ => rfl
  order := rfl
  idle := fun _ _ => rfl
  called := fun _ _ inside => by cases inside
  swapped := fun _ _ inside => by cases inside

/-- A consumer that is alone and has written its own buffers finds nothing held. -/
theorem Flow.chunks_eq_nil (flow : Flow pipeline written holder chunks)
    {consumer : Consumer} (alone : pipeline.Alone consumer)
    (done : pipeline.unwritten consumer = []) : chunks = [] := by
  have nothing : pipeline.unwritten holder = [] := by
    by_cases same : holder = consumer
    · rw [same, done]
    · exact alone holder same
  rw [flow.holds] at nothing
  exact List.map_eq_nil_iff.mp nothing

theorem swap_unwritten_of_ne {consumer other : Consumer} (distinct : other ≠ consumer) :
    (pipeline.swap options consumer).unwritten other = pipeline.unwritten other :=
  Function.update_of_ne distinct _ _

/-- A consumer takes the queue while nothing is held: all that was submitted is written or in its
buffers. -/
theorem Flow.swap (options : QueueOptions) (flow : Flow pipeline written holder [])
    {consumer : Consumer} (alone : pipeline.Alone consumer) :
    ∃ taken, Flow (pipeline.swap options consumer) written consumer taken ∧
      pipeline.submitted.flatten = written ++ taken.flatten := by
  obtain ⟨taken, buffers, content⟩ := groupCommit_chunks options pipeline.queue
  have order : pipeline.submitted.flatten = written ++ taken.flatten := by
    rw [flow.order, content, List.flatten_nil, List.append_nil]
  refine ⟨taken, ⟨flow.wal, ?_, ?_, order.trans (List.append_nil _).symm⟩, order⟩
  · rw [← buffers]
    exact Function.update_self _ _ _
  · intro other distinct
    rw [swap_unwritten_of_ne distinct, alone other distinct]

/-- Only the holder has a buffer to append, and it is the encoding of whole mutations. -/
theorem Flow.append (flow : Flow pipeline written holder chunks) {consumer : Consumer} {buf : Bytes}
    {later : List Bytes} (next : pipeline.unwritten consumer = buf :: later) :
    consumer = holder ∧ ∃ chunk rest, chunks = chunk :: rest ∧
      Flow { pipeline with
          wal := pipeline.wal ++ buf
          unwritten := Function.update pipeline.unwritten consumer later }
        (written ++ chunk) holder rest := by
  have own : consumer = holder := by
    by_contra other
    rw [flow.alone consumer other] at next
    cases next
  subst own
  rw [flow.holds] at next
  obtain ⟨chunk, rest, rfl, rfl, rfl⟩ := List.map_eq_cons_iff.mp next
  refine ⟨rfl, chunk, rest, rfl, ?_, Function.update_self _ _ _, ?_, ?_⟩
  · rw [flow.wal, encodeBatch_append]
  · intro other distinct
    exact (Function.update_of_ne distinct _ _).trans (flow.alone other distinct)
  · rw [flow.order, List.flatten_cons, List.append_assoc written chunk]

theorem Intact.submit (intact : Intact pipeline written holder chunks) (batch : MutationBatch) :
    Intact { pipeline with
        queue := pipeline.queue ++ [batch]
        submitted := pipeline.submitted ++ [batch] } written holder chunks where
  wal := intact.wal
  holds := intact.holds
  alone := intact.alone
  order := by
    simp only [List.flatten_append, intact.order, List.append_assoc]
  idle := intact.idle
  called := fun caller before inside => by
    have bound := intact.called caller before inside
    rw [List.length_append]
    omega
  swapped := fun caller before inside => by
    obtain ⟨bound, covered⟩ := intact.swapped caller before inside
    rw [List.take_append_of_le_length bound, List.length_append]
    exact ⟨by omega, covered⟩

/-- While nothing is held, what a `flush` covers is written. -/
theorem Intact.covered (intact : Intact pipeline written holder []) {caller before : Nat}
    (past : pipeline.phase caller = .swapped before) :
    before ≤ pipeline.submitted.length ∧
      (pipeline.submitted.take before).flatten <+: written := by
  obtain ⟨bound, covered⟩ := intact.swapped caller before past
  rw [List.flatten_nil, ite_self, List.append_nil] at covered
  exact ⟨bound, covered⟩

theorem Intact.workerSwap (intact : Intact pipeline written holder [])
    (alone : pipeline.Alone .worker) :
    ∃ taken, Intact (pipeline.swap options .worker) written .worker taken := by
  obtain ⟨taken, flow, -⟩ := intact.toFlow.swap options alone
  refine ⟨taken, flow, ?_, intact.called, ?_⟩
  · intro caller outside
    rw [swap_unwritten_of_ne Consumer.noConfusion]
    exact intact.idle caller outside
  · intro caller before past
    obtain ⟨bound, covered⟩ := intact.covered past
    exact ⟨bound, covered.trans (List.prefix_append _ _)⟩

theorem Intact.flushSwap (intact : Intact pipeline written holder []) {caller before : Nat}
    (alone : pipeline.Alone (.flush caller)) (inside : pipeline.phase caller = .called before) :
    ∃ taken, Intact { pipeline.swap options (.flush caller) with
        phase := Function.update pipeline.phase caller (.swapped before) }
      written (.flush caller) taken := by
  obtain ⟨taken, flow, order⟩ := intact.toFlow.swap options alone
  have otherPhase {other : Nat} (distinct : other ≠ caller) :
      Function.update pipeline.phase caller (.swapped before) other = pipeline.phase other :=
    Function.update_of_ne distinct _ _
  have ownPhase : Function.update pipeline.phase caller (.swapped before) caller =
      .swapped before := Function.update_self _ _ _
  refine ⟨taken, ⟨flow.wal, flow.holds, flow.alone, flow.order⟩, ?_, ?_, ?_⟩
  · intro other outside
    rcases eq_or_ne other caller with rfl | distinct
    · exact absurd ownPhase (outside before)
    · exact flow.alone _ fun same => distinct (Consumer.flush.inj same)
  · intro other count waiting
    rcases eq_or_ne other caller with rfl | distinct
    · cases ownPhase.symm.trans waiting
    · exact intact.called other count ((otherPhase distinct).symm.trans waiting)
  · intro other count past
    rcases eq_or_ne other caller with rfl | distinct
    · cases ownPhase.symm.trans past
      have early : pipeline.submitted.take before <+: pipeline.submitted := List.take_prefix _ _
      refine ⟨intact.called other before inside, ?_⟩
      rw [if_pos rfl, ← order]
      exact early.flatten
    · obtain ⟨bound, covered⟩ := intact.covered ((otherPhase distinct).symm.trans past)
      exact ⟨bound, covered.trans (List.prefix_append _ _)⟩

theorem Intact.append (intact : Intact pipeline written holder chunks) {consumer : Consumer}
    {buf : Bytes} {later : List Bytes} (next : pipeline.unwritten consumer = buf :: later) :
    ∃ written' rest, Intact { pipeline with
        wal := pipeline.wal ++ buf
        unwritten := Function.update pipeline.unwritten consumer later }
      written' holder rest := by
  obtain ⟨rfl, chunk, rest, rfl, flow⟩ := intact.toFlow.append next
  refine ⟨written ++ chunk, rest, flow, ?_, intact.called, ?_⟩
  · intro caller outside
    have nothing := intact.idle caller outside
    have distinct : Consumer.flush caller ≠ consumer := by
      rintro rfl
      rw [nothing] at next
      cases next
    exact flow.alone _ distinct
  · intro caller before past
    obtain ⟨bound, covered⟩ := intact.swapped caller before past
    refine ⟨bound, ?_⟩
    -- the appended chunk moves from the buffers of the holder to what is written
    split at covered
    case isTrue own =>
      rw [if_pos own, List.append_assoc]
      exact covered
    case isFalse other =>
      rw [if_neg other, List.append_nil]
      rw [List.append_nil] at covered
      exact covered.trans (List.prefix_append _ _)

/-- A caller with no buffers enters or leaves `flush`. -/
theorem Intact.setPhase (intact : Intact pipeline written holder chunks) {caller : Nat}
    {phase : FlushPhase} (done : pipeline.unwritten (.flush caller) = [])
    (bounded : ∀ before, phase = .called before → before ≤ pipeline.submitted.length)
    (early : ∀ before, phase ≠ .swapped before) :
    Intact { pipeline with phase := Function.update pipeline.phase caller phase }
      written holder chunks := by
  have otherPhase {other : Nat} (distinct : other ≠ caller) :
      Function.update pipeline.phase caller phase other = pipeline.phase other :=
    Function.update_of_ne distinct _ _
  have ownPhase : Function.update pipeline.phase caller phase caller = phase :=
    Function.update_self _ _ _
  refine ⟨⟨intact.wal, intact.holds, intact.alone, intact.order⟩, ?_, ?_, ?_⟩
  · intro other still
    rcases eq_or_ne other caller with rfl | distinct
    · exact done
    · exact intact.idle other fun before past => still before ((otherPhase distinct).trans past)
  · intro other count waiting
    rcases eq_or_ne other caller with rfl | distinct
    · exact bounded count (ownPhase.symm.trans waiting)
    · exact intact.called other count ((otherPhase distinct).symm.trans waiting)
  · intro other count past
    rcases eq_or_ne other caller with rfl | distinct
    · exact absurd (ownPhase.symm.trans past) (early count)
    · exact intact.swapped other count ((otherPhase distinct).symm.trans past)

/-- The worker finds the queue empty: nothing changes. -/
theorem swap_of_empty (empty : pipeline.queue = []) {consumer : Consumer}
    (done : pipeline.unwritten consumer = []) : pipeline.swap options consumer = pipeline := by
  have nothing : groupCommit options [] = [] := rfl
  rw [Pipeline.swap, empty, nothing, ← done, Function.update_eq_self, ← empty]

/-- **Every step that keeps the rule keeps the invariant.** -/
theorem Intact.step (intact : Intact pipeline written holder chunks) {first : QueueStep}
    {next : Pipeline} (rule : SwapOk pipeline first)
    (stepped : pipeline.step options first = some next) :
    ∃ written' holder' chunks', Intact next written' holder' chunks' := by
  cases first with
  | submit batch =>
    simp only [Pipeline.step] at stepped
    split at stepped
    · obtain rfl := Option.some.inj stepped
      exact ⟨_, _, _, intact⟩
    split at stepped
    · obtain rfl := Option.some.inj stepped
      exact ⟨_, _, _, intact⟩
    split at stepped
    · obtain rfl := Option.some.inj stepped
      exact ⟨_, _, _, intact.submit batch⟩
    · cases stepped
  | workerSwap =>
    simp only [Pipeline.step] at stepped
    split at stepped
    · cases stepped
    case isFalse ready =>
      have done : pipeline.unwritten .worker = [] := by
        simp only [Bool.or_eq_true, Bool.not_eq_true', not_or, Bool.not_eq_false,
          List.isEmpty_iff] at ready
        exact ready.2
      obtain rfl := Option.some.inj stepped
      rcases rule with empty | alone
      · rw [swap_of_empty empty done]
        exact ⟨_, _, _, intact⟩
      · obtain rfl := intact.toFlow.chunks_eq_nil alone done
        obtain ⟨taken, after⟩ := intact.workerSwap alone
        exact ⟨_, _, taken, after⟩
  | flushCall caller =>
    simp only [Pipeline.step] at stepped
    split at stepped
    case h_1 outside =>
      obtain rfl := Option.some.inj stepped
      have done : pipeline.unwritten (.flush caller) = [] :=
        intact.idle caller fun count past => by rw [outside] at past; cases past
      refine ⟨_, _, _, intact.setPhase done (fun before entered => ?_) (fun _ => nofun)⟩
      exact (FlushPhase.called.inj entered).ge
    case h_2 => cases stepped
  | flushSwap caller =>
    simp only [Pipeline.step] at stepped
    split at stepped
    case h_1 before inside =>
      obtain rfl := Option.some.inj stepped
      have done : pipeline.unwritten (.flush caller) = [] :=
        intact.idle caller fun count past => by rw [inside] at past; cases past
      obtain rfl := intact.toFlow.chunks_eq_nil rule done
      obtain ⟨taken, after⟩ := intact.flushSwap rule inside
      exact ⟨_, _, taken, after⟩
    case h_2 => cases stepped
  | append consumer =>
    simp only [Pipeline.step] at stepped
    split at stepped
    case h_1 => cases stepped
    case h_2 buf later waiting =>
      obtain rfl := Option.some.inj stepped
      obtain ⟨written', rest, after⟩ := intact.append waiting
      exact ⟨written', _, rest, after⟩
  | flushReturn caller =>
    simp only [Pipeline.step] at stepped
    split at stepped
    case h_1 done =>
      obtain rfl := Option.some.inj stepped
      exact ⟨_, _, _, intact.setPhase done (fun _ => nofun) (fun _ => nofun)⟩
    case h_2 => cases stepped
  | stop =>
    obtain rfl := Option.some.inj stepped
    exact ⟨_, _, _, ⟨intact.wal, intact.holds, intact.alone, intact.order⟩, intact.idle,
      intact.called, intact.swapped⟩

theorem Intact.run {steps : List QueueStep} {final : Pipeline}
    (intact : Intact pipeline written holder chunks) (exclusive : Exclusive options steps pipeline)
    (ran : pipeline.run options steps = some final) :
    ∃ written' holder' chunks', Intact final written' holder' chunks' := by
  induction steps generalizing pipeline written holder chunks with
  | nil =>
    obtain rfl := Option.some.inj ran
    exact ⟨_, _, _, intact⟩
  | cons first steps ih =>
    obtain ⟨next, stepped, rest⟩ := Option.bind_eq_some_iff.mp ran
    obtain ⟨_, _, _, after⟩ := intact.step exclusive.1 stepped
    exact ih after (exclusive.2 next stepped) rest

/-- What a `flush` about to return covers is written. -/
theorem Intact.returning (intact : Intact pipeline written holder chunks) {caller : Nat}
    {next : Pipeline} (stepped : pipeline.step options (.flushReturn caller) = some next) :
    ∃ before, pipeline.phase caller = .swapped before ∧
      (pipeline.submitted.take before).flatten <+: written := by
  simp only [Pipeline.step] at stepped
  split at stepped
  case h_1 before past done =>
    obtain ⟨-, covered⟩ := intact.swapped caller before past
    refine ⟨before, past, ?_⟩
    have own : (if holder = .flush caller then chunks.flatten else []) = [] := by
      split
      case isTrue same =>
        rw [← same, intact.holds] at done
        rw [List.map_eq_nil_iff.mp done, List.flatten_nil]
      case isFalse => rfl
    rw [own, List.append_nil] at covered
    exact covered
  case h_2 => cases stepped

end Invariant

/-! ### The barrier -/

/-- **If no consumer swaps while another holds unwritten buffers, the log is a prefix of what was
submitted, and `flush` is a barrier.** -/
theorem flush_barrier (options : QueueOptions) (steps : List QueueStep) (final : Pipeline)
    (ran : Pipeline.run options steps {} = some final)
    (exclusive : Exclusive options steps {}) :
    ∃ written, written <+: final.submitted.flatten ∧ final.wal = encodeBatch written ∧
      ∀ caller next, final.step options (.flushReturn caller) = some next →
        ∃ before, final.phase caller = .swapped before ∧
          (final.submitted.take before).flatten <+: written := by
  obtain ⟨written, holder, chunks, intact⟩ := Intact.initial.run exclusive ran
  refine ⟨written, ?_, intact.wal, fun caller next stepped => intact.returning stepped⟩
  rw [intact.order, List.append_assoc]
  exact List.prefix_append _ _

/-- The worker writes its round before a `flush` takes the next batch. -/
theorem flush_barrier_in_turn :
    ∃ final, Pipeline.run {}
        [.submit [.del [107] 1], .workerSwap, .append .worker, .submit [.del [108] 2],
          .flushCall 0, .flushSwap 0, .append (.flush 0)] {} = some final ∧
      ∃ written, written <+: final.submitted.flatten ∧ final.wal = encodeBatch written ∧
        ∀ caller next, final.step {} (.flushReturn caller) = some next →
          ∃ before, final.phase caller = .swapped before ∧
            (final.submitted.take before).flatten <+: written := by
  refine ⟨_, rfl, flush_barrier {}
    [.submit [.del [107] 1], .workerSwap, .append .worker, .submit [.del [108] 2],
      .flushCall 0, .flushSwap 0, .append (.flush 0)] _ rfl ?_⟩
  refine ⟨trivial, fun next stepped => ?_⟩
  obtain rfl := Option.some.inj stepped
  refine ⟨Or.inr fun _ _ => rfl, fun next stepped => ?_⟩
  obtain rfl := Option.some.inj stepped
  refine ⟨trivial, fun next stepped => ?_⟩
  obtain rfl := Option.some.inj stepped
  refine ⟨trivial, fun next stepped => ?_⟩
  obtain rfl := Option.some.inj stepped
  refine ⟨trivial, fun next stepped => ?_⟩
  obtain rfl := Option.some.inj stepped
  refine ⟨fun other _ => ?_, fun next stepped => ?_⟩
  · cases other <;> rfl
  · obtain rfl := Option.some.inj stepped
    exact ⟨trivial, fun _ _ => trivial⟩

/-- The worker has taken the first batch and written nothing yet when a `flush` takes the second
one, writes it and returns: the log starts with the second batch, and the first is missing from it
although it was submitted before the call. -/
theorem flush_overtakes_worker :
    ∃ final next, Pipeline.run {}
        [.submit [.del [107] 1], .workerSwap, .submit [.del [108] 2],
          .flushCall 0, .flushSwap 0, .append (.flush 0)] {} = some final ∧
      final.step {} (.flushReturn 0) = some next ∧
      final.submitted = [[.del [107] 1], [.del [108] 2]] ∧ final.phase 0 = .swapped 2 ∧
      final.wal = encodeBatch [.del [108] 2] ∧
      ¬ ∃ written, written <+: final.submitted.flatten ∧ final.wal = encodeBatch written := by
  have onlySecond : ∀ written ∈ List.inits [Mutation.del [107] 1, .del [108] 2],
      encodeBatch [.del [108] 2] ≠ encodeBatch written := by
    decide +kernel
  refine ⟨_, _, rfl, rfl, rfl, rfl, by decide +kernel, ?_⟩
  rintro ⟨written, start, same⟩
  exact onlySecond written ((List.mem_inits _ _).mpr start) same

end SunKV.Concurrency
