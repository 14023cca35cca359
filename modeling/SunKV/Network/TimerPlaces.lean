/-
**Where the timers are.**

A registered timer is in one place: it waits for its insertion, has an entry in `timers_`, or waits
in the batch of a `handleRead`. What an action does is said once (`Took`), and what it does to the
places of a timer follows.

* `Took.places` — a timer **leaves its place without another** only by being cancelled, by firing
  for the only time, or by an insertion that meets an entry with its expiration.
* `Placed.step` — no timer is in two places, and none in one before it is registered.
-/

import SunKV.Network.TimerQueue

namespace SunKV.Network

open SunKV.Lib

namespace TimerQueue

/-! ### What an action does -/

/-- **What an action does**, with what it needs. -/
inductive Took (queue : TimerQueue) : TimerAction → TimerQueue → Prop
  | elapse {time : Int} (later : queue.clock ≤ time) :
      Took queue (.elapse time) { queue with clock := time }
  | expire : Took queue .expire { queue with timerfd := { unread := true } }
  | register {expiration interval : Int} :
      Took queue (.register expiration interval)
        { queue.register expiration interval with
          unqueued := queue.unqueued ++ [queue.nextTimerId] }
  | queueInsert {id : Nat} (member : id ∈ queue.unqueued) :
      Took queue (.queueInsert id)
        { queue with
          unqueued := queue.unqueued.erase id
          pending := queue.pending ++ [.insert id] }
  | queueCancel {id : Nat} :
      Took queue (.queueCancel id) { queue with pending := queue.pending ++ [.cancel id] }
  | addTimer {expiration interval : Int} :
      Took queue (.addTimer expiration interval)
        ((queue.register expiration interval).insert queue.nextTimerId)
  | cancel {id : Nat} : Took queue (.cancel id) (queue.cancelInLoop id)
  | insertTask {id : Nat} {rest : List TimerTask} (idle : queue.handling = none)
      (unreported : queue.reported = false) (first : queue.pending = .insert id :: rest) :
      Took queue .runTask (TimerQueue.insert { queue with pending := rest } id)
  | cancelTask {id : Nat} {rest : List TimerTask} (idle : queue.handling = none)
      (first : queue.pending = .cancel id :: rest) :
      Took queue .runTask (cancelInLoop { queue with pending := rest } id)
  | poll : Took queue .poll { queue with reported := true }
  | handleRead (idle : queue.handling = none) : Took queue .handleRead queue.getExpired
  | runCallback {now : Int} {id : Nat} {rest toReset : List Nat} {inCallback : Bool}
      (under : queue.handling = some ⟨now, id :: rest, toReset, inCallback⟩) :
      Took queue .runCallback
        { queue with
          handling := some ⟨now, rest, toReset, true⟩
          log := queue.log ++ [.fired id] }
  | restart {now : Int} {id : Nat} {rest : List Nat} {inCallback : Bool}
      (under : queue.handling = some ⟨now, [], id :: rest, inCallback⟩) :
      Took queue .restart
        (restartTimer { queue with handling := some ⟨now, [], rest, false⟩ } now id)
  | finish {now : Int} {inCallback : Bool}
      (under : queue.handling = some ⟨now, [], [], inCallback⟩) :
      Took queue .finish (rearm { queue with handling := none })

variable {queue next : TimerQueue} {action : TimerAction}

theorem took_of_step (taken : queue.step action = some next) : Took queue action next := by
  cases action with
  | elapse time =>
    obtain ⟨later, ⟨⟩⟩ := Option.ite_none_right_eq_some.mp taken
    exact .elapse later
  | expire =>
    obtain ⟨-, ⟨⟩⟩ := Option.ite_none_right_eq_some.mp taken
    exact .expire
  | register expiration interval =>
    obtain rfl := Option.some.inj taken
    exact .register
  | queueInsert id =>
    obtain ⟨member, ⟨⟩⟩ := Option.ite_none_right_eq_some.mp taken
    exact .queueInsert member
  | queueCancel id =>
    obtain rfl := Option.some.inj taken
    exact .queueCancel
  | addTimer expiration interval =>
    obtain ⟨-, ⟨⟩⟩ := Option.ite_none_right_eq_some.mp taken
    exact .addTimer
  | cancel id =>
    obtain ⟨-, ⟨⟩⟩ := Option.ite_none_right_eq_some.mp taken
    exact .cancel
  | runTask =>
    simp only [step] at taken
    split at taken
    case h_1 task rest idle unreported first =>
      obtain rfl := Option.some.inj taken
      cases task with
      | insert id => exact .insertTask idle unreported first
      | cancel id => exact .cancelTask idle first
    case h_2 => cases taken
  | poll =>
    obtain ⟨-, ⟨⟩⟩ := Option.ite_none_right_eq_some.mp taken
    exact .poll
  | handleRead =>
    obtain ⟨ready, ⟨⟩⟩ := Option.ite_none_right_eq_some.mp taken
    exact .handleRead (Option.isNone_iff_eq_none.mp ready.1)
  | runCallback =>
    simp only [step] at taken
    split at taken
    case h_1 under =>
      obtain rfl := Option.some.inj taken
      exact .runCallback under
    case h_2 => cases taken
  | restart =>
    simp only [step] at taken
    split at taken
    case h_1 under =>
      obtain rfl := Option.some.inj taken
      exact .restart under
    case h_2 => cases taken
  | finish =>
    simp only [step] at taken
    split at taken
    case h_1 under =>
      obtain rfl := Option.some.inj taken
      exact .finish under
    case h_2 => cases taken

/-! ### Counting -/

section Counts

variable {id other : Nat}

theorem listed_insert
    (fresh : ∀ entry ∈ queue.timers.elems, entry.expiration ≠ (queue.timer id).expiration)
    (other : Nat) :
    (queue.insert id).listed other = queue.listed other + if id = other then 1 else 0 :=
  queue.timers.count_emplace Entry.timer fresh other

theorem listed_insert_of_ne (apart : id ≠ other) :
    (queue.insert id).listed other = queue.listed other := by
  by_cases fresh : ∀ entry ∈ queue.timers.elems, entry.expiration ≠ (queue.timer id).expiration
  · rw [listed_insert fresh, if_neg apart, Nat.add_zero]
  · exact congrArg (fun set : TimerList => (set.elems.map Entry.timer).count other)
      (queue.timers.emplace_of_present fresh)

theorem listed_insert_le (queue : TimerQueue) (id other : Nat) :
    (queue.insert id).listed other ≤ queue.listed other + if id = other then 1 else 0 :=
  queue.timers.count_emplace_le Entry.timer _ other

theorem waiting_of_idle (idle : queue.handling = none) : queue.waiting id = 0 := by
  rw [waiting, idle]

theorem waiting_of_under {batch : Batch} (under : queue.handling = some batch) :
    queue.waiting id =
      if (queue.timer id).repeats then batch.toReset.count id else batch.toRun.count id := by
  rw [waiting, under]

theorem waiting_congr (handling : next.handling = queue.handling)
    (repeats : (next.timer id).repeats = (queue.timer id).repeats) :
    next.waiting id = queue.waiting id := by
  rw [waiting, waiting, handling, repeats]

/-- A task that is no insertion of a timer does not count. -/
theorem queued_of_pending {task : TimerTask} {rest : List TimerTask}
    (first : queue.pending = task :: rest) :
    queue.queued other =
      queued { queue with pending := rest } other + if task = .insert other then 1 else 0 := by
  rw [queued, queued, first, List.count_cons, ← Nat.add_assoc]
  simp only [beq_iff_eq]

/-- The expired entries and the others. -/
theorem listed_eq_add (queue : TimerQueue) (id : Nat) :
    queue.listed id =
      ((queue.timers.below queue.clock).map Entry.timer).count id +
        ((queue.timers.above queue.clock).elems.map Entry.timer).count id := by
  rw [listed, ← List.count_append, ← List.map_append, OrderedSet.below_append_above]

/-- A restart changes no interval. -/
theorem repeats_update (queue : TimerQueue) (now : Int) (id other : Nat) :
    (Function.update queue.timer id ((queue.timer id).restart now) other).repeats =
      (queue.timer other).repeats := by
  by_cases same : other = id
  · subst same
    rw [Function.update_self, Timer.repeats_restart]
  · rw [Function.update_of_ne same]

end Counts

/-! ### The places of a timer -/

section Places

variable {id other : Nat}

theorem places_register (expiration interval : Int) (other : id ≠ queue.nextTimerId) :
    (queue.register expiration interval).places id = queue.places id := by
  have waits : (queue.register expiration interval).waiting id = queue.waiting id :=
    waiting_congr rfl (congrArg Timer.repeats (Function.update_of_ne other _ _))
  unfold places
  rw [waits]
  rfl

theorem queued_unqueued (fresh : Nat) :
    queued { queue with unqueued := queue.unqueued ++ [fresh] } id =
      queue.queued id + if fresh = id then 1 else 0 := by
  rw [queued, queued, List.count_append, List.count_singleton]
  simp only [beq_iff_eq]
  omega

theorem queued_queueInsert (member : other ∈ queue.unqueued) :
    queued { queue with
      unqueued := queue.unqueued.erase other
      pending := queue.pending ++ [.insert other] } id = queue.queued id := by
  have some : 0 < queue.unqueued.count other := List.count_pos_iff.mpr member
  simp only [queued, List.count_append, List.count_singleton, List.count_erase, beq_iff_eq,
    TimerTask.insert.injEq]
  split
  case isTrue same =>
    subst same
    omega
  case isFalse => omega

theorem queued_queueCancel :
    queued { queue with pending := queue.pending ++ [.cancel other] } id = queue.queued id := by
  simp [queued, List.count_append]

theorem cancelInLoop_counts (queue : TimerQueue) (id other : Nat) :
    (queue.cancelInLoop id).listed other =
        queue.listed other - (if id ∈ queue.timerMap ∧ id = other then 1 else 0) ∧
      (queue.cancelInLoop id).waiting other = queue.waiting other ∧
      (queue.cancelInLoop id).queued other = queue.queued other := by
  unfold cancelInLoop
  by_cases found : id ∈ queue.timerMap
  · rw [if_pos found]
    simp only [found, true_and]
    exact ⟨queue.timers.count_eraseFirst Entry.timer id other, rfl, rfl⟩
  · rw [if_neg found, if_neg fun both => found both.1]
    exact ⟨rfl, rfl, rfl⟩

/-- A cancelled timer loses its entry, the others lose nothing. -/
theorem places_cancelInLoop (queue : TimerQueue) (id other : Nat) :
    (queue.cancelInLoop id).places other = queue.places other ∨
      ((queue.cancelInLoop id).places other ≤ queue.places other ∧
        .cancelled other true ∈ (queue.cancelInLoop id).log) := by
  obtain ⟨listed, waiting, queued⟩ := cancelInLoop_counts queue id other
  unfold places
  rw [listed, waiting, queued]
  by_cases found : id ∈ queue.timerMap ∧ id = other
  · refine .inr ⟨by omega, ?_⟩
    obtain ⟨member, rfl⟩ := found
    rw [cancelInLoop, if_pos member]
    exact List.mem_append_right _ List.mem_cons_self
  · rw [if_neg found]
    exact .inl rfl

/-- The expired entries wait in the batch. -/
theorem places_getExpired (idle : queue.handling = none) :
    queue.getExpired.places id = queue.places id := by
  have waits : queue.getExpired.waiting id =
      ((queue.timers.below queue.clock).map Entry.timer).count id := ite_self _
  have left : queue.getExpired.listed id =
      ((queue.timers.above queue.clock).elems.map Entry.timer).count id := rfl
  have same : queue.getExpired.queued id = queue.queued id := rfl
  unfold places
  rw [waits, left, same, listed_eq_add queue, waiting_of_idle idle]
  omega

/-- A timer that has run waits no more, unless it repeats. -/
theorem places_runCallback {now : Int} {ran : Nat} {rest toReset : List Nat}
    {inCallback : Bool} (under : queue.handling = some ⟨now, ran :: rest, toReset, inCallback⟩)
    (log : List Occurrence) :
    let after := { queue with handling := some ⟨now, rest, toReset, true⟩, log := log }
    after.places id = queue.places id ∨
      (after.places id ≤ queue.places id ∧ (queue.timer id).repeats = false ∧ ran = id) := by
  intro after
  have before : queue.waiting id = if (queue.timer id).repeats then toReset.count id
      else (ran :: rest).count id := waiting_of_under under
  have later : after.waiting id = if (queue.timer id).repeats then toReset.count id
      else rest.count id := rfl
  have listed : after.listed id = queue.listed id := rfl
  have queued : after.queued id = queue.queued id := rfl
  unfold places
  rw [listed, queued, before, later]
  by_cases repeats : (queue.timer id).repeats = true
  · rw [if_pos repeats, if_pos repeats]
    exact .inl rfl
  · rw [if_neg repeats, if_neg repeats, List.count_cons]
    by_cases same : ran = id
    · exact .inr ⟨by omega, Bool.not_eq_true _ ▸ repeats, same⟩
    · rw [if_neg (by simpa using same)]
      exact .inl rfl

/-- An insertion by a task. -/
theorem places_insertTask {rest : List TimerTask}
    (first : queue.pending = .insert id :: rest) (other : Nat) :
    let after := TimerQueue.insert { queue with pending := rest } id
    after.places other ≤ queue.places other ∧
      (queue.Distinct .runTask → after.places other = queue.places other) := by
  intro after
  have before : queue.queued other = queued { queue with pending := rest } other +
      if TimerTask.insert id = .insert other then 1 else 0 := queued_of_pending first
  simp only [TimerTask.insert.injEq] at before
  have le : after.listed other ≤ queue.listed other + if id = other then 1 else 0 :=
    listed_insert_le { queue with pending := rest } id other
  have places : after.places other = after.listed other + queue.waiting other +
      queued { queue with pending := rest } other := rfl
  have was : queue.places other = queue.listed other + queue.waiting other +
      queue.queued other := rfl
  refine ⟨by omega, fun distinct => ?_⟩
  have inserts : queue.inserts .runTask = some (queue.timer id).expiration := by
    rw [TimerQueue.inserts, first]
  have eq : after.listed other = queue.listed other + if id = other then 1 else 0 :=
    listed_insert (distinct _ inserts) other
  omega

section Restart

variable {now : Int} {rest : List Nat} {inCallback : Bool}
  (under : queue.handling = some ⟨now, [], id :: rest, inCallback⟩)

include under

/-- What a timer waits for in a batch whose callbacks have run. -/
theorem waiting_restart (other : Nat) :
    queue.waiting other =
      if (queue.timer other).repeats then rest.count other + (if id = other then 1 else 0)
      else 0 := by
  rw [waiting_of_under under, List.count_cons, List.count_nil]
  simp only [beq_iff_eq]

/-- A timer that does not repeat is left alone, and had nothing to wait for. -/
theorem places_restart_once (once : (queue.timer id).repeats = false) (other : Nat) :
    (restartTimer { queue with handling := some ⟨now, [], rest, false⟩ } now id).places other =
      queue.places other := by
  have left : restartTimer { queue with handling := some ⟨now, [], rest, false⟩ } now id =
      { queue with handling := some ⟨now, [], rest, false⟩ } :=
    if_neg (by rw [once]; exact Bool.false_ne_true)
  have waits : waiting { queue with handling := some ⟨now, [], rest, false⟩ } other =
      queue.waiting other := by
    rw [waiting_restart under]
    show (if (queue.timer other).repeats then rest.count other else 0) = _
    by_cases again : (queue.timer other).repeats = true
    · have apart : id ≠ other := by
        rintro rfl
        exact Bool.false_ne_true (once.symm.trans again)
      rw [if_pos again, if_pos again, if_neg apart, Nat.add_zero]
    · rw [if_neg again, if_neg again]
  rw [left]
  unfold places
  rw [waits]
  rfl

/-- A timer that repeats leaves the batch for its entry. -/
theorem places_restart_again (again : (queue.timer id).repeats = true) (other : Nat) :
    let after := restartTimer { queue with handling := some ⟨now, [], rest, false⟩ } now id
    after.places other ≤ queue.places other ∧
      (queue.Distinct .restart → after.places other = queue.places other) := by
  intro after
  let renewed : TimerQueue := { queue with
    handling := some ⟨now, [], rest, false⟩
    timer := Function.update queue.timer id ((queue.timer id).restart now) }
  have inserted : after = renewed.insert id := if_pos again
  have waits : after.waiting other =
      if (queue.timer other).repeats then rest.count other else 0 := by
    rw [inserted, ← repeats_update queue now id other]
    rfl
  have moved : queue.waiting other = after.waiting other + if id = other then 1 else 0 := by
    rw [waiting_restart under, waits]
    by_cases same : id = other
    · subst same
      rw [if_pos again, if_pos again]
    · rw [if_neg same, Nat.add_zero, Nat.add_zero]
  have queued : after.queued other = queue.queued other := by rw [inserted]; rfl
  have was : queue.places other = queue.listed other + queue.waiting other +
      queue.queued other := rfl
  have is : after.places other = after.listed other + after.waiting other +
      after.queued other := rfl
  have le : after.listed other ≤ queue.listed other + if id = other then 1 else 0 := by
    rw [inserted]
    exact listed_insert_le renewed id other
  refine ⟨by omega, fun distinct => ?_⟩
  have inserts : queue.inserts .restart = some ((queue.timer id).restart now).expiration := by
    rw [TimerQueue.inserts, under]
    exact if_pos again
  have fresh : ∀ entry ∈ renewed.timers.elems,
      entry.expiration ≠ (renewed.timer id).expiration := by
    have made : renewed.timer id = (queue.timer id).restart now := Function.update_self _ _ _
    rw [made]
    exact distinct _ inserts
  have eq : after.listed other = queue.listed other + if id = other then 1 else 0 := by
    rw [inserted]
    exact listed_insert fresh other
  omega

/-- A timer that `reset` looks at. -/
theorem places_restart (other : Nat) :
    let after := restartTimer { queue with handling := some ⟨now, [], rest, false⟩ } now id
    after.places other ≤ queue.places other ∧
      (queue.Distinct .restart → after.places other = queue.places other) := by
  by_cases again : (queue.timer id).repeats = true
  · exact places_restart_again under again other
  · have same := places_restart_once under (Bool.not_eq_true _ ▸ again) other
    exact ⟨Nat.le_of_eq same, fun _ => same⟩

end Restart

/-- **What an action does to a timer** that it does not register: it stays in as many places as it
was in, or is in fewer, because it was cancelled, because it has fired for the only time, or because
there is an entry with its expiration. -/
theorem Took.places (took : Took queue action next)
    (old : next.nextTimerId ≠ queue.nextTimerId → id ≠ queue.nextTimerId) :
    next.places id = queue.places id ∨
      (next.places id ≤ queue.places id ∧ (.cancelled id true ∈ next.log ∨
        ((queue.timer id).repeats = false ∧ .fired id ∈ next.log) ∨ ¬ queue.Distinct action)) := by
  cases took with
  | elapse | expire | poll => exact .inl rfl
  | @register expiration interval =>
    left
    have apart : id ≠ queue.nextTimerId := old (Nat.succ_ne_self _)
    have registered := places_register expiration interval apart
    have unqueued : queued { queue with unqueued := queue.unqueued ++ [queue.nextTimerId] } id =
        queue.queued id := by
      rw [queued_unqueued, if_neg (Ne.symm apart), Nat.add_zero]
    rw [← registered]
    exact congrArg (fun count => (queue.register expiration interval).listed id +
      (queue.register expiration interval).waiting id + count) unqueued
  | queueInsert member =>
    left
    exact congrArg (fun count => queue.listed id + queue.waiting id + count)
      (queued_queueInsert member)
  | queueCancel =>
    left
    exact congrArg (fun count => queue.listed id + queue.waiting id + count) queued_queueCancel
  | @addTimer expiration interval =>
    left
    have apart : id ≠ queue.nextTimerId := old (Nat.succ_ne_self _)
    have registered := places_register expiration interval apart
    have listed : ((queue.register expiration interval).insert queue.nextTimerId).listed id =
        (queue.register expiration interval).listed id := listed_insert_of_ne (Ne.symm apart)
    rw [← registered]
    exact congrArg (fun count => count + (queue.register expiration interval).waiting id +
      (queue.register expiration interval).queued id) listed
  | @cancel gone =>
    exact (places_cancelInLoop queue gone id).imp_right fun gone => ⟨gone.1, .inl gone.2⟩
  | insertTask _ _ first =>
    obtain ⟨le, eq⟩ := places_insertTask first id
    by_cases distinct : queue.Distinct .runTask
    · exact .inl (eq distinct)
    · exact .inr ⟨le, .inr (.inr distinct)⟩
  | @cancelTask gone rest _ first =>
    have same : TimerQueue.places { queue with pending := rest } id = queue.places id := by
      unfold TimerQueue.places
      rw [queued_of_pending first, if_neg (by simp)]
      rfl
    rw [← same]
    exact (places_cancelInLoop _ gone id).imp_right fun gone => ⟨gone.1, .inl gone.2⟩
  | handleRead idle => exact .inl (places_getExpired idle)
  | runCallback under =>
    refine (places_runCallback under _).imp_right ?_
    rintro ⟨le, once, rfl⟩
    exact ⟨le, .inr (.inl ⟨once, List.mem_append_right _ List.mem_cons_self⟩)⟩
  | restart under =>
    obtain ⟨le, eq⟩ := places_restart under id
    by_cases distinct : queue.Distinct .restart
    · exact .inl (eq distinct)
    · exact .inr ⟨le, .inr (.inr distinct)⟩
  | finish under =>
    left
    have none : queue.waiting id = 0 := by
      rw [waiting_of_under under]
      exact ite_self _
    unfold TimerQueue.places
    rw [none]
    rfl

theorem Took.places_le (took : Took queue action next)
    (old : next.nextTimerId ≠ queue.nextTimerId → id ≠ queue.nextTimerId) :
    next.places id ≤ queue.places id := by
  rcases took.places old with same | ⟨le, -⟩
  · exact Nat.le_of_eq same
  · exact le

end Places

theorem counts_of_nowhere {id : Nat} (nowhere : queue.places id = 0) :
    queue.listed id = 0 ∧ queue.queued id = 0 := by
  unfold places at nowhere
  omega

/-! ### No timer is in two places -/

/-- **The invariant of the places**: a timer is in one at most, and in none before it is registered;
a callback still to run belongs to a timer still to be looked at. -/
structure Placed (queue : TimerQueue) : Prop where
  first : 0 < queue.nextTimerId
  once : ∀ id, queue.places id ≤ 1
  known : ∀ id, id = 0 ∨ queue.nextTimerId ≤ id →
    queue.places id = 0 ∧ ∀ batch ∈ queue.handling, id ∉ batch.toReset
  suffix : ∀ batch ∈ queue.handling, batch.toRun <:+ batch.toReset

theorem Placed.initial : Placed {} where
  first := Nat.one_pos
  once _ := Nat.zero_le _
  known _ _ := ⟨rfl, nofun⟩
  suffix := nofun

theorem nextTimerId_cancelInLoop (queue : TimerQueue) (id : Nat) :
    (queue.cancelInLoop id).nextTimerId = queue.nextTimerId := by
  unfold cancelInLoop
  split <;> rfl

theorem nextTimerId_restartTimer (queue : TimerQueue) (now : Int) (id : Nat) :
    (queue.restartTimer now id).nextTimerId = queue.nextTimerId := by
  unfold restartTimer
  split <;> rfl

/-- The number of timers grows by one, or stays. -/
theorem Took.nextTimerId (took : Took queue action next) :
    next.nextTimerId = queue.nextTimerId ∨ next.nextTimerId = queue.nextTimerId + 1 := by
  cases took with
  | register | addTimer => exact .inr rfl
  | cancel | cancelTask => exact .inl (nextTimerId_cancelInLoop _ _)
  | restart => exact .inl (nextTimerId_restartTimer _ _ _)
  | _ => exact .inl rfl

/-- The batch of a `handleRead` holds registered timers. -/
theorem Placed.batch (placed : Placed queue) (took : Took queue action next) :
    ∀ batch ∈ next.handling,
      batch.toRun <:+ batch.toReset ∧
        ∀ id ∈ batch.toReset, 0 < id ∧ id < queue.nextTimerId := by
  have same (batch : Batch) (under : batch ∈ queue.handling) : batch.toRun <:+ batch.toReset ∧
      ∀ id ∈ batch.toReset, 0 < id ∧ id < queue.nextTimerId := by
    refine ⟨placed.suffix batch under, fun id member => ?_⟩
    by_contra unknown
    exact (placed.known id (by omega)).2 batch under member
  have cancels (queue : TimerQueue) (id : Nat) :
      (queue.cancelInLoop id).handling = queue.handling := by
    unfold cancelInLoop
    split <;> rfl
  cases took with
  | cancel => rwa [cancels]
  | cancelTask => rwa [cancels]
  | handleRead =>
    rintro batch ⟨⟩
    refine ⟨List.suffix_rfl, fun id member => ?_⟩
    by_contra unknown
    have nowhere : queue.listed id + queue.waiting id + queue.queued id = 0 :=
      (placed.known id (by omega)).1
    have due : 0 < ((queue.timers.below queue.clock).map Entry.timer).count id :=
      List.count_pos_iff.mpr member
    rw [listed_eq_add] at nowhere
    omega
  | @runCallback now id rest toReset inCallback under =>
    rintro batch ⟨⟩
    obtain ⟨suffix, known⟩ := same _ under
    exact ⟨(List.suffix_cons id rest).trans suffix, known⟩
  | @restart now id rest inCallback under =>
    have later : (restartTimer { queue with handling := some ⟨now, [], rest, false⟩ } now
        id).handling = some ⟨now, [], rest, false⟩ := by
      unfold restartTimer
      split <;> rfl
    rw [later]
    rintro batch ⟨⟩
    obtain ⟨-, known⟩ := same _ under
    exact ⟨List.nil_suffix, fun id member => known id (List.mem_cons_of_mem _ member)⟩
  | finish => exact nofun
  | _ => exact same

/-- A timer outside the batch waits in none, whatever timer it is. -/
theorem Placed.waiting_eq_zero (placed : Placed queue) {id : Nat}
    (outside : ∀ batch ∈ queue.handling, id ∉ batch.toReset)
    (same : next.handling = queue.handling) : next.waiting id = 0 := by
  cases under : queue.handling with
  | none => exact waiting_of_idle (same.trans under)
  | some batch =>
    have absent : id ∉ batch.toReset := outside batch under
    have started : id ∉ batch.toRun := fun member =>
      absent ((placed.suffix batch under).subset member)
    rw [waiting_of_under (same.trans under), List.count_eq_zero_of_not_mem absent,
      List.count_eq_zero_of_not_mem started]
    exact ite_self _

/-- A timer that another thread has registered waits for its insertion. -/
theorem Placed.places_registered (placed : Placed queue) (expiration interval : Int) :
    TimerQueue.places { queue.register expiration interval with
      unqueued := queue.unqueued ++ [queue.nextTimerId] } queue.nextTimerId = 1 := by
  obtain ⟨nowhere, outside⟩ := placed.known _ (.inr (Nat.le_refl _))
  obtain ⟨unlisted, unqueued⟩ := counts_of_nowhere nowhere
  let registered : TimerQueue := { queue.register expiration interval with
    unqueued := queue.unqueued ++ [queue.nextTimerId] }
  have listed : registered.listed queue.nextTimerId = 0 := unlisted
  have waits : registered.waiting queue.nextTimerId = 0 := placed.waiting_eq_zero outside rfl
  have added : queued { queue with unqueued := queue.unqueued ++ [queue.nextTimerId] }
      queue.nextTimerId = 1 := by
    rw [queued_unqueued, if_pos rfl, unqueued]
  have queued : registered.queued queue.nextTimerId = 1 := added
  show registered.places queue.nextTimerId = 1
  rw [TimerQueue.places, listed, waits, queued]

/-- A timer that the loop's thread has added is in `timers_`, if its expiration was not there. -/
theorem Placed.places_added (placed : Placed queue) (expiration interval : Int) :
    let after := (queue.register expiration interval).insert queue.nextTimerId
    after.places queue.nextTimerId ≤ 1 ∧
      (queue.Distinct (.addTimer expiration interval) →
        after.places queue.nextTimerId = 1) := by
  intro after
  obtain ⟨nowhere, outside⟩ := placed.known _ (.inr (Nat.le_refl _))
  obtain ⟨unlisted, unqueued⟩ := counts_of_nowhere nowhere
  let registered := queue.register expiration interval
  have waits : after.waiting queue.nextTimerId = 0 := placed.waiting_eq_zero outside rfl
  have queued : after.queued queue.nextTimerId = 0 := unqueued
  have before : registered.listed queue.nextTimerId = 0 := unlisted
  rw [TimerQueue.places, waits, queued]
  constructor
  · have le := listed_insert_le registered queue.nextTimerId queue.nextTimerId
    rwa [if_pos rfl, before] at le
  · intro distinct
    have made : registered.timer queue.nextTimerId = ⟨expiration, interval⟩ :=
      Function.update_self _ _ _
    have apart : ∀ entry ∈ registered.timers.elems,
        entry.expiration ≠ (registered.timer queue.nextTimerId).expiration := by
      rw [made]
      exact distinct expiration rfl
    have inserted := listed_insert apart queue.nextTimerId
    rwa [if_pos rfl, before] at inserted

/-- **A timer that is registered** is in one place afterwards, if its expiration is not there. -/
theorem Placed.fresh (placed : Placed queue) (took : Took queue action next)
    (registers : next.nextTimerId ≠ queue.nextTimerId) :
    next.places queue.nextTimerId ≤ 1 ∧
      (queue.Distinct action → next.places queue.nextTimerId = 1) := by
  cases took with
  | @register expiration interval =>
    have one := placed.places_registered expiration interval
    exact ⟨Nat.le_of_eq one, fun _ => one⟩
  | @addTimer expiration interval => exact placed.places_added expiration interval
  | cancel | cancelTask =>
    exact absurd (nextTimerId_cancelInLoop _ _) registers
  | restart => exact absurd (nextTimerId_restartTimer _ _ _) registers
  | _ => exact absurd rfl registers

/-- **One action keeps the invariant.** -/
theorem Placed.step (placed : Placed queue) (took : Took queue action next) : Placed next := by
  have first := placed.first
  have batches := placed.batch took
  have grows := took.nextTimerId
  refine ⟨by omega, fun id => ?_, fun id unknown => ⟨?_, ?_⟩,
    fun batch under => (batches batch under).1⟩
  · by_cases registers : next.nextTimerId ≠ queue.nextTimerId ∧ id = queue.nextTimerId
    · obtain ⟨registers, rfl⟩ := registers
      exact (placed.fresh took registers).1
    · have old : next.places id ≤ queue.places id :=
        took.places_le fun grows same => registers ⟨grows, same⟩
      exact Nat.le_trans old (placed.once id)
  · have old : next.places id ≤ queue.places id := took.places_le fun _ => by omega
    have none := (placed.known id (by omega)).1
    omega
  · intro batch under member
    have known := (batches batch under).2 id member
    omega

/-! ### What an action leaves in the log -/

/-- **What happens to a timer in an action**, if anything does. -/
inductive Happens (queue : TimerQueue) : TimerAction → TimerQueue → Occurrence → Prop
  | addTimer {expiration interval : Int} :
      Happens queue (.addTimer expiration interval)
        ((queue.register expiration interval).insert queue.nextTimerId)
        (.inserted queue.nextTimerId)
  | insertTask {id : Nat} {rest : List TimerTask} (first : queue.pending = .insert id :: rest) :
      Happens queue .runTask (TimerQueue.insert { queue with pending := rest } id) (.inserted id)
  | restart {now : Int} {id : Nat} {rest : List Nat} {inCallback : Bool}
      (under : queue.handling = some ⟨now, [], id :: rest, inCallback⟩)
      (repeats : (queue.timer id).repeats = true) :
      Happens queue .restart
        (restartTimer { queue with handling := some ⟨now, [], rest, false⟩ } now id) (.inserted id)
  | cancel {id : Nat} :
      Happens queue (.cancel id) (queue.cancelInLoop id) (.cancelled id (id ∈ queue.timerMap))
  | cancelTask {id : Nat} {rest : List TimerTask} (first : queue.pending = .cancel id :: rest) :
      Happens queue .runTask (cancelInLoop { queue with pending := rest } id)
        (.cancelled id (id ∈ queue.timerMap))
  | runCallback {now : Int} {id : Nat} {rest toReset : List Nat} {inCallback : Bool}
      (under : queue.handling = some ⟨now, id :: rest, toReset, inCallback⟩) :
      Happens queue .runCallback
        { queue with
          handling := some ⟨now, rest, toReset, true⟩
          log := queue.log ++ [.fired id] }
        (.fired id)

theorem log_cancelInLoop (queue : TimerQueue) (id : Nat) :
    (queue.cancelInLoop id).log = queue.log ++ [.cancelled id (id ∈ queue.timerMap)] := by
  unfold cancelInLoop
  by_cases found : id ∈ queue.timerMap
  · rw [if_pos found, decide_eq_true found]
  · rw [if_neg found, decide_eq_false found]

theorem Happens.log {occurrence : Occurrence} (happens : Happens queue action next occurrence) :
    next.log = queue.log ++ [occurrence] := by
  cases happens with
  | addTimer | insertTask | runCallback => rfl
  | cancel | cancelTask => exact log_cancelInLoop _ _
  | restart _ repeats =>
    rw [restartTimer, if_pos repeats]
    rfl

/-- An action in which nothing happens logs nothing. -/
theorem Took.happens (took : Took queue action next) :
    next.log = queue.log ∨ ∃ occurrence, Happens queue action next occurrence := by
  cases took with
  | addTimer => exact .inr ⟨_, .addTimer⟩
  | insertTask _ _ first => exact .inr ⟨_, .insertTask first⟩
  | cancel => exact .inr ⟨_, .cancel⟩
  | cancelTask _ first => exact .inr ⟨_, .cancelTask first⟩
  | runCallback under => exact .inr ⟨_, .runCallback under⟩
  | @restart now id rest inCallback under =>
    by_cases repeats : (queue.timer id).repeats = true
    · exact .inr ⟨_, .restart under repeats⟩
    · left
      rw [restartTimer, if_neg repeats]
  | _ => exact .inl rfl

theorem Took.mem_log (took : Took queue action next) {occurrence : Occurrence}
    (member : occurrence ∈ next.log) :
    occurrence ∈ queue.log ∨ Happens queue action next occurrence := by
  rcases took.happens with same | ⟨last, happens⟩
  · exact .inl (same ▸ member)
  · rw [happens.log, List.mem_append, List.mem_singleton] at member
    rcases member with before | rfl
    · exact .inl before
    · exact .inr happens

theorem Took.log_subset (took : Took queue action next) : queue.log ⊆ next.log := by
  rcases took.happens with same | ⟨last, happens⟩
  · exact same ▸ List.Subset.refl _
  · rw [happens.log]
    exact List.subset_append_left _ _

theorem Happens.mem_log {occurrence : Occurrence}
    (happens : Happens queue action next occurrence) : occurrence ∈ next.log := by
  rw [happens.log]
  exact List.mem_append_right _ List.mem_cons_self

/-- No action changes whether a timer repeats. -/
theorem Took.repeats (took : Took queue action next) {id : Nat}
    (old : id ≠ queue.nextTimerId) : (next.timer id).repeats = (queue.timer id).repeats := by
  cases took with
  | register | addTimer => exact congrArg Timer.repeats (Function.update_of_ne old _ _)
  | cancel | cancelTask =>
    unfold cancelInLoop
    split <;> rfl
  | restart =>
    unfold restartTimer
    split
    · exact repeats_update _ _ _ _
    · rfl
  | _ => rfl

/-- No action queues the insertion of a timer that is registered. -/
theorem Took.queued_le (took : Took queue action next) {id : Nat}
    (old : id ≠ queue.nextTimerId) : next.queued id ≤ queue.queued id := by
  cases took with
  | register =>
    refine Nat.le_of_eq (Eq.trans (queued_unqueued queue.nextTimerId) ?_)
    rw [if_neg (Ne.symm old), Nat.add_zero]
    rfl
  | queueInsert member => exact Nat.le_of_eq (queued_queueInsert member)
  | queueCancel => exact Nat.le_of_eq queued_queueCancel
  | cancel => exact Nat.le_of_eq (cancelInLoop_counts _ _ _).2.2
  | insertTask _ _ first =>
    rw [queued_of_pending first]
    exact Nat.le_add_right _ _
  | cancelTask _ first =>
    rw [queued_of_pending first, (cancelInLoop_counts _ _ _).2.2]
    exact Nat.le_add_right _ _
  | restart =>
    unfold restartTimer
    split <;> exact Nat.le_refl _
  | _ => exact Nat.le_refl _

end TimerQueue

end SunKV.Network
