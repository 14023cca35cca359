/-
**What holds of the timers in every run.**

The runs are those of `TimerQueue.step` from an empty queue: timers are added and cancelled on any
thread and in any callback, at any times and with any intervals, and the clock moves on at will.

### What is proved

* `timer_kept` — **no timer is lost**, in every run in which no insertion meets an entry with its
  expiration. `timer_lost`: two timers with one expiration, and one of them has no entry.
* `cancelled_silent` — **a cancelled timer does not fire**, in every run in which `cancel` finds the
  timer inserted and not in a batch. `cancelled_fires`: a repeating timer that its own callback
  cancels.
-/

import SunKV.Network.TimerPlaces

namespace SunKV.Network

open SunKV.Lib

namespace TimerQueue

variable {queue next : TimerQueue} {action : TimerAction}

/-! ### No timer is lost -/

instance (queue : TimerQueue) : DecidablePred queue.Distinct := fun action =>
  inferInstanceAs (Decidable (∀ expiration ∈ queue.inserts action, ∀ entry ∈ queue.timers.elems,
    entry.expiration ≠ expiration))

/-- A timer that an action inserts waits for no other insertion. -/
theorem Placed.inserted (placed : Placed queue) {id : Nat}
    (inserted : Happens queue action next (.inserted id)) :
    0 < id ∧ id < next.nextTimerId ∧ next.queued id = 0 := by
  have once : queue.listed id + queue.waiting id + queue.queued id ≤ 1 := placed.once id
  have known : queue.places id ≠ 0 → 0 < id ∧ id < queue.nextTimerId := by
    intro somewhere
    by_contra unknown
    exact somewhere (placed.known id (by omega)).1
  have places : queue.places id = queue.listed id + queue.waiting id + queue.queued id := rfl
  cases inserted with
  | addTimer =>
    have nowhere := (placed.known _ (.inr (Nat.le_refl _))).1
    refine ⟨placed.first, Nat.lt_succ_self _, ?_⟩
    show queue.queued queue.nextTimerId = 0
    omega
  | @insertTask _ rest first =>
    have queued : queue.queued id = TimerQueue.queued { queue with pending := rest } id +
        if TimerTask.insert id = .insert id then 1 else 0 := queued_of_pending first
    rw [if_pos rfl] at queued
    refine ⟨(known (by omega)).1, (known (by omega)).2, ?_⟩
    show TimerQueue.queued { queue with pending := rest } id = 0
    omega
  | @restart now _ rest _ under repeats =>
    have waits : queue.waiting id = (id :: rest).count id := by
      rw [waiting_of_under under, if_pos repeats]
    rw [List.count_cons_self] at waits
    have registered := known (by omega)
    rw [restartTimer, if_pos repeats]
    refine ⟨registered.1, registered.2, ?_⟩
    show queue.queued id = 0
    omega

/-- **The invariant**: a registered timer is in a place, unless it was cancelled, or has fired for
the only time; one that was inserted waits for no insertion. -/
structure Kept (queue : TimerQueue) : Prop where
  placed : Placed queue
  present : ∀ id, 0 < id → id < queue.nextTimerId → .cancelled id true ∉ queue.log →
    ((queue.timer id).repeats ∨ .fired id ∉ queue.log) → queue.places id = 1
  settled : ∀ id, .inserted id ∈ queue.log →
    0 < id ∧ id < queue.nextTimerId ∧ queue.queued id = 0

theorem Kept.initial : Kept {} where
  placed := .initial
  present id positive below := by
    have first : id < 1 := below
    omega
  settled := nofun

theorem Kept.step (kept : Kept queue) (distinct : queue.Distinct action)
    (taken : queue.step action = some next) : Kept next := by
  have took := took_of_step taken
  have grows := took.nextTimerId
  refine ⟨kept.placed.step took, fun id positive below uncancelled due => ?_,
    fun id inserted => ?_⟩
  · by_cases new : id = queue.nextTimerId
    · subst new
      exact (kept.placed.fresh took (Nat.ne_of_gt below)).2 distinct
    · have earlier {occurrence : Occurrence} (absent : occurrence ∉ next.log) :
          occurrence ∉ queue.log := fun member => absent (took.log_subset member)
      rw [took.repeats new] at due
      have before : queue.places id = 1 :=
        kept.present id positive (by omega) (earlier uncancelled) (due.imp_right earlier)
      rcases took.places fun _ => new with same | ⟨-, cancelled | ⟨once, fired⟩ | met⟩
      · exact same.trans before
      · exact absurd cancelled uncancelled
      · rcases due with repeats | silent
        · rw [once] at repeats
          cases repeats
        · exact absurd fired silent
      · exact absurd distinct met
  · rcases took.mem_log inserted with before | now
    · obtain ⟨positive, below, none⟩ := kept.settled id before
      have le := took.queued_le (Nat.ne_of_lt below)
      exact ⟨positive, by omega, by omega⟩
    · exact kept.placed.inserted now

/-- **No timer is lost**, in every run in which each insertion finds no entry with the expiration
that it inserts. -/
theorem timer_kept (actions : List TimerAction)
    (ran : Machine.run TimerQueue.step actions {} = some queue)
    (distinct : Machine.Throughout TimerQueue.step Distinct actions {})
    (idle : queue.handling = none) {id : Nat} (inserted : .inserted id ∈ queue.log)
    (uncancelled : .cancelled id true ∉ queue.log)
    (due : (queue.timer id).repeats ∨ .fired id ∉ queue.log) : queue.listed id = 1 := by
  have kept : Kept queue :=
    distinct.keeps (fun kept distinct taken => kept.step distinct taken) .initial ran
  obtain ⟨positive, below, unqueued⟩ := kept.settled id inserted
  have one : queue.listed id + queue.waiting id + queue.queued id = 1 :=
    kept.present id positive below uncancelled due
  rw [waiting_of_idle idle, unqueued] at one
  exact one

/-- A timer that fires once and one that repeats expire together. -/
def expireTogether : List TimerAction :=
  [.addTimer 10 0, .addTimer 20 1, .elapse 21, .expire, .poll, .handleRead, .runCallback,
    .runCallback, .restart, .restart, .finish]

/-- The one that repeats has an entry again. -/
theorem timer_kept_repeating :
    ∃ queue, Machine.run TimerQueue.step expireTogether {} = some queue ∧
      queue.handling.isNone ∧ queue.timers.elems = [⟨1000021, 2⟩] ∧ queue.listed 2 = 1 :=
  ⟨_, rfl, rfl, rfl,
    timer_kept expireTogether rfl (by decide) rfl (by decide) (by decide) (.inl (by decide))⟩

/-- **A timer is lost**: two timers with one expiration are inserted, and only the first has an
entry. -/
theorem timer_lost :
    ∃ queue, Machine.run TimerQueue.step [.addTimer 10 0, .addTimer 10 0] {} = some queue ∧
      queue.handling.isNone ∧ queue.log = [.inserted 1, .inserted 2] ∧
      queue.timers.elems = [⟨10, 1⟩] ∧ queue.listed 2 = 0 :=
  ⟨_, rfl, rfl, rfl, rfl, rfl⟩

/-! ### A cancelled timer does not fire -/

/-- The timer that an action cancels, if it runs the task of a `cancel`. -/
def cancels (queue : TimerQueue) : TimerAction → Option Nat
  | .cancel id => some id
  | .runTask =>
    match queue.pending with
    | .cancel id :: _ => some id
    | _ => none
  | _ => none

/-- A timer is registered, and waits neither for its insertion nor in a batch, when an action
cancels it. -/
def Settled (id : Nat) (queue : TimerQueue) (action : TimerAction) : Prop :=
  id ∈ queue.cancels action →
    id < queue.nextTimerId ∧ queue.queued id = 0 ∧ queue.waiting id = 0

instance (id : Nat) (queue : TimerQueue) : DecidablePred (Settled id queue) := fun action =>
  inferInstanceAs (Decidable (id ∈ queue.cancels action →
    id < queue.nextTimerId ∧ queue.queued id = 0 ∧ queue.waiting id = 0))

/-- A cancelled timer that waits for nothing is nowhere. -/
theorem places_cancelled {id : Nat} (unqueued : queue.queued id = 0)
    (idle : queue.waiting id = 0)
    (listed : queue.listed id ≤ if id ∈ queue.timerMap then 1 else 0) :
    (queue.cancelInLoop id).places id = 0 := by
  obtain ⟨left, waiting, queued⟩ := cancelInLoop_counts queue id id
  simp only [and_true] at left
  rw [places, left, waiting, queued, unqueued, idle]
  omega

/-- A timer that fires is in a place. -/
theorem Placed.fired (placed : Placed queue) {id : Nat}
    (fired : Happens queue action next (.fired id)) : queue.places id ≠ 0 := by
  cases fired with
  | @runCallback now _ rest toReset inCallback under =>
    have suffix : id :: rest <:+ toReset := placed.suffix _ under
    have member : id ∈ toReset := suffix.subset List.mem_cons_self
    have waits : 0 < queue.waiting id := by
      rw [waiting_of_under under]
      split
      · exact List.count_pos_iff.mpr member
      · exact List.count_pos_iff.mpr List.mem_cons_self
    unfold TimerQueue.places
    omega

theorem mem_timerMap_cancelInLoop {id other : Nat} (member : id ∈ queue.timerMap)
    (apart : id ≠ other) : id ∈ (queue.cancelInLoop other).timerMap := by
  unfold cancelInLoop
  split
  · exact Finset.mem_erase.mpr ⟨apart, member⟩
  · exact member

/-- A registered timer stays in `timerMap_` until it is cancelled. -/
theorem Took.mem_timerMap (took : Took queue action next) {id : Nat}
    (before : id ∈ queue.timerMap ∨
      (next.nextTimerId ≠ queue.nextTimerId ∧ id = queue.nextTimerId))
    (uncancelled : ∀ found, ¬ Happens queue action next (.cancelled id found)) :
    id ∈ next.timerMap := by
  cases took with
  | register | addTimer =>
    rcases before with member | ⟨-, rfl⟩
    · exact Finset.mem_insert_of_mem member
    · exact Finset.mem_insert_self _ _
  | @cancel other =>
    rcases before with member | ⟨registers, -⟩
    · refine mem_timerMap_cancelInLoop member ?_
      rintro rfl
      exact uncancelled _ .cancel
    · exact absurd (nextTimerId_cancelInLoop _ _) registers
  | @cancelTask other rest idle first =>
    rcases before with member | ⟨registers, -⟩
    · refine mem_timerMap_cancelInLoop member ?_
      rintro rfl
      exact uncancelled _ (.cancelTask first)
    · exact absurd (nextTimerId_cancelInLoop _ _) registers
  | restart =>
    rcases before with member | ⟨registers, -⟩
    · unfold restartTimer
      split <;> exact member
    · exact absurd (nextTimerId_restartTimer _ _ _) registers
  | _ =>
    rcases before with member | ⟨registers, -⟩
    · exact member
    · exact absurd rfl registers

/-- **The invariant**: a timer that was cancelled is nowhere, and has not fired since; one that is
registered and was not cancelled is in `timerMap_`. -/
structure Silent (id : Nat) (queue : TimerQueue) : Prop where
  placed : Placed queue
  mapped : 0 < id → id < queue.nextTimerId → (∀ found, .cancelled id found ∉ queue.log) →
    id ∈ queue.timerMap
  gone : ∀ found, .cancelled id found ∈ queue.log →
    id < queue.nextTimerId ∧ queue.places id = 0
  silent : queue.log.Pairwise fun earlier later =>
    ∀ found, earlier = .cancelled id found → later ≠ .fired id

theorem Silent.initial (id : Nat) : Silent id {} where
  placed := .initial
  mapped positive below := by
    have first : id < 1 := below
    omega
  gone := nofun
  silent := .nil

/-- A timer with an entry is in `timerMap_`. -/
theorem Silent.listed_le {id : Nat} (silent : Silent id queue) (below : id < queue.nextTimerId) :
    queue.listed id ≤ if id ∈ queue.timerMap then 1 else 0 := by
  have once : queue.listed id + queue.waiting id + queue.queued id ≤ 1 := silent.placed.once id
  by_cases member : id ∈ queue.timerMap
  · rw [if_pos member]
    omega
  · have nowhere : queue.listed id + queue.waiting id + queue.queued id = 0 := by
      by_cases zero : id = 0
      · exact (silent.placed.known id (.inl zero)).1
      · have cancelled : ∃ found, .cancelled id found ∈ queue.log := by
          by_contra uncancelled
          exact member (silent.mapped (Nat.pos_of_ne_zero zero) below (not_exists.mp uncancelled))
        obtain ⟨found, cancelled⟩ := cancelled
        exact (silent.gone found cancelled).2
    omega

/-- A timer is nowhere after its cancellation. -/
theorem Silent.cancelled {id : Nat} (silent : Silent id queue)
    (settled : Settled id queue action) {found : Bool}
    (cancelled : Happens queue action next (.cancelled id found)) :
    id < next.nextTimerId ∧ next.places id = 0 := by
  cases cancelled with
  | cancel =>
    obtain ⟨below, unqueued, idle⟩ := settled rfl
    rw [nextTimerId_cancelInLoop]
    exact ⟨below, places_cancelled unqueued idle (silent.listed_le below)⟩
  | @cancelTask _ rest first =>
    obtain ⟨below, unqueued, idle⟩ := settled (by rw [cancels, first]; rfl)
    have fewer : queued { queue with pending := rest } id = 0 := by
      rw [queued_of_pending first] at unqueued
      omega
    rw [nextTimerId_cancelInLoop]
    exact ⟨below, places_cancelled fewer idle (silent.listed_le below)⟩

theorem Silent.step {id : Nat} (silent : Silent id queue) (settled : Settled id queue action)
    (taken : queue.step action = some next) : Silent id next := by
  have took := took_of_step taken
  have grows := took.nextTimerId
  refine ⟨silent.placed.step took, fun positive below uncancelled => ?_, fun found cancelled => ?_,
    ?_⟩
  · refine took.mem_timerMap ?_ fun found now => uncancelled found now.mem_log
    by_cases old : id < queue.nextTimerId
    · exact .inl (silent.mapped positive old fun found before =>
        uncancelled found (took.log_subset before))
    · exact .inr ⟨by omega, by omega⟩
  · rcases took.mem_log cancelled with before | now
    · obtain ⟨below, nowhere⟩ := silent.gone found before
      have le := took.places_le fun _ => Nat.ne_of_lt below
      exact ⟨by omega, by omega⟩
    · exact silent.cancelled settled now
  · rcases took.happens with same | ⟨last, happens⟩
    · rw [same]
      exact silent.silent
    · rw [happens.log]
      refine List.pairwise_append.mpr ⟨silent.silent, List.pairwise_singleton _ _, ?_⟩
      rintro earlier before later now found rfl rfl
      obtain rfl := List.mem_singleton.mp now
      exact silent.placed.fired happens (silent.gone found before).2

/-- **A cancelled timer does not fire**, in every run in which the timer, whenever the task of a
`cancel` of it runs, is registered and waits neither for its insertion nor in a batch. -/
theorem cancelled_silent (actions : List TimerAction) (id : Nat)
    (ran : Machine.run TimerQueue.step actions {} = some queue)
    (settled : Machine.Throughout TimerQueue.step (Settled id) actions {}) :
    queue.log.Pairwise fun earlier later =>
      ∀ found, earlier = .cancelled id found → later ≠ .fired id := by
  have silent : Silent id queue :=
    settled.keeps (fun silent settled taken => silent.step settled taken) (.initial id) ran
  exact silent.silent

/-- A timer is cancelled by another thread, and a second one fires. -/
def cancelFirst : List TimerAction :=
  [.addTimer 10 0, .queueCancel 1, .addTimer 20 0, .runTask, .elapse 21, .expire, .poll,
    .handleRead, .runCallback]

theorem cancelled_silent_first :
    ∃ queue, Machine.run TimerQueue.step cancelFirst {} = some queue ∧
      queue.log = [.inserted 1, .inserted 2, .cancelled 1 true, .fired 2] ∧
      queue.log.Pairwise fun earlier later =>
        ∀ found, earlier = .cancelled 1 found → later ≠ .fired 1 :=
  ⟨_, rfl, rfl, cancelled_silent cancelFirst 1 rfl (by decide)⟩

/-- **A cancelled timer fires**: its own callback cancels it, and `reset` inserts it again. -/
theorem cancelled_fires :
    ∃ queue, Machine.run TimerQueue.step
        [.addTimer 10 1, .elapse 11, .expire, .poll, .handleRead, .runCallback, .cancel 1, .restart,
          .finish, .elapse 1000012, .expire, .poll, .handleRead, .runCallback] {} = some queue ∧
      queue.log = [.inserted 1, .fired 1, .cancelled 1 true, .inserted 1, .fired 1] ∧
      ¬ queue.log.Pairwise fun earlier later =>
        ∀ found, earlier = .cancelled 1 found → later ≠ .fired 1 :=
  ⟨_, rfl, rfl, by decide⟩

end TimerQueue

end SunKV.Network
