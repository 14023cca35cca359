/-
**Whether the timerfd is armed.**

Between events, a timer with an entry fires only if the timerfd is armed, or has expired and was not
read. The queue sets it for the earliest entry, with the time left until its expiration; a time that
has run out is set as zero, and zero disarms.

### What is proved

* `armed_iff` — **an entry implies an armed timerfd** in every state of a run, exactly if the clock
  has not reached the earliest expiration whenever the timerfd is set for it.
* `timely_runAfter`, `timely_runEvery` — the calls with a positive delay meet the condition.
* `disarmed` — `runAfter` without a delay leaves an entry and a timerfd that never expires.
-/

import SunKV.Network.TimerPlaces

namespace SunKV.Network

open SunKV.Lib

namespace TimerQueue

variable {queue next : TimerQueue} {action : TimerAction}

/-- Between events, an entry implies an armed timerfd or an expiration that was not read. -/
def Armed (queue : TimerQueue) : Prop :=
  queue.handling = none → queue.timers.elems ≠ [] →
    queue.timerfd.armed.isSome ∨ queue.timerfd.unread

/-- The expiration that an action sets the timerfd for, if no later one of its event sets it
again: an insertion outside `handleRead` before all entries, and the end of `handleRead`. -/
def arms (queue : TimerQueue) : TimerAction → Option Int
  | .addTimer expiration _ =>
    if queue.handling.isNone ∧ queue.earliestChanged expiration then some expiration else none
  | .runTask =>
    match queue.handling, queue.reported, queue.pending with
    | none, false, .insert id :: _ =>
      if queue.earliestChanged (queue.timer id).expiration then some (queue.timer id).expiration
      else none
    | _, _, _ => none
  | .finish =>
    match queue.handling with
    | some ⟨_, [], [], _⟩ => queue.timers.begin?.map Entry.expiration
    | _ => none
  | _ => none

/-- The clock has not reached the expiration that an action sets the timerfd for. -/
def Timely (queue : TimerQueue) (action : TimerAction) : Prop :=
  ∀ expiration ∈ queue.arms action, queue.clock < expiration

/-- What is set expires, if the clock has not reached it. -/
theorem armed_resetTimerfd_iff (expiration clock : Int) :
    ((resetTimerfd expiration clock).armed.isSome ∨ (resetTimerfd expiration clock).unread) ↔
      clock < expiration := by
  rw [resetTimerfd_eq]
  split
  case isTrue later => exact iff_of_true (.inl rfl) later
  case isFalse reached => exact iff_of_false (by decide) reached

theorem armed_of_handling {batch : Batch} (under : queue.handling = some batch) : queue.Armed := by
  intro idle
  rw [idle] at under
  cases under

theorem armed_insert_iff (armed : queue.Armed) (idle : queue.handling = none) (id : Nat) :
    (queue.insert id).Armed ↔ (queue.earliestChanged (queue.timer id).expiration →
      queue.clock < (queue.timer id).expiration) := by
  have listed : (queue.insert id).timers.elems ≠ [] := queue.timers.emplace_ne_nil _
  have armed_iff : (queue.insert id).Armed ↔
      (queue.insert id).timerfd.armed.isSome ∨ (queue.insert id).timerfd.unread :=
    ⟨fun armed => armed idle listed, fun armed _ _ => armed⟩
  rw [armed_iff, TimerQueue.insert]
  by_cases earliest : queue.earliestChanged (queue.timer id).expiration = true
  · rw [if_pos earliest, armed_resetTimerfd_iff, imp_iff_right earliest]
  · rw [if_neg earliest]
    refine iff_of_true (armed idle fun none => earliest ?_) fun changed => absurd changed earliest
    rw [earliestChanged, OrderedSet.begin?, none]
    rfl

theorem armed_cancelInLoop (armed : queue.Armed) (id : Nat) : (queue.cancelInLoop id).Armed := by
  unfold cancelInLoop
  split
  · intro idle listed
    refine armed idle fun none => listed ?_
    show queue.timers.elems.eraseP _ = []
    rw [none]
    rfl
  · exact armed

theorem armed_rearm_iff (idle : queue.handling = none) :
    queue.rearm.Armed ↔
      ∀ expiration ∈ queue.timers.begin?.map Entry.expiration, queue.clock < expiration := by
  cases first : queue.timers.begin? with
  | none =>
    have none : queue.timers.elems = [] := List.head?_eq_none_iff.mp first
    exact iff_of_true (fun _ listed => absurd none listed) nofun
  | some entry =>
    have listed : queue.timers.elems ≠ [] := by
      intro none
      rw [OrderedSet.begin?, none] at first
      cases first
    have set : queue.rearm.timerfd = resetTimerfd entry.expiration queue.clock := by
      rw [rearm, first]
    have armed_iff : queue.rearm.Armed ↔
        queue.rearm.timerfd.armed.isSome ∨ queue.rearm.timerfd.unread :=
      ⟨fun armed => armed idle listed, fun armed _ _ => armed⟩
    rw [armed_iff, set, armed_resetTimerfd_iff]
    exact ⟨fun later _ same => Option.some.inj same ▸ later, fun timely => timely _ rfl⟩

theorem timely_of_arms (none : queue.arms action = none) : queue.Timely action := by
  intro expiration member
  rw [none] at member
  cases member

theorem timely_iff {condition : Prop} [Decidable condition] {expiration : Int}
    (arms : queue.arms action = if condition then some expiration else none) :
    queue.Timely action ↔ (condition → queue.clock < expiration) := by
  rw [Timely, arms]
  by_cases sets : condition
  · rw [if_pos sets, imp_iff_right sets]
    exact ⟨fun timely => timely _ rfl, fun later _ same => Option.some.inj same ▸ later⟩
  · rw [if_neg sets]
    exact iff_of_true nofun fun holds => absurd holds sets

/-- **What an action does**: the timerfd stays armed exactly if the action is timely. -/
theorem armed_step_iff (armed : queue.Armed) (took : Took queue action next) :
    next.Armed ↔ queue.Timely action := by
  cases took with
  | expire => exact iff_of_true (fun _ _ => .inr rfl) nofun
  | @addTimer expiration interval =>
    cases under : queue.handling with
    | some batch =>
      refine iff_of_true (armed_of_handling under) (timely_of_arms ?_)
      simp [arms, under]
    | none =>
      let registered := queue.register expiration interval
      have timer : registered.timer queue.nextTimerId = ⟨expiration, interval⟩ :=
        Function.update_self _ _ _
      have same : registered.Armed := armed
      have inserts := armed_insert_iff same under queue.nextTimerId
      rw [timer] at inserts
      have sets : queue.arms (.addTimer expiration interval) =
          if queue.earliestChanged expiration then some expiration else none := by
        simp [arms, under]
      exact inserts.trans (timely_iff sets).symm
  | cancel => exact iff_of_true (armed_cancelInLoop armed _) nofun
  | @insertTask id rest idle unreported first =>
    have same : Armed { queue with pending := rest } := armed
    have sets : queue.arms .runTask =
        if queue.earliestChanged (queue.timer id).expiration then
          some (queue.timer id).expiration
        else none := by
      rw [arms, idle, unreported, first]
    exact (armed_insert_iff same idle id).trans (timely_iff sets).symm
  | @cancelTask id rest idle first =>
    have same : Armed { queue with pending := rest } := armed
    refine iff_of_true (armed_cancelInLoop same id) (timely_of_arms ?_)
    simp [arms, idle, first]
  | handleRead => exact iff_of_true (armed_of_handling rfl) nofun
  | runCallback => exact iff_of_true (armed_of_handling rfl) nofun
  | restart =>
    refine iff_of_true ?_ nofun
    unfold restartTimer
    split <;> exact armed_of_handling rfl
  | finish under =>
    refine (armed_rearm_iff rfl).trans ?_
    rw [Timely, arms, under]
  | _ => exact iff_of_true armed nofun

/-- An action that cannot be taken sets nothing. -/
theorem timely_of_stuck (stuck : queue.step action = none) : queue.Timely action := by
  refine timely_of_arms ?_
  cases action with
  | addTimer expiration interval =>
    have busy : queue.handling.isNone ≠ true := by
      intro idle
      have ready : queue.userCode = true := by
        rw [userCode, Option.isNone_iff_eq_none.mp idle]
        rfl
      rw [step, if_pos ready] at stuck
      cases stuck
    exact if_neg fun both => busy both.1
  | runTask =>
    simp only [arms]
    split
    case h_1 idle unreported first =>
      rw [step, idle, unreported, first] at stuck
      cases stuck
    case h_2 => rfl
  | finish =>
    simp only [arms]
    split
    case h_1 under =>
      rw [step, under] at stuck
      cases stuck
    case h_2 => rfl
  | _ => rfl

/-- **An entry implies an armed timerfd**, in every state of a run, exactly if the clock has not
reached the expiration whenever the timerfd is set for it. -/
theorem armed_iff (actions : List TimerAction) :
    (∀ before, before <+: actions →
      ∀ queue ∈ Machine.run TimerQueue.step before {}, queue.Armed) ↔
      Machine.Throughout TimerQueue.step Timely actions {} := by
  refine Machine.throughout_iff (fun {queue action} armed => ?_) fun _ listed => absurd rfl listed
  cases taken : queue.step action with
  | none => exact iff_of_true nofun (timely_of_stuck taken)
  | some next =>
    rw [← armed_step_iff armed (took_of_step taken)]
    exact ⟨fun all => all next rfl, fun armed _ same => Option.some.inj same ▸ armed⟩

/-- **Nothing is armed**: `runAfter` without a delay, when the clock is at `5`. -/
theorem disarmed :
    ∃ queue next, Machine.run TimerQueue.step [.elapse 5] {} = some queue ∧
      queue.step (queue.runAfter 0) = some next ∧ next.handling.isNone ∧
      next.timers.elems = [⟨5, 1⟩] ∧ next.timerfd = {} ∧ ¬ next.Armed :=
  ⟨_, _, rfl, rfl, rfl, rfl, rfl,
    fun armed => absurd (armed rfl (List.cons_ne_nil _ _)) (by decide)⟩

/-! ### The calls of the loop -/

theorem timely_addTimer {expiration : Int} (later : queue.clock < expiration) (interval : Int) :
    queue.Timely (.addTimer expiration interval) :=
  (timely_iff rfl).mpr fun _ => later

/-- `runAfter` with a positive delay. -/
theorem timely_runAfter {delay : Int} (positive : 0 < delay) :
    queue.Timely (queue.runAfter delay) := by
  refine timely_addTimer ?_ 0
  rw [nanosPerMilli]
  omega

/-- `runEvery` with a positive interval. -/
theorem timely_runEvery {interval : Int} (positive : 0 < interval) :
    queue.Timely (queue.runEvery interval) := by
  refine timely_addTimer ?_ interval
  rw [nanosPerMilli]
  omega

/-- `runAt` with a time to come. -/
theorem timely_runAt {time : Int} (later : queue.clock < time) : queue.Timely (runAt time) :=
  timely_addTimer later 0

end TimerQueue

end SunKV.Network
