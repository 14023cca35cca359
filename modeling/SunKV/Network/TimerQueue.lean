/-
**The timers of a loop.**

A timer is registered under its number by the thread that adds it, and inserted into `timers_` by
the loop: at once if the loop's own thread adds it, else by a task. `timers_` is a set of entries
that are compared by their expiration. The timerfd is armed for the earliest one; when it expires,
`handleRead` takes the entries that are due out of the set, runs their callbacks, and inserts the
repeating ones again. A callback may itself add and cancel timers.

One action is one step that no other thread can come between: the two halves of an `addTimer` on
another thread, a task of the loop, one callback of `handleRead` or one restart. The clock moves on
by actions of its own, so it may have moved on at every reading. An `addTimer` of the loop's thread
is one action, since what other threads do between its halves changes nothing that the second half
reads. The loop asks for events, and calls `handleRead` after the handlers of other channels; one of
these may have set the timerfd anew, and `handleRead` then reads nothing and goes on. A callback
that throws ends the loop, and is left out. Time points are integers: the sums and differences of
the source are taken not to overflow.

* `resetTimerfd_eq` — what arming does: **an expiration that the clock has reached disarms**.
* `listed`, `waiting`, `queued` — where a timer can be; `Distinct` — an action inserts no expiration
  that is there.
-/

import Mathlib.Data.Finset.Basic
import SunKV.Lib.Machine
import SunKV.Lib.OrderedSet

namespace SunKV.Network

open SunKV.Lib

/-! ### Timers and the timerfd -/

/-- Nanoseconds in a second. -/
def nanosPerSecond : Int := 1000000000

/-- Nanoseconds in a millisecond. -/
def nanosPerMilli : Int := 1000000

/-- `class Timer`, without its callback; the interval is in milliseconds. -/
structure Timer where
  expiration : Int
  interval : Int
  deriving DecidableEq

namespace Timer

variable (timer : Timer)

/-- `repeat_`. -/
def repeats : Bool := 0 < timer.interval

/-- `restart`. -/
def restart (now : Int) : Timer :=
  { timer with
    expiration := if timer.repeats then now + timer.interval * nanosPerMilli else 0 }

theorem repeats_restart (now : Int) : (timer.restart now).repeats = timer.repeats := rfl

end Timer

/-- `struct Entry`: a timer stands for its number. -/
structure Entry where
  expiration : Int
  timer : Nat
  deriving DecidableEq

/-- `TimerList`. -/
abbrev TimerList := OrderedSet Entry.expiration

/-- `it_value` of a `struct itimerspec` whose `it_interval` is zero. -/
structure ItValue where
  tvSec : Int
  tvNsec : Int
  deriving DecidableEq

/-- A timerfd: when it will expire, and whether it has an expiration that was not read. -/
structure Timerfd where
  armed : Option Int := none
  unread : Bool := false
  deriving DecidableEq

/-- `timerfd_settime`: the expirations so far are forgotten, and a zero value disarms. -/
def Timerfd.settime (value : ItValue) (clock : Int) : Timerfd :=
  if value = ⟨0, 0⟩ then {}
  else { armed := some (clock + value.tvSec * nanosPerSecond + value.tvNsec) }

/-- `resetTimerfd`, when it reads the clock. -/
def resetTimerfd (expiration clock : Int) : Timerfd :=
  let duration := if expiration - clock < 0 then 0 else expiration - clock
  let seconds := duration.tdiv nanosPerSecond
  Timerfd.settime ⟨seconds, duration - seconds * nanosPerSecond⟩ clock

/-- **What arming does.** -/
theorem resetTimerfd_eq (expiration clock : Int) :
    resetTimerfd expiration clock =
      if clock < expiration then { armed := some expiration } else {} := by
  unfold resetTimerfd
  by_cases later : clock < expiration
  · have ahead : ¬ expiration - clock < 0 := by omega
    rw [if_neg ahead, if_pos later, Timerfd.settime]
    generalize (expiration - clock).tdiv nanosPerSecond = seconds
    have value : (⟨seconds, expiration - clock - seconds * nanosPerSecond⟩ : ItValue) ≠ ⟨0, 0⟩ := by
      intro zero
      rw [ItValue.mk.injEq] at zero
      obtain ⟨rfl, rest⟩ := zero
      omega
    have deadline : clock + seconds * nanosPerSecond +
        (expiration - clock - seconds * nanosPerSecond) = expiration := by
      omega
    rw [if_neg value, deadline]
  · have none : (if expiration - clock < 0 then 0 else expiration - clock) = 0 := by
      split <;> omega
    rw [none, if_neg later]
    rfl

/-! ### The queue -/

/-- The tasks that `addTimer` and `cancel` hand to the loop. -/
inductive TimerTask
  | insert (timer : Nat)
  | cancel (timer : Nat)
  deriving DecidableEq

/-- A `handleRead` under way: what it read as the time, the expired timers whose callbacks are still
to run and those that `reset` has still to look at, and whether a callback is running. -/
structure Batch where
  now : Int
  toRun : List Nat
  toReset : List Nat
  inCallback : Bool

/-- What has happened to timers. A task `cancel` may find its timer in `timerMap_` or not. -/
inductive Occurrence
  | inserted (timer : Nat)
  | fired (timer : Nat)
  | cancelled (timer : Nat) (found : Bool)
  deriving DecidableEq

/-- **`class TimerQueue`**, the timers it has made, and its loop: `unqueued` are the calls of
`addTimer` on other threads that have registered their timer and not queued its task, `pending` are
the tasks of the loop, and `reported` says that the loop has the event of the timerfd to handle. -/
structure TimerQueue where
  timers : TimerList := .empty
  timerMap : Finset Nat := ∅
  nextTimerId : Nat := 1
  timer : Nat → Timer := fun _ => ⟨0, 0⟩
  timerfd : Timerfd := {}
  clock : Int := 0
  reported : Bool := false
  unqueued : List Nat := []
  pending : List TimerTask := []
  handling : Option Batch := none
  log : List Occurrence := []

/-- The actions. -/
inductive TimerAction
  | elapse (time : Int)
  | expire
  | register (expiration interval : Int)
  | queueInsert (timer : Nat)
  | queueCancel (timer : Nat)
  | addTimer (expiration interval : Int)
  | cancel (timer : Nat)
  | runTask
  | poll
  | handleRead
  | runCallback
  | restart
  | finish

namespace TimerQueue

variable (queue : TimerQueue)

/-- The first half of `addTimer`: the timer is made, and registered. -/
def register (expiration interval : Int) : TimerQueue :=
  { queue with
    timer := Function.update queue.timer queue.nextTimerId ⟨expiration, interval⟩
    timerMap := insert queue.nextTimerId queue.timerMap
    nextTimerId := queue.nextTimerId + 1 }

/-- Whether an expiration is before those of all entries. -/
def earliestChanged (expiration : Int) : Bool :=
  queue.timers.begin?.all fun entry => expiration < entry.expiration

/-- `insert`. -/
def insert (id : Nat) : TimerQueue :=
  let expiration := (queue.timer id).expiration
  { queue with
    timers := queue.timers.emplace ⟨expiration, id⟩
    timerfd := if queue.earliestChanged expiration then resetTimerfd expiration queue.clock
      else queue.timerfd
    log := queue.log ++ [.inserted id] }

/-- The task of `cancel`. -/
def cancelInLoop (id : Nat) : TimerQueue :=
  if id ∈ queue.timerMap then
    { queue with
      timerMap := queue.timerMap.erase id
      timers := queue.timers.eraseFirst fun entry => entry.timer = id
      log := queue.log ++ [.cancelled id true] }
  else { queue with log := queue.log ++ [.cancelled id false] }

/-- A task. -/
def perform : TimerTask → TimerQueue
  | .insert id => queue.insert id
  | .cancel id => queue.cancelInLoop id

/-- Whether the loop's thread runs code other than the queue's own: between events, or in a
callback. -/
def userCode : Bool := queue.handling.all fun batch => batch.inCallback

/-- The first lines of `handleRead`, and `getExpired`. -/
def getExpired : TimerQueue :=
  let expired := (queue.timers.below queue.clock).map Entry.timer
  { queue with
    timerfd := { queue.timerfd with unread := false }
    timers := queue.timers.above queue.clock
    reported := false
    handling := some ⟨queue.clock, expired, expired, false⟩ }

/-- An expired timer that `reset` looks at. -/
def restartTimer (now : Int) (id : Nat) : TimerQueue :=
  if (queue.timer id).repeats then
    TimerQueue.insert
      { queue with timer := Function.update queue.timer id ((queue.timer id).restart now) } id
  else queue

/-- The last lines of `reset`. -/
def rearm : TimerQueue :=
  { queue with
    timerfd :=
      match queue.timers.begin? with
      | none => queue.timerfd
      | some entry => resetTimerfd entry.expiration queue.clock }

/-- **One action**, `none` where it cannot be taken. -/
def step : TimerAction → Option TimerQueue
  | .elapse time => if queue.clock ≤ time then some { queue with clock := time } else none
  | .expire =>
    if queue.timerfd.armed.any fun deadline => deadline ≤ queue.clock then
      some { queue with timerfd := { unread := true } }
    else none
  | .register expiration interval =>
    some { queue.register expiration interval with
      unqueued := queue.unqueued ++ [queue.nextTimerId] }
  | .queueInsert id =>
    if id ∈ queue.unqueued then
      some { queue with
        unqueued := queue.unqueued.erase id
        pending := queue.pending ++ [.insert id] }
    else none
  | .queueCancel id => some { queue with pending := queue.pending ++ [.cancel id] }
  | .addTimer expiration interval =>
    if queue.userCode then some ((queue.register expiration interval).insert queue.nextTimerId)
    else none
  | .cancel id => if queue.userCode then some (queue.cancelInLoop id) else none
  | .runTask =>
    match queue.handling, queue.reported, queue.pending with
    | none, false, task :: rest => some (perform { queue with pending := rest } task)
    | _, _, _ => none
  | .poll =>
    if queue.handling.isNone ∧ queue.timerfd.unread then some { queue with reported := true }
    else none
  | .handleRead =>
    if queue.handling.isNone ∧ queue.reported then some queue.getExpired else none
  | .runCallback =>
    match queue.handling with
    | some ⟨now, id :: rest, toReset, _⟩ =>
      some { queue with
        handling := some ⟨now, rest, toReset, true⟩
        log := queue.log ++ [.fired id] }
    | _ => none
  | .restart =>
    match queue.handling with
    | some ⟨now, [], id :: rest, _⟩ =>
      some (restartTimer { queue with handling := some ⟨now, [], rest, false⟩ } now id)
    | _ => none
  | .finish =>
    match queue.handling with
    | some ⟨_, [], [], _⟩ => some (rearm { queue with handling := none })
    | _ => none

/-- `runAt` of the loop, on its own thread. -/
def runAt (time : Int) : TimerAction := .addTimer time 0

/-- `runAfter`, with a delay in milliseconds. -/
def runAfter (delay : Int) : TimerAction := .addTimer (queue.clock + delay * nanosPerMilli) 0

/-- `runEvery`. -/
def runEvery (interval : Int) : TimerAction :=
  .addTimer (queue.clock + interval * nanosPerMilli) interval

/-! ### Where a timer can be -/

/-- How many entries of `timers_` a timer has. -/
def listed (id : Nat) : Nat := (queue.timers.elems.map Entry.timer).count id

/-- How often a timer waits in the batch of a `handleRead`: for its callback, or to be inserted
again if it repeats. -/
def waiting (id : Nat) : Nat :=
  match queue.handling with
  | none => 0
  | some batch =>
    if (queue.timer id).repeats then batch.toReset.count id else batch.toRun.count id

/-- How often a timer waits for its insertion. -/
def queued (id : Nat) : Nat := queue.unqueued.count id + queue.pending.count (.insert id)

/-- In how many places a timer is. -/
def places (id : Nat) : Nat := queue.listed id + queue.waiting id + queue.queued id

/-- The expiration that an action inserts into `timers_`. -/
def inserts : TimerAction → Option Int
  | .addTimer expiration _ => some expiration
  | .runTask =>
    match queue.pending with
    | .insert id :: _ => some (queue.timer id).expiration
    | _ => none
  | .restart =>
    match queue.handling with
    | some ⟨now, _, id :: _, _⟩ =>
      if (queue.timer id).repeats then some ((queue.timer id).restart now).expiration else none
    | _ => none
  | _ => none

/-- No entry has the expiration that an action inserts. -/
def Distinct (action : TimerAction) : Prop :=
  ∀ expiration ∈ queue.inserts action, ∀ entry ∈ queue.timers.elems,
    entry.expiration ≠ expiration

end TimerQueue

end SunKV.Network
