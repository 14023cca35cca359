/-
**The loop of a thread and its tasks.**

`loop` waits for events, handles them and runs the tasks that were queued, until `quit` was called
and no task is queued; then it runs the tasks once more. `doPendingTasks` takes all queued tasks out
at once and runs them one after the other. Other threads, and the tasks themselves, queue tasks and
call `quit` at any time between two steps of the loop's thread.

### What is proved

* `executed_in_order` — the tasks are executed **in the order in which they were queued, none
  twice**, in every run.
* `executed_iff` — when `loop` returns, **every task queued before the last execution ended was
  executed**, exactly if none was queued while the drain after the loop had a task to finish.
* `task_left` — a task of that drain queues another one.
-/

import SunKV.Lib.Machine

namespace SunKV.Network

open SunKV.Lib

/-! ### The loop -/

/-- Where the loop's thread is in `loop`. A drain is `last` if it is the one after the loop; `rest`
are the tasks that it has taken out and not begun. -/
inductive LoopPoint (τ : Type)
  | entry
  | testQuit
  | testPending
  | poll
  | swap (last : Bool)
  | between (last : Bool) (rest : List τ)
  | running (last : Bool) (rest : List τ)
  | returned

/-- The calls of `quit`, and what the loop's condition reads. -/
inductive QuitEvent
  | quit
  | evaluated (quit : Bool)
  deriving DecidableEq

/-- **`class EventLoop`** in one call of `loop`, with the tasks that have been queued so far, those
whose execution has begun, how many had been queued when the last execution ended, and a log. -/
structure EventLoop (τ : Type) where
  quit : Bool
  pendingTasks : List τ
  point : LoopPoint τ := .entry
  entered : List τ
  executed : List τ := []
  finished : Nat := 0
  log : List QuitEvent := []

/-- The actions: of any thread, and the next step of the loop's own. -/
inductive LoopAction (τ : Type)
  | queueInLoop (task : τ)
  | quit
  | advance

namespace EventLoop

variable {τ : Type}

/-- A loop before a call of `loop`. -/
def called (quit : Bool) (pendingTasks : List τ) : EventLoop τ :=
  { quit := quit, pendingTasks := pendingTasks, entered := pendingTasks }

variable (loop : EventLoop τ)

/-- The next step of `loop`. -/
def advance : Option (EventLoop τ) :=
  match loop.point with
  | .entry => some { loop with quit := false, point := .testQuit }
  | .testQuit =>
    some { loop with
      point := if loop.quit then .testPending else .poll
      log := loop.log ++ [.evaluated loop.quit] }
  | .testPending =>
    some { loop with point := if loop.pendingTasks.isEmpty then .swap true else .poll }
  | .poll => some { loop with point := .swap false }
  | .swap last => some { loop with pendingTasks := [], point := .between last loop.pendingTasks }
  | .between last (task :: rest) =>
    some { loop with executed := loop.executed ++ [task], point := .running last rest }
  | .running last rest =>
    some { loop with finished := loop.entered.length, point := .between last rest }
  | .between last [] => some { loop with point := if last then .returned else .testQuit }
  | .returned => none

/-- **One action.** -/
def step : LoopAction τ → Option (EventLoop τ)
  | .queueInLoop task =>
    some { loop with
      pendingTasks := loop.pendingTasks ++ [task]
      entered := loop.entered ++ [task] }
  | .quit => some { loop with quit := true, log := loop.log ++ [.quit] }
  | .advance => loop.advance

/-- The tasks that a drain has taken out and not begun. -/
def batch : List τ :=
  match loop.point with
  | .between _ rest | .running _ rest => rest
  | _ => []

/-- The drain after the loop has a task to finish. -/
def lastDrain : Bool :=
  match loop.point with
  | .between true (_ :: _) | .running true _ => true
  | _ => false

/-- The drain after the loop has none. -/
def ended : Bool :=
  match loop.point with
  | .between true [] | .returned => true
  | _ => false

/-- An action queues no task while the drain after the loop has a task to finish. -/
def InTime : LoopAction τ → Prop
  | .queueInLoop _ => loop.lastDrain = false
  | _ => True

instance : DecidablePred loop.InTime
  | .queueInLoop _ => inferInstanceAs (Decidable (_ = _))
  | .quit | .advance => .isTrue trivial

/-- **What an action does**, with where the loop's thread was. -/
inductive Took (loop : EventLoop τ) : LoopAction τ → EventLoop τ → Prop
  | queueInLoop (task : τ) :
      Took loop (.queueInLoop task)
        { loop with
          pendingTasks := loop.pendingTasks ++ [task]
          entered := loop.entered ++ [task] }
  | quit : Took loop .quit { loop with quit := true, log := loop.log ++ [.quit] }
  | enter (here : loop.point = .entry) :
      Took loop .advance { loop with quit := false, point := .testQuit }
  | goOn (here : loop.point = .testQuit) (unasked : loop.quit = false) :
      Took loop .advance { loop with point := .poll, log := loop.log ++ [.evaluated loop.quit] }
  | asked (here : loop.point = .testQuit) (asked : loop.quit = true) :
      Took loop .advance
        { loop with point := .testPending, log := loop.log ++ [.evaluated loop.quit] }
  | tasksLeft (here : loop.point = .testPending) : Took loop .advance { loop with point := .poll }
  | noTasks (here : loop.point = .testPending) (none : loop.pendingTasks = []) :
      Took loop .advance { loop with point := .swap true }
  | poll (here : loop.point = .poll) : Took loop .advance { loop with point := .swap false }
  | swap {last : Bool} (here : loop.point = .swap last) :
      Took loop .advance { loop with pendingTasks := [], point := .between last loop.pendingTasks }
  | begin {last : Bool} {task : τ} {rest : List τ}
      (here : loop.point = .between last (task :: rest)) :
      Took loop .advance
        { loop with executed := loop.executed ++ [task], point := .running last rest }
  | finish {last : Bool} {rest : List τ} (here : loop.point = .running last rest) :
      Took loop .advance
        { loop with finished := loop.entered.length, point := .between last rest }
  | drained (here : loop.point = .between false []) :
      Took loop .advance { loop with point := .testQuit }
  | back (here : loop.point = .between true []) :
      Took loop .advance { loop with point := .returned }

variable {loop} {next : EventLoop τ} {action : LoopAction τ}

theorem took_of_advance (taken : loop.advance = some next) : Took loop .advance next := by
  unfold advance at taken
  split at taken
  case h_1 here =>
    obtain rfl := Option.some.inj taken
    exact .enter here
  case h_2 here =>
    obtain rfl := Option.some.inj taken
    split
    case isTrue asked => exact .asked here asked
    case isFalse unasked => exact .goOn here (Bool.not_eq_true _ ▸ unasked)
  case h_3 here =>
    obtain rfl := Option.some.inj taken
    split
    case isTrue none => exact .noTasks here (List.isEmpty_iff.mp none)
    case isFalse => exact .tasksLeft here
  case h_4 here =>
    obtain rfl := Option.some.inj taken
    exact .poll here
  case h_5 here =>
    obtain rfl := Option.some.inj taken
    exact .swap here
  case h_6 here =>
    obtain rfl := Option.some.inj taken
    exact .begin here
  case h_7 here =>
    obtain rfl := Option.some.inj taken
    exact .finish here
  case h_8 last here =>
    obtain rfl := Option.some.inj taken
    cases last with
    | false => exact .drained here
    | true => exact .back here
  case h_9 => cases taken

theorem took_of_step (taken : loop.step action = some next) : Took loop action next := by
  cases action with
  | queueInLoop task =>
    obtain rfl := Option.some.inj taken
    exact .queueInLoop task
  | quit =>
    obtain rfl := Option.some.inj taken
    exact .quit
  | advance => exact took_of_advance taken

/-! ### The order of the tasks -/

/-- **The invariant**: what was executed, what a drain has taken out and what is queued make up
what was queued. -/
structure Balanced (loop : EventLoop τ) : Prop where
  order : loop.executed ++ loop.batch ++ loop.pendingTasks = loop.entered
  finished : loop.finished ≤ loop.entered.length

theorem Balanced.called (quit : Bool) (pendingTasks : List τ) :
    Balanced (called quit pendingTasks) :=
  ⟨rfl, Nat.zero_le _⟩

theorem Balanced.step (balanced : Balanced loop) (taken : loop.step action = some next) :
    Balanced next := by
  obtain ⟨order, finished⟩ := balanced
  cases took_of_step taken with
  | queueInLoop task =>
    refine ⟨?_, ?_⟩
    · show loop.executed ++ loop.batch ++ (loop.pendingTasks ++ [task]) = loop.entered ++ [task]
      rw [← List.append_assoc, order]
    · show loop.finished ≤ (loop.entered ++ [task]).length
      rw [List.length_append]
      exact Nat.le_add_right_of_le finished
  | quit => exact ⟨order, finished⟩
  | swap here =>
    rw [batch, here, List.append_nil] at order
    refine ⟨?_, finished⟩
    show loop.executed ++ loop.pendingTasks ++ [] = loop.entered
    rw [List.append_nil, order]
  | @begin last task rest here =>
    rw [batch, here] at order
    refine ⟨?_, finished⟩
    show loop.executed ++ [task] ++ rest ++ loop.pendingTasks = loop.entered
    rw [← order, List.append_assoc loop.executed]
    rfl
  | finish here =>
    rw [batch, here] at order
    exact ⟨order, Nat.le_refl _⟩
  | enter here | goOn here | asked here | tasksLeft here | noTasks here | poll here | drained here
  | back here =>
    rw [batch, here] at order
    exact ⟨order, finished⟩

theorem balanced_of_run {quit : Bool} {pendingTasks : List τ} {actions : List (LoopAction τ)}
    (ran : Machine.run step actions (called quit pendingTasks) = some loop) : Balanced loop :=
  Machine.run_keeps (fun balanced taken => balanced.step taken) (.called quit pendingTasks) ran

/-- **In the order in which they were queued, and none twice.** -/
theorem Balanced.executed_in_order (balanced : Balanced loop) : loop.executed <+: loop.entered :=
  ⟨loop.batch ++ loop.pendingTasks, by rw [← List.append_assoc, balanced.order]⟩

/-! ### What is left when `loop` returns -/

/-- So far, no task was queued in the drain after the loop before the last execution ended. -/
structure OnTime (loop : EventLoop τ) : Prop where
  during : loop.lastDrain → loop.pendingTasks = []
  after : loop.ended → loop.finished ≤ loop.executed.length

/-- Before the drain after the loop, there is nothing to say. -/
theorem onTime_before (drain : loop.lastDrain = false) (ended : loop.ended = false) :
    loop.OnTime where
  during now := absurd (now.symm.trans drain) Bool.noConfusion
  after now := absurd (now.symm.trans ended) Bool.noConfusion

theorem onTime_during (drain : loop.lastDrain = true) (ended : loop.ended = false) :
    loop.OnTime ↔ loop.pendingTasks = [] where
  mp onTime := onTime.during drain
  mpr none := ⟨fun _ => none, fun now => absurd (now.symm.trans ended) Bool.noConfusion⟩

theorem onTime_after (drain : loop.lastDrain = false) (ended : loop.ended = true) :
    loop.OnTime ↔ loop.finished ≤ loop.executed.length where
  mp onTime := onTime.after ended
  mpr le := ⟨fun now => absurd (now.symm.trans drain) Bool.noConfusion, fun _ => le⟩

/-- The drain after the loop, when an execution has ended. -/
theorem onTime_between {rest : List τ} (balanced : Balanced loop)
    (here : loop.point = .between true rest) (finished : loop.finished = loop.entered.length) :
    loop.OnTime ↔ loop.pendingTasks = [] := by
  cases rest with
  | cons task rest => exact onTime_during (by rw [lastDrain, here]) (by rw [ended, here])
  | nil =>
    have order := congrArg List.length balanced.order
    rw [batch, here, List.append_nil, List.length_append] at order
    rw [onTime_after (by rw [lastDrain, here]) (by rw [ended, here]), ← List.length_eq_zero_iff]
    omega

/-- The drain after the loop, when it has taken out the tasks. -/
theorem onTime_swapped {rest : List τ} (balanced : Balanced loop)
    (here : loop.point = .between true rest) (none : loop.pendingTasks = []) : loop.OnTime := by
  cases rest with
  | cons task rest =>
    exact (onTime_during (by rw [lastDrain, here]) (by rw [ended, here])).mpr none
  | nil =>
    have finished := balanced.finished
    rw [← balanced.order, batch, here, none, List.append_nil, List.append_nil] at finished
    exact (onTime_after (by rw [lastDrain, here]) (by rw [ended, here])).mpr finished

/-- **What an action does**: what is on time stays so exactly if the action queues nothing while
the drain after the loop has a task to finish. -/
theorem onTime_step_iff (balanced : Balanced loop) (taken : loop.step action = some next) :
    next.OnTime ↔ loop.OnTime ∧ loop.InTime action := by
  have after : Balanced next := balanced.step taken
  cases took_of_step taken with
  | queueInLoop task =>
    constructor
    · intro onTime
      have idle : loop.lastDrain = false := by
        refine Bool.eq_false_iff.mpr fun drains => ?_
        have none : loop.pendingTasks ++ [task] = [] := onTime.during drains
        exact List.append_ne_nil_of_right_ne_nil _ (List.cons_ne_nil _ _) none
      exact ⟨⟨fun now => absurd (now.symm.trans idle) Bool.noConfusion, onTime.after⟩, idle⟩
    · rintro ⟨onTime, idle⟩
      exact ⟨fun now => absurd (now.symm.trans idle) Bool.noConfusion, onTime.after⟩
  | quit =>
    exact ⟨fun onTime => ⟨⟨onTime.during, onTime.after⟩, trivial⟩,
      fun both => ⟨both.1.during, both.1.after⟩⟩
  | @swap last here =>
    have before : loop.OnTime := onTime_before (by rw [lastDrain, here]) (by rw [ended, here])
    refine iff_of_true ?_ ⟨before, trivial⟩
    cases last with
    | false => exact onTime_before rfl rfl
    | true => exact onTime_swapped after rfl rfl
  | @begin last task rest here =>
    refine Iff.trans ?_ (and_iff_left trivial).symm
    cases last with
    | false =>
      exact iff_of_true (onTime_before rfl rfl)
        (onTime_before (by rw [lastDrain, here]) (by rw [ended, here]))
    | true =>
      rw [onTime_during rfl rfl, onTime_during (by rw [lastDrain, here]) (by rw [ended, here])]
  | @finish last rest here =>
    refine Iff.trans ?_ (and_iff_left trivial).symm
    cases last with
    | false =>
      exact iff_of_true (onTime_before rfl rfl)
        (onTime_before (by rw [lastDrain, here]) (by rw [ended, here]))
    | true =>
      rw [onTime_between after rfl rfl,
        onTime_during (by rw [lastDrain, here]) (by rw [ended, here])]
  | back here =>
    refine Iff.trans ?_ (and_iff_left trivial).symm
    rw [onTime_after rfl rfl, onTime_after (by rw [lastDrain, here]) (by rw [ended, here])]
  | enter here | goOn here | asked here | tasksLeft here | noTasks here | poll here
  | drained here =>
    have before : loop.OnTime := onTime_before (by rw [lastDrain, here]) (by rw [ended, here])
    exact iff_of_true (onTime_before rfl rfl) ⟨before, trivial⟩

/-- The tasks that had been queued when the last execution ended were executed, if it ended on
time. -/
theorem Balanced.take_prefix_iff (balanced : Balanced loop) :
    loop.entered.take loop.finished <+: loop.executed ↔ loop.finished ≤ loop.executed.length := by
  constructor
  · intro executed
    have le := executed.length_le
    rwa [List.length_take_of_le balanced.finished] at le
  · intro le
    have within : loop.entered.take loop.finished = loop.executed.take loop.finished := by
      rw [← balanced.order, List.append_assoc, List.take_append_of_le_length le]
    rw [within]
    exact List.take_prefix _ _

/-- **Every queued task runs once, in order.** The tasks are executed in the order in which they
were queued, and when `loop` has returned, those queued before the last execution ended were
executed, exactly if no task was queued while the drain after the loop had a task to finish. -/
theorem executed_iff (quit : Bool) (pendingTasks : List τ) (actions : List (LoopAction τ))
    (ran : Machine.run step actions (called quit pendingTasks) = some loop) :
    (loop.executed <+: loop.entered ∧
      (loop.point = .returned → loop.entered.take loop.finished <+: loop.executed)) ↔
      (loop.point = .returned →
        Machine.Throughout step InTime actions (called quit pendingTasks)) := by
  have balanced : Balanced loop := balanced_of_run ran
  rw [and_iff_right balanced.executed_in_order]
  refine forall_congr' fun back => ?_
  have onTime : loop.OnTime ↔ loop.finished ≤ loop.executed.length :=
    onTime_after (by rw [lastDrain, back]) (by rw [ended, back])
  have exact : loop.OnTime ↔ (called quit pendingTasks).OnTime ∧
      Machine.Throughout step InTime actions (called quit pendingTasks) :=
    Machine.run_iff onTime_step_iff (fun balanced taken => balanced.step taken)
      (.called quit pendingTasks) ran
  rw [balanced.take_prefix_iff, ← onTime, exact, and_iff_right (onTime_before rfl rfl)]

/-- A task queues another one and calls `quit`, and `loop` runs both before it returns. -/
def quitInTask : List (LoopAction Nat) :=
  [.advance, .queueInLoop 1, .advance, .advance, .advance, .advance, .queueInLoop 2, .quit,
    .advance, .advance, .advance, .advance, .advance, .advance, .advance, .advance, .advance,
    .advance, .advance, .advance, .advance]

theorem executed_quitInTask :
    ∃ loop, Machine.run step quitInTask (called false []) = some loop ∧
      loop.point = .returned ∧ loop.executed = [1, 2] ∧ loop.entered = [1, 2] ∧
      loop.entered.take loop.finished <+: loop.executed :=
  ⟨_, rfl, rfl, rfl, rfl,
    ((executed_iff false [] quitInTask rfl).mpr fun _ => by decide).2 rfl⟩

/-- **A task is left**: the loop has seen `quit` and no task, another thread queues one, which the
drain after the loop runs, and which queues a second one before it ends. -/
theorem task_left :
    ∃ loop, Machine.run step
        [.advance, .quit, .advance, .advance, .queueInLoop 1, .advance, .advance, .queueInLoop 2,
          .advance, .advance] (called false []) = some loop ∧
      loop.point = .returned ∧ loop.entered = [1, 2] ∧ loop.finished = 2 ∧
      loop.executed = [1] ∧ loop.pendingTasks = [2] ∧
      ¬ loop.entered.take loop.finished <+: loop.executed :=
  ⟨_, rfl, rfl, rfl, rfl, rfl, rfl, by decide⟩

end EventLoop

end SunKV.Network
