/-
**Asking a loop to quit.**

A thread publishes its loop and then calls `loop`, which stores `false` in `quit_` before it tests
it for the first time. Whoever has the loop may call `quit` at once. `EventLoopThread` publishes it
in `loop_`, where `stop` finds it; `Server::start` has it in `main_loop_`, and a signal stores
`stopping_` before it calls `quit`.

### What is proved

* `quit_kept` — once `quit` was called, **the loop's condition always reads it**, in every run in
  which `quit` is not called between the publication and the store. `quit_forgotten`: it is, and the
  condition reads `false`.
* `EventLoopThread.loop_step` — the loop of an `EventLoopThread` changes only by steps of a loop, so
  what these keep holds of it; `stop_kept` — what `stop` asks for.
* `ServerStart.signal_kept` — a signal, in every run in which it does not come between the test of
  `stopping_` and the store: **over all calls** of `loop` that `start` makes.
-/

import SunKV.Network.EventLoop

namespace SunKV.Network

open SunKV.Lib

/-! ### The calls of `quit` -/

/-- No evaluation after a `quit` reads `false`. -/
def Unforgotten (log : List QuitEvent) : Prop :=
  log.Pairwise fun earlier later => earlier = .quit → later ≠ .evaluated false

instance (log : List QuitEvent) : Decidable (Unforgotten log) :=
  inferInstanceAs (Decidable (log.Pairwise fun earlier later =>
    earlier = .quit → later ≠ .evaluated false))

theorem unforgotten_quit {log : List QuitEvent} (kept : Unforgotten log) :
    Unforgotten (log ++ [.quit]) := by
  refine List.pairwise_append.mpr ⟨kept, List.pairwise_singleton _ _, ?_⟩
  rintro earlier - later last -
  obtain rfl := List.mem_singleton.mp last
  exact QuitEvent.noConfusion

theorem unforgotten_evaluated {log : List QuitEvent} {quit : Bool} (kept : Unforgotten log)
    (reads : .quit ∈ log → quit = true) : Unforgotten (log ++ [.evaluated quit]) := by
  refine List.pairwise_append.mpr ⟨kept, List.pairwise_singleton _ _, ?_⟩
  rintro earlier member later last rfl rfl
  have same : QuitEvent.evaluated false = .evaluated quit := List.mem_singleton.mp last
  rw [reads member] at same
  cases same

namespace EventLoop

variable {τ : Type} {loop next : EventLoop τ} {action : LoopAction τ}

/-- `loop` has stored `false`. -/
def started (loop : EventLoop τ) : Bool :=
  match loop.point with
  | .entry => false
  | _ => true

/-- An action is no `quit` before the store. -/
def AfterStore (loop : EventLoop τ) : LoopAction τ → Prop
  | .quit => loop.started = true
  | _ => True

instance (loop : EventLoop τ) : DecidablePred loop.AfterStore
  | .quit => inferInstanceAs (Decidable (_ = _))
  | .queueInLoop _ | .advance => .isTrue trivial

/-- **The invariant**: a `quit` came after the store, and `quit_` has it. -/
structure Remembered (loop : EventLoop τ) : Prop where
  asked : .quit ∈ loop.log → loop.started = true ∧ loop.quit = true
  kept : Unforgotten loop.log

theorem Remembered.called (quit : Bool) (pendingTasks : List τ) :
    Remembered (called quit pendingTasks) :=
  ⟨nofun, .nil⟩

theorem Remembered.step (remembered : Remembered loop) (afterStore : loop.AfterStore action)
    (taken : loop.step action = some next) : Remembered next := by
  obtain ⟨asked, kept⟩ := remembered
  cases took_of_step taken with
  | queueInLoop => exact ⟨asked, kept⟩
  | quit => exact ⟨fun _ => ⟨afterStore, rfl⟩, unforgotten_quit kept⟩
  | enter here =>
    refine ⟨fun member => ?_, kept⟩
    have started := (asked member).1
    rw [EventLoop.started, here] at started
    cases started
  | goOn here | asked here =>
    refine ⟨fun member => ?_, unforgotten_evaluated kept fun member => (asked member).2⟩
    rcases List.mem_append.mp member with before | last
    · exact ⟨rfl, (asked before).2⟩
    · cases List.mem_singleton.mp last
  | tasksLeft | noTasks | poll | swap | begin | finish | drained | back =>
    exact ⟨fun member => ⟨rfl, (asked member).2⟩, kept⟩

/-- The loop's own steps are no `quit`. -/
theorem quit_mem_of_advance (advanced : loop.advance = some next) (member : .quit ∈ next.log) :
    .quit ∈ loop.log := by
  cases took_of_advance advanced with
  | goOn | asked =>
    rcases List.mem_append.mp member with before | last
    · exact before
    · cases List.mem_singleton.mp last
  | _ => exact member

theorem remembered_of_run {quit : Bool} {pendingTasks : List τ} {actions : List (LoopAction τ)}
    (ran : Machine.run step actions (called quit pendingTasks) = some loop)
    (afterStore : Machine.Throughout step AfterStore actions (called quit pendingTasks)) :
    Remembered loop :=
  afterStore.keeps (fun remembered afterStore taken => remembered.step afterStore taken)
    (.called quit pendingTasks) ran

/-- **A request to quit is not forgotten**, in every run from the publication of the loop in which
`quit` is not called before the store. -/
theorem quit_kept (quit : Bool) (pendingTasks : List τ) (actions : List (LoopAction τ))
    (ran : Machine.run step actions (called quit pendingTasks) = some loop)
    (afterStore : Machine.Throughout step AfterStore actions (called quit pendingTasks)) :
    Unforgotten loop.log :=
  (remembered_of_run ran afterStore).kept

/-- `quit` is called after the first test. -/
def quitLater : List (LoopAction Nat) :=
  [.advance, .advance, .quit, .advance, .advance, .advance, .advance]

theorem quit_kept_later :
    ∃ loop, Machine.run step quitLater (called false []) = some loop ∧
      loop.log = [.evaluated false, .quit, .evaluated true] ∧ Unforgotten loop.log :=
  ⟨_, rfl, rfl, quit_kept false [] quitLater rfl (by decide)⟩

/-- **A request to quit is forgotten**: `quit` is called before the store. -/
theorem quit_forgotten :
    ∃ loop : EventLoop Nat,
      Machine.run step [.quit, .advance, .advance] (called false []) = some loop ∧
      loop.log = [.quit, .evaluated false] ∧ loop.quit = false ∧ ¬ Unforgotten loop.log :=
  ⟨_, rfl, rfl, rfl, by decide⟩

end EventLoop

/-! ### The loop of an `EventLoopThread` -/

/-- **`class EventLoopThread`**: the loop that `threadFunc` has made, whether it is in `loop_`, and
the calls of `stop` that have read it there and not called `quit`. -/
structure EventLoopThread (τ : Type) where
  loop : EventLoop τ
  published : Bool := false
  stops : Nat := 0

/-- The steps: `publish`, `advance` and `clear` are those of `threadFunc`, `readLoop` and `quit` the
two of `stop`. -/
inductive ThreadAction (τ : Type)
  | publish
  | advance
  | clear
  | readLoop
  | quit
  | queueInLoop (task : τ)

namespace EventLoopThread

variable {τ : Type}

/-- One step. After `clear` the loop is gone, and nothing can be called on it. -/
def step (thread : EventLoopThread τ) : ThreadAction τ → Option (EventLoopThread τ)
  | .publish =>
    if thread.published ∨ thread.loop.started then none else some { thread with published := true }
  | .advance =>
    if thread.published then thread.loop.advance.map fun loop => { thread with loop := loop }
    else none
  | .clear =>
    match thread.loop.point with
    | .returned => some { thread with published := false }
    | _ => none
  | .readLoop =>
    some { thread with stops := if thread.published then thread.stops + 1 else thread.stops }
  | .quit =>
    match thread.published, thread.stops with
    | true, stops + 1 =>
      (thread.loop.step .quit).map fun loop => { thread with loop := loop, stops := stops }
    | _, _ => none
  | .queueInLoop task =>
    (thread.loop.step (.queueInLoop task)).map fun loop => { thread with loop := loop }

/-- What a step does to the loop. -/
def effect : ThreadAction τ → Option (LoopAction τ)
  | .advance => some .advance
  | .quit => some .quit
  | .queueInLoop task => some (.queueInLoop task)
  | .publish | .clear | .readLoop => none

variable {thread next last : EventLoopThread τ} {action : ThreadAction τ} {quit : Bool}
  {pendingTasks : List τ} {actions : List (ThreadAction τ)}

/-- **The loop changes only by its own steps.** -/
theorem loop_step (taken : thread.step action = some next) :
    next.loop = thread.loop ∨
      ∃ own, effect action = some own ∧ thread.loop.step own = some next.loop := by
  cases action with
  | publish =>
    obtain ⟨-, ⟨⟩⟩ := Option.ite_none_left_eq_some.mp taken
    exact .inl rfl
  | advance =>
    obtain ⟨-, moved⟩ := Option.ite_none_right_eq_some.mp taken
    obtain ⟨loop, advanced, rfl⟩ := Option.map_eq_some_iff.mp moved
    exact .inr ⟨_, rfl, advanced⟩
  | clear =>
    simp only [step] at taken
    split at taken
    case h_1 =>
      obtain rfl := Option.some.inj taken
      exact .inl rfl
    case h_2 => cases taken
  | readLoop =>
    obtain rfl := Option.some.inj taken
    exact .inl rfl
  | quit =>
    simp only [step] at taken
    split at taken
    case h_1 =>
      obtain ⟨loop, moved, rfl⟩ := Option.map_eq_some_iff.mp taken
      exact .inr ⟨_, rfl, moved⟩
    case h_2 => cases taken
  | queueInLoop task =>
    rw [step] at taken
    obtain ⟨loop, moved, rfl⟩ := Option.map_eq_some_iff.mp taken
    exact .inr ⟨_, rfl, moved⟩

theorem balanced_step (balanced : thread.loop.Balanced) (taken : thread.step action = some next) :
    next.loop.Balanced := by
  rcases loop_step taken with same | ⟨own, -, moved⟩
  · rwa [same]
  · exact balanced.step moved

theorem remembered_step (remembered : thread.loop.Remembered)
    (allowed : ∀ own ∈ effect action, thread.loop.AfterStore own)
    (taken : thread.step action = some next) : next.loop.Remembered := by
  rcases loop_step taken with same | ⟨own, member, moved⟩
  · rwa [same]
  · exact remembered.step (allowed own member) moved

/-- A thread executes its tasks in the order in which they were queued. -/
theorem executed_in_order
    (ran : Machine.run step actions { loop := .called quit pendingTasks } = some last) :
    last.loop.executed <+: last.loop.entered :=
  (@Machine.run_keeps (EventLoopThread τ) _ _ (·.loop.Balanced) _ _ _ balanced_step
    (.called quit pendingTasks) ran).executed_in_order

/-- **What `stop` asks for is not forgotten**, in every run in which it calls `quit` after the
store of the thread. -/
theorem stop_kept
    (ran : Machine.run step actions { loop := .called quit pendingTasks } = some last)
    (afterStore : Machine.Throughout step
      (fun thread action => ∀ own ∈ effect action, thread.loop.AfterStore own) actions
      { loop := .called quit pendingTasks }) :
    Unforgotten last.loop.log :=
  (@Machine.Throughout.keeps (EventLoopThread τ) _ _ _ (·.loop.Remembered) _ _ _
    remembered_step afterStore (.called quit pendingTasks) ran).kept

/-- `stop` right after `startLoop`: the thread goes on, and the join of `stop` waits for it. -/
example :
    ∃ last, Machine.run step [.publish, .readLoop, .quit, .advance, .advance]
        ({ loop := .called false [] } : EventLoopThread Nat) = some last ∧
      last.loop.log = [.quit, .evaluated false] ∧ last.stops = 0 :=
  ⟨_, rfl, rfl, rfl⟩

end EventLoopThread

/-! ### The loop of the server -/

/-- Where `Server::start` is: at the condition of its `while`, in `loop`, or behind the `while`. -/
inductive StartPoint
  | testing
  | looping
  | left
  deriving DecidableEq

/-- **`Server::start`** from its `while` on: `signals` are the calls of `requestStopFromSignal` that
have stored `stopping_` and not called `quit`. -/
structure ServerStart (τ : Type) where
  mainLoop : EventLoop τ
  stopping : Bool := false
  point : StartPoint := .testing
  signals : Nat := 0

/-- The steps: `test`, `advance` and `leave` are those of `start`, `storeStopping` and `quit` those
of `requestStopFromSignal`. -/
inductive StartAction (τ : Type)
  | test
  | advance
  | leave
  | storeStopping
  | quit
  | queueInLoop (task : τ)

namespace ServerStart

variable {τ : Type}

/-- One step. The tests of `stopping_` are those of the `while` and the one behind `loop`. -/
def step (start : ServerStart τ) : StartAction τ → Option (ServerStart τ)
  | .test =>
    match start.point with
    | .testing =>
      if start.stopping then some { start with point := .left }
      else some { start with
        point := .looping
        mainLoop := { start.mainLoop with point := .entry } }
    | _ => none
  | .advance =>
    match start.point with
    | .looping => start.mainLoop.advance.map fun loop => { start with mainLoop := loop }
    | _ => none
  | .leave =>
    match start.point, start.mainLoop.point with
    | .looping, .returned =>
      some { start with point := if start.stopping then .left else .testing }
    | _, _ => none
  | .storeStopping => some { start with stopping := true, signals := start.signals + 1 }
  | .quit =>
    match start.signals with
    | 0 => none
    | signals + 1 =>
      (start.mainLoop.step .quit).map fun loop =>
        { start with mainLoop := loop, signals := signals }
  | .queueInLoop task =>
    (start.mainLoop.step (.queueInLoop task)).map fun loop => { start with mainLoop := loop }

/-- No signal calls `quit` between the test and the store. -/
def AfterStore (start : ServerStart τ) : StartAction τ → Prop
  | .quit => start.point = .looping → start.mainLoop.started = true
  | _ => True

/-- **The invariant**: a signal has stored `stopping_`, and the loop remembers its `quit`. -/
structure Heeded (start : ServerStart τ) : Prop where
  stored : 0 < start.signals ∨ .quit ∈ start.mainLoop.log → start.stopping = true
  looping : start.point = .looping → start.mainLoop.Remembered
  kept : Unforgotten start.mainLoop.log

variable {start next : ServerStart τ} {action : StartAction τ}

theorem Heeded.initial (loop : EventLoop τ) (silent : loop.log = []) :
    Heeded { mainLoop := loop } := by
  refine ⟨?_, fun looping => StartPoint.noConfusion looping, ?_⟩
  · rintro (signal | member)
    · cases signal
    · rw [silent] at member
      cases member
  · show Unforgotten loop.log
    rw [silent]
    exact .nil

theorem Heeded.step (heeded : Heeded start) (afterStore : start.AfterStore action)
    (taken : start.step action = some next) : Heeded next := by
  obtain ⟨stored, looping, kept⟩ := heeded
  cases action with
  | test =>
    simp only [ServerStart.step] at taken
    split at taken
    case h_2 => cases taken
    case h_1 here =>
      split at taken
      case isTrue =>
        obtain rfl := Option.some.inj taken
        exact ⟨stored, fun there => StartPoint.noConfusion there, kept⟩
      case isFalse going =>
        obtain rfl := Option.some.inj taken
        -- nobody has called `quit`, since nobody has stored `stopping_`
        exact ⟨stored, fun _ => ⟨fun member => absurd (stored (.inr member)) going, kept⟩, kept⟩
  | advance =>
    simp only [ServerStart.step] at taken
    split at taken
    case h_2 => cases taken
    case h_1 here =>
      obtain ⟨loop, advanced, rfl⟩ := Option.map_eq_some_iff.mp taken
      have allowed : start.mainLoop.AfterStore .advance := trivial
      have remembered : loop.Remembered := (looping here).step allowed advanced
      refine ⟨fun asked => stored ?_, fun _ => remembered, remembered.kept⟩
      exact asked.imp_right (EventLoop.quit_mem_of_advance advanced)
  | leave =>
    simp only [ServerStart.step] at taken
    split at taken
    case h_2 => cases taken
    case h_1 =>
      obtain rfl := Option.some.inj taken
      refine ⟨stored, fun there => ?_, kept⟩
      simp only at there
      split at there <;> cases there
  | storeStopping =>
    obtain rfl := Option.some.inj taken
    exact ⟨fun _ => rfl, looping, kept⟩
  | quit =>
    simp only [ServerStart.step] at taken
    split at taken
    case h_1 => cases taken
    case h_2 signals some =>
      obtain ⟨loop, asked, rfl⟩ := Option.map_eq_some_iff.mp taken
      have stopping : start.stopping = true := stored (.inl (by omega))
      have allowed (here : start.point = .looping) : start.mainLoop.AfterStore .quit :=
        afterStore here
      refine ⟨fun _ => stopping, fun here => (looping here).step (allowed here) asked, ?_⟩
      obtain rfl := Option.some.inj asked
      exact unforgotten_quit kept
  | queueInLoop task =>
    rw [ServerStart.step] at taken
    obtain ⟨loop, queued, rfl⟩ := Option.map_eq_some_iff.mp taken
    have allowed : start.mainLoop.AfterStore (.queueInLoop task) := trivial
    have remembers (here : start.point = .looping) : loop.Remembered :=
      (looping here).step allowed queued
    obtain rfl := Option.some.inj queued
    exact ⟨stored, remembers, kept⟩

/-- **A signal is not forgotten**, in every run in which it does not call `quit` between the test of
`stopping_` and the store of `loop`. -/
theorem signal_kept {actions : List (StartAction τ)} {last : ServerStart τ} {quit : Bool}
    {pendingTasks : List τ}
    (ran : Machine.run step actions { mainLoop := .called quit pendingTasks } = some last)
    (afterStore : Machine.Throughout step AfterStore actions
      { mainLoop := .called quit pendingTasks }) :
    Unforgotten last.mainLoop.log := by
  have heeded : Heeded last :=
    afterStore.keeps (fun heeded afterStore taken => heeded.step afterStore taken)
      (.initial (.called quit pendingTasks) rfl) ran
  exact heeded.kept

/-- A signal that does: the server is to stop, and goes on. -/
example :
    ∃ last, Machine.run step [.test, .storeStopping, .quit, .advance, .advance]
        ({ mainLoop := .called false [] } : ServerStart Nat) = some last ∧
      last.stopping = true ∧ last.mainLoop.log = [.quit, .evaluated false] :=
  ⟨_, rfl, rfl, rfl⟩

end ServerStart

end SunKV.Network
