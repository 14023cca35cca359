/-
**The end of a connection.**

A connection is closed by its loop when the peer closes, when its output grows too large, or by a
task that `forceClose` queued. The loop collects the events of a batch before it handles the first
of them, so an event is handled even if the connection was closed in between. Closing calls
`closeCallback_`, which has the base loop forget the connection and queue `connectDestroyed`; that
runs the disconnect branch of `Server::onConnection`, and a connection is counted no more.
`forceClose` may be called by any thread. It tests the state, stores `kDisconnecting` and queues its
task, three steps between which the loop goes on.

* `Mirrors` — on its own loop a connection does here what it does in `TcpConnection`.
* `Once` — the invariant of a connection: it has been closed once if it is closed and never if it is
  not, and what follows a close has happened as often, or is on its way.
* `Once.step`, `torn_down_once` — **in every run in which no `forceClose` stores its state into a
  connection that was closed after the test, and no connection with a collected event is closed for
  its output**, a connection is torn down once and the counter is the number of connections.
* `torn_down_twice` — the peer closes between the test and the store.
-/

import Mathlib.Algebra.BigOperators.Group.Finset.Basic
import Mathlib.Data.Fintype.BigOperators
import SunKV.Network.TcpConnection

namespace SunKV.Network

/-! ### Connections and their loops -/

/-- The tasks that the loop of a connection is given. -/
inductive IoTask
  | forceCloseInLoop
  | connectDestroyed
  deriving DecidableEq

/-- **A connection.** `reported` says that the loop has collected an event of it and not yet handled
it. `tasks` are its tasks in the queue of its loop, `removals` the tasks
`removeConnectionInLoop` in the queue of the base loop; `tested` and `stored` count the calls of
`forceClose` that have passed their test, and those that have stored the state. `loaded` is what
`onConnection` has read of the counter when its disconnect branch is under way. -/
structure Link where
  state : TcpConnectionState := .kConnecting
  reading : Bool := false
  reported : Bool := false
  tasks : List IoTask := []
  removals : Nat := 0
  tested : Nat := 0
  stored : Nat := 0
  closeCallbacks : Nat := 0
  disconnects : Nat := 0
  loaded : Option Int := none
  destroyed : Bool := false

/-- The steps of the threads. The loop thread runs `connectEstablished` as a whole, collects an
event, handles it as a message or as a close by the peer, runs its next task, or closes the
connection because of its output; `subtract` is the second half of the disconnect branch. The base
loop runs a removal. The last three belong to the thread that calls `forceClose`. -/
inductive Step
  | connectEstablished
  | poll
  | message
  | peerClose
  | runTask
  | backpressure
  | subtract
  | removeConnectionInLoop
  | test
  | store
  | queue
  deriving DecidableEq

namespace Link

variable (link : Link)

/-- `handleClose`; `closeCallback_` hands the removal to the base loop. -/
def handleClose : Link :=
  { link with
    state := .kDisconnected
    reading := false
    closeCallbacks := link.closeCallbacks + 1
    removals := link.removals + 1 }

/-- `forceCloseInLoop`. -/
def forceCloseInLoop : Link := if link.state.closable then link.handleClose else link

/-- `connectDestroyed` up to the disconnect branch, which reads the counter. -/
def connectDestroyed (current : Int) : Link :=
  { link with
    state := if link.state = .kConnected then .kDisconnected else link.state
    reading := false
    disconnects := link.disconnects + 1
    loaded := some current }

/-- The next task of the loop. -/
def runTask (current : Int) : Link :=
  match link.tasks with
  | [] => link
  | .forceCloseInLoop :: rest => { link with tasks := rest }.forceCloseInLoop
  | .connectDestroyed :: rest => { link with tasks := rest }.connectDestroyed current

/-- **A step on a connection**, with the counter `current_connections_`. The loop thread does
nothing else while it is in the disconnect branch, and it runs tasks when the events of its batch
are handled. -/
def step (link : Link) (current : Int) : Step → Link × Int
  | .connectEstablished =>
    if link.state = .kConnecting then
      ({ link with state := .kConnected, reading := true }, current + 1)
    else (link, current)
  | .poll =>
    (if link.reading ∧ link.loaded = none then { link with reported := true } else link, current)
  | .message =>
    (if link.loaded = none then { link with reported := false } else link, current)
  | .peerClose =>
    (if link.reported ∧ link.loaded = none then { link with reported := false }.handleClose
      else link, current)
  | .runTask =>
    (if link.reported = false ∧ link.loaded = none then link.runTask current else link, current)
  | .backpressure => (if link.loaded = none then link.forceCloseInLoop else link, current)
  | .subtract =>
    match link.loaded with
    | none => (link, current)
    | some curr =>
      ({ link with loaded := none, destroyed := true },
        if 0 < curr then current - 1 else current)
  | .removeConnectionInLoop =>
    (if 0 < link.removals then
      { link with
        removals := link.removals - 1, tasks := link.tasks ++ [.connectDestroyed] }
    else link, current)
  | .test =>
    (if link.state.closable then { link with tested := link.tested + 1 } else link, current)
  | .store =>
    (if 0 < link.tested then
      { link with
        state := .kDisconnecting, tested := link.tested - 1, stored := link.stored + 1 }
    else link, current)
  | .queue =>
    (if 0 < link.stored then
      { link with stored := link.stored - 1, tasks := link.tasks ++ [.forceCloseInLoop] }
    else link, current)

/-- Established and not yet destroyed. -/
def isOpen : Bool := link.state ≠ .kConnecting ∧ link.destroyed = false

/-- `forceClose` does not store its state into a connection that is closed, and no connection is
closed for its output while an event of it is collected. -/
def Allows (step : Step) : Prop :=
  (step = .store → 0 < link.tested → link.state ≠ .kDisconnected) ∧
    (step = .backpressure → link.reported = false)

end Link

/-! ### The same connection on its loop -/

/-- The link is this connection. -/
structure Mirrors (link : Link) (conn : TcpConnection) : Prop where
  state : link.state = conn.state
  reading : link.reading = conn.channel.reading
  closeCallbacks : link.closeCallbacks = conn.closeCallbacks
  queued : link.tasks.count .forceCloseInLoop = conn.queued.count .forceCloseInLoop

section Mirrors

variable {link : Link} {conn : TcpConnection}

theorem Mirrors.handleClose (mirrors : Mirrors link conn) :
    Mirrors link.handleClose conn.handleClose :=
  ⟨rfl, rfl, congrArg (· + 1) mirrors.closeCallbacks, mirrors.queued⟩

theorem Mirrors.forceCloseInLoop (mirrors : Mirrors link conn) :
    Mirrors link.forceCloseInLoop conn.forceCloseInLoop := by
  unfold Link.forceCloseInLoop TcpConnection.forceCloseInLoop
  rw [mirrors.state]
  split
  · exact mirrors.handleClose
  · exact mirrors

/-- **`forceClose` is its three steps**, if no other thread makes one in between. -/
theorem Mirrors.forceClose (mirrors : Mirrors link conn) (untested : link.tested = 0)
    (unstored : link.stored = 0) (current : Int) :
    Mirrors ([Step.test, .store, .queue].foldl (fun link step => (link.step current step).1) link)
      conn.forceClose := by
  have same := mirrors.state
  simp only [List.foldl_cons, List.foldl_nil, Link.step, TcpConnection.forceClose, ← same]
  split
  case isTrue =>
    simp only [untested, unstored, Nat.zero_add, Nat.zero_lt_one, if_true]
    refine ⟨rfl, mirrors.reading, mirrors.closeCallbacks, ?_⟩
    show (link.tasks ++ [IoTask.forceCloseInLoop]).count .forceCloseInLoop =
      (conn.queued ++ [LoopTask.forceCloseInLoop]).count .forceCloseInLoop
    rw [List.count_append, List.count_append, mirrors.queued]
    rfl
  case isFalse =>
    simp only [untested, unstored, Nat.lt_irrefl, if_false]
    exact mirrors

end Mirrors

/-- **The connections of a server**, and `current_connections_`. -/
structure Registry (κ : Type) where
  links : κ → Link := fun _ => {}
  current : Int := 0

/-! ### A connection is closed once -/

/-- **The invariant of a connection.** -/
structure Once (link : Link) : Prop where
  conserved : link.removals + link.tasks.count .connectDestroyed + link.disconnects =
    link.closeCallbacks
  closed : link.closeCallbacks = if link.state = .kDisconnected then 1 else 0
  silent : link.state = .kDisconnected → link.reading = false ∧ link.reported = false
  unborn : link.state = .kConnecting →
    link.reading = false ∧ link.reported = false ∧ link.tested = 0
  finished : link.disconnects =
    (if link.loaded.isSome then 1 else 0) + if link.destroyed then 1 else 0
  positive : ∀ curr, link.loaded = some curr → 0 < curr

theorem once_new : Once {} :=
  ⟨rfl, rfl, by simp, by simp, rfl, by simp⟩

/-- What a connection adds to the number of connections. -/
def Link.count (link : Link) : Int := if link.isOpen then 1 else 0

/-- **What a step keeps**: the invariant, and the difference between the counter and the number of
connections. -/
structure Keeps (link : Link) (current : Int) (next : Link × Int) : Prop where
  once : Once next.1
  counted : next.2 + link.count = current + next.1.count

section Link

variable {link next : Link} {current : Int}

/-- A step that leaves the counter alone, and the connection open if it was. -/
theorem Keeps.of_isOpen (once : Once next) (same : next.isOpen = link.isOpen) :
    Keeps link current (next, current) :=
  ⟨once, by rw [Link.count, Link.count, same]⟩

theorem Once.keeps (once : Once link) : Keeps link current (link, current) :=
  Keeps.of_isOpen once rfl

/-- An event is handled. -/
theorem Once.handled (once : Once link) : Once { link with reported := false } :=
  ⟨once.conserved, once.closed, fun closed => ⟨(once.silent closed).1, rfl⟩,
    fun connecting => ⟨(once.unborn connecting).1, rfl, (once.unborn connecting).2.2⟩,
    once.finished, once.positive⟩

theorem Once.disconnects_le (once : Once link) : link.disconnects ≤ link.closeCallbacks := by
  have conserved := once.conserved
  omega

theorem Once.closeCallbacks_le (once : Once link) : link.closeCallbacks ≤ 1 := by
  rw [once.closed]
  split <;> omega

/-- What has been closed is closed. -/
theorem Once.state_of_pos (once : Once link) (some : 0 < link.closeCallbacks) :
    link.state = .kDisconnected := by
  by_contra opened
  rw [once.closed, if_neg opened] at some
  cases some

theorem Once.destroyed_of_zero (once : Once link) (none : link.disconnects = 0) :
    link.loaded = Option.none ∧ link.destroyed = false := by
  have finished := once.finished
  rw [none] at finished
  constructor
  · cases loaded : link.loaded with
    | none => rfl
    | some =>
      simp only [loaded, Option.isSome_some, if_true] at finished
      omega
  · cases destroyed : link.destroyed with
    | false => rfl
    | true => simp [destroyed] at finished

/-- **Closing a connection that is not closed.** -/
theorem Once.handleClose (once : Once link) (born : link.state ≠ .kConnecting)
    (opened : link.state ≠ .kDisconnected) (handled : link.reported = false) :
    Keeps link current (link.handleClose, current) := by
  have none : link.closeCallbacks = 0 := by rw [once.closed, if_neg opened]
  refine Keeps.of_isOpen
    ⟨?_, ?_, fun _ => ⟨rfl, handled⟩, nofun, once.finished, once.positive⟩ ?_
  · have conserved := once.conserved
    show link.removals + 1 + link.tasks.count .connectDestroyed + link.disconnects =
      link.closeCallbacks + 1
    omega
  · show link.closeCallbacks + 1 = 1
    rw [none]
  · simp [Link.isOpen, Link.handleClose, born]

theorem Once.forceCloseInLoop (once : Once link) (handled : link.reported = false) :
    Keeps link current (link.forceCloseInLoop, current) := by
  unfold Link.forceCloseInLoop
  split
  case isTrue closable =>
    refine once.handleClose (fun connecting => ?_) (fun closed => ?_) handled
    · rw [connecting] at closable
      cases closable
    · rw [closed] at closable
      cases closable
  case isFalse => exact once.keeps

/-- Establishing a connection counts it. -/
theorem Once.connectEstablished (once : Once link) :
    Keeps link current (link.step current .connectEstablished) := by
  dsimp only [Link.step]
  split
  case isFalse => exact once.keeps
  case isTrue connecting =>
    have none : link.closeCallbacks = 0 := by rw [once.closed, connecting, if_neg (by decide)]
    have undone := once.disconnects_le
    obtain ⟨-, alive⟩ := once.destroyed_of_zero (by omega)
    refine ⟨⟨once.conserved, ?_, nofun, nofun, once.finished, once.positive⟩, ?_⟩
    · rw [none]
      rfl
    · simp [Link.count, Link.isOpen, connecting, alive]

/-- The disconnect branch begins: it reads a counter in which this connection is counted. -/
theorem Once.connectDestroyed (once : Once link) (handled : link.reported = false)
    {rest : List IoTask} (task : link.tasks = .connectDestroyed :: rest)
    (counted : link.isOpen = true → 0 < current) :
    Keeps link current ({ link with tasks := rest }.connectDestroyed current, current) := by
  have conserved := once.conserved
  rw [task, List.count_cons_self] at conserved
  have most := once.closeCallbacks_le
  have closed := once.state_of_pos (by omega)
  obtain ⟨-, alive⟩ := once.destroyed_of_zero (by omega)
  have isOpen : link.isOpen = true := by simp [Link.isOpen, closed, alive]
  have state : (if link.state = .kConnected then .kDisconnected else link.state) =
      TcpConnectionState.kDisconnected := by
    rw [closed, if_neg (by decide)]
  refine Keeps.of_isOpen ⟨?_, ?_, fun _ => ⟨rfl, handled⟩, ?_, ?_, ?_⟩ ?_
  · show link.removals + rest.count .connectDestroyed + (link.disconnects + 1) =
      link.closeCallbacks
    omega
  · show link.closeCallbacks = if (if link.state = .kConnected then .kDisconnected
      else link.state) = TcpConnectionState.kDisconnected then 1 else 0
    rw [state, if_pos rfl]
    omega
  · show (if link.state = .kConnected then .kDisconnected else link.state) =
      TcpConnectionState.kConnecting → _
    rw [state]
    nofun
  · show link.disconnects + 1 = 1 + if link.destroyed then 1 else 0
    rw [alive, if_neg Bool.false_ne_true]
    omega
  · rintro curr same
    obtain rfl := Option.some.inj same
    exact counted isOpen
  · rw [isOpen]
    simp [Link.isOpen, Link.connectDestroyed, closed, alive]

theorem Once.runTask (once : Once link) (handled : link.reported = false)
    (counted : link.isOpen = true → 0 < current) :
    Keeps link current (link.runTask current, current) := by
  unfold Link.runTask
  split
  case h_1 => exact once.keeps
  case h_2 rest task =>
    have dropped : Once { link with tasks := rest } := by
      refine ⟨?_, once.closed, once.silent, once.unborn, once.finished, once.positive⟩
      rw [← once.conserved, task]
      rfl
    have keeps : Keeps { link with tasks := rest } current
        ({ link with tasks := rest }.forceCloseInLoop, current) := dropped.forceCloseInLoop handled
    exact ⟨keeps.once, keeps.counted⟩
  case h_3 rest task => exact once.connectDestroyed handled task counted

/-- The disconnect branch ends: the connection is destroyed, and no longer counted. -/
theorem Once.subtract (once : Once link) : Keeps link current (link.step current .subtract) := by
  dsimp only [Link.step]
  split
  case h_1 => exact once.keeps
  case h_2 curr loaded =>
    have finished := once.finished
    rw [loaded] at finished
    have pos := once.positive curr loaded
    have least := once.disconnects_le
    have most := once.closeCallbacks_le
    have alive : link.destroyed = false := by
      cases destroyed : link.destroyed with
      | false => rfl
      | true =>
        rw [destroyed] at finished
        simp at finished
        omega
    rw [alive] at finished
    have closed := once.state_of_pos (by simp at finished; omega)
    refine ⟨⟨once.conserved, once.closed, once.silent, once.unborn, finished, nofun⟩, ?_⟩
    dsimp only
    rw [if_pos pos]
    simp [Link.count, Link.isOpen, closed, alive]

/-- A removal becomes a task of the loop. -/
theorem Once.removeConnectionInLoop (once : Once link) :
    Keeps link current (link.step current .removeConnectionInLoop) := by
  dsimp only [Link.step]
  split
  case isTrue some =>
    refine Keeps.of_isOpen
      ⟨?_, once.closed, once.silent, once.unborn, once.finished, once.positive⟩ rfl
    have conserved := once.conserved
    show link.removals - 1 + (link.tasks ++ [IoTask.connectDestroyed]).count .connectDestroyed +
      link.disconnects = link.closeCallbacks
    rw [List.count_append, List.count_singleton_self]
    omega
  case isFalse => exact once.keeps

/-- `forceClose` stores its state into a connection that is not closed. -/
theorem Once.store (once : Once link) (allows : link.Allows .store) :
    Keeps link current (link.step current .store) := by
  dsimp only [Link.step]
  split
  case isTrue some =>
    have opened := allows.1 rfl some
    have born : link.state ≠ .kConnecting := by
      intro connecting
      rw [(once.unborn connecting).2.2] at some
      cases some
    refine Keeps.of_isOpen ⟨once.conserved, ?_, nofun, nofun, once.finished, once.positive⟩ ?_
    · show link.closeCallbacks = 0
      rw [once.closed, if_neg opened]
    · simp [Link.isOpen, born]
  case isFalse => exact once.keeps

/-- **Every step that is allowed keeps the invariant**, and the counter in step. -/
theorem Once.step (once : Once link) {step : Step} (allows : link.Allows step)
    (counted : link.isOpen = true → 0 < current) :
    Keeps link current (link.step current step) := by
  cases step with
  | connectEstablished => exact once.connectEstablished
  | poll =>
    dsimp only [Link.step]
    split
    case isTrue polled =>
      refine Keeps.of_isOpen ⟨once.conserved, once.closed, fun closed => ?_, fun connecting => ?_,
        once.finished, once.positive⟩ rfl
      · rw [(once.silent closed).1] at polled
        cases polled.1
      · rw [(once.unborn connecting).1] at polled
        cases polled.1
    case isFalse => exact once.keeps
  | message =>
    dsimp only [Link.step]
    split
    case isTrue => exact Keeps.of_isOpen once.handled rfl
    case isFalse => exact once.keeps
  | peerClose =>
    dsimp only [Link.step]
    split
    case isTrue delivered =>
      have closes : Keeps { link with reported := false } current
          ({ link with reported := false }.handleClose, current) := by
        refine once.handled.handleClose (fun connecting => ?_) (fun closed => ?_) rfl
        · rw [(once.unborn connecting).2.1] at delivered
          cases delivered.1
        · rw [(once.silent closed).2] at delivered
          cases delivered.1
      exact ⟨closes.once, closes.counted⟩
    case isFalse => exact once.keeps
  | runTask =>
    dsimp only [Link.step]
    split
    case isTrue free => exact once.runTask free.1 counted
    case isFalse => exact once.keeps
  | backpressure =>
    dsimp only [Link.step]
    split
    · exact once.forceCloseInLoop (allows.2 rfl)
    · exact once.keeps
  | subtract => exact once.subtract
  | removeConnectionInLoop => exact once.removeConnectionInLoop
  | test =>
    dsimp only [Link.step]
    split
    case isTrue closable =>
      refine Keeps.of_isOpen ⟨once.conserved, once.closed, once.silent, ?_, once.finished,
        once.positive⟩ rfl
      intro connecting
      rw [show link.state = .kConnecting from connecting] at closable
      cases closable
    case isFalse => exact once.keeps
  | store => exact once.store allows
  | queue =>
    dsimp only [Link.step]
    split
    case isTrue =>
      refine Keeps.of_isOpen
        ⟨?_, once.closed, once.silent, once.unborn, once.finished, once.positive⟩ rfl
      show link.removals + (link.tasks ++ [IoTask.forceCloseInLoop]).count .connectDestroyed +
        link.disconnects = link.closeCallbacks
      rw [List.count_append, ← once.conserved]
      rfl
    case isFalse => exact once.keeps

end Link

/-! ### All connections -/

section Registry

variable {κ : Type} [Fintype κ]

/-- The number of connections that are established and not yet destroyed. -/
def Registry.openCount (registry : Registry κ) : Nat :=
  (Finset.univ.filter fun key => (registry.links key).isOpen = true).card

theorem openCount_eq_sum (registry : Registry κ) :
    (registry.openCount : Int) = ∑ key, (registry.links key).count := by
  simp [Registry.openCount, Link.count, Finset.sum_boole]

/-- **The invariant of the server**: that of every connection, and the counter is the number of
connections. -/
structure Counted (registry : Registry κ) : Prop where
  once : ∀ key, Once (registry.links key)
  exact : registry.current = ∑ key, (registry.links key).count

theorem counted_new : Counted ({} : Registry κ) :=
  ⟨fun _ => once_new, by simp [Link.count, Link.isOpen]⟩

theorem Counted.pos {registry : Registry κ} (counted : Counted registry) {key : κ}
    (isOpen : (registry.links key).isOpen = true) : 0 < registry.current := by
  rw [counted.exact]
  refine Finset.sum_pos' (fun other _ => ?_) ⟨key, Finset.mem_univ key, ?_⟩
  · unfold Link.count
    split <;> decide
  · rw [Link.count, if_pos isOpen]
    decide

variable [DecidableEq κ]

/-- The number of connections changes by what one of them adds before and after. -/
theorem sum_count_update (links : κ → Link) (key : κ) (link : Link) :
    ∑ other, (Function.update links key link other).count + (links key).count =
      ∑ other, (links other).count + link.count := by
  have others : ∑ other ∈ Finset.univ.erase key, (Function.update links key link other).count =
      ∑ other ∈ Finset.univ.erase key, (links other).count := by
    refine Finset.sum_congr rfl fun other member => ?_
    rw [Function.update_of_ne (Finset.ne_of_mem_erase member)]
  have after := Finset.add_sum_erase Finset.univ
    (fun other => (Function.update links key link other).count) (Finset.mem_univ key)
  have before := Finset.add_sum_erase Finset.univ
    (fun other => (links other).count) (Finset.mem_univ key)
  rw [others, Function.update_self] at after
  omega

/-- A step on one of the connections. -/
def Registry.step (registry : Registry κ) (move : κ × Step) : Registry κ where
  links := Function.update registry.links move.1
    ((registry.links move.1).step registry.current move.2).1
  current := ((registry.links move.1).step registry.current move.2).2

/-- **Every `forceClose` of the run finds the connection still open when it stores its state**, and
no connection with a collected event is closed for its output. -/
def Careful (registry : Registry κ) : List (κ × Step) → Prop
  | [] => True
  | move :: moves => (registry.links move.1).Allows move.2 ∧ Careful (registry.step move) moves

instance (link : Link) (step : Step) : Decidable (link.Allows step) :=
  inferInstanceAs (Decidable
    ((step = .store → 0 < link.tested → link.state ≠ .kDisconnected) ∧
      (step = .backpressure → link.reported = false)))

instance Careful.decidable (registry : Registry κ) :
    (moves : List (κ × Step)) → Decidable (Careful registry moves)
  | [] => .isTrue trivial
  | move :: moves =>
    have := Careful.decidable (registry.step move) moves
    inferInstanceAs (Decidable
      ((registry.links move.1).Allows move.2 ∧ Careful (registry.step move) moves))

/-- **One step of any thread.** -/
theorem Counted.step {registry : Registry κ} (counted : Counted registry) {move : κ × Step}
    (allows : (registry.links move.1).Allows move.2) : Counted (registry.step move) := by
  have keeps := (counted.once move.1).step allows counted.pos
  constructor
  · intro key
    dsimp only [Registry.step]
    by_cases same : key = move.1
    · subst same
      rw [Function.update_self]
      exact keeps.once
    · rw [Function.update_of_ne same]
      exact counted.once key
  · have changed := sum_count_update registry.links move.1
      ((registry.links move.1).step registry.current move.2).1
    have kept := keeps.counted
    have exact := counted.exact
    show ((registry.links move.1).step registry.current move.2).2 =
      ∑ key, (Function.update registry.links move.1 _ key).count
    omega

/-- **Any number of steps.** -/
theorem Counted.run {registry : Registry κ} (counted : Counted registry) (moves : List (κ × Step))
    (careful : Careful registry moves) : Counted (moves.foldl Registry.step registry) := by
  induction moves generalizing registry with
  | nil => exact counted
  | cons move moves ih => exact ih (counted.step careful.1) careful.2

/-- **A connection is torn down once**: in every run in which each `forceClose` stores its state
before the connection is closed, and the output closes no connection of which an event is yet to be
handled, `closeCallback_` and the disconnect branch run at most once for each connection, and the
counter never drops below the number of connections. -/
theorem torn_down_once (moves : List (κ × Step)) (careful : Careful {} moves) :
    (∀ key, ((moves.foldl Registry.step {}).links key).closeCallbacks ≤ 1 ∧
      ((moves.foldl Registry.step {}).links key).disconnects ≤ 1) ∧
    ((moves.foldl Registry.step {}).openCount : Int) ≤ (moves.foldl Registry.step {}).current := by
  have counted := counted_new.run moves careful
  refine ⟨fun key => ?_, ?_⟩
  · have most := (counted.once key).closeCallbacks_le
    exact ⟨most, Nat.le_trans (counted.once key).disconnects_le most⟩
  · rw [openCount_eq_sum, ← counted.exact]

end Registry

/-- Two connections; another thread closes the first, and then its peer does. -/
def closedTwice : List (Bool × Step) :=
  [(true, .connectEstablished), (false, .connectEstablished), (true, .poll), (true, .test),
    (true, .store), (true, .peerClose), (true, .queue), (true, .removeConnectionInLoop),
    (true, .runTask), (true, .runTask), (true, .subtract), (false, .poll), (false, .message)]

/-- The task that `forceClose` queued finds the connection closed. -/
theorem torn_down_once_peer :
    ((closedTwice.foldl Registry.step {}).links true).closeCallbacks = 1 ∧
    ((closedTwice.foldl Registry.step {}).links true).disconnects = 1 ∧
    ((closedTwice.foldl Registry.step {}).openCount : Int) = 1 ∧
    ((closedTwice.foldl Registry.step {}).openCount : Int) ≤
      (closedTwice.foldl Registry.step {}).current :=
  ⟨by decide, by decide, by decide, (torn_down_once closedTwice (by decide)).2⟩

/-- The peer closes the first connection after the test of `forceClose` and before its store. -/
def closedBetween : List (Bool × Step) :=
  [(true, .connectEstablished), (false, .connectEstablished), (true, .test), (true, .poll),
    (true, .peerClose), (true, .store), (true, .queue), (true, .runTask),
    (true, .removeConnectionInLoop), (true, .removeConnectionInLoop), (true, .runTask),
    (true, .subtract), (true, .runTask), (true, .subtract)]

/-- **A connection torn down twice**: it is closed again by the task of `forceClose`, and the
counter is zero while the second connection is still there. -/
theorem torn_down_twice :
    ((closedBetween.foldl Registry.step {}).links true).closeCallbacks = 2 ∧
    ((closedBetween.foldl Registry.step {}).links true).disconnects = 2 ∧
    (closedBetween.foldl Registry.step {}).current = 0 ∧
    (closedBetween.foldl Registry.step {}).openCount = 1 := by
  decide

end SunKV.Network
