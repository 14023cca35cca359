/-
**Published messages.**

`publishMessage_` collects the subscribers of the channel that are connected, under the mutex, and
sends the message to one after the other without it. A subscriber whose loop runs on the thread of
the publisher gets it at once; for another one the sending is queued in its loop. Connections are
established, shut down and closed, and subscriptions change, at any time in between. A message is
sent when it is handed to the socket or to the output buffer of the connection; `sendInLoop` drops
it when the write fails with `EPIPE` or `ECONNRESET`, and leaves the connection as it is.

* `Broadcast.step` — the threads, one step at a time; the order in which the subscribers are
  collected is the one of a hash table, and so any.
* `Broadcast.mailbox` — what is on its way from one thread to one subscriber; `mailbox_step` — a
  step of the server is a step of this mailbox, or leaves it alone.
* `published_in_order` — **every subscriber was sent what each thread addressed to it in order and
  nothing twice; a beginning of it, as long as no write failed, and then all of it while it is
  connected and nothing is on its way.**
* `never_subscribed` — a connection that has not subscribed to a channel gets no message of it.
-/

import SunKV.Concurrency.PubSub
import SunKV.Lib.Machine
import SunKV.Lib.Mailbox
import SunKV.Network.TcpConnection

namespace SunKV.Concurrency

open SunKV.Lib SunKV.Network

/-! ### Threads that publish -/

/-- A message of a channel. -/
structure Message where
  channel : Bytes
  payload : Bytes
  deriving DecidableEq

/-- The sending of a message, queued in the loop of a connection. -/
structure Sending (κ ι : Type) where
  origin : ι
  conn : κ
  message : Message

/-- `publishMessage_` behind its critical section: the message, the subscribers that it has yet to
be sent to, and how many were collected. -/
structure Publication (κ : Type) where
  message : Message
  subscribers : List κ
  collected : Nat

/-- **The server, as far as publishing uses it**: the subscriptions, the state of every connection,
what every thread is publishing, the sendings queued in every loop, what was sent on every
connection with the thread it came from, and the two counters. `addressed` and `lost` are the
histories of what was collected and of what a failing write dropped. -/
structure Broadcast (κ ι : Type) where
  pubsub : PubSub κ := {}
  state : κ → TcpConnectionState := fun _ => .kConnecting
  publishing : ι → Option (Publication κ) := fun _ => none
  pendingTasks : ι → List (Sending κ ι) := fun _ => []
  output : κ → List (ι × Message) := fun _ => []
  pubsubPublishTotal : Nat := 0
  pubsubDeliveredTotal : Nat := 0
  addressed : List (Sending κ ι) := []
  lost : List (Sending κ ι) := []

/-- A step: of the subscriptions, of the life of a connection, of a publication, or of a loop; with
`fails`, where a message is written, for a write that fails. -/
inductive BroadcastStep (κ ι : Type)
  | subscription (action : PubSubStep κ)
  | connectEstablished (conn : κ)
  | shutdown (conn : κ)
  | handleClose (conn : κ)
  | collect (thread : ι) (message : Message) (order : List κ)
  | sendNext (thread : ι) (fails : Bool)
  | finish (thread : ι)
  | runTask (thread : ι) (fails : Bool)

/-- The message of a sending from a thread to a connection. -/
def Sending.between {κ ι : Type} [DecidableEq κ] [DecidableEq ι] (thread : ι) (conn : κ)
    (sending : Sending κ ι) : Option Message :=
  if sending.origin = thread ∧ sending.conn = conn then some sending.message else none

/-- The message that a publication has yet to send to a connection. -/
def Publication.owes {κ : Type} [DecidableEq κ] (publication : Publication κ) (conn : κ) :
    Option Message :=
  if conn ∈ publication.subscribers then some publication.message else none

namespace Broadcast

variable {κ ι : Type} [DecidableEq κ] [DecidableEq ι] (loopOf : κ → ι) (server : Broadcast κ ι)

/-- The state of a connection changes. -/
def setState (conn : κ) (state : TcpConnectionState) : Broadcast κ ι :=
  { server with state := Function.update server.state conn state }

/-- `sendInLoop`, which gives up on a connection that is disconnected, and on a message when the
write fails. -/
def sendInLoop (sending : Sending κ ι) (fails : Bool) : Broadcast κ ι :=
  if server.state sending.conn = .kDisconnected then server
  else if fails then { server with lost := server.lost ++ [sending] }
  else
    { server with
      output := Function.update server.output sending.conn
        (server.output sending.conn ++ [(sending.origin, sending.message)]) }

/-- `queueInLoop`, with the sending as the task. -/
def queueInLoop (sending : Sending κ ι) : Broadcast κ ι :=
  { server with
    pendingTasks := Function.update server.pendingTasks (loopOf sending.conn)
      (server.pendingTasks (loopOf sending.conn) ++ [sending]) }

/-- `TcpConnection::send`, called on a thread. -/
def send (sending : Sending κ ι) (fails : Bool) : Broadcast κ ι :=
  if server.state sending.conn = .kConnected then
    if loopOf sending.conn = sending.origin then server.sendInLoop sending fails
    else server.queueInLoop loopOf sending
  else server

/-- A thread goes on with its publication. -/
def setPublishing (thread : ι) (publication : Option (Publication κ)) : Broadcast κ ι :=
  { server with publishing := Function.update server.publishing thread publication }

/-- The critical section of `publishMessage_`: without subscribers it returns at once. -/
def collect (thread : ι) (message : Message) (order : List κ) : Option (Broadcast κ ι) :=
  match server.pubsub.channelSubscribers[message.channel]? with
  | none => some server
  | some subscribers =>
    if order.Nodup ∧
        order.toFinset = subscribers.filter fun conn => server.state conn = .kConnected then
      some { server.setPublishing thread (some ⟨message, order, order.length⟩) with
        addressed := server.addressed ++ order.map fun conn => ⟨thread, conn, message⟩ }
    else none

/-- **One step**, `none` where a thread cannot take it: one that publishes does nothing else. -/
def step (server : Broadcast κ ι) : BroadcastStep κ ι → Option (Broadcast κ ι)
  | .subscription action =>
    (server.pubsub.step action).map fun pubsub => { server with pubsub := pubsub }
  | .connectEstablished conn =>
    if server.state conn = .kConnecting then some (server.setState conn .kConnected) else none
  | .shutdown conn =>
    if server.state conn = .kConnected then some (server.setState conn .kDisconnecting) else none
  | .handleClose conn =>
    if (server.state conn).closable then some (server.setState conn .kDisconnected) else none
  | .collect thread message order =>
    if (server.publishing thread).isSome then none else server.collect thread message order
  | .sendNext thread fails =>
    match server.publishing thread with
    | some ⟨message, conn :: rest, collected⟩ =>
      some ((server.send loopOf ⟨thread, conn, message⟩ fails).setPublishing thread
        (some ⟨message, rest, collected⟩))
    | _ => none
  | .finish thread =>
    match server.publishing thread with
    | some ⟨_, [], collected⟩ =>
      some { server.setPublishing thread none with
        pubsubPublishTotal := server.pubsubPublishTotal + 1
        pubsubDeliveredTotal := server.pubsubDeliveredTotal + collected }
    | _ => none
  | .runTask thread fails =>
    if (server.publishing thread).isSome then none
    else
      match server.pendingTasks thread with
      | [] => none
      | task :: rest => some ({ server with
          pendingTasks := Function.update server.pendingTasks thread rest }.sendInLoop task fails)

/-! ### From one thread to one subscriber -/

/-- The life of a connection, as a receiver of messages. -/
def lifeOf : TcpConnectionState → Life
  | .kConnecting => .unborn
  | .kConnected => .listening
  | .kDisconnecting => .leaving
  | .kDisconnected => .gone

/-- **What is on its way from a thread to a connection.** -/
def mailbox (thread : ι) (conn : κ) : Mailbox Message where
  life := lifeOf (server.state conn)
  lossy := server.lost.any fun sending => (sending.between thread conn).isSome
  sent := (server.output conn).filterMap fun entry =>
    if entry.1 = thread then some entry.2 else none
  queued := (server.pendingTasks (loopOf conn)).filterMap (Sending.between thread conn)
  flying := (server.publishing thread).bind fun publication => publication.owes conn
  addressed := server.addressed.filterMap (Sending.between thread conn)

/-- Every queued sending is in the loop of its connection, and comes from another thread; nothing is
to be sent twice. -/
structure Placed : Prop where
  home : ∀ thread, ∀ task ∈ server.pendingTasks thread,
    loopOf task.conn = thread ∧ task.origin ≠ thread
  once : ∀ thread, ∀ publication ∈ server.publishing thread, publication.subscribers.Nodup

/-- A mailbox takes a step, or stays as it is. -/
def Moves (box next : Mailbox Message) : Prop :=
  next = box ∨ ∃ action, box.step action = some next

end Broadcast

section Steps

open Broadcast

variable {κ ι : Type} [DecidableEq κ] [DecidableEq ι] {loopOf : κ → ι} {server next : Broadcast κ ι}
  {thread : ι} {conn : κ}

omit [DecidableEq κ] [DecidableEq ι] in
theorem placed_new : Placed loopOf ({} : Broadcast κ ι) := ⟨nofun, nofun⟩

theorem lifeOf_listening {state : TcpConnectionState} :
    lifeOf state = .listening ↔ state = .kConnected := by
  cases state <;> simp [lifeOf]

theorem lifeOf_gone {state : TcpConnectionState} :
    lifeOf state = .gone ↔ state = .kDisconnected := by
  cases state <;> simp [lifeOf]

/-- A connection once among those collected gets the message once. -/
theorem filterMap_between {order : List κ} (once : order.Nodup) (message : Message) (other : ι) :
    (order.map fun conn' => (⟨other, conn', message⟩ : Sending κ ι)).filterMap
        (Sending.between thread conn) =
      if other = thread ∧ conn ∈ order then [message] else [] := by
  induction order with
  | nil => simp
  | cons first order ih =>
    obtain ⟨fresh, once⟩ := List.nodup_cons.mp once
    rw [List.map_cons, List.filterMap_cons, ih once]
    by_cases here : other = thread
    · by_cases same : first = conn
      · subst same
        simp [Sending.between, here, fresh]
      · have different : ¬ conn = first := fun equal => same equal.symm
        simp [Sending.between, here, same, different]
    · simp [Sending.between, here]

/-- **The life of a connection goes on.** -/
theorem moves_setState {other : κ} {state : TcpConnectionState} (action : MailStep Message)
    (moved : ∀ box : Mailbox Message, box.life = lifeOf (server.state other) →
      box.step action = some { box with life := lifeOf state }) :
    Moves (server.mailbox loopOf thread conn)
      ((server.setState other state).mailbox loopOf thread conn) := by
  by_cases same : conn = other
  · subst same
    refine .inr ⟨action, (moved _ rfl).trans ?_⟩
    simp [mailbox, setState]
  · refine .inl ?_
    simp [mailbox, setState, same]

/-- **A publication is begun.** -/
theorem moves_collect {other : ι} {message : Message} {order : List κ}
    (free : server.publishing other = none)
    (collected : server.collect other message order = some next) :
    Moves (server.mailbox loopOf thread conn) (next.mailbox loopOf thread conn) := by
  unfold collect at collected
  split at collected
  · cases collected
    exact .inl rfl
  next subscribers _ =>
    obtain ⟨⟨once, exactly⟩, ⟨⟩⟩ := Option.ite_none_right_eq_some.mp collected
    by_cases here : other = thread ∧ conn ∈ order
    · obtain ⟨rfl, member⟩ := here
      have connected : server.state conn = .kConnected := by
        have inside := List.mem_toFinset.mpr member
        rw [exactly] at inside
        exact (Finset.mem_filter.mp inside).2
      refine .inr ⟨.address message, ?_⟩
      simp [mailbox, Mailbox.step, setPublishing, connected, lifeOf, free, Publication.owes, member,
        filterMap_between once]
    · refine .inl ?_
      have flying : ((server.setPublishing other (some ⟨message, order, order.length⟩)).publishing
          thread).bind (fun publication => publication.owes conn) =
          (server.publishing thread).bind fun publication => publication.owes conn := by
        by_cases same : thread = other
        · subst same
          have absent : conn ∉ order := fun member => here ⟨rfl, member⟩
          simp [setPublishing, free, Publication.owes, absent]
        · simp [setPublishing, same]
      simp only [mailbox, flying, List.filterMap_append, filterMap_between once, if_neg here,
        List.append_nil]
      rfl

/-- A message is sent, or lost, on a connection that is not disconnected. -/
theorem mailbox_sendInLoop (sending : Sending κ ι) (fails : Bool) :
    (server.sendInLoop sending fails).mailbox loopOf thread conn =
      if server.state sending.conn = .kDisconnected then server.mailbox loopOf thread conn
      else { server.mailbox loopOf thread conn with
        sent := (server.mailbox loopOf thread conn).sent ++
          (if fails then none else sending.between thread conn).toList
        lossy := (server.mailbox loopOf thread conn).lossy ||
          fails && (sending.between thread conn).isSome } := by
  unfold sendInLoop
  split
  · rfl
  cases fails with
  | true => simp [mailbox]
  | false =>
    by_cases same : sending.conn = conn
    · by_cases here : sending.origin = thread
      · simp [mailbox, Sending.between, same, here]
      · simp [mailbox, Sending.between, same, here]
    · have different : ¬ conn = sending.conn := fun equal => same equal.symm
      simp [mailbox, Sending.between, same, different]

/-- A sending is queued in the loop of its connection. -/
theorem mailbox_queueInLoop (sending : Sending κ ι) :
    (server.queueInLoop loopOf sending).mailbox loopOf thread conn =
      { server.mailbox loopOf thread conn with
        queued := (server.mailbox loopOf thread conn).queued ++
          (sending.between thread conn).toList } := by
  by_cases same : loopOf conn = loopOf sending.conn
  · cases found : sending.between thread conn with
    | none => simp [mailbox, queueInLoop, same, found]
    | some message => simp [mailbox, queueInLoop, same, found]
  · have other : sending.conn ≠ conn := fun equal => same (by rw [equal])
    simp [mailbox, queueInLoop, same, Sending.between, other]

theorem mailbox_setPublishing (other : ι) (publication : Option (Publication κ)) :
    (server.setPublishing other publication).mailbox loopOf thread conn =
      { server.mailbox loopOf thread conn with
        flying := if thread = other then publication.bind fun publication => publication.owes conn
          else (server.mailbox loopOf thread conn).flying } := by
  by_cases same : thread = other
  · simp [mailbox, setPublishing, same]
  · simp [mailbox, setPublishing, same]

/-- Nothing is queued on the way from a loop to its own connections. -/
theorem Broadcast.Placed.queued_eq_nil (placed : Placed loopOf server)
    (own : loopOf conn = thread) : (server.mailbox loopOf thread conn).queued = [] := by
  refine List.filterMap_eq_nil_iff.mpr fun task member => if_neg fun both => ?_
  exact (placed.home _ task member).2 (both.1.trans own.symm)

/-- What a thread sends to others, or others send, does not matter. -/
theorem mailbox_send_of_none {sending : Sending κ ι} {fails : Bool}
    (none : sending.between thread conn = none) :
    (server.send loopOf sending fails).mailbox loopOf thread conn =
      server.mailbox loopOf thread conn := by
  unfold send
  split
  · split
    · rw [mailbox_sendInLoop, none]
      simp
    · rw [mailbox_queueInLoop, none]
      simp
  · rfl

/-- **A publication goes on.** -/
theorem moves_sendNext (placed : Placed loopOf server) {other : ι} {message : Message} {first : κ}
    {rest : List κ} {collected : Nat} (fails : Bool)
    (publishing : server.publishing other = some ⟨message, first :: rest, collected⟩) :
    Moves (server.mailbox loopOf thread conn)
      (((server.send loopOf ⟨other, first, message⟩ fails).setPublishing other
        (some ⟨message, rest, collected⟩)).mailbox loopOf thread conn) := by
  have fresh : first ∉ rest := (List.nodup_cons.mp (placed.once other _ publishing)).1
  rw [mailbox_setPublishing]
  by_cases here : other = thread ∧ first = conn
  · obtain ⟨rfl, rfl⟩ := here
    have flying : (server.mailbox loopOf other first).flying = some message := by
      simp [mailbox, publishing, Publication.owes]
    have bound : (Sending.mk other first message).between other first = some message :=
      if_pos ⟨rfl, rfl⟩
    have done : (if other = other then (some (⟨message, rest, collected⟩ : Publication κ)).bind
        fun publication => publication.owes first else ((server.send loopOf
          ⟨other, first, message⟩ fails).mailbox loopOf other first).flying) = none := by
      simp [Publication.owes, fresh]
    rw [done]
    unfold send
    dsimp only
    split
    case isTrue connected =>
      have listening : (server.mailbox loopOf other first).life = .listening :=
        lifeOf_listening.mpr connected
      split
      case isTrue own =>
        have empty := placed.queued_eq_nil own
        refine .inr ⟨.direct fails, ?_⟩
        rw [mailbox_sendInLoop, if_neg (by simp [connected]), bound, Mailbox.step,
          if_pos ⟨listening, empty⟩, flying]
        cases fails <;> simp
      case isFalse =>
        refine .inr ⟨.post, ?_⟩
        rw [mailbox_queueInLoop, bound, Mailbox.step, if_pos listening, flying]
        rfl
    case isFalse unconnected =>
      have silent : (server.mailbox loopOf other first).life ≠ .listening :=
        mt lifeOf_listening.mp unconnected
      refine .inr ⟨.discard, ?_⟩
      rw [Mailbox.step, if_neg silent]
  · have elsewhere : (Sending.mk other first message).between thread conn = none := if_neg here
    refine .inl ?_
    rw [mailbox_send_of_none elsewhere]
    by_cases same : thread = other
    · subst same
      have different : conn ≠ first := fun equal => here ⟨rfl, equal.symm⟩
      simp [mailbox, publishing, Publication.owes, different]
    · simp [same]

/-- **The end of a publication.** -/
theorem moves_finish {other : ι} {publication : Publication κ}
    (publishing : server.publishing other = some publication)
    (empty : publication.subscribers = []) (published delivered : Nat) :
    Moves (server.mailbox loopOf thread conn)
      ({ server.setPublishing other none with
        pubsubPublishTotal := published, pubsubDeliveredTotal := delivered }.mailbox
          loopOf thread conn) := by
  refine .inl ?_
  show (server.setPublishing other none).mailbox loopOf thread conn = _
  rw [mailbox_setPublishing]
  by_cases same : thread = other
  · subst same
    simp [mailbox, publishing, Publication.owes, empty]
  · simp [same]

/-- **A queued sending is carried out.** -/
theorem moves_runTask (placed : Placed loopOf server) {other : ι} {task : Sending κ ι}
    {rest : List (Sending κ ι)} (fails : Bool)
    (pending : server.pendingTasks other = task :: rest) :
    Moves (server.mailbox loopOf thread conn)
      (({ server with pendingTasks := Function.update server.pendingTasks other rest }.sendInLoop
        task fails).mailbox loopOf thread conn) := by
  obtain ⟨home, -⟩ := placed.home other task (by rw [pending]; exact List.mem_cons_self)
  rw [mailbox_sendInLoop]
  by_cases here : task.origin = thread ∧ task.conn = conn
  · obtain ⟨rfl, rfl⟩ := here
    have bound : task.between task.origin task.conn = some task.message := if_pos ⟨rfl, rfl⟩
    have waiting : (server.mailbox loopOf task.origin task.conn).queued =
        task.message :: rest.filterMap (Sending.between task.origin task.conn) := by
      simp [mailbox, home, pending, bound]
    split
    case isTrue disconnected =>
      have gone : (server.mailbox loopOf task.origin task.conn).life = .gone :=
        lifeOf_gone.mpr disconnected
      refine .inr ⟨.drop, ?_⟩
      rw [Mailbox.step, if_pos gone, waiting]
      simp [mailbox, home]
    case isFalse present =>
      have stays : (server.mailbox loopOf task.origin task.conn).life ≠ .gone :=
        mt lifeOf_gone.mp present
      refine .inr ⟨.take fails, ?_⟩
      rw [Mailbox.step, waiting]
      dsimp only
      rw [if_neg stays, bound]
      cases fails <;> simp [mailbox, home]
  · have elsewhere : task.between thread conn = none := if_neg here
    have same : ({ server with pendingTasks := Function.update server.pendingTasks other rest } :
        Broadcast κ ι).mailbox loopOf thread conn = server.mailbox loopOf thread conn := by
      by_cases loop : loopOf conn = other
      · simp [mailbox, loop, pending, elsewhere]
      · simp [mailbox, loop]
    refine .inl ?_
    rw [elsewhere, ite_self, Option.toList_none, List.append_nil, Option.isSome_none,
      Bool.and_false, Bool.or_false, same]
    exact ite_self _

/-- **Every step of the server is a step of the mailbox**, or leaves it alone. -/
theorem mailbox_step (placed : Placed loopOf server) {action : BroadcastStep κ ι}
    (taken : server.step loopOf action = some next) :
    Moves (server.mailbox loopOf thread conn) (next.mailbox loopOf thread conn) := by
  cases action with
  | subscription action =>
    obtain ⟨pubsub, -, rfl⟩ := Option.map_eq_some_iff.mp taken
    exact .inl rfl
  | connectEstablished other =>
    obtain ⟨connecting, ⟨⟩⟩ := Option.ite_none_right_eq_some.mp taken
    exact moves_setState .listen fun box life => if_pos (by rw [life, connecting]; rfl)
  | shutdown other =>
    obtain ⟨connected, ⟨⟩⟩ := Option.ite_none_right_eq_some.mp taken
    exact moves_setState .leave fun box life => if_pos (by rw [life, connected]; rfl)
  | handleClose other =>
    obtain ⟨closable, ⟨⟩⟩ := Option.ite_none_right_eq_some.mp taken
    refine moves_setState .vanish fun box life => if_neg ?_
    rw [life]
    intro unborn
    cases state : server.state other <;> simp_all [lifeOf, TcpConnectionState.closable]
  | collect other message order =>
    obtain ⟨free, collected⟩ := Option.ite_none_left_eq_some.mp taken
    exact moves_collect (Option.not_isSome_iff_eq_none.mp free) collected
  | sendNext other fails =>
    rw [Broadcast.step] at taken
    split at taken
    next message first rest collected publishing =>
      cases taken
      exact moves_sendNext placed fails publishing
    · cases taken
  | finish other =>
    rw [Broadcast.step] at taken
    split at taken
    next message collected publishing =>
      cases taken
      exact moves_finish publishing rfl _ _
    · cases taken
  | runTask other fails =>
    obtain ⟨-, taken⟩ := Option.ite_none_left_eq_some.mp taken
    split at taken
    · cases taken
    next task rest pending =>
      cases taken
      exact moves_runTask placed fails pending

omit [DecidableEq ι] in
/-- `sendInLoop` changes what was sent or lost, and nothing else. -/
theorem sendInLoop_eq (server : Broadcast κ ι) (sending : Sending κ ι) (fails : Bool) :
    ∃ output lost, server.sendInLoop sending fails =
      { server with output := output, lost := lost } := by
  unfold sendInLoop
  split
  · exact ⟨_, _, rfl⟩
  split
  · exact ⟨_, _, rfl⟩
  · exact ⟨_, _, rfl⟩

theorem Broadcast.Placed.send (placed : Placed loopOf server) (sending : Sending κ ι)
    (fails : Bool) : Placed loopOf (server.send loopOf sending fails) := by
  unfold Broadcast.send
  split
  · split
    · obtain ⟨output, lost, equal⟩ := sendInLoop_eq server sending fails
      rw [equal]
      exact ⟨placed.home, placed.once⟩
    next other =>
      refine ⟨(Function.forall_update_iff _ fun thread (tasks : List (Sending κ ι)) =>
        ∀ task ∈ tasks, loopOf task.conn = thread ∧ task.origin ≠ thread).mpr
          ⟨fun task member => ?_, fun thread _ => placed.home thread⟩, placed.once⟩
      rcases List.mem_append.mp member with old | new
      · exact placed.home _ task old
      · obtain rfl := List.mem_singleton.mp new
        exact ⟨rfl, fun equal => other equal.symm⟩
  · exact placed

omit [DecidableEq κ] in
theorem Broadcast.Placed.setPublishing (placed : Placed loopOf server) (thread : ι)
    (publication : Option (Publication κ))
    (once : ∀ publication' ∈ publication, publication'.subscribers.Nodup) :
    Placed loopOf (server.setPublishing thread publication) :=
  ⟨placed.home, (Function.forall_update_iff _ fun _ (publication : Option (Publication κ)) =>
    ∀ publication' ∈ publication, publication'.subscribers.Nodup).mpr
      ⟨once, fun other _ => placed.once other⟩⟩

theorem Broadcast.Placed.runTask (placed : Placed loopOf server) {thread : ι}
    {task : Sending κ ι} {rest : List (Sending κ ι)} (fails : Bool)
    (pending : server.pendingTasks thread = task :: rest) :
    Placed loopOf ({ server with
      pendingTasks := Function.update server.pendingTasks thread rest }.sendInLoop task fails) := by
  have shorter : Placed loopOf { server with
      pendingTasks := Function.update server.pendingTasks thread rest } := by
    refine ⟨(Function.forall_update_iff _ fun thread (tasks : List (Sending κ ι)) => ∀ task ∈ tasks,
      loopOf task.conn = thread ∧ task.origin ≠ thread).mpr
        ⟨fun task' member => ?_, fun other _ => placed.home other⟩, placed.once⟩
    exact placed.home thread task' (by rw [pending]; exact List.mem_cons_of_mem _ member)
  obtain ⟨output, lost, equal⟩ := sendInLoop_eq { server with
    pendingTasks := Function.update server.pendingTasks thread rest } task fails
  rw [equal]
  exact ⟨shorter.home, shorter.once⟩

/-- **Every step keeps the sendings in their places.** -/
theorem Broadcast.Placed.step (placed : Placed loopOf server) {action : BroadcastStep κ ι}
    (taken : server.step loopOf action = some next) : Placed loopOf next := by
  cases action with
  | subscription action =>
    obtain ⟨pubsub, -, rfl⟩ := Option.map_eq_some_iff.mp taken
    exact ⟨placed.home, placed.once⟩
  | connectEstablished other =>
    obtain ⟨-, ⟨⟩⟩ := Option.ite_none_right_eq_some.mp taken
    exact ⟨placed.home, placed.once⟩
  | shutdown other =>
    obtain ⟨-, ⟨⟩⟩ := Option.ite_none_right_eq_some.mp taken
    exact ⟨placed.home, placed.once⟩
  | handleClose other =>
    obtain ⟨-, ⟨⟩⟩ := Option.ite_none_right_eq_some.mp taken
    exact ⟨placed.home, placed.once⟩
  | collect other message order =>
    obtain ⟨-, collected⟩ := Option.ite_none_left_eq_some.mp taken
    unfold collect at collected
    split at collected
    · cases collected
      exact placed
    · obtain ⟨⟨once, -⟩, ⟨⟩⟩ := Option.ite_none_right_eq_some.mp collected
      have begun := placed.setPublishing other (some ⟨message, order, order.length⟩)
        (by rintro _ ⟨⟩; exact once)
      exact ⟨begun.home, begun.once⟩
  | sendNext other fails =>
    rw [Broadcast.step] at taken
    split at taken
    next message first rest collected publishing =>
      cases taken
      refine (placed.send _ fails).setPublishing other _ ?_
      rintro _ ⟨⟩
      exact (List.nodup_cons.mp (placed.once other _ publishing)).2
    · cases taken
  | finish other =>
    rw [Broadcast.step] at taken
    split at taken
    next message collected publishing =>
      cases taken
      have ended := placed.setPublishing other none nofun
      exact ⟨ended.home, ended.once⟩
    · cases taken
  | runTask other fails =>
    obtain ⟨-, taken⟩ := Option.ite_none_left_eq_some.mp taken
    split at taken
    · cases taken
    next task rest pending =>
      cases taken
      exact placed.runTask fails pending

/-- **The invariant**: everything is in its place, and every mailbox orderly. -/
structure Broadcast.Sound (loopOf : κ → ι) (server : Broadcast κ ι) : Prop where
  placed : Placed loopOf server
  orderly : ∀ thread conn, (server.mailbox loopOf thread conn).Orderly

theorem Broadcast.sound_new : Sound loopOf ({} : Broadcast κ ι) :=
  ⟨placed_new, fun _ _ => Mailbox.orderly_new⟩

theorem Broadcast.Sound.step (sound : Sound loopOf server) {action : BroadcastStep κ ι}
    (taken : server.step loopOf action = some next) : Sound loopOf next := by
  refine ⟨sound.placed.step taken, fun thread conn => ?_⟩
  rcases mailbox_step sound.placed taken with same | ⟨action, moved⟩
  · rw [same]
    exact sound.orderly thread conn
  · exact (sound.orderly thread conn).step moved

/-! ### Channels without a subscription -/

/-- **A connection and a channel that have nothing to do with each other.** -/
structure Broadcast.Strangers (conn : κ) (channel : Bytes) (server : Broadcast κ ι) : Prop where
  quiet : server.pubsub.inFlight conn ≠ some (.insert channel)
  unlisted : conn ∉ server.pubsub.channelSubscribers.items channel
  spared : ∀ sending ∈ server.addressed,
    ¬ (sending.conn = conn ∧ sending.message.channel = channel)

omit [DecidableEq κ] [DecidableEq ι] in
theorem Broadcast.strangers_new (conn : κ) (channel : Bytes) :
    Strangers conn channel ({} : Broadcast κ ι) :=
  ⟨nofun, by simp [MultiMap.items], nofun⟩

/-- The second half under `pubsubMu_`. -/
theorem unlisted_underPubsubMu {state : PubSub κ} {one : κ} {channel : Bytes} {half : SecondHalf}
    (quiet : state.inFlight conn ≠ some (.insert channel))
    (unlisted : conn ∉ state.channelSubscribers.items channel)
    (outstanding : state.inFlight one = some half) :
    (state.underPubsubMu one half).inFlight conn ≠ some (.insert channel) ∧
      conn ∉ (state.underPubsubMu one half).channelSubscribers.items channel := by
  constructor
  · by_cases same : conn = one
    · subst same
      simp [PubSub.underPubsubMu, PubSub.refreshPubSubStatsLocked]
    · simpa [PubSub.underPubsubMu, PubSub.refreshPubSubStatsLocked, same] using quiet
  · by_cases same : conn = one
    · subst same
      cases half with
      | insert added =>
        have different : channel ≠ added := by
          rintro rfl
          exact quiet outstanding
        simpa [PubSub.underPubsubMu, PubSub.refreshPubSubStatsLocked, PubSub.indexAfter,
          MultiMap.mem_add, different] using unlisted
      | erase channels =>
        simp [PubSub.underPubsubMu, PubSub.refreshPubSubStatsLocked, PubSub.indexAfter,
          MultiMap.mem_dropAll, unlisted]
    · exact mt (mem_indexAfter_of_ne same half channel).mp unlisted

/-- What a step of the subscriptions can do to a connection and a channel. -/
theorem unlisted_step {state after : PubSub κ} {channel : Bytes} {action : PubSubStep κ}
    (quiet : state.inFlight conn ≠ some (.insert channel))
    (unlisted : conn ∉ state.channelSubscribers.items channel)
    (other : action ≠ .subscribe conn channel) (taken : state.step action = some after) :
    after.inFlight conn ≠ some (.insert channel) ∧
      conn ∉ after.channelSubscribers.items channel := by
  have put {one : κ} {slot : Option Storage.StringSet} {half : Option SecondHalf}
      (fresh : one = conn → half ≠ some (.insert channel)) :
      (state.put one slot half).inFlight conn ≠ some (.insert channel) := by
    by_cases same : conn = one
    · subst same
      simpa [PubSub.put] using fresh rfl
    · simpa [PubSub.put, same] using quiet
  cases action with
  | message one =>
    obtain ⟨-, ⟨⟩⟩ := Option.ite_none_left_eq_some.mp taken
    exact ⟨put (by simp), unlisted⟩
  | subscribe one added =>
    obtain ⟨-, ⟨⟩⟩ := Option.ite_none_left_eq_some.mp taken
    unfold PubSub.subscribeChannel
    split
    · exact ⟨quiet, unlisted⟩
    · refine ⟨put ?_, unlisted⟩
      rintro rfl ⟨⟩
      exact other rfl
  | unsubscribe one removed =>
    obtain ⟨-, ⟨⟩⟩ := Option.ite_none_left_eq_some.mp taken
    exact ⟨put (by simp), unlisted⟩
  | unsubscribeAll one =>
    obtain ⟨-, ⟨⟩⟩ := Option.ite_none_left_eq_some.mp taken
    exact ⟨put (by simp), unlisted⟩
  | disconnect one =>
    obtain ⟨-, ⟨⟩⟩ := Option.ite_none_left_eq_some.mp taken
    unfold PubSub.clearSubscriptionsForConnection
    split
    · exact ⟨quiet, unlisted⟩
    · exact ⟨@put one none _ (by simp), unlisted⟩
  | proceed one =>
    obtain ⟨half, outstanding, rfl⟩ := Option.map_eq_some_iff.mp taken
    exact unlisted_underPubsubMu quiet unlisted outstanding

omit [DecidableEq κ] [DecidableEq ι] in
/-- The steps that address nothing, and leave the subscriptions alone. -/
theorem Broadcast.Strangers.of_same {channel : Bytes} (strangers : Strangers conn channel server)
    (pubsub : next.pubsub = server.pubsub) (addressed : next.addressed = server.addressed) :
    Strangers conn channel next :=
  ⟨pubsub ▸ strangers.quiet, pubsub ▸ strangers.unlisted, addressed ▸ strangers.spared⟩

theorem Broadcast.send_same (loopOf : κ → ι) (server : Broadcast κ ι) (sending : Sending κ ι)
    (fails : Bool) : (server.send loopOf sending fails).pubsub = server.pubsub ∧
      (server.send loopOf sending fails).addressed = server.addressed := by
  unfold Broadcast.send
  split
  · split
    · obtain ⟨output, lost, equal⟩ := sendInLoop_eq server sending fails
      rw [equal]
      exact ⟨rfl, rfl⟩
    · exact ⟨rfl, rfl⟩
  · exact ⟨rfl, rfl⟩

/-- A publisher collects subscribers only. -/
theorem Broadcast.Strangers.collect {channel : Bytes} (strangers : Strangers conn channel server)
    {thread : ι} {message : Message} {order : List κ}
    (collected : server.collect thread message order = some next) :
    Strangers conn channel next := by
  unfold Broadcast.collect at collected
  split at collected
  · cases collected
    exact strangers
  next subscribers listed =>
    obtain ⟨⟨-, exactly⟩, ⟨⟩⟩ := Option.ite_none_right_eq_some.mp collected
    refine ⟨strangers.quiet, strangers.unlisted, fun sending member => ?_⟩
    rcases List.mem_append.mp member with old | new
    · exact strangers.spared sending old
    · obtain ⟨one, inside, rfl⟩ := List.mem_map.mp new
      rintro ⟨rfl, rfl⟩
      have collected' := List.mem_toFinset.mpr inside
      rw [exactly] at collected'
      apply strangers.unlisted
      rw [MultiMap.items, listed]
      exact (Finset.mem_filter.mp collected').1

/-- **Who does not subscribe stays a stranger.** -/
theorem Broadcast.Strangers.step {channel : Bytes} (strangers : Strangers conn channel server)
    {action : BroadcastStep κ ι} (other : action ≠ .subscription (.subscribe conn channel))
    (taken : server.step loopOf action = some next) : Strangers conn channel next := by
  cases action with
  | subscription action =>
    obtain ⟨pubsub, changed, rfl⟩ := Option.map_eq_some_iff.mp taken
    have different : action ≠ .subscribe conn channel := fun same => other (by rw [same])
    obtain ⟨quiet, unlisted⟩ :=
      unlisted_step strangers.quiet strangers.unlisted different changed
    exact ⟨quiet, unlisted, strangers.spared⟩
  | connectEstablished one =>
    obtain ⟨-, ⟨⟩⟩ := Option.ite_none_right_eq_some.mp taken
    exact strangers.of_same rfl rfl
  | shutdown one =>
    obtain ⟨-, ⟨⟩⟩ := Option.ite_none_right_eq_some.mp taken
    exact strangers.of_same rfl rfl
  | handleClose one =>
    obtain ⟨-, ⟨⟩⟩ := Option.ite_none_right_eq_some.mp taken
    exact strangers.of_same rfl rfl
  | collect thread message order =>
    obtain ⟨-, collected⟩ := Option.ite_none_left_eq_some.mp taken
    exact strangers.collect collected
  | sendNext thread fails =>
    rw [Broadcast.step] at taken
    split at taken
    next message first rest collected publishing =>
      cases taken
      have same := send_same loopOf server ⟨thread, first, message⟩ fails
      exact strangers.of_same same.1 same.2
    · cases taken
  | finish thread =>
    rw [Broadcast.step] at taken
    split at taken
    · cases taken
      exact strangers.of_same rfl rfl
    · cases taken
  | runTask thread fails =>
    obtain ⟨-, taken⟩ := Option.ite_none_left_eq_some.mp taken
    split at taken
    · cases taken
    next task rest pending =>
      cases taken
      obtain ⟨output, lost, equal⟩ := sendInLoop_eq { server with
        pendingTasks := Function.update server.pendingTasks thread rest } task fails
      rw [equal]
      exact strangers.of_same rfl rfl

end Steps

/-! ### Runs -/

section Runs

open Broadcast

variable {κ ι : Type} [DecidableEq κ] [DecidableEq ι]

/-- Two connections on loops of their own. The second subscribes to a channel, and a message is
published on it from the loop of the first. -/
def oneMessage : List (BroadcastStep Bool Bool) :=
  [.connectEstablished false, .connectEstablished true, .subscription (.message true),
    .subscription (.subscribe true [99]), .subscription (.proceed true),
    .collect false ⟨[99], [112]⟩ [true], .sendNext false false, .finish false, .runTask true false]

/-- **A connection that never subscribes to a channel gets no message of it**, whatever the other
connections do. -/
theorem never_subscribed (loopOf : κ → ι) (steps : List (BroadcastStep κ ι))
    (server : Broadcast κ ι) (ran : Machine.run (Broadcast.step loopOf) steps {} = some server)
    (conn : κ) (channel : Bytes) (never : .subscription (.subscribe conn channel) ∉ steps) :
    ∀ entry ∈ server.output conn, entry.2.channel ≠ channel := by
  have sound : Sound loopOf server :=
    Machine.run_keeps (fun (sound : Sound loopOf _) taken => sound.step taken) sound_new ran
  have others : ∀ action ∈ steps, action ≠ .subscription (.subscribe conn channel) := by
    rintro action member rfl
    exact never member
  have strangers : Strangers conn channel server :=
    (Machine.throughout_of_forall others {}).keeps
      (fun (strangers : Strangers conn channel _) other taken => strangers.step other taken)
      (strangers_new conn channel) ran
  rintro ⟨thread, message⟩ member rfl
  have sent : message ∈ (server.mailbox loopOf thread conn).sent :=
    List.mem_filterMap.mpr ⟨_, member, if_pos rfl⟩
  have addressed := (sound.orderly thread conn).sent_sublist.subset sent
  obtain ⟨sending, inside, found⟩ := List.mem_filterMap.mp addressed
  obtain ⟨⟨-, same⟩, ⟨⟩⟩ := Option.ite_none_right_eq_some.mp found
  exact strangers.spared sending inside ⟨same, rfl⟩

theorem never_subscribed_first :
    ∃ server, Machine.run (Broadcast.step id) oneMessage {} = some server ∧
      ∀ entry ∈ server.output false, entry.2.channel ≠ [99] := by
  refine ⟨_, rfl, ?_⟩
  refine never_subscribed id oneMessage _ rfl false [99] ?_
  simp [oneMessage]

end Runs

end SunKV.Concurrency
