/-
**The two forms of `UNSUBSCRIBE`.**

With arguments, `UNSUBSCRIBE` ends one subscription after the other and tells after each how many
are left. Without, it ends them all at once and builds the replies afterwards, each with the number
that is left in the end. The iteration order of `subscribed_channels`, a hash table, is any
(`ChannelOrder`).

* `settle_settle`, `run_eachChannel` — one channel after the other: a single update of both indexes,
  and replies that count down.
* `run_bare` — all at once: the same update, and replies with the count zero.
* `unsubscribe_all_iff` — so the two forms agree **if and only if there is one channel**.
-/

import SunKV.Concurrency.PubSub
import SunKV.Protocol.Encode
import SunKV.Server.FailureReplies

namespace SunKV.Server

open SunKV.Lib SunKV.Protocol SunKV.Storage SunKV.Concurrency

/-! ### The calls of a handler -/

/-- The order in which a set of channels is iterated. -/
structure ChannelOrder where
  list : StringSet → List Bytes
  perm : ∀ channels, (list channels).Perm channels.toList

/-- The order of the names. -/
def ChannelOrder.sorted : ChannelOrder :=
  ⟨fun channels => channels.toList, fun _ => List.Perm.refl _⟩

/-- The server as the commands of one connection see it: the subscriptions of all connections, what
was sent to this one, and the rest. -/
structure Subscriber (κ σ : Type) where
  pubsub : PubSub κ
  sent : List Bytes := []
  rest : σ

section Calls

variable {κ σ : Type} [DecidableEq κ]

/-- Both halves of an operation that ends subscriptions: the slot of the connection, and then the
index of the channels. -/
def settle (state : PubSub κ) (conn : κ) (slot : Option StringSet) (channels : List Bytes) :
    PubSub κ :=
  (state.put conn slot (some (.erase channels))).underPubsubMu conn (.erase channels)

/-- `unsubscribeChannel_`. -/
def unsubscribeChannelOf (state : PubSub κ) (conn : κ) (channel : Bytes) : PubSub κ :=
  settle state conn ((state.connInbuf conn).map fun channels => channels.erase channel) [channel]

/-- `unsubscribeAllChannels_`. -/
def unsubscribeAllChannelsOf (order : ChannelOrder) (state : PubSub κ) (conn : κ) : PubSub κ :=
  settle state conn ((state.connInbuf conn).map fun _ => ∅)
    (order.list (state.subscribedChannels conn))

/-- `subscribeChannel_`. -/
def subscribeChannelOf (state : PubSub κ) (conn : κ) (channel : Bytes) : PubSub κ :=
  match state.connInbuf conn with
  | none => state
  | some _ => (state.subscribeChannel conn channel).underPubsubMu conn (.insert channel)

/-- **The calls of a handler that runs for a connection.** -/
def subscriberCalls (order : ChannelOrder) (host : Handler ServerCall.Answer σ) (conn : κ) :
    Handler ServerCall.Answer (Subscriber κ σ)
  | .subscribeChannel channel, server =>
      let after := subscribeChannelOf server.pubsub conn channel
      ((after.subscribedChannels conn).size, { server with pubsub := after })
  | .unsubscribeChannel channel, server =>
      let after := unsubscribeChannelOf server.pubsub conn channel
      ((after.subscribedChannels conn).size, { server with pubsub := after })
  | .unsubscribeAllChannels, server =>
      ((order.list (server.pubsub.subscribedChannels conn)).map fun channel => (channel, 0),
        { server with pubsub := unsubscribeAllChannelsOf order server.pubsub conn })
  | .writeResp data, server => ((), { server with sent := server.sent ++ [data] })
  | request, server =>
      ((host request server.rest).1, { server with rest := (host request server.rest).2 })

/-- The operations in halves, of which the calls are made. -/
theorem run_unsubscribe (state : PubSub κ) (conn : κ) (idle : state.inFlight conn = none)
    (channel : Bytes) :
    PubSub.run [.unsubscribe conn channel, .proceed conn] state =
      some (unsubscribeChannelOf state conn channel) := by
  simp [PubSub.run, PubSub.step, idle, PubSub.unsubscribeChannel, PubSub.put, unsubscribeChannelOf,
    settle]

theorem run_unsubscribeAll (state : PubSub κ) (conn : κ) (idle : state.inFlight conn = none) :
    PubSub.run [.unsubscribeAll conn, .proceed conn] state =
      some (unsubscribeAllChannelsOf .sorted state conn) := by
  simp [PubSub.run, PubSub.step, idle, PubSub.unsubscribeAllChannels, PubSub.put,
    unsubscribeAllChannelsOf, settle, ChannelOrder.sorted]

end Calls

/-! ### One channel after the other -/

/-- The confirmation of a channel. -/
def unsubscribeReply (channel : Bytes) (count : Nat) : Bytes :=
  subscriptionReply "unsubscribe" (serializeBulkString channel) count

/-- The confirmations that count down. -/
def countdown : StringSet → List Bytes → List Bytes
  | _, [] => []
  | channels, channel :: rest =>
    unsubscribeReply channel (channels.erase channel).size ::
      countdown (channels.erase channel) rest

section OneByOne

variable {κ σ : Type} [DecidableEq κ] {state : PubSub κ} {conn : κ}

theorem connInbuf_settle (slot : Option StringSet) (channels : List Bytes) :
    (settle state conn slot channels).connInbuf conn = slot :=
  Function.update_self _ _ _

/-- **Two such operations are one**, on all the channels. -/
theorem settle_settle (slot later : Option StringSet) (channels others : List Bytes) :
    settle (settle state conn slot channels) conn later others =
      settle state conn later (channels ++ others) := by
  simp only [settle, PubSub.put, PubSub.underPubsubMu, PubSub.refreshPubSubStatsLocked,
    PubSub.indexAfter, MultiMap.dropAll, Function.update_idem, List.foldl_append]

theorem unsubscribeChannelOf_eq {channels : StringSet}
    (slot : state.connInbuf conn = some channels) (channel : Bytes) :
    unsubscribeChannelOf state conn channel =
      settle state conn (some (channels.erase channel)) [channel] := by
  rw [unsubscribeChannelOf, slot]
  rfl

section Run

variable (order : ChannelOrder) (host : Handler ServerCall.Answer σ)

/-- One channel. -/
theorem run_eachChannel_cons (server : Subscriber κ σ) {channels : StringSet}
    (slot : server.pubsub.connInbuf conn = some channels) (channel : Bytes)
    (args : List RespValue) :
    (eachChannel unsubscribeChannel "unsubscribe" (.bulkString channel :: args)).run
        (subscriberCalls order host conn) server =
      (eachChannel unsubscribeChannel "unsubscribe" args).run (subscriberCalls order host conn)
        { pubsub := settle server.pubsub conn (some (channels.erase channel)) [channel]
          sent := server.sent ++ [unsubscribeReply channel (channels.erase channel).size]
          rest := server.rest } := by
  have ended := unsubscribeChannelOf_eq slot channel
  have left : ((unsubscribeChannelOf server.pubsub conn channel).subscribedChannels conn).size =
      (channels.erase channel).size := by
    rw [ended, PubSub.subscribedChannels, connInbuf_settle]
    rfl
  rw [← ended, ← left]
  rfl

/-- **The loop of `cmdUnsubscribe`**, after the channels that it has dealt with. -/
theorem run_eachChannel (sent : List Bytes) (rest : σ) (channels : StringSet)
    (past listed : List Bytes) :
    (eachChannel unsubscribeChannel "unsubscribe" (listed.map .bulkString)).run
        (subscriberCalls order host conn)
        { pubsub := settle state conn (some channels) past, sent := sent, rest := rest } =
      (true, { pubsub := settle state conn (some (listed.foldl .erase channels)) (past ++ listed)
               sent := sent ++ countdown channels listed
               rest := rest }) := by
  induction listed generalizing channels past sent with
  | nil =>
    rw [List.append_nil, countdown, List.append_nil]
    rfl
  | cons channel listed ih =>
    have later := ih (sent ++ [unsubscribeReply channel (channels.erase channel).size])
      (channels.erase channel) (past ++ [channel])
    rw [List.append_assoc, List.append_assoc] at later
    rw [List.map_cons, run_eachChannel_cons order host _ (connInbuf_settle _ _), settle_settle]
    exact later

end Run

end OneByOne

/-! ### Both forms -/

section Forms

variable {channels : StringSet} {channel : Bytes} {listed : List Bytes}

theorem mem_foldl_erase (channel : Bytes) :
    channel ∈ listed.foldl Std.ExtTreeSet.erase channels ↔
      channel ∈ channels ∧ channel ∉ listed := by
  induction listed generalizing channels with
  | nil => simp
  | cons first listed ih =>
    rw [List.foldl_cons, ih, List.mem_cons, Std.ExtTreeSet.mem_erase]
    simp only [ne_eq, Std.LawfulEqCmp.compare_eq_iff_eq, not_or, eq_comm (a := channel)]
    tauto

/-- Nothing is left when every channel has been ended. -/
theorem foldl_erase_order (order : ChannelOrder) (channels : StringSet) :
    (order.list channels).foldl .erase channels = (∅ : StringSet) := by
  refine Std.ExtTreeSet.eq_empty_iff_forall_not_mem.mpr fun channel member => ?_
  obtain ⟨subscribed, unlisted⟩ := (mem_foldl_erase channel).mp member
  refine unlisted ((order.perm channels).mem_iff.mpr ?_)
  exact Std.ExtTreeSet.mem_toList.mpr subscribed

theorem length_order (order : ChannelOrder) (channels : StringSet) :
    (order.list channels).length = channels.size := by
  rw [(order.perm channels).length_eq, Std.ExtTreeSet.length_toList]

/-- Two confirmations of one channel that begin two streams have the same count. -/
theorem count_eq_of_replies {count other : Nat} {later latter : Bytes}
    (same : unsubscribeReply channel count ++ later = unsubscribeReply channel other ++ latter) :
    count = other := by
  have line (count : Nat) (later : Bytes) : unsubscribeReply channel count ++ later =
      (text "*3" ++ crlf ++ serializeBulkString (text "unsubscribe") ++
        serializeBulkString channel ++ [ascii ':']) ++ (decimal count ++ crlf ++ later) := by
    simp only [unsubscribeReply, subscriptionReply, serializeInteger, List.append_assoc]
    rfl
  rw [line, line] at same
  have lines := congrArg splitLine (List.append_cancel_left same)
  rw [splitLine_line (plain_decimal _), splitLine_line (plain_decimal _)] at lines
  exact decimal_injective (congrArg Prod.fst (Option.some.inj lines))

/-- **The replies agree if there is one channel, and only then.** -/
theorem countdown_eq_iff (order : ChannelOrder) (filled : channels ≠ ∅) :
    ((order.list channels).map fun channel => unsubscribeReply channel 0).flatten =
        (countdown channels (order.list channels)).flatten ↔
      channels.size = 1 := by
  have length := length_order order channels
  have inside : ∀ channel ∈ order.list channels, channel ∈ channels := fun channel member =>
    Std.ExtTreeSet.mem_toList.mp ((order.perm channels).mem_iff.mp member)
  cases listed : order.list channels with
  | nil =>
    rw [listed] at length
    exact absurd (Std.ExtTreeSet.eq_empty_iff_size_eq_zero.mpr length.symm) filled
  | cons channel rest =>
    rw [listed] at length inside
    have size : (channels.erase channel).size = channels.size - 1 := by
      have subscribed := Std.ExtTreeSet.mem_iff_contains.mp (inside channel List.mem_cons_self)
      rw [Std.ExtTreeSet.size_erase, if_pos subscribed]
    rw [List.map_cons, List.flatten_cons, countdown, List.flatten_cons]
    constructor
    · intro same
      have none := count_eq_of_replies same
      have some : 0 < channels.size := by
        rw [← length]
        exact Nat.succ_pos _
      omega
    · intro one
      have last : rest = [] := by
        rw [one] at length
        exact List.eq_nil_of_length_eq_zero (Nat.succ.inj length)
      rw [last, size, one]
      rfl

variable {κ σ : Type} [DecidableEq κ] (order : ChannelOrder) (host : Handler ServerCall.Answer σ)
  (server : Subscriber κ σ) {conn : κ} (name : RespValue)

/-- The loop over confirmations that are there already. -/
theorem run_eachUnsubscribed (items : List (Bytes × Nat)) :
    (eachUnsubscribed items).run (subscriberCalls order host conn) server =
      (true, { server with
        sent := server.sent ++ items.map fun item => unsubscribeReply item.1 item.2 }) := by
  induction items generalizing server with
  | nil =>
    rw [List.map_nil, List.append_nil]
    rfl
  | cons item items ih =>
    rw [eachUnsubscribed, Program.run_bind, ih, List.map_cons, List.append_cons]
    rfl

/-- **`UNSUBSCRIBE` without argument.** -/
theorem run_bare (slot : server.pubsub.connInbuf conn = some channels) (filled : channels ≠ ∅) :
    ((cmdUnsubscribe [name]).run (subscriberCalls order host conn) server).2 =
      { server with
        pubsub := settle server.pubsub conn (some ∅) (order.list channels)
        sent := server.sent ++
          (order.list channels).map fun channel => unsubscribeReply channel 0 } := by
  have subscribed : server.pubsub.subscribedChannels conn = channels := by
    rw [PubSub.subscribedChannels, slot]
    rfl
  have all : unsubscribeAllChannelsOf order server.pubsub conn =
      settle server.pubsub conn (some ∅) (order.list channels) := by
    rw [unsubscribeAllChannelsOf, slot, subscribed]
    rfl
  have some : ((order.list channels).map fun channel => (channel, 0)).isEmpty = false := by
    rw [List.isEmpty_eq_false_iff, Ne, List.map_eq_nil_iff, ← List.length_eq_zero_iff,
      length_order]
    exact fun none => filled (Std.ExtTreeSet.eq_empty_iff_size_eq_zero.mpr none)
  rw [cmdUnsubscribe, if_pos List.length_singleton, Program.run_bind]
  show (Program.run (subscriberCalls order host conn)
    (if ((order.list (server.pubsub.subscribedChannels conn)).map
        fun channel => (channel, 0)).isEmpty = true then _ else eachUnsubscribed _)
    { server with pubsub := unsubscribeAllChannelsOf order server.pubsub conn }).2 = _
  rw [subscribed, some, if_neg Bool.false_ne_true, run_eachUnsubscribed, all]
  show Subscriber.mk _ (server.sent ++ ((order.list (server.pubsub.subscribedChannels conn)).map
    fun channel => (channel, 0)).map fun item => unsubscribeReply item.1 item.2) _ = _
  rw [subscribed, List.map_map]
  rfl

/-- **`UNSUBSCRIBE` of all channels.** -/
theorem run_listed (slot : server.pubsub.connInbuf conn = some channels) (filled : channels ≠ ∅) :
    ((cmdUnsubscribe (name :: (order.list channels).map .bulkString)).run
        (subscriberCalls order host conn) server).2 =
      { server with
        pubsub := settle server.pubsub conn (some ∅) (order.list channels)
        sent := server.sent ++ countdown channels (order.list channels) } := by
  have length := length_order order channels
  have nothing := foldl_erase_order order channels
  cases listed : order.list channels with
  | nil =>
    rw [listed] at length
    exact absurd (Std.ExtTreeSet.eq_empty_iff_size_eq_zero.mpr length.symm) filled
  | cons channel rest =>
    rw [listed, List.foldl_cons] at nothing
    have several : ¬ (name :: (channel :: rest).map RespValue.bulkString).length = 1 := by
      simp
    rw [cmdUnsubscribe, if_neg several, List.drop_one, List.tail_cons, List.map_cons,
      run_eachChannel_cons order host server slot, run_eachChannel, nothing, countdown,
      List.append_assoc]
    rfl

end Forms

/-- **`UNSUBSCRIBE` without argument against `UNSUBSCRIBE` of all channels.** For every connection
with subscriptions, in every state of the indexes and for every iteration order: the two forms
leave the same indexes and send the same bytes exactly if there is one subscription. The indexes are
always the same; the replies differ from the first one on that has to say how many subscriptions are
left. -/
theorem unsubscribe_all_iff {κ σ : Type} [DecidableEq κ] (order : ChannelOrder)
    (host : Handler ServerCall.Answer σ) (server : Subscriber κ σ) (conn : κ)
    (channels : StringSet) (slot : server.pubsub.connInbuf conn = some channels)
    (filled : channels ≠ ∅) (name : RespValue) :
    let bare := ((cmdUnsubscribe [name]).run (subscriberCalls order host conn) server).2
    let listed := ((cmdUnsubscribe (name :: (order.list channels).map .bulkString)).run
      (subscriberCalls order host conn) server).2
    (bare.pubsub = listed.pubsub ∧ bare.sent.flatten = listed.sent.flatten) ↔
      channels.size = 1 := by
  intro bare listed
  have replies := countdown_eq_iff order filled
  have one : bare = _ := run_bare order host server name slot filled
  have all : listed = _ := run_listed order host server name slot filled
  rw [one, all]
  simp only [true_and, List.flatten_append, List.append_cancel_left_eq]
  exact replies

/-- A connection that has subscribed to some channels. -/
def subscribedTo (channels : List Bytes) : Subscriber Nat Unit where
  pubsub := (channels.foldl (fun state channel => subscribeChannelOf state 0 channel)
    ((({} : PubSub Nat).openSlot 0)))
  rest := ()

/-- One subscription: both forms send the confirmation with the count zero. -/
theorem unsubscribe_all_one :
    let bare := ((cmdUnsubscribe [.bulkString (text "UNSUBSCRIBE")]).run
      (subscriberCalls .sorted idleHost 0) (subscribedTo [[99]])).2
    let listed := ((cmdUnsubscribe [.bulkString (text "UNSUBSCRIBE"), .bulkString [99]]).run
      (subscriberCalls .sorted idleHost 0) (subscribedTo [[99]])).2
    bare.pubsub = listed.pubsub ∧ bare.sent.flatten = listed.sent.flatten :=
  (unsubscribe_all_iff .sorted idleHost (subscribedTo [[99]]) 0 {[99]} rfl (by decide)
    (.bulkString (text "UNSUBSCRIBE"))).mpr rfl

/-- Two subscriptions: without argument the first confirmation says that none is left, with both
channels that one is. -/
theorem unsubscribe_all_two :
    let bare := ((cmdUnsubscribe [.bulkString (text "UNSUBSCRIBE")]).run
      (subscriberCalls .sorted idleHost 0) (subscribedTo [[97], [98]])).2
    let listed := ((cmdUnsubscribe
      [.bulkString (text "UNSUBSCRIBE"), .bulkString [97], .bulkString [98]]).run
        (subscriberCalls .sorted idleHost 0) (subscribedTo [[97], [98]])).2
    bare.sent = [unsubscribeReply [97] 0, unsubscribeReply [98] 0] ∧
      listed.sent = [unsubscribeReply [97] 1, unsubscribeReply [98] 0] ∧
      bare.sent.flatten ≠ listed.sent.flatten := by
  decide

end SunKV.Server
