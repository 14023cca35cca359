/-
**The two indexes of the subscriptions.**

Which connection has subscribed to which channel is kept twice: every connection has its set of
channels, under one mutex, and every channel its set of connections, under another. An operation of
a connection updates the first and then the second, in two critical sections; the operations of one
connection follow each other on its loop, those of different connections interleave. A connection
stands for its name here, which is unique.

* `Agree` — what holds of one connection while the second half of an operation is outstanding.
* `Consistent` — the invariant, over all connections; `Consistent.step`: every step keeps it.
* `indexes_consistent` — so the two indexes agree on every connection that has no operation in
  flight, in every reachable state.
-/

import SunKV.Lib.MultiMap
import SunKV.Storage.Value

namespace SunKV.Concurrency

open SunKV.Lib SunKV.Storage

/-! ### Operations in two halves -/

/-- What an operation has yet to do to the index of the channels. -/
inductive SecondHalf
  | insert (channel : Bytes)
  | erase (channels : List Bytes)
  deriving DecidableEq

/-- The channels it is about. -/
def SecondHalf.channels : SecondHalf → List Bytes
  | .insert channel => [channel]
  | .erase channels => channels

/-- The part of `class Server` that subscriptions use: the `subscribed_channels` of every slot in
`conn_inbuf_`, `channel_subscribers_` and the two counters; the operation every connection has in
flight, and whether the server was told that it has disconnected. -/
structure PubSub (κ : Type) where
  connInbuf : κ → Option StringSet := fun _ => none
  channelSubscribers : MultiMap Bytes κ := ∅
  pubsubChannelCount : Nat := 0
  pubsubSubscriptionCount : Nat := 0
  inFlight : κ → Option SecondHalf := fun _ => none
  disconnected : κ → Bool := fun _ => false

/-- A step of the loop of a connection: a message arrives, one of the operations begins, or the
operation in flight goes on. -/
inductive PubSubStep (κ : Type)
  | message (conn : κ)
  | subscribe (conn : κ) (channel : Bytes)
  | unsubscribe (conn : κ) (channel : Bytes)
  | unsubscribeAll (conn : κ)
  | disconnect (conn : κ)
  | proceed (conn : κ)

namespace PubSub

variable {κ : Type} [DecidableEq κ] (state : PubSub κ) (conn : κ)

/-- The channels of a connection, none without a slot. -/
def subscribedChannels (state : PubSub κ) (conn : κ) : StringSet := (state.connInbuf conn).getD ∅

/-- `refreshPubSubStatsLocked_`. -/
def refreshPubSubStatsLocked (state : PubSub κ) : PubSub κ :=
  { state with
    pubsubChannelCount := state.channelSubscribers.size
    pubsubSubscriptionCount := state.channelSubscribers.total }

/-- A slot and an operation in flight, for one connection. -/
def put (slot : Option StringSet) (half : Option SecondHalf) : PubSub κ :=
  { state with
    connInbuf := Function.update state.connInbuf conn slot
    inFlight := Function.update state.inFlight conn half }

/-- The first lines of `onMessage`. -/
def openSlot : PubSub κ := state.put conn (some (state.subscribedChannels conn)) none

/-- `subscribeChannel_`, up to the second lock. Without a slot it returns. -/
def subscribeChannel (channel : Bytes) : PubSub κ :=
  match state.connInbuf conn with
  | none => state
  | some channels => state.put conn (some (channels.insert channel)) (some (.insert channel))

/-- `unsubscribeChannel_`, up to the second lock. -/
def unsubscribeChannel (channel : Bytes) : PubSub κ :=
  state.put conn ((state.connInbuf conn).map fun channels => channels.erase channel)
    (some (.erase [channel]))

/-- `unsubscribeAllChannels_`, up to the second lock. -/
def unsubscribeAllChannels : PubSub κ :=
  state.put conn ((state.connInbuf conn).map fun _ => ∅)
    (some (.erase (state.subscribedChannels conn).toList))

/-- `clearSubscriptionsForConnection_`, up to the second lock. Without a slot it returns. -/
def clearSubscriptionsForConnection : PubSub κ :=
  let told := { state with disconnected := Function.update state.disconnected conn true }
  match state.connInbuf conn with
  | none => told
  | some channels => told.put conn none (some (.erase channels.toList))

/-- The index of the channels, after the second half of an operation. -/
def indexAfter : SecondHalf → MultiMap Bytes κ
  | .insert channel => state.channelSubscribers.add channel conn
  | .erase channels => MultiMap.dropAll conn state.channelSubscribers channels

/-- What is done under the second lock. -/
def underPubsubMu (half : SecondHalf) : PubSub κ :=
  refreshPubSubStatsLocked { state with
    channelSubscribers := state.indexAfter conn half
    inFlight := Function.update state.inFlight conn none }

/-- **One step**, `none` where the connection cannot take it: it has at most one operation in
flight, and no message arrives once it has disconnected. -/
def step : PubSubStep κ → Option (PubSub κ)
  | .message conn =>
    if (state.inFlight conn).isSome || state.disconnected conn then none
    else some (state.openSlot conn)
  | .subscribe conn channel =>
    if (state.inFlight conn).isSome then none else some (state.subscribeChannel conn channel)
  | .unsubscribe conn channel =>
    if (state.inFlight conn).isSome then none else some (state.unsubscribeChannel conn channel)
  | .unsubscribeAll conn =>
    if (state.inFlight conn).isSome then none else some (state.unsubscribeAllChannels conn)
  | .disconnect conn =>
    if (state.inFlight conn).isSome then none
    else some (state.clearSubscriptionsForConnection conn)
  | .proceed conn => (state.inFlight conn).map fun half => state.underPubsubMu conn half

/-- A run of steps. -/
def run : List (PubSubStep κ) → PubSub κ → Option (PubSub κ)
  | [], state => some state
  | first :: steps, state => (state.step first).bind (run steps)

end PubSub

/-! ### One connection -/

/-- **A connection and the index of the channels**: they agree on every channel that the operation
in flight is not about, and on the others the connection is ahead. -/
structure Agree (half : Option SecondHalf) (subscribed : StringSet) (listed : Bytes → Prop) :
    Prop where
  settled : ∀ channel, (∀ rest ∈ half, channel ∉ rest.channels) →
    (channel ∈ subscribed ↔ listed channel)
  ahead : ∀ rest ∈ half, ∀ channel ∈ rest.channels,
    (channel ∈ subscribed ↔ rest = .insert channel)

section Agree

variable {subscribed : StringSet} {listed after : Bytes → Prop} {channel : Bytes}

theorem Agree.idle (agree : Agree none subscribed listed) (channel : Bytes) :
    channel ∈ subscribed ↔ listed channel :=
  agree.settled channel nofun

theorem agree_idle (same : ∀ channel, channel ∈ subscribed ↔ listed channel) :
    Agree none subscribed listed :=
  ⟨fun channel _ => same channel, nofun⟩

/-- A subscription begins. -/
theorem Agree.insert (agree : Agree none subscribed listed) (channel : Bytes) :
    Agree (some (.insert channel)) (subscribed.insert channel) listed where
  settled other outside := by
    have distinct : channel ≠ other := by
      rintro rfl
      exact outside _ rfl List.mem_cons_self
    simp [distinct, agree.idle other]
  ahead := by
    rintro rest ⟨⟩ other member
    obtain rfl := List.mem_singleton.mp member
    simp

/-- The end of some subscriptions begins. -/
theorem Agree.erase (agree : Agree none subscribed listed) {left : StringSet}
    {channels : List Bytes}
    (erased : ∀ channel, channel ∈ left ↔ channel ∈ subscribed ∧ channel ∉ channels) :
    Agree (some (.erase channels)) left listed where
  settled other outside := by
    have kept : other ∉ channels := outside _ rfl
    rw [erased, agree.idle other]
    exact and_iff_left kept
  ahead := by
    rintro rest ⟨⟩ other member
    rw [erased]
    exact iff_of_false (fun both => both.2 member) nofun

/-- A subscription is completed. -/
theorem Agree.inserted (agree : Agree (some (.insert channel)) subscribed listed)
    (adds : ∀ other, after other ↔ other = channel ∨ listed other) :
    Agree none subscribed after := by
  refine agree_idle fun other => ?_
  rw [adds]
  by_cases same : other = channel
  · subst same
    have here := agree.ahead _ rfl other List.mem_cons_self
    exact iff_of_true (here.mpr rfl) (.inl rfl)
  · rw [agree.settled other (by rintro rest ⟨⟩ member; exact same (List.mem_singleton.mp member))]
    exact (or_iff_right same).symm

/-- The end of some subscriptions is completed. -/
theorem Agree.erased {channels : List Bytes}
    (agree : Agree (some (.erase channels)) subscribed listed)
    (drops : ∀ other, after other ↔ listed other ∧ other ∉ channels) :
    Agree none subscribed after := by
  refine agree_idle fun other => ?_
  rw [drops]
  by_cases inside : other ∈ channels
  · have here := agree.ahead _ rfl other inside
    exact iff_of_false (fun subscribed => nomatch here.mp subscribed) fun both => both.2 inside
  · rw [agree.settled other (by rintro rest ⟨⟩; exact inside)]
    exact (and_iff_left inside).symm

end Agree

/-! ### All connections -/

section Consistent

variable {κ : Type} {state next : PubSub κ} {conn : κ}

/-- **The invariant.** -/
structure Consistent (state : PubSub κ) : Prop where
  agree : ∀ conn, Agree (state.inFlight conn) (state.subscribedChannels conn) fun channel =>
    conn ∈ state.channelSubscribers.items channel
  gone : ∀ conn, state.disconnected conn = true → state.connInbuf conn = none
  filled : state.channelSubscribers.Filled
  channelCount : state.pubsubChannelCount = state.channelSubscribers.size
  subscriptionCount : state.pubsubSubscriptionCount = state.channelSubscribers.total

theorem Consistent.initial : Consistent ({} : PubSub κ) where
  agree conn := agree_idle fun channel => by simp [PubSub.subscribedChannels, MultiMap.items]
  gone _ told := by cases told
  filled := MultiMap.Filled.empty
  channelCount := rfl
  subscriptionCount := rfl

/-- A connection that has no operation in flight. -/
theorem Consistent.idle (consistent : Consistent state)
    (idle : ¬ (state.inFlight conn).isSome = true) :
    Agree none (state.subscribedChannels conn) fun channel =>
      conn ∈ state.channelSubscribers.items channel := by
  have agree := consistent.agree conn
  rwa [Option.not_isSome_iff_eq_none.mp idle] at agree

variable [DecidableEq κ]

/-- A step that changes the slot of one connection. -/
theorem Consistent.put (consistent : Consistent state) {slot : Option StringSet}
    {half : Option SecondHalf}
    (agree : Agree half (slot.getD ∅) fun channel => conn ∈ state.channelSubscribers.items channel)
    (gone : state.disconnected conn = true → slot = none) :
    Consistent (state.put conn slot half) := by
  refine ⟨fun other => ?_, fun other told => ?_, consistent.filled, consistent.channelCount,
    consistent.subscriptionCount⟩
  · by_cases same : other = conn
    · subst same
      simpa [PubSub.put, PubSub.subscribedChannels] using agree
    · simpa [PubSub.put, PubSub.subscribedChannels, same] using consistent.agree other
  · by_cases same : other = conn
    · subst same
      simpa [PubSub.put] using gone told
    · simpa [PubSub.put, same] using consistent.gone other told

theorem mem_indexAfter_of_ne {other : κ} (distinct : other ≠ conn) (half : SecondHalf)
    (channel : Bytes) :
    other ∈ (state.indexAfter conn half).items channel ↔
      other ∈ state.channelSubscribers.items channel := by
  cases half with
  | insert added => simp [PubSub.indexAfter, MultiMap.mem_add, distinct]
  | erase channels => simp [PubSub.indexAfter, MultiMap.mem_dropAll, distinct]

/-- **What is done under the second lock** makes the two indexes agree on the connection, and
changes nothing for the others. -/
theorem Consistent.underPubsubMu (consistent : Consistent state) {half : SecondHalf}
    (outstanding : state.inFlight conn = some half) :
    Consistent (state.underPubsubMu conn half) := by
  refine ⟨fun other => ?_, consistent.gone, ?_, rfl, rfl⟩
  · by_cases same : other = conn
    · subst same
      have before := consistent.agree other
      rw [outstanding] at before
      have idle : (state.underPubsubMu other half).inFlight other = none :=
        Function.update_self _ _ _
      rw [idle]
      cases half with
      | insert channel =>
        refine before.inserted fun _ => ?_
        simp [PubSub.underPubsubMu, PubSub.refreshPubSubStatsLocked, PubSub.indexAfter,
          MultiMap.mem_add]
      | erase channels =>
        refine before.erased fun _ => ?_
        simp [PubSub.underPubsubMu, PubSub.refreshPubSubStatsLocked, PubSub.indexAfter,
          MultiMap.mem_dropAll]
    · have kept : (state.underPubsubMu conn half).inFlight other = state.inFlight other :=
        Function.update_of_ne same _ _
      have listed (channel : Bytes) :
          other ∈ (state.underPubsubMu conn half).channelSubscribers.items channel ↔
            other ∈ state.channelSubscribers.items channel := mem_indexAfter_of_ne same half channel
      simp only [kept, listed]
      exact consistent.agree other
  · cases half with
    | insert channel => exact consistent.filled.add
    | erase channels => exact consistent.filled.dropAll channels

theorem Consistent.subscribeChannel (consistent : Consistent state)
    (idle : ¬ (state.inFlight conn).isSome = true) (channel : Bytes) :
    Consistent (state.subscribeChannel conn channel) := by
  have agree := consistent.idle idle
  unfold PubSub.subscribeChannel
  split
  case h_1 => exact consistent
  case h_2 channels slot =>
    rw [PubSub.subscribedChannels, slot] at agree
    refine consistent.put (agree.insert channel) fun told => ?_
    rw [consistent.gone conn told] at slot
    cases slot

theorem Consistent.unsubscribeChannel (consistent : Consistent state)
    (idle : ¬ (state.inFlight conn).isSome = true) (channel : Bytes) :
    Consistent (state.unsubscribeChannel conn channel) := by
  refine consistent.put ((consistent.idle idle).erase fun other => ?_) fun told => ?_
  · rw [PubSub.subscribedChannels, List.mem_singleton]
    cases state.connInbuf conn with
    | none => simp
    | some channels => simp [and_comm, eq_comm (a := channel)]
  · rw [consistent.gone conn told]
    rfl

theorem Consistent.unsubscribeAllChannels (consistent : Consistent state)
    (idle : ¬ (state.inFlight conn).isSome = true) :
    Consistent (state.unsubscribeAllChannels conn) := by
  refine consistent.put ((consistent.idle idle).erase fun other => ?_) fun told => ?_
  · cases state.connInbuf conn <;> simp
  · rw [consistent.gone conn told]
    rfl

/-- The server is told of a connection without a slot that it has disconnected. -/
theorem Consistent.told (consistent : Consistent state) (slot : state.connInbuf conn = none) :
    Consistent { state with disconnected := Function.update state.disconnected conn true } := by
  refine ⟨consistent.agree, fun other told => ?_, consistent.filled, consistent.channelCount,
    consistent.subscriptionCount⟩
  by_cases same : other = conn
  · rw [same]
    exact slot
  · have before : state.disconnected other = true :=
      (Function.update_of_ne same _ _).symm.trans told
    exact consistent.gone other before

theorem Consistent.clearSubscriptionsForConnection (consistent : Consistent state)
    (idle : ¬ (state.inFlight conn).isSome = true) :
    Consistent (state.clearSubscriptionsForConnection conn) := by
  unfold PubSub.clearSubscriptionsForConnection
  split
  case h_1 slot => exact consistent.told slot
  case h_2 channels slot =>
    have agree := consistent.idle idle
    rw [PubSub.subscribedChannels, slot] at agree
    have cleared : Consistent (state.put conn none (some (.erase channels.toList))) :=
      consistent.put (agree.erase fun other => by simp) fun _ => rfl
    exact cleared.told (Function.update_self _ _ _)

/-- **Every step keeps the invariant.** -/
theorem Consistent.step (consistent : Consistent state) {action : PubSubStep κ}
    (taken : state.step action = some next) : Consistent next := by
  cases action with
  | message conn =>
    obtain ⟨ready, ⟨⟩⟩ := Option.ite_none_left_eq_some.mp taken
    rw [Bool.or_eq_true, not_or] at ready
    exact consistent.put (consistent.idle ready.1) fun told => absurd told ready.2
  | subscribe conn channel =>
    obtain ⟨idle, ⟨⟩⟩ := Option.ite_none_left_eq_some.mp taken
    exact consistent.subscribeChannel idle channel
  | unsubscribe conn channel =>
    obtain ⟨idle, ⟨⟩⟩ := Option.ite_none_left_eq_some.mp taken
    exact consistent.unsubscribeChannel idle channel
  | unsubscribeAll conn =>
    obtain ⟨idle, ⟨⟩⟩ := Option.ite_none_left_eq_some.mp taken
    exact consistent.unsubscribeAllChannels idle
  | disconnect conn =>
    obtain ⟨idle, ⟨⟩⟩ := Option.ite_none_left_eq_some.mp taken
    exact consistent.clearSubscriptionsForConnection idle
  | proceed conn =>
    obtain ⟨half, outstanding, rfl⟩ := Option.map_eq_some_iff.mp taken
    exact consistent.underPubsubMu outstanding

/-- **Every run does.** -/
theorem Consistent.run (consistent : Consistent state) (steps : List (PubSubStep κ))
    (ran : PubSub.run steps state = some next) : Consistent next := by
  induction steps generalizing state with
  | nil =>
    obtain rfl := Option.some.inj ran
    exact consistent
  | cons action steps ih =>
    obtain ⟨middle, first, rest⟩ := Option.bind_eq_some_iff.mp ran
    exact ih (consistent.step first) rest

end Consistent

/-- **The two indexes agree.** In every state that the operations of any number of connections can
reach, in whatever order their halves interleave: a connection without an operation in flight is in
the set of exactly the channels that it has subscribed to, and in none once it has disconnected; no
channel has an empty set; the counters count the channels and the subscriptions. -/
theorem indexes_consistent {κ : Type} [DecidableEq κ] (steps : List (PubSubStep κ))
    (state : PubSub κ) (ran : PubSub.run steps {} = some state) :
    (∀ conn, state.inFlight conn = none → ∀ channel,
      (channel ∈ state.subscribedChannels conn ↔
        conn ∈ state.channelSubscribers.items channel)) ∧
    (∀ conn, state.inFlight conn = none → state.disconnected conn = true → ∀ channel,
      conn ∉ state.channelSubscribers.items channel) ∧
    (∀ (channel : Bytes) (subscribers : Finset κ),
      state.channelSubscribers[channel]? = some subscribers → subscribers ≠ ∅) ∧
    state.pubsubChannelCount = state.channelSubscribers.size ∧
    state.pubsubSubscriptionCount = state.channelSubscribers.total := by
  have consistent : Consistent state := Consistent.initial.run steps ran
  have agree (conn : κ) (idle : state.inFlight conn = none) (channel : Bytes) :
      channel ∈ state.subscribedChannels conn ↔
        conn ∈ state.channelSubscribers.items channel := by
    have settled := consistent.agree conn
    rw [idle] at settled
    exact settled.idle channel
  refine ⟨agree, fun conn idle told channel listed => ?_, consistent.filled,
    consistent.channelCount, consistent.subscriptionCount⟩
  have subscribed := (agree conn idle channel).mpr listed
  rw [PubSub.subscribedChannels, consistent.gone conn told] at subscribed
  simp at subscribed

/-- Two connections subscribe to one channel, the second inside the operation of the first, and the
second disconnects. -/
theorem indexes_consistent_two :
    ∃ state : PubSub Nat,
      PubSub.run [.message 0, .subscribe 0 [99], .message 1, .subscribe 1 [99], .proceed 1,
        .proceed 0, .disconnect 1, .proceed 1] {} = some state ∧
      0 ∈ state.channelSubscribers.items [99] ∧ 1 ∉ state.channelSubscribers.items [99] := by
  refine ⟨_, rfl, ?_⟩
  obtain ⟨agree, gone, -⟩ := indexes_consistent [.message 0, .subscribe 0 [99], .message 1,
    .subscribe 1 [99], .proceed 1, .proceed 0, .disconnect 1, .proceed 1] _ rfl
  exact ⟨(agree 0 rfl [99]).mp (by decide), gone 1 rfl rfl [99]⟩

end SunKV.Concurrency
