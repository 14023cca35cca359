/-
**The poller and the kernel.**

A `Channel` is what a loop knows of a file descriptor: the events it asks for, and in `index_` where
the `Poller` has put it. Every change of the events goes through `updateChannel`, which keeps a map
from descriptors to channels and tells the kernel by `epoll_ctl`; the kernel refuses to add a
descriptor that it has, and to change or forget one that it has not. Channels leave the poller by
`disableAll` and `remove`, always together.

`updateChannel` adds a channel that is not with the kernel whatever its events are. So `disableAll`
on a channel that has no events, as `connectDestroyed` calls it after `handleClose`, hands the
descriptor to the kernel again, with no events.

* `Registered` — the invariant: every channel is with the kernel exactly when its index says so, and
  with the events it asks for;
* `Registered.change`, `Registered.retire` — **no assertion fails and the kernel refuses nothing**,
  whatever the state of the channel;
* `poller_agrees` — so over every run of the channels of a loop;
* `callbacks_wanted` — an event that the kernel reports reaches a living channel, although the
  handlers of other events may run before, and its callbacks are ones that the channel asked for
  when it was reported.
-/

import SunKV.Lib.Machine
import SunKV.Network.TcpConnection

namespace SunKV.Network

open SunKV.Lib

/-! ### Events -/

/-- `EPOLLIN`. -/
def EPOLLIN : BitVec 32 := 0x001

/-- `EPOLLPRI`. -/
def EPOLLPRI : BitVec 32 := 0x002

/-- `EPOLLOUT`. -/
def EPOLLOUT : BitVec 32 := 0x004

/-- `EPOLLERR`. -/
def EPOLLERR : BitVec 32 := 0x008

/-- `EPOLLHUP`. -/
def EPOLLHUP : BitVec 32 := 0x010

/-- `EPOLLRDHUP`. -/
def EPOLLRDHUP : BitVec 32 := 0x2000

/-- `channelEventsToEpoll`. -/
def channelEventsToEpoll (events : Channel) : BitVec 32 :=
  (if events.reading then EPOLLIN ||| EPOLLPRI ||| EPOLLRDHUP else 0) |||
    if events.writing then EPOLLOUT else 0

/-- `Channel::revents_`. -/
structure Revents where
  error : Bool
  read : Bool
  write : Bool
  close : Bool

/-- `epollReventsToChannel`. -/
def epollReventsToChannel (ep : BitVec 32) : Revents where
  error := ep &&& EPOLLERR ≠ 0
  read := ep &&& (EPOLLIN ||| EPOLLPRI) ≠ 0
  write := ep &&& EPOLLOUT ≠ 0
  close := ep &&& (EPOLLHUP ||| EPOLLRDHUP) ≠ 0

/-- The callbacks of a channel. -/
inductive Callback
  | close
  | error
  | read
  | write
  deriving DecidableEq

/-- `handleEventWithGuard`: the callbacks it calls, in their order. -/
def handleEventWithGuard (revents : Revents) : List Callback :=
  (if revents.close && !revents.read then [.close] else []) ++
    (if revents.error then [.error] else []) ++
    (if revents.read then [.read] else []) ++
    if revents.write then [.write] else []

/-! ### Channels, the poller and the kernel -/

/-- `Channel::isNoneEvent`. -/
def Channel.isNoneEvent (events : Channel) : Bool := !events.reading && !events.writing

/-- `index_`. -/
inductive Index
  | kNew
  | kAdded
  | kDeleted
  deriving DecidableEq

/-- `class Channel`. -/
structure Polled where
  fd : Nat
  events : Channel := { reading := false, writing := false }
  index : Index := .kNew
  addedToLoop : Bool := false

/-- The operations of `epoll_ctl`. -/
inductive Operation
  | add
  | mod
  | del

/-- **The channels of a loop, its poller and the kernel.** `channels` are the channels that exist,
`byFd` is `Poller::channels_`, `interest` what the kernel has for the epoll instance; `refused`
counts the calls of `epoll_ctl` that have failed. -/
structure Poller (ι : Type) where
  channels : ι → Option Polled := fun _ => none
  byFd : Nat → Option ι := fun _ => none
  interest : Nat → Option (BitVec 32 × ι) := fun _ => none
  refused : Nat := 0

/-- What is done to the events of a channel. -/
inductive Change
  | enableReading
  | disableReading
  | enableWriting
  | disableWriting
  | disableAll

/-- The events after a change. -/
def Change.apply (events : Channel) : Change → Channel
  | .enableReading => { events with reading := true }
  | .disableReading => { events with reading := false }
  | .enableWriting => { events with writing := true }
  | .disableWriting => { events with writing := false }
  | .disableAll => { reading := false, writing := false }

namespace Poller

variable {ι : Type} [DecidableEq ι] (poller : Poller ι)

/-- `epoll_ctl`, which does nothing when it fails. -/
def epollCtl (operation : Operation) (fd : Nat) (event : BitVec 32 × ι) : Poller ι :=
  match operation, poller.interest fd with
  | .add, none => { poller with interest := Function.update poller.interest fd (some event) }
  | .mod, some _ => { poller with interest := Function.update poller.interest fd (some event) }
  | .del, some _ => { poller with interest := Function.update poller.interest fd none }
  | _, _ => { poller with refused := poller.refused + 1 }

/-- `Poller::update`. -/
def update (operation : Operation) (id : ι) (channel : Polled) : Poller ι :=
  poller.epollCtl operation channel.fd (channelEventsToEpoll channel.events, id)

/-- The channel becomes this one. -/
def setChannel (id : ι) (channel : Polled) : Poller ι :=
  { poller with channels := Function.update poller.channels id (some channel) }

/-- **`Poller::updateChannel`**, `none` where an assertion fails. -/
def updateChannel (id : ι) (channel : Polled) : Option (Poller ι) :=
  let added := { channel with index := .kAdded }
  match channel.index with
  | .kNew =>
    if poller.byFd channel.fd = none then
      some (({ poller with
        byFd := Function.update poller.byFd channel.fd (some id) }.setChannel id added).update
          .add id added)
    else none
  | .kDeleted =>
    if poller.byFd channel.fd = some id then
      some ((poller.setChannel id added).update .add id added)
    else none
  | .kAdded =>
    if poller.byFd channel.fd = some id then
      if channel.events.isNoneEvent then
        some ((poller.update .del id channel).setChannel id { channel with index := .kDeleted })
      else some ((poller.update .mod id channel).setChannel id channel)
    else none

/-- **`Poller::removeChannel`**, `none` where an assertion fails. -/
def removeChannel (id : ι) (channel : Polled) : Option (Poller ι) :=
  if poller.byFd channel.fd = some id ∧ channel.events.isNoneEvent ∧ channel.index ≠ .kNew then
    let erased := { poller with byFd := Function.update poller.byFd channel.fd none }
    let forgotten := if channel.index = .kAdded then erased.update .del id channel else erased
    some (forgotten.setChannel id { channel with index := .kNew })
  else none

/-- A change of the events, and `Channel::update`. -/
def change (id : ι) (change : Change) : Option (Poller ι) := do
  let channel ← poller.channels id
  poller.updateChannel id { channel with
    events := change.apply channel.events
    addedToLoop := true }

/-- `Channel::remove`. -/
def remove (id : ι) : Option (Poller ι) := do
  let channel ← poller.channels id
  if channel.events.isNoneEvent then
    poller.removeChannel id { channel with addedToLoop := false }
  else none

/-- `disableAll` and `remove`. -/
def retire (id : ι) : Option (Poller ι) := do
  let disabled ← poller.change id .disableAll
  disabled.remove id

/-- `Poller::hasChannel`. -/
def hasChannel (id : ι) (channel : Polled) : Bool := poller.byFd channel.fd = some id

/-- `Channel::~Channel` on the loop thread. -/
def destroy (id : ι) : Option (Poller ι) := do
  let channel ← poller.channels id
  if !channel.addedToLoop && !poller.hasChannel id channel then
    some { poller with channels := Function.update poller.channels id none }
  else none

end Poller

/-- What is done with the channels of a loop. -/
inductive PollerStep (ι : Type)
  | create (id : ι) (fd : Nat)
  | change (id : ι) (change : Change)
  | retire (id : ι)
  | destroy (id : ι)

section Steps

variable {ι : Type} [DecidableEq ι]

/-- One step. -/
def Poller.step (poller : Poller ι) : PollerStep ι → Option (Poller ι)
  | .create id fd => some (poller.setChannel id { fd := fd })
  | .change id change => poller.change id change
  | .retire id => poller.retire id
  | .destroy id => poller.destroy id

/-- **How channels are used**: a new one has a descriptor that no other channel has; the others
exist; and a channel is destroyed after it was retired, never while its event is handled, which is
what the assertion on `eventHandling_` in `~Channel` asks for. -/
def Poller.Allows (poller : Poller ι) : PollerStep ι → Prop
  | .create id fd => poller.channels id = none ∧
      ∀ other channel, poller.channels other = some channel → channel.fd ≠ fd
  | .change id _ => (poller.channels id).isSome = true
  | .retire id => (poller.channels id).isSome = true
  | .destroy id => ∃ channel, poller.channels id = some channel ∧ channel.index = .kNew

/-! ### The invariant -/

/-- What `Poller::channels_` has at the descriptor of a channel. -/
def Polled.mapping (channel : Polled) (id : ι) : Option ι :=
  if channel.index = .kNew then none else some id

/-- What the kernel has at the descriptor of a channel. -/
def Polled.watching (channel : Polled) (id : ι) : Option (BitVec 32 × ι) :=
  if channel.index = .kAdded then some (channelEventsToEpoll channel.events, id) else none

/-- A channel asks for events only where the kernel has it. -/
structure Polled.Fair (channel : Polled) : Prop where
  asking : channel.index ≠ .kAdded → channel.events.isNoneEvent = true
  added : channel.addedToLoop = decide (channel.index ≠ .kNew)

/-- A channel is where its index says. -/
structure InPlace (poller : Poller ι) (id : ι) (channel : Polled) : Prop extends channel.Fair where
  mapped : poller.byFd channel.fd = channel.mapping id
  watched : poller.interest channel.fd = channel.watching id

/-- **The poller and the kernel know of the channels what their indexes say**, and of nothing
else. -/
structure Registered (poller : Poller ι) : Prop where
  placed : ∀ {id channel}, poller.channels id = some channel → InPlace poller id channel
  apart : ∀ {id other channel channel'}, poller.channels id = some channel →
    poller.channels other = some channel' → channel.fd = channel'.fd → id = other
  known : ∀ {fd id}, poller.byFd fd = some id →
    ∃ channel, poller.channels id = some channel ∧ channel.fd = fd
  reported : ∀ {fd event id}, poller.interest fd = some (event, id) →
    ∃ channel, poller.channels id = some channel ∧ channel.fd = fd
  accepted : poller.refused = 0

omit [DecidableEq ι] in
theorem registered_new : Registered ({} : Poller ι) :=
  ⟨nofun, nofun, nofun, nofun, rfl⟩

/-- The channel becomes this one, and the poller and the kernel know of it what its index says. -/
def Poller.settle (poller : Poller ι) (id : ι) (channel : Polled) : Poller ι where
  channels := Function.update poller.channels id (some channel)
  byFd := Function.update poller.byFd channel.fd (channel.mapping id)
  interest := Function.update poller.interest channel.fd (channel.watching id)
  refused := poller.refused

/-- The channels stay, with their descriptors. -/
def Poller.Stays (poller next : Poller ι) : Prop :=
  ∀ id channel, poller.channels id = some channel →
    ∃ channel', next.channels id = some channel' ∧ channel'.fd = channel.fd

variable {poller next : Poller ι} {id : ι} {before channel : Polled}

omit [DecidableEq ι] in
theorem Poller.Stays.trans {last : Poller ι} (first : poller.Stays next)
    (second : next.Stays last) : poller.Stays last := by
  intro id channel found
  obtain ⟨channel', found', same⟩ := first id channel found
  obtain ⟨channel'', found'', same'⟩ := second id channel' found'
  exact ⟨channel'', found'', same'.trans same⟩

theorem stays_settle (found : poller.channels id = some before) (same : channel.fd = before.fd) :
    poller.Stays (poller.settle id channel) := by
  intro other channel' found'
  simp only [Poller.settle, Function.update_apply]
  split
  case isTrue here =>
    subst here
    cases found.symm.trans found'
    exact ⟨channel, rfl, same⟩
  case isFalse => exact ⟨channel', found', rfl⟩

omit [DecidableEq ι] in
theorem mapping_eq_some {other : ι} (mapped : channel.mapping id = some other) : other = id := by
  unfold Polled.mapping at mapped
  split at mapped
  · cases mapped
  · exact (Option.some.inj mapped).symm

omit [DecidableEq ι] in
theorem watching_eq_some {event : BitVec 32} {other : ι}
    (watched : channel.watching id = some (event, other)) :
    other = id ∧ event = channelEventsToEpoll channel.events ∧ channel.index = .kAdded := by
  unfold Polled.watching at watched
  split at watched
  case isTrue added =>
    cases watched
    exact ⟨rfl, rfl, added⟩
  case isFalse => cases watched

/-- **Settling a channel keeps the invariant**: no other channel has its descriptor, and it keeps
its own. -/
theorem Registered.settle (registered : Registered poller) (fair : channel.Fair)
    (alone : ∀ {other channel'}, poller.channels other = some channel' →
      (channel'.fd = channel.fd ↔ other = id)) :
    Registered (poller.settle id channel) where
  placed {other channel'} found := by
    by_cases here : other = id
    · subst here
      obtain rfl : channel = channel' := by
        simpa only [Poller.settle, Function.update_self, Option.some.injEq] using found
      exact ⟨fair, Function.update_self .., Function.update_self ..⟩
    · simp only [Poller.settle, Function.update_of_ne here] at found
      have elsewhere : channel'.fd ≠ channel.fd := fun same => here ((alone found).mp same)
      have placed := registered.placed found
      exact ⟨placed.toFair, (Function.update_of_ne elsewhere ..).trans placed.mapped,
        (Function.update_of_ne elsewhere ..).trans placed.watched⟩
  apart {first second channel₁ channel₂} found found' same := by
    simp only [Poller.settle, Function.update_apply] at found found'
    split at found
    case isTrue here =>
      cases found
      split at found'
      case isTrue there => exact here.trans there.symm
      case isFalse => exact here.trans ((alone found').mp same.symm).symm
    case isFalse =>
      split at found'
      case isTrue there =>
        cases found'
        exact ((alone found).mp same).trans there.symm
      case isFalse => exact registered.apart found found' same
  known {fd other} mapped := by
    simp only [Poller.settle, Function.update_apply] at mapped ⊢
    split at mapped
    case isTrue here =>
      obtain rfl : other = id := mapping_eq_some mapped
      exact ⟨channel, if_pos rfl, here.symm⟩
    case isFalse elsewhere =>
      obtain ⟨channel', found, rfl⟩ := registered.known mapped
      exact ⟨channel', by rw [if_neg fun here => elsewhere ((alone found).mpr here), found], rfl⟩
  reported {fd event other} watched := by
    simp only [Poller.settle, Function.update_apply] at watched ⊢
    split at watched
    case isTrue here =>
      obtain ⟨rfl, -⟩ := watching_eq_some watched
      exact ⟨channel, if_pos rfl, here.symm⟩
    case isFalse elsewhere =>
      obtain ⟨channel', found, rfl⟩ := registered.reported watched
      exact ⟨channel', by rw [if_neg fun here => elsewhere ((alone found).mpr here), found], rfl⟩
  accepted := registered.accepted

omit [DecidableEq ι] in
theorem epollCtl_add {fd : Nat} (event : BitVec 32 × ι) (absent : poller.interest fd = none) :
    poller.epollCtl .add fd event =
      { poller with interest := Function.update poller.interest fd (some event) } := by
  simp only [Poller.epollCtl, absent]

omit [DecidableEq ι] in
theorem epollCtl_mod {fd : Nat} {old : BitVec 32 × ι} (event : BitVec 32 × ι)
    (present : poller.interest fd = some old) :
    poller.epollCtl .mod fd event =
      { poller with interest := Function.update poller.interest fd (some event) } := by
  simp only [Poller.epollCtl, present]

omit [DecidableEq ι] in
theorem epollCtl_del {fd : Nat} {old : BitVec 32 × ι} (event : BitVec 32 × ι)
    (present : poller.interest fd = some old) :
    poller.epollCtl .del fd event =
      { poller with interest := Function.update poller.interest fd none } := by
  simp only [Poller.epollCtl, present]

/-- Where the map does not change. -/
theorem settle_mapped (mapped : poller.byFd channel.fd = channel.mapping id) :
    poller.settle id channel = { poller with
      channels := Function.update poller.channels id (some channel)
      interest := Function.update poller.interest channel.fd (channel.watching id) } := by
  rw [Poller.settle, ← mapped, Function.update_eq_self]

/-- Where the kernel's interest does not change. -/
theorem settle_watched (watched : poller.interest channel.fd = channel.watching id) :
    poller.settle id channel = { poller with
      channels := Function.update poller.channels id (some channel)
      byFd := Function.update poller.byFd channel.fd (channel.mapping id) } := by
  rw [Poller.settle, ← watched, Function.update_eq_self]

/-- The channel that `updateChannel` leaves. -/
def Polled.updated (channel : Polled) : Polled :=
  { channel with
    index := if channel.index = .kAdded ∧ channel.events.isNoneEvent then .kDeleted else .kAdded }

/-- **`updateChannel` settles the channel**, and its assertions hold. -/
theorem updateChannel_eq (placed : InPlace poller id before) (events : Channel) :
    poller.updateChannel id { before with events := events, addedToLoop := true } =
      some (poller.settle id
        ({ before with events := events, addedToLoop := true } : Polled).updated) := by
  obtain ⟨-, mapped, watched⟩ := placed
  obtain ⟨fd, old, index, addedToLoop⟩ := before
  cases index with
  | kNew =>
    have mapped : poller.byFd fd = none := mapped
    have watched : poller.interest fd = none := watched
    simp only [Poller.updateChannel, if_pos mapped]
    rw [Poller.update, epollCtl_add]
    · rfl
    · exact watched
  | kDeleted =>
    have mapped : poller.byFd fd = some id := mapped
    have watched : poller.interest fd = none := watched
    simp only [Poller.updateChannel, if_pos mapped]
    rw [Poller.update, epollCtl_add]
    · exact congrArg some (settle_mapped mapped).symm
    · exact watched
  | kAdded =>
    have mapped : poller.byFd fd = some id := mapped
    have watched : poller.interest fd = some (channelEventsToEpoll old, id) := watched
    simp only [Poller.updateChannel, if_pos mapped, Polled.updated, true_and]
    split
    case isTrue nothing =>
      rw [Poller.update, epollCtl_del _ watched, settle_mapped]
      · rfl
      · exact mapped
    case isFalse something =>
      rw [Poller.update, epollCtl_mod _ watched, settle_mapped]
      · rfl
      · exact mapped

/-- **`removeChannel` settles the channel**, and its assertions hold. -/
theorem removeChannel_eq (placed : InPlace poller id before) (known : before.index ≠ .kNew)
    (nothing : before.events.isNoneEvent = true) :
    poller.removeChannel id { before with addedToLoop := false } =
      some (poller.settle id { before with addedToLoop := false, index := .kNew }) := by
  obtain ⟨-, mapped, watched⟩ := placed
  rw [Polled.mapping, if_neg known] at mapped
  simp only [Poller.removeChannel]
  rw [if_pos ⟨mapped, nothing, known⟩]
  congr 1
  split
  case isTrue added =>
    rw [Polled.watching, if_pos added] at watched
    rw [Poller.update, epollCtl_del]
    · rfl
    · exact watched
  case isFalse deleted =>
    rw [Polled.watching, if_neg deleted] at watched
    rw [settle_watched watched]
    rfl

omit [DecidableEq ι] in
theorem Registered.alone (registered : Registered poller) (found : poller.channels id = some before)
    {other : ι} {channel' : Polled} (found' : poller.channels other = some channel') :
    channel'.fd = before.fd ↔ other = id := by
  constructor
  · exact registered.apart found' found
  · rintro rfl
    cases found.symm.trans found'
    rfl

/-- **A change of the events** passes its assertions, and the kernel refuses nothing. -/
theorem Registered.change (registered : Registered poller)
    (found : poller.channels id = some before) (change : Change) :
    ∃ next after, poller.change id change = some next ∧ Registered next ∧ poller.Stays next ∧
      next.channels id = some after ∧ after.events = change.apply before.events ∧
      after.index ≠ .kNew := by
  have updated := updateChannel_eq (registered.placed found) (change.apply before.events)
  have known : ({ before with events := change.apply before.events, addedToLoop := true } :
      Polled).updated.index ≠ .kNew := by
    simp only [Polled.updated]
    split <;> decide
  have fair : ({ before with events := change.apply before.events, addedToLoop := true } :
      Polled).updated.Fair := by
    refine ⟨?_, (decide_eq_true known).symm⟩
    simp only [Polled.updated]
    split
    case isTrue both => exact fun _ => both.2
    case isFalse => exact fun never => absurd rfl never
  refine ⟨_, _, ?_, registered.settle fair (registered.alone found), stays_settle found rfl,
    Function.update_self .., rfl, known⟩
  rw [Poller.change, found]
  exact updated

/-- **Retiring a channel** passes its assertions, whatever the channel was, and the kernel refuses
nothing. -/
theorem Registered.retire (registered : Registered poller)
    (found : poller.channels id = some before) :
    ∃ next, poller.retire id = some next ∧ Registered next ∧ poller.Stays next := by
  obtain ⟨middle, after, disabled, registered', stays, found', events, known⟩ :=
    registered.change found .disableAll
  have nothing : after.events.isNoneEvent = true := by
    rw [events]
    rfl
  have gone : ({ after with addedToLoop := false, index := .kNew } : Polled).Fair :=
    ⟨fun _ => nothing, rfl⟩
  refine ⟨_, ?_, registered'.settle gone (registered'.alone found'),
    stays.trans (stays_settle found' rfl)⟩
  rw [Poller.retire, disabled]
  show middle.remove id = _
  rw [Poller.remove, found']
  show (if after.events.isNoneEvent then _ else none) = _
  rw [if_pos nothing]
  exact removeChannel_eq (registered'.placed found') known nothing

/-- A new channel is known to nobody. -/
theorem Registered.create (registered : Registered poller) {fd : Nat}
    (allows : poller.Allows (.create id fd)) : Registered (poller.setChannel id { fd := fd }) := by
  obtain ⟨free, unused⟩ := allows
  have unmapped : poller.byFd fd = none := by
    refine Option.eq_none_iff_forall_ne_some.mpr fun other mapped => ?_
    obtain ⟨channel, found, same⟩ := registered.known mapped
    exact unused other channel found same
  have unwatched : poller.interest fd = none := by
    refine Option.eq_none_iff_forall_ne_some.mpr fun ⟨event, other⟩ watched => ?_
    obtain ⟨channel, found, same⟩ := registered.reported watched
    exact unused other channel found same
  have settled : poller.settle id { fd := fd } = poller.setChannel id { fd := fd } := by
    rw [settle_mapped unmapped, show Polled.watching { fd := fd } id = none from rfl, ← unwatched,
      Function.update_eq_self]
    rfl
  rw [← settled]
  refine registered.settle ⟨fun _ => rfl, rfl⟩ fun found => ?_
  refine iff_of_false (unused _ _ found) ?_
  rintro rfl
  rw [free] at found
  cases found

/-- A channel that was retired can go. -/
theorem Registered.destroy (registered : Registered poller)
    (found : poller.channels id = some before) (retired : before.index = .kNew) :
    ∃ next, poller.destroy id = some next ∧ Registered next := by
  have placed := registered.placed found
  have mapped : poller.byFd before.fd = none := by
    rw [placed.mapped, Polled.mapping, if_pos retired]
  have watched : poller.interest before.fd = none := by
    rw [placed.watched, Polled.watching, if_neg (by rw [retired]; decide)]
  have still {other : ι} {channel : Polled}
      (found' : Function.update poller.channels id none other = some channel) :
      poller.channels other = some channel ∧ other ≠ id := by
    rw [Function.update_apply] at found'
    split at found'
    · cases found'
    case isFalse apart => exact ⟨found', apart⟩
  have stays {other : ι} {channel : Polled} (found' : poller.channels other = some channel)
      (apart : other ≠ id) : Function.update poller.channels id none other = some channel := by
    rw [Function.update_of_ne apart, found']
  refine ⟨{ poller with channels := Function.update poller.channels id none }, ?_,
    ⟨fun found' => ?_, fun found' found'' same => ?_, fun {fd other} mapped' => ?_,
      fun {fd event other} watched' => ?_, registered.accepted⟩⟩
  · rw [Poller.destroy, found]
    show (if _ then _ else none) = _
    rw [if_pos]
    rw [placed.added, retired, Poller.hasChannel, mapped]
    rfl
  · obtain ⟨old, -⟩ := still found'
    have placed := registered.placed old
    exact ⟨placed.toFair, placed.mapped, placed.watched⟩
  · exact registered.apart (still found').1 (still found'').1 same
  · obtain ⟨channel, found', rfl⟩ := registered.known mapped'
    refine ⟨channel, stays found' ?_, rfl⟩
    rintro rfl
    cases found.symm.trans found'
    rw [mapped] at mapped'
    cases mapped'
  · obtain ⟨channel, found', rfl⟩ := registered.reported watched'
    refine ⟨channel, stays found' ?_, rfl⟩
    rintro rfl
    cases found.symm.trans found'
    rw [watched] at watched'
    cases watched'

/-- **Every step that the loop takes is possible, and keeps the invariant.** -/
theorem Registered.step (registered : Registered poller) {action : PollerStep ι}
    (allows : poller.Allows action) :
    ∃ next, poller.step action = some next ∧ Registered next := by
  cases action with
  | create id fd => exact ⟨_, rfl, registered.create allows⟩
  | change id change =>
    obtain ⟨before, found⟩ := Option.isSome_iff_exists.mp allows
    obtain ⟨next, _, changed, registered', -⟩ := registered.change found change
    exact ⟨next, changed, registered'⟩
  | retire id =>
    obtain ⟨before, found⟩ := Option.isSome_iff_exists.mp allows
    obtain ⟨next, retired, registered', -⟩ := registered.retire found
    exact ⟨next, retired, registered'⟩
  | destroy id =>
    obtain ⟨before, found, retired⟩ := allows
    exact registered.destroy found retired

/-- **A channel lives until it is destroyed.** -/
theorem Registered.living (registered : Registered poller) {action : PollerStep ι}
    (allows : poller.Allows action) (spared : action ≠ .destroy id)
    (taken : poller.step action = some next) (found : poller.channels id = some channel) :
    ∃ channel', next.channels id = some channel' ∧ channel'.fd = channel.fd := by
  cases action with
  | create other fd =>
    cases taken
    have apart : id ≠ other := by
      rintro rfl
      rw [allows.1] at found
      cases found
    exact ⟨channel, (Function.update_of_ne apart ..).trans found, rfl⟩
  | change other change =>
    obtain ⟨before, held⟩ := Option.isSome_iff_exists.mp allows
    obtain ⟨_, _, changed, -, stays, -⟩ := registered.change held change
    cases taken.symm.trans changed
    exact stays id channel found
  | retire other =>
    obtain ⟨before, held⟩ := Option.isSome_iff_exists.mp allows
    obtain ⟨_, retired, -, stays⟩ := registered.retire held
    cases taken.symm.trans retired
    exact stays id channel found
  | destroy other =>
    have apart : id ≠ other := by
      rintro rfl
      exact spared rfl
    obtain ⟨_, -, taken⟩ := Option.bind_eq_some_iff.mp taken
    obtain ⟨-, ⟨⟩⟩ := Option.ite_none_right_eq_some.mp taken
    exact ⟨channel, (Function.update_of_ne apart ..).trans found, rfl⟩

/-- So it does over a run: by induction on the steps. -/
theorem Registered.lives (registered : Registered poller) {steps : List (PollerStep ι)}
    (allowed : Machine.Throughout Poller.step
      (fun poller action => poller.Allows action ∧ action ≠ .destroy id) steps poller)
    (found : poller.channels id = some channel) :
    ∃ last channel', Machine.run Poller.step steps poller = some last ∧
      last.channels id = some channel' ∧ channel'.fd = channel.fd := by
  induction steps generalizing poller channel with
  | nil => exact ⟨poller, channel, rfl, found, rfl⟩
  | cons action steps ih =>
    obtain ⟨⟨allows, spared⟩, later⟩ := allowed
    obtain ⟨next, taken, registered'⟩ := registered.step allows
    obtain ⟨channel', found', same⟩ := registered.living allows spared taken found
    obtain ⟨last, channel'', ran, found'', same'⟩ := ih registered' (later next taken) found'
    exact ⟨last, channel'', Option.bind_eq_some_iff.mpr ⟨next, taken, ran⟩, found'',
      same'.trans same⟩

/-! ### What the kernel reports -/

/-- The kernel may report these events of a descriptor: it reports those that were asked for, and
errors and hangups always. -/
def Poller.Reports (poller : Poller ι) (fd : Nat) (ep : BitVec 32) (id : ι) : Prop :=
  ∃ asked, poller.interest fd = some (asked, id) ∧
    ep &&& ~~~(asked ||| EPOLLERR ||| EPOLLHUP) = 0

/-- Bits that were not asked for are not reported. -/
theorem and_eq_zero_of_unasked {ep asked other : BitVec 32} (within : ep &&& ~~~asked = 0#32)
    (unasked : other &&& asked = 0#32) : ep &&& other = 0#32 := by
  apply BitVec.eq_of_getElem_eq
  intro index small
  have reported : (ep &&& ~~~asked)[index] = (0#32)[index] := by rw [within]
  have disjoint : (other &&& asked)[index] = (0#32)[index] := by rw [unasked]
  rw [BitVec.getElem_and, BitVec.getElem_not, BitVec.getElem_zero] at reported
  rw [BitVec.getElem_and, BitVec.getElem_zero] at disjoint
  rw [BitVec.getElem_and, BitVec.getElem_zero]
  cases asks : asked[index] with
  | true =>
    rw [asks, Bool.and_true] at disjoint
    rw [disjoint, Bool.and_false]
  | false =>
    rw [asks, Bool.not_false, Bool.and_true] at reported
    rw [reported, Bool.false_and]

/-- The callbacks are those of the events that the channel asks for, and of errors and hangups. -/
theorem callbacks_of_asked {events : Channel} {ep : BitVec 32}
    (within : ep &&& ~~~(channelEventsToEpoll events ||| EPOLLERR ||| EPOLLHUP) = 0) :
    (.read ∈ handleEventWithGuard (epollReventsToChannel ep) → events.reading = true) ∧
      (.write ∈ handleEventWithGuard (epollReventsToChannel ep) → events.writing = true) := by
  obtain ⟨reading, writing⟩ := events
  constructor
  · intro called
    cases reading with
    | true => rfl
    | false =>
      have silent : ep &&& (EPOLLIN ||| EPOLLPRI) = 0 :=
        and_eq_zero_of_unasked within (by cases writing <;> decide)
      simp [handleEventWithGuard, epollReventsToChannel, silent] at called
  · intro called
    cases writing with
    | true => rfl
    | false =>
      have silent : ep &&& EPOLLOUT = 0 :=
        and_eq_zero_of_unasked within (by cases reading <;> decide)
      simp [handleEventWithGuard, epollReventsToChannel, silent] at called

/-! ### Whole runs -/

/-- **The poller, the kernel and the channels agree.** Over every run of the channels of a loop no
assertion fails and the kernel refuses nothing; at its end the kernel has exactly the channels with
index `kAdded`, with the events they ask for, and a channel that asks for something is one of
them. -/
theorem poller_agrees (steps : List (PollerStep ι))
    (allowed : Machine.Throughout Poller.step Poller.Allows steps {}) :
    ∃ poller, Machine.run Poller.step steps {} = some poller ∧ poller.refused = 0 ∧
      (∀ fd event id, poller.interest fd = some (event, id) ↔
        ∃ channel, poller.channels id = some channel ∧ channel.fd = fd ∧
          channel.index = .kAdded ∧ event = channelEventsToEpoll channel.events) ∧
      ∀ id channel, poller.channels id = some channel → channel.events.isNoneEvent = false →
        channel.index = .kAdded := by
  obtain ⟨poller, ran, registered⟩ := allowed.progress
    (fun registered allows => registered.step allows) registered_new
  refine ⟨poller, ran, registered.accepted, fun fd event id => ⟨fun watched => ?_, ?_⟩,
    fun id channel found asks => ?_⟩
  · obtain ⟨channel, found, rfl⟩ := registered.reported watched
    rw [(registered.placed found).watched] at watched
    obtain ⟨-, asked, added⟩ := watching_eq_some watched
    exact ⟨channel, found, rfl, added, asked⟩
  · rintro ⟨channel, found, rfl, added, rfl⟩
    rw [(registered.placed found).watched, Polled.watching, if_pos added]
  · by_contra missing
    rw [(registered.placed found).asking missing] at asks
    cases asks

/-- **An event reaches a living channel that wanted it.** Whatever the kernel reports after a run,
the pointer in the event is that of a channel that exists and has this descriptor, and asks for
reading or writing if a callback for it will be called. The loop collects such events in a batch:
the channel is still there when the handlers of the events before it have made their changes. -/
theorem callbacks_wanted (steps : List (PollerStep ι))
    (allowed : Machine.Throughout Poller.step Poller.Allows steps {}) (poller : Poller ι)
    (ran : Machine.run Poller.step steps {} = some poller) (fd : Nat) (ep : BitVec 32) (id : ι)
    (reports : poller.Reports fd ep id) (between : List (PollerStep ι))
    (handled : Machine.Throughout Poller.step
      (fun poller action => poller.Allows action ∧ action ≠ .destroy id) between poller) :
    ∃ asking later channel, poller.channels id = some asking ∧ asking.fd = fd ∧
      (.read ∈ handleEventWithGuard (epollReventsToChannel ep) → asking.events.reading = true) ∧
      (.write ∈ handleEventWithGuard (epollReventsToChannel ep) →
        asking.events.writing = true) ∧
      Machine.run Poller.step between poller = some later ∧
      later.channels id = some channel ∧ channel.fd = fd := by
  obtain ⟨last, ran', registered⟩ := allowed.progress
    (fun registered allows => registered.step allows) registered_new
  obtain rfl : last = poller := Option.some.inj (ran'.symm.trans ran)
  obtain ⟨asked, watched, within⟩ := reports
  obtain ⟨asking, found, rfl⟩ := registered.reported watched
  rw [(registered.placed found).watched] at watched
  obtain ⟨-, rfl, -⟩ := watching_eq_some watched
  obtain ⟨read, write⟩ := callbacks_of_asked within
  obtain ⟨later, channel, changed, lives, same⟩ := registered.lives handled found
  exact ⟨asking, later, channel, found, rfl, read, write, changed, lives, same⟩

end Steps

/-- A connection that is closed by its peer: `handleClose`, and later `connectDestroyed`. -/
def closedByPeer : List (PollerStep Bool) :=
  [.create true 7, .change true .enableReading, .change true .disableAll, .retire true,
    .destroy true]

theorem allows_closedByPeer : Machine.Throughout Poller.step Poller.Allows closedByPeer {} := by
  refine ⟨⟨rfl, nofun⟩, fun next taken => ?_⟩
  cases taken
  refine ⟨rfl, fun next taken => ?_⟩
  cases taken
  refine ⟨rfl, fun next taken => ?_⟩
  cases taken
  refine ⟨rfl, fun next taken => ?_⟩
  cases taken
  exact ⟨⟨_, rfl, rfl⟩, fun _ _ => trivial⟩

theorem poller_agrees_closedByPeer :
    ∃ poller, Machine.run Poller.step closedByPeer {} = some poller ∧ poller.refused = 0 := by
  obtain ⟨poller, ran, accepted, -⟩ := poller_agrees closedByPeer allows_closedByPeer
  exact ⟨poller, ran, accepted⟩

/-- Two connections that are open. -/
def opened : List (PollerStep Bool) :=
  [.create true 7, .change true .enableReading, .create false 8, .change false .enableReading]

/-- The peer of the first has sent something; before this is handled, a handler closes the
connection. -/
theorem callbacks_wanted_closed :
    ∃ poller asking later channel, Machine.run Poller.step opened {} = some poller ∧
      poller.channels true = some asking ∧ asking.events.reading = true ∧
      Machine.run Poller.step [.change true .disableAll] poller = some later ∧
      later.channels true = some channel ∧ channel.fd = 7 := by
  have allowed : Machine.Throughout Poller.step Poller.Allows opened {} := by
    refine ⟨⟨rfl, nofun⟩, fun next taken => ?_⟩
    cases taken
    refine ⟨rfl, fun next taken => ?_⟩
    cases taken
    refine ⟨⟨rfl, ?_⟩, fun next taken => ?_⟩
    · rintro (_ | _) channel ⟨⟩
      decide
    cases taken
    exact ⟨rfl, fun _ _ => trivial⟩
  have ran : ∃ poller, Machine.run Poller.step opened {} = some poller ∧
      poller.Reports 7 EPOLLIN true ∧ (poller.channels true).isSome = true :=
    ⟨_, rfl, ⟨_, rfl, by decide⟩, rfl⟩
  obtain ⟨poller, ran, reports, lives⟩ := ran
  obtain ⟨asking, later, channel, found, -, read, -, rest⟩ :=
    callbacks_wanted opened allowed poller ran 7 EPOLLIN true reports [.change true .disableAll]
      ⟨⟨lives, nofun⟩, fun _ _ => trivial⟩
  exact ⟨poller, asking, later, channel, ran, found, read (by decide), rest⟩

end SunKV.Network
