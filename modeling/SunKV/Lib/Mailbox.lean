/-
**From one sender to one receiver.**

A sender decides to send a message (`address`), and then hands it to the receiver itself or posts it
in a queue, if the receiver still listens at that time; the receiver takes the messages from the
queue one by one, until it is gone. A message may be lost when it is handed over or taken.

`Orderly` — **the receiver has got messages that were addressed to it, in order and each once**; as
long as none was lost they are a beginning of them, and while it listens all but those in the queue
or on their way. `Orderly.step` — every step keeps this.
-/

import Mathlib.Data.List.Basic

namespace SunKV.Lib

/-- Where a receiver is in its life. -/
inductive Life
  | unborn
  | listening
  | leaving
  | gone
  deriving DecidableEq

/-- **What is on its way from a sender to a receiver**, and what was addressed to it in all. `lossy`
says that something was lost. -/
structure Mailbox (μ : Type) where
  life : Life := .unborn
  lossy : Bool := false
  sent : List μ := []
  queued : List μ := []
  flying : Option μ := none
  addressed : List μ := []

/-- The steps: a message is addressed, handed over, posted or discarded; the first message of the
queue is taken or dropped; the receiver begins to listen, leaves and is gone. What is handed over or
taken may be lost. -/
inductive MailStep (μ : Type)
  | address (message : μ)
  | direct (lost : Bool)
  | post
  | discard
  | take (lost : Bool)
  | drop
  | listen
  | leave
  | vanish

namespace Mailbox

variable {μ : Type}

/-- **One step**, `none` where it is not possible. Only what is not queued can be handed over. -/
def step (box : Mailbox μ) : MailStep μ → Option (Mailbox μ)
  | .address message =>
    if box.life = .listening ∧ box.flying = none then
      some { box with flying := some message, addressed := box.addressed ++ [message] }
    else none
  | .direct lost =>
    if box.life = .listening ∧ box.queued = [] then
      box.flying.map fun message => { box with
        flying := none
        sent := if lost then box.sent else box.sent ++ [message]
        lossy := box.lossy || lost }
    else none
  | .post =>
    if box.life = .listening then
      box.flying.map fun message => { box with flying := none, queued := box.queued ++ [message] }
    else none
  | .discard => if box.life = .listening then none else some { box with flying := none }
  | .take lost =>
    match box.queued with
    | [] => none
    | message :: rest =>
      if box.life = .gone then none
      else some { box with
        sent := if lost then box.sent else box.sent ++ [message]
        queued := rest
        lossy := box.lossy || lost }
  | .drop =>
    if box.life = .gone then some { box with queued := box.queued.tail } else none
  | .listen => if box.life = .unborn then some { box with life := .listening } else none
  | .leave => if box.life = .listening then some { box with life := .leaving } else none
  | .vanish => if box.life = .unborn then none else some { box with life := .gone }

/-- What was sent, is queued and is on its way. -/
def through (box : Mailbox μ) : List μ := box.sent ++ box.queued ++ box.flying.toList

/-- **The invariant.** -/
structure Orderly (box : Mailbox μ) : Prop where
  unborn : box.life = .unborn → box = {}
  order : List.Sublist box.through box.addressed
  whole : box.lossy = false → box.life = .listening → box.through = box.addressed
  queued : box.lossy = false → box.life ≠ .gone → box.sent ++ box.queued <+: box.addressed
  sent : box.lossy = false → box.sent <+: box.addressed

theorem orderly_new : Orderly ({} : Mailbox μ) :=
  ⟨fun _ => rfl, List.nil_sublist _, nofun, fun _ _ => List.prefix_rfl, fun _ => List.prefix_rfl⟩

theorem Orderly.sent_sublist {box : Mailbox μ} (orderly : Orderly box) :
    List.Sublist box.sent box.addressed := by
  refine List.Sublist.trans ?_ orderly.order
  rw [Mailbox.through, List.append_assoc]
  exact List.sublist_append_left _ _

/-- A receiver that listens: the rest follows from the whole. -/
theorem orderly_of_listening {box : Mailbox μ} (listening : box.life = .listening)
    (order : List.Sublist box.through box.addressed)
    (whole : box.lossy = false → box.through = box.addressed) : Orderly box where
  unborn born := by rw [listening] at born; cases born
  order := order
  whole sound _ := whole sound
  queued sound _ := ⟨_, whole sound⟩
  sent sound := ⟨box.queued ++ box.flying.toList, by
    rw [← List.append_assoc]
    exact whole sound⟩

/-- A receiver that listens gets a message, or it is lost. -/
theorem Orderly.receive {box next : Mailbox μ} (orderly : Orderly box) (lost : Bool)
    (listening : next.life = .listening) (before : box.life = .listening)
    (addressed : next.addressed = box.addressed) (lossy : next.lossy = (box.lossy || lost))
    (fewer : List.Sublist next.through box.through)
    (same : lost = false → next.through = box.through) : Orderly next := by
  refine orderly_of_listening listening ?_ fun sound => ?_
  · rw [addressed]
    exact fewer.trans orderly.order
  · rw [lossy, Bool.or_eq_false_iff] at sound
    rw [same sound.2, addressed]
    exact orderly.whole sound.1 before

/-- The receiver takes the first message of the queue, or it is lost. -/
theorem Orderly.take {box : Mailbox μ} (orderly : Orderly box) (lost : Bool) {message : μ}
    {rest : List μ} (waiting : box.queued = message :: rest) (present : box.life ≠ .gone) :
    Orderly { box with
      sent := if lost then box.sent else box.sent ++ [message]
      queued := rest
      lossy := box.lossy || lost } := by
  have moved : box.sent ++ [message] ++ rest = box.sent ++ box.queued := by
    rw [waiting, List.append_assoc, List.singleton_append]
  have through : Mailbox.through box = box.sent ++ [message] ++ rest ++ box.flying.toList := by
    rw [Mailbox.through, moved]
  refine ⟨fun born => ?_, ?_, fun sound listening => ?_, fun sound _ => ?_, fun sound => ?_⟩
  · rw [orderly.unborn born] at waiting
    cases waiting
  · refine List.Sublist.trans ?_ orderly.order
    rw [through]
    cases lost <;> simp [Mailbox.through]
  all_goals obtain ⟨intact, rfl⟩ := Bool.or_eq_false_iff.mp sound
  · exact through.symm.trans (orderly.whole intact listening)
  · exact moved ▸ orderly.queued intact present
  · exact (List.prefix_append _ rest).trans (moved ▸ orderly.queued intact present)

/-- **Every step keeps the invariant.** -/
theorem Orderly.step {box next : Mailbox μ} (orderly : Orderly box) {action : MailStep μ}
    (taken : box.step action = some next) : Orderly next := by
  cases action with
  | address message =>
    obtain ⟨⟨listening, free⟩, ⟨⟩⟩ := Option.ite_none_right_eq_some.mp taken
    have through : box.through = box.sent ++ box.queued := by simp [Mailbox.through, free]
    refine orderly_of_listening listening ?_ fun sound => ?_
    · show List.Sublist (box.sent ++ box.queued ++ [message]) (box.addressed ++ [message])
      rw [← through]
      exact orderly.order.append_right [message]
    · show box.sent ++ box.queued ++ [message] = box.addressed ++ [message]
      rw [← through, orderly.whole sound listening]
  | direct lost =>
    obtain ⟨⟨listening, empty⟩, taken⟩ := Option.ite_none_right_eq_some.mp taken
    obtain ⟨message, flying, rfl⟩ := Option.map_eq_some_iff.mp taken
    refine orderly.receive lost listening listening rfl rfl ?_ ?_
    · cases lost <;> simp [Mailbox.through, empty, flying]
    · rintro rfl
      simp [Mailbox.through, empty, flying]
  | post =>
    obtain ⟨listening, taken⟩ := Option.ite_none_right_eq_some.mp taken
    obtain ⟨message, flying, rfl⟩ := Option.map_eq_some_iff.mp taken
    have same : Mailbox.through { box with flying := none, queued := box.queued ++ [message] } =
        box.through := by
      simp [Mailbox.through, flying]
    exact orderly.receive false listening listening rfl (Bool.or_false _).symm
      (same ▸ List.Sublist.refl _) fun _ => same
  | discard =>
    obtain ⟨silent, ⟨⟩⟩ := Option.ite_none_left_eq_some.mp taken
    refine ⟨fun born => ?_, ?_, fun _ listening => absurd listening silent, orderly.queued,
      orderly.sent⟩
    · rw [orderly.unborn born]
    · show List.Sublist (box.sent ++ box.queued ++ []) box.addressed
      rw [List.append_nil]
      exact (List.sublist_append_left _ _).trans orderly.order
  | take lost =>
    rw [Mailbox.step] at taken
    split at taken
    · cases taken
    next message rest waiting =>
      obtain ⟨present, ⟨⟩⟩ := Option.ite_none_left_eq_some.mp taken
      exact orderly.take lost waiting present
  | drop =>
    obtain ⟨gone, ⟨⟩⟩ := Option.ite_none_right_eq_some.mp taken
    refine ⟨fun born => ?_, ?_, fun _ listening => ?_, fun _ present => absurd gone present,
      orderly.sent⟩
    · cases gone.symm.trans born
    · refine List.Sublist.trans ?_ orderly.order
      exact ((List.tail_sublist _).append_left _).append_right _
    · cases gone.symm.trans listening
  | listen =>
    obtain ⟨born, ⟨⟩⟩ := Option.ite_none_right_eq_some.mp taken
    rw [orderly.unborn born]
    exact orderly_of_listening rfl (List.nil_sublist _) fun _ => rfl
  | leave =>
    obtain ⟨listening, ⟨⟩⟩ := Option.ite_none_right_eq_some.mp taken
    exact ⟨nofun, orderly.order, nofun,
      fun sound _ => orderly.queued sound (by rw [listening]; decide), orderly.sent⟩
  | vanish =>
    obtain ⟨-, ⟨⟩⟩ := Option.ite_none_left_eq_some.mp taken
    exact ⟨nofun, orderly.order, nofun, fun _ present => absurd rfl present, orderly.sent⟩

end Mailbox

end SunKV.Lib
