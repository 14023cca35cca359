/-
**What a protocol error leaves behind.**

On a parse error `onMessage` answers and returns: the pending offset is not moved and the parser not
reset, although the call may have taken bytes. The next message calls the same parser on the same
bytes.

`Terminal` is what a trace should satisfy: no byte is taken twice, and no value is handed over
after an error. A trace breaks it exactly where a message finds unread bytes, which only an error
leaves behind, and the parser does not refuse them as it stands (`Refused`): the bytes it then takes
are those the failed call took. `terminal_iff` says so for every stream and every cut into chunks.
-/

import SunKV.Server.Connection

namespace SunKV.Server

open SunKV.Lib SunKV.Protocol

/-! ### Traces -/

/-- The event is a call that takes the byte at this position of the stream. -/
def Event.Takes : Event → Nat → Prop
  | .parsed start count _, position => start ≤ position ∧ position < start + count
  | _, _ => False

/-- How the call ended, if the event is one. -/
def Event.outcome? : Event → Option Outcome
  | .parsed _ _ outcome => some outcome
  | _ => none

/-- The event is a value handed to `processCommand`. -/
def Event.isHanded : Event → Bool
  | .handed _ => true
  | _ => false

/-- **Every byte is taken at most once, and nothing is handed over after an error.** -/
def Terminal (events : List Event) : Prop :=
  events.Pairwise (fun first second =>
      ∀ position, ¬ (first.Takes position ∧ second.Takes position)) ∧
    events.Pairwise fun first second => first.outcome? = some .error → second.isHanded = false

/-- No call of the parser ends in an exception. -/
def Calm (events : List Event) : Prop :=
  ∀ event ∈ events, event.outcome? ≠ some .exception

/-- **The rule**: where a message finds unread bytes, the parser refuses them as it stands, unless
the message closes the connection. -/
def Refused (megabytes : Int32) (conn : Connection) (chunk : Bytes) : Prop :=
  conn.unread ≠ [] → conn.closed = false →
    (conn.receive chunk).pendingReadableBytes ≤ kMaxConnInbufBytes megabytes →
      conn.parser.Refuses (conn.receive chunk).unread

/-- Every message keeps the rule. -/
def ErrorsStick (megabytes : Int32) : List Bytes → Connection → Prop
  | [], _ => True
  | chunk :: chunks, conn =>
    Refused megabytes conn chunk ∧
      ∀ next events, onMessage megabytes conn chunk = some (next, events) →
        ErrorsStick megabytes chunks next

section Traces

variable {first second : List Event}

theorem Terminal.append (before : Terminal first) (after : Terminal second)
    (apart : ∀ event ∈ first, ∀ other ∈ second,
      (∀ position, ¬ (event.Takes position ∧ other.Takes position)) ∧
        (event.outcome? = some .error → other.isHanded = false)) : Terminal (first ++ second) :=
  ⟨List.pairwise_append.mpr ⟨before.1, after.1, fun event member other member' =>
      (apart event member other member').1⟩,
    List.pairwise_append.mpr ⟨before.2, after.2, fun event member other member' =>
      (apart event member other member').2⟩⟩

/-- An event that takes no byte and hands nothing over. -/
def Event.Harmless (event : Event) : Prop :=
  (∀ position, ¬ event.Takes position) ∧ event.isHanded = false

theorem Terminal.of_harmless (harmless : ∀ event ∈ second, event.Harmless) : Terminal second := by
  constructor
  · refine List.pairwise_of_forall_mem_list fun event _ other member position takes => ?_
    exact (harmless other member).1 position takes.2
  · exact List.pairwise_of_forall_mem_list fun event _ other member _ => (harmless other member).2

theorem Terminal.append_harmless (before : Terminal first)
    (harmless : ∀ event ∈ second, event.Harmless) : Terminal (first ++ second) :=
  before.append (.of_harmless harmless) fun _ _ other member =>
    ⟨fun position takes => (harmless other member).1 position takes.2,
      fun _ => (harmless other member).2⟩

theorem replied_harmless (message : Bytes) : (Event.replied message).Harmless :=
  ⟨fun _ takes => takes, rfl⟩

theorem parsed_zero_harmless (position : Nat) (outcome : Outcome) :
    (Event.parsed position 0 outcome).Harmless :=
  ⟨fun _ takes => absurd takes.1 (Nat.not_le.mpr takes.2), rfl⟩

end Traces

/-! ### The events of a loop -/

section Loop

variable {conn last : Connection} {exit : Exit} {events : List Event}

theorem move_position (conn : Connection) (count : Nat) (parser : RespParser) :
    (conn.move count parser).position = conn.position + count :=
  (Nat.add_assoc _ _ _).symm

/-- A loop takes bytes from its position on. -/
theorem Drains.takes_ge (drains : Drains conn exit last events) :
    ∀ event ∈ events, ∀ position, event.Takes position → conn.position ≤ position := by
  induction drains with
  | nothing => exact fun event member => absurd member List.not_mem_nil
  | value _ _ _ _ ih =>
    simp only [List.forall_mem_cons]
    refine ⟨fun position takes => takes.1, fun position takes => takes.elim, ?_⟩
    intro event member position takes
    have later := ih event member position takes
    rw [move_position] at later
    omega
  | incomplete => exact List.forall_mem_singleton.mpr fun position takes => takes.1
  | error =>
    simp only [List.forall_mem_cons]
    exact ⟨fun position takes => takes.1, fun position takes => takes.elim, nofun⟩
  | exception =>
    simp only [List.forall_mem_cons]
    exact ⟨fun position takes => takes.1, fun position takes => takes.elim, nofun⟩

/-- A loop that ended stands behind all bytes it took, and saw no error. -/
theorem Drains.takes_lt (drains : Drains conn .ended last events) :
    conn.position ≤ last.position ∧ ∀ event ∈ events, event.outcome? ≠ some .error ∧
      ∀ position, event.Takes position → position < last.position := by
  generalize ended : Exit.ended = exit at drains
  induction drains with
  | nothing => exact ⟨le_rfl, fun event member => absurd member List.not_mem_nil⟩
  | value _ _ _ _ ih =>
    obtain ⟨onward, later⟩ := ih ended
    rw [move_position] at onward
    simp only [List.forall_mem_cons]
    refine ⟨by omega, ⟨nofun, fun position takes => ?_⟩, ⟨nofun, fun _ takes => takes.elim⟩, later⟩
    exact Nat.lt_of_lt_of_le takes.2 onward
  | incomplete =>
    rw [move_position]
    exact ⟨Nat.le_add_right _ _, List.forall_mem_singleton.mpr ⟨nofun, fun _ takes => takes.2⟩⟩
  | error => cases ended
  | exception => cases ended

/-- **One loop is always terminal**: its calls follow each other, and an error ends it. -/
theorem Drains.terminal (drains : Drains conn exit last events) : Terminal events := by
  induction drains with
  | nothing => exact ⟨List.Pairwise.nil, List.Pairwise.nil⟩
  | value _ _ _ onward ih =>
    refine ⟨List.pairwise_cons.mpr ⟨?_, List.pairwise_cons.mpr ⟨?_, ih.1⟩⟩,
      List.pairwise_cons.mpr ⟨fun _ _ => nofun, List.pairwise_cons.mpr ⟨fun _ _ => nofun, ih.2⟩⟩⟩
    · simp only [List.forall_mem_cons]
      refine ⟨fun position takes => takes.2, fun event member position takes => ?_⟩
      have later := onward.takes_ge event member position takes.2
      rw [move_position] at later
      exact Nat.lt_irrefl _ (Nat.lt_of_lt_of_le takes.1.2 later)
    · exact fun event member position takes => takes.1
  | incomplete => exact ⟨List.pairwise_singleton _ _, List.pairwise_singleton _ _⟩
  | error =>
    exact ⟨List.pairwise_pair.mpr fun position takes => takes.2,
      List.pairwise_pair.mpr fun _ => rfl⟩
  | exception =>
    exact ⟨List.pairwise_pair.mpr fun position takes => takes.2,
      List.pairwise_pair.mpr fun _ => rfl⟩

/-- A loop that left by an error leaves its bytes unread, and a mark: a call at the same position
that failed, and took a byte or was refused. -/
theorem Drains.mark (drains : Drains conn .returned last events) (calm : Calm events) :
    last.unread ≠ [] ∧ last.closed = conn.closed ∧
      ∃ count, .parsed last.position count .error ∈ events ∧
        (count = 0 → last.parser.Refuses last.unread) := by
  generalize left : Exit.returned = exit at drains
  induction drains with
  | nothing => cases left
  | value _ _ _ _ ih =>
    have calm' : Calm _ := fun event member =>
      calm event (List.mem_cons_of_mem _ (List.mem_cons_of_mem _ member))
    obtain ⟨unread, closed, count, member, refuses⟩ := ih calm' left
    exact ⟨unread, closed, count, List.mem_cons_of_mem _ (List.mem_cons_of_mem _ member), refuses⟩
  | incomplete => cases left
  | error some _ _ refuses =>
    refine ⟨some, rfl, _, List.mem_cons_self, fun zero => ?_⟩
    obtain ⟨rfl, asItStands⟩ := refuses (List.length_eq_zero_iff.mp zero)
    exact asItStands
  | exception => exact absurd rfl (calm _ List.mem_cons_self)

/-- Where the parser refuses, the loop reports an error and does nothing else. -/
theorem Drains.of_refuses (drains : Drains conn exit last events)
    (refuses : conn.parser.Refuses conn.unread) (some : conn.unread ≠ []) :
    exit = .returned ∧ ∀ event ∈ events, event.Harmless := by
  obtain ⟨message, iteration⟩ := step_of_refuses refuses
  have refused := returns_of_halt some iteration
  cases drains with
  | nothing read => exact absurd read some
  | value _ _ returns => cases returns.unique refused
  | incomplete _ returns => cases returns.unique refused
  | exception _ returns => cases returns.unique refused
  | error _ whole returns =>
    cases returns.unique refused
    have nothing := congrArg List.length whole
    rw [List.length_append] at nothing
    simp only [List.forall_mem_cons]
    refine ⟨trivial, ?_, replied_harmless _, nofun⟩
    rw [show (List.length _) = 0 by omega]
    exact parsed_zero_harmless _ _

/-- Where a loop takes no byte at its position, the parser refuses. -/
theorem Drains.refuses_of_apart (drains : Drains conn exit last events) (calm : Calm events)
    (some : conn.unread ≠ []) (apart : ∀ event ∈ events, ¬ event.Takes conn.position) :
    conn.parser.Refuses conn.unread := by
  have takes {count : Nat} {outcome : Outcome} {later : List Event} (pos : 0 < count)
      (same : events = .parsed conn.position count outcome :: later) : False :=
    apart (.parsed conn.position count outcome) (same ▸ List.mem_cons_self)
      ⟨le_rfl, Nat.lt_add_of_pos_right pos⟩
  cases drains with
  | nothing read => exact absurd read some
  | value _ taken => exact (takes (List.length_pos_iff.mpr taken) rfl).elim
  | incomplete => exact (takes (List.length_pos_iff.mpr some) rfl).elim
  | exception => exact absurd rfl (calm _ List.mem_cons_self)
  | @error _ _ _ taken _ _ _ _ refuses =>
    by_cases nothing : taken = []
    · exact (refuses nothing).2
    · exact (takes (List.length_pos_iff.mpr nothing) rfl).elim

/-- A loop does not read past the pending input. -/
theorem Drains.offset_le (drains : Drains conn exit last events)
    (within : conn.pendingOffset ≤ conn.pendingInput.length) :
    last.pendingOffset ≤ last.pendingInput.length := by
  have left (conn : Connection) :
      conn.unread.length = conn.pendingInput.length - conn.pendingOffset := unread_length
  induction drains with
  | nothing => exact within
  | @value conn _ _ _ _ _ taken rest whole _ _ _ ih =>
    refine ih ?_
    have total := congrArg List.length whole
    rw [List.length_append, left] at total
    show conn.pendingOffset + taken.length ≤ conn.pendingInput.length
    omega
  | @incomplete conn =>
    show conn.pendingOffset + conn.unread.length ≤ conn.pendingInput.length
    rw [left]
    omega
  | error => exact within
  | exception => exact within

end Loop

/-! ### The events of a connection -/

section Messages

variable {megabytes : Int32} {conn next last : Connection} {chunk : Bytes} {chunks : List Bytes}
  {past events : List Event}

theorem receive_position (conn : Connection) (chunk : Bytes) :
    (conn.receive chunk).position = conn.position := rfl

theorem receive_unread (some : conn.unread ≠ []) (chunk : Bytes) :
    (conn.receive chunk).unread = conn.unread ++ chunk :=
  List.drop_append_of_le_length (Nat.le_of_lt (unread_ne_nil_iff.mp some))

/-- **Unread bytes are those of a failed call**, which took the first of them or was refused. -/
def Marked (conn : Connection) (past : List Event) : Prop :=
  conn.closed = true ∨ conn.unread = [] ∨
    ∃ count, .parsed conn.position count .error ∈ past ∧
      (count = 0 → conn.parser.Refuses conn.unread)

theorem Handles.marked (handles : Handles megabytes conn chunk next events) (calm : Calm events)
    (marked : Marked conn past) : Marked next (past ++ events) := by
  cases handles with
  | closed => rwa [List.append_nil]
  | flooded => exact Or.inl rfl
  | failed _ _ drains =>
    obtain ⟨-, -, count, member, refuses⟩ := drains.mark calm
    exact Or.inr (Or.inr ⟨count, List.mem_append_right _ member, refuses⟩)
  | read => exact Or.inr (Or.inl rfl)

/-- In a terminal trace a message that finds unread bytes is refused: a byte it took would be one
that the failed call took. -/
theorem Handles.refused (handles : Handles megabytes conn chunk next events) (calm : Calm events)
    (marked : Marked conn past) (terminal : Terminal (past ++ events)) :
    Refused megabytes conn chunk := by
  intro some opened within
  have arrived := receive_unread some chunk
  have some' : (conn.receive chunk).unread ≠ [] := by
    rw [arrived]
    exact List.append_ne_nil_of_left_ne_nil some _
  rcases marked with closed | nothing | ⟨count, member, refuses⟩
  · rw [opened] at closed
    cases closed
  · exact absurd nothing some
  by_cases zero : count = 0
  · rw [arrived]
    exact Refuses.append some (refuses zero) chunk
  have apart : ∀ event ∈ events, ¬ event.Takes (conn.receive chunk).position := by
    intro event member' takes
    obtain ⟨-, -, across⟩ := List.pairwise_append.mp terminal.1
    exact across _ member event member' conn.position
      ⟨⟨le_rfl, Nat.lt_add_of_pos_right (Nat.pos_of_ne_zero zero)⟩, takes⟩
  cases handles with
  | closed closed =>
    rw [opened] at closed
    cases closed
  | flooded _ much => exact absurd within (Nat.not_le.mpr much)
  | failed _ _ drains => exact drains.refuses_of_apart calm some' apart
  | read _ _ drains => exact drains.refuses_of_apart calm some' apart

/-- **As long as nothing is unread, all events lie behind and none is an error.** -/
structure Quiet (conn : Connection) (past : List Event) : Prop where
  within : conn.pendingOffset ≤ conn.pendingInput.length
  behind : conn.closed = false → conn.unread = [] → ∀ event ∈ past, event.outcome? ≠ some .error ∧
    ∀ position, event.Takes position → position < conn.position

theorem Quiet.initial : Quiet {} [] :=
  ⟨le_rfl, fun _ _ _ member => absurd member List.not_mem_nil⟩

/-- A message on a connection with nothing unread. -/
theorem Drains.terminal_append {exit : Exit} (drains : Drains (conn.receive chunk) exit last events)
    (behind : ∀ event ∈ past, event.outcome? ≠ some .error ∧
      ∀ position, event.Takes position → position < conn.position)
    (terminal : Terminal past) : Terminal (past ++ events) := by
  refine terminal.append drains.terminal fun event member other member' => ?_
  refine ⟨fun position takes => ?_, fun error => absurd error (behind event member).1⟩
  have early := (behind event member).2 position takes.1
  have late := drains.takes_ge other member' position takes.2
  rw [receive_position] at late
  omega

/-- **A message that keeps the rule keeps the trace terminal.** -/
theorem Handles.quiet (handles : Handles megabytes conn chunk next events) (calm : Calm events)
    (refused : Refused megabytes conn chunk) (quiet : Quiet conn past) (terminal : Terminal past) :
    Terminal (past ++ events) ∧ Quiet next (past ++ events) := by
  have placed : (conn.receive chunk).pendingOffset ≤ (conn.receive chunk).pendingInput.length := by
    have within := quiet.within
    show conn.pendingOffset ≤ (conn.pendingInput ++ chunk).length
    rw [List.length_append]
    omega
  cases handles with
  | closed => rw [List.append_nil]; exact ⟨terminal, quiet⟩
  | flooded =>
    exact ⟨terminal.append_harmless (List.forall_mem_singleton.mpr (replied_harmless _)),
      placed, nofun⟩
  | failed opened within drains =>
    obtain ⟨unread, -, -⟩ := drains.mark calm
    refine ⟨?_, drains.offset_le placed, fun _ nothing => absurd nothing unread⟩
    by_cases some : conn.unread = []
    · exact drains.terminal_append (quiet.behind opened some) terminal
    · refine terminal.append_harmless (drains.of_refuses (refused some opened within) ?_).2
      rw [receive_unread some]
      exact List.append_ne_nil_of_left_ne_nil some _
  | @read last _ opened within drains =>
    have some : conn.unread = [] := by
      by_contra some
      have more : (conn.receive chunk).unread ≠ [] := by
        rw [receive_unread some]
        exact List.append_ne_nil_of_left_ne_nil some _
      cases (drains.of_refuses (refused some opened within) more).1
    obtain ⟨forward, behind⟩ := drains.takes_lt
    have kept : last.position ≤ last.emptied.position :=
      Nat.add_le_add_left (drains.offset_le placed) last.erased
    refine ⟨drains.terminal_append (quiet.behind opened some) terminal, le_rfl, fun _ _ => ?_⟩
    intro event member
    rcases List.mem_append.mp member with earlier | now
    · obtain ⟨fine, early⟩ := quiet.behind opened some event earlier
      refine ⟨fine, fun position takes => ?_⟩
      have := early position takes
      rw [receive_position] at forward
      omega
    · obtain ⟨fine, early⟩ := behind event now
      exact ⟨fine, fun position takes => Nat.lt_of_lt_of_le (early position takes) kept⟩

theorem Calm.of_append (calm : Calm (past ++ events)) : Calm past ∧ Calm events :=
  ⟨fun event member => calm event (List.mem_append_left _ member),
    fun event member => calm event (List.mem_append_right _ member)⟩

theorem errorsStick_of_terminal (marked : Marked conn past)
    (ran : onMessages megabytes chunks conn = some (last, events)) (calm : Calm events)
    (terminal : Terminal (past ++ events)) : ErrorsStick megabytes chunks conn := by
  induction chunks generalizing conn past events with
  | nil => trivial
  | cons chunk chunks ih =>
    obtain ⟨next, first, later, message, onward, rfl⟩ := onMessages_cons ran
    have handles := onMessage_handles message
    obtain ⟨calm, calm'⟩ := calm.of_append
    rw [← List.append_assoc] at terminal
    have early : Terminal (past ++ first) :=
      ⟨(List.pairwise_append.mp terminal.1).1, (List.pairwise_append.mp terminal.2).1⟩
    refine ⟨handles.refused calm marked early, fun next' events' message' => ?_⟩
    cases message.symm.trans message'
    exact ih (handles.marked calm marked) onward calm' terminal

theorem terminal_of_errorsStick (quiet : Quiet conn past) (terminal : Terminal past)
    (ran : onMessages megabytes chunks conn = some (last, events)) (calm : Calm events)
    (stick : ErrorsStick megabytes chunks conn) : Terminal (past ++ events) := by
  induction chunks generalizing conn past events with
  | nil =>
    cases ran
    rwa [List.append_nil]
  | cons chunk chunks ih =>
    obtain ⟨next, first, later, message, onward, rfl⟩ := onMessages_cons ran
    obtain ⟨calm, calm'⟩ := calm.of_append
    obtain ⟨terminal', quiet'⟩ := (onMessage_handles message).quiet calm stick.1 quiet terminal
    rw [← List.append_assoc]
    exact ih quiet' terminal' onward calm' (stick.2 next first message)

end Messages

/-- **The trace of a connection is terminal exactly when every message after an error is refused at
once**, for every stream of bytes and every cut into chunks on which all calls of the parser
return. -/
theorem terminal_iff (megabytes : Int32) (chunks : List Bytes) (last : Connection)
    (events : List Event) (returned : onMessages megabytes chunks {} = some (last, events))
    (calm : Calm events) : Terminal events ↔ ErrorsStick megabytes chunks {} :=
  ⟨errorsStick_of_terminal (show Marked {} [] from Or.inr (Or.inl rfl)) returned calm,
    terminal_of_errorsStick Quiet.initial ⟨List.Pairwise.nil, List.Pairwise.nil⟩ returned calm⟩

/-- A bulk string header that is no number: the second message is refused. -/
theorem terminal_iff_header :
    ∃ last events, onMessages 8 [text "$x\r\n", text "GET"] {} = some (last, events) ∧
      (Terminal events ↔ ErrorsStick 8 [text "$x\r\n", text "GET"] {}) := by
  have returns : (onMessages 8 [text "$x\r\n", text "GET"] {}).isSome = true := by decide +kernel
  have calm : ∀ out ∈ onMessages 8 [text "$x\r\n", text "GET"] {}, Calm out.2 := by
    unfold Calm
    decide +kernel
  obtain ⟨⟨last, events⟩, returned⟩ := Option.isSome_iff_exists.mp returns
  exact ⟨last, events, returned,
    terminal_iff 8 [text "$x\r\n", text "GET"] last events returned (calm _ returned)⟩

set_option maxRecDepth 4000 in
/-- The second chunk completes the first argument and fails in the second one, whose line end is
wrong. Its bytes stay unread: with the third chunk they are read again, the parser takes the line
end of the first argument for that of the second, and a command is handed over that the client
never sent. -/
theorem not_terminal_bulk :
    ∃ last events,
      onMessages 8 [text "*2\r\n$3\r\nabc", text "\r\n$1\r\nxYZ", text "Q"] {} =
        some (last, events) ∧
      Calm events ∧ ¬ Terminal events ∧
      handed events = [.array [.bulkString (text "abc"), .bulkString (text "x")]] := by
  have values : (onMessages 8 [text "*2\r\n$3\r\nabc", text "\r\n$1\r\nxYZ", text "Q"] {}).map
      (fun out => handed out.2) =
      some [.array [.bulkString (text "abc"), .bulkString (text "x")]] := by
    rfl
  have calm : ∀ out ∈ onMessages 8
      [text "*2\r\n$3\r\nabc", text "\r\n$1\r\nxYZ", text "Q"] {}, Calm out.2 := by
    unfold Calm
    decide +kernel
  have spoken : ∀ out ∈ onMessages 8
      [text "*2\r\n$3\r\nabc", text "\r\n$1\r\nxYZ", text "Q"] {},
      ¬ out.2.Pairwise fun first second =>
        first.outcome? = some .error → second.isHanded = false := by
    decide +kernel
  obtain ⟨⟨last, events⟩, returned, same⟩ := Option.map_eq_some_iff.mp values
  exact ⟨last, events, returned, calm _ returned,
    fun terminal => spoken _ returned terminal.2, same⟩

end SunKV.Server
