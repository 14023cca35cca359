/-
**What a call of the parser does.**

`Call` lists the results of `parse` on some bytes, with the bytes taken and the way the loop ended
(`parse_call`). A call takes bytes off the front and counts them; the only one that takes none
fails, and leaves the parser as it was: the bytes begin with something that the parser refuses as it
stands (`RespParser.Refuses`, `returns_halted`). What it refuses it goes on refusing, whatever
arrives later (`Refuses.append`).
-/

import SunKV.Protocol.Resume

namespace SunKV.Protocol

open SunKV.Lib

/-! ### Bytes taken -/

section Call

variable {parser : RespParser} {data : Bytes} {ending : Ending RespParser UInt8 Halt}

/-- A call returns what its loop ends with; the fuel of `parse` is enough. -/
theorem parse_eq_some_iff (some : data ≠ []) {out : ParseResult × RespParser} :
    parser.parse data = Option.some out ↔
      ∃ ending, Returns RespParser.step parser data ending ∧ conclude ending = out := by
  have enough : measure parser data < data.length + 2 := by
    unfold measure
    split <;> omega
  have filled : data.isEmpty = false := List.isEmpty_eq_false_iff.mpr some
  simp only [RespParser.parse, filled, Bool.false_eq_true, if_false, Option.map_eq_some_iff,
    step_progresses.loop_eq_some_iff enough]

/-- What an iteration takes off the front, it counts. -/
theorem step_counts {parser next : RespParser} {unread rest : Bytes} (some : unread ≠ [])
    (iteration : parser.step unread = .more next rest ∨
      ∃ outcome, parser.step unread = .halt outcome next rest) :
    ∃ taken, unread = taken ++ rest ∧
      next.processedBytes = parser.processedBytes + taken.length := by
  by_cases stalled : Stalled parser unread
  · rcases iteration with iteration | ⟨outcome, iteration⟩
    · rw [step_of_stalled stalled] at iteration
      cases iteration
      exact ⟨[], rfl, rfl⟩
    · rw [step_of_stalled stalled] at iteration
      cases iteration
  · have acts := step_acts some stalled
    rcases iteration with iteration | ⟨outcome, iteration⟩
    · rw [iteration] at acts
      cases acts with
      | takes whole _ counted _ => exact ⟨_, whole, counted⟩
      | restarts => exact ⟨[], rfl, rfl⟩
    · rw [iteration] at acts
      cases acts with
      | refuses => exact ⟨[], rfl, rfl⟩
      | stops _ whole _ counted => exact ⟨_, whole, counted⟩

/-- **A call counts the bytes it takes.** -/
theorem returns_counts (returns : Returns RespParser.step parser data ending) :
    ∃ taken, data = taken ++ ending.unread ∧
      ending.state.processedBytes = parser.processedBytes + taken.length := by
  have grows {state next : RespParser} {unread rest : Bytes}
      (step : ∃ taken, unread = taken ++ rest ∧
        next.processedBytes = state.processedBytes + taken.length)
      (before : ∃ taken, data = taken ++ unread ∧
        state.processedBytes = parser.processedBytes + taken.length) :
      ∃ taken, data = taken ++ rest ∧
        next.processedBytes = parser.processedBytes + taken.length := by
    obtain ⟨taken, rfl, counted⟩ := step
    obtain ⟨first, rfl, counted'⟩ := before
    refine ⟨first ++ taken, (List.append_assoc _ _ _).symm, ?_⟩
    rw [counted, counted', List.length_append, Nat.add_assoc]
  refine returns.invariant
    (fun state unread => ∃ taken, data = taken ++ unread ∧
      state.processedBytes = parser.processedBytes + taken.length) ?_ ?_ ⟨[], rfl, rfl⟩
  · exact fun some iteration before => grows (step_counts some (Or.inl iteration)) before
  · exact fun some iteration before => grows (step_counts some (Or.inr ⟨_, iteration⟩)) before

end Call

/-! ### Calls that take nothing -/

section Refusal

variable {parser : RespParser} {unread data : Bytes}

/-- **The unread bytes begin with something the parser refuses as it stands**: a complete header
line that is no valid number, or bytes other than a line end behind a complete bulk body. -/
def RespParser.Refuses (parser : RespParser) (unread : Bytes) : Prop :=
  match parser.state with
  | .integer => ∃ split, splitLine unread = some split ∧ parseInteger split.1 = llongMax
  | .bulkStringSize | .arraySize =>
    ∃ split, splitLine unread = some split ∧ RespParser.validSize (parseInteger split.1) = false
  | .bulkStringData => parser.remaining = 0 ∧ 2 ≤ unread.length ∧ unread.take 2 ≠ [13, 10]
  | .start | .simpleString | .error | .arrayElement => False

theorem finish_ne_error (parser : RespParser) (value : RespValue) (rest : Bytes) {message : Bytes}
    {last : RespParser} {unread : Bytes} :
    parser.finish value rest ≠ .halt (.error message) last unread := by
  unfold RespParser.finish
  split
  · nofun
  · split <;> nofun

/-- An iteration that reads a number and fails without taking a byte found none. -/
theorem withInteger_refuses {title : String} {valid : Int → Bool}
    {use : Int → RespParser → Bytes → Next} {message : Bytes}
    (uses : ∀ size parser' rest, unread ≠ rest →
      use size parser' rest ≠ .halt (.error message) parser unread)
    (refused : parser.withInteger unread title valid use = .halt (.error message) parser unread) :
    ∃ split, splitLine unread = some split ∧ valid (parseInteger split.1) = false := by
  rw [RespParser.withInteger, RespParser.withLine] at refused
  cases found : splitLine unread with
  | none =>
    rw [found] at refused
    cases refused
  | some split =>
    obtain ⟨line, rest⟩ := split
    rw [found] at refused
    dsimp only at refused
    refine ⟨(line, rest), rfl, Bool.eq_false_iff.mpr fun fine => ?_⟩
    rw [if_pos fine] at refused
    refine uses _ _ _ (fun same => ?_) refused
    have total := congrArg List.length (eq_of_splitLine found)
    simp only [same, List.length_append, List.length_cons, List.length_nil] at total
    omega

/-- An iteration that reads a line into a value never fails. -/
theorem withLine_finish_ne_error {value : Bytes → RespValue} {message : Bytes} :
    parser.withLine unread (fun line rest =>
      (parser.advance (line.length + 2)).finish (value line) rest) ≠
        .halt (.error message) parser unread := by
  unfold RespParser.withLine
  split
  · nofun
  · exact finish_ne_error _ _ _

/-- A bulk body that fails without taking a byte was complete already. -/
theorem parseBulkStringData_refuses {message : Bytes} (some : unread ≠ [])
    (refused : parser.parseBulkStringData unread = .halt (.error message) parser unread) :
    parser.remaining = 0 ∧ 2 ≤ unread.length ∧ unread.take 2 ≠ [13, 10] := by
  unfold RespParser.parseBulkStringData at refused
  split at refused
  · cases refused
  · dsimp only at refused
    split at refused
    case h_1 cr lf rest left =>
      split at refused
      case isTrue wrong =>
        have same : cr :: lf :: rest = unread := (Iteration.halt.inj refused).2.2
        have none : parser.remaining = 0 := by
          have total := congrArg List.length (left.trans same)
          have pos := List.length_pos_iff.mpr some
          rw [List.length_drop] at total
          omega
        refine ⟨none, by simp [← same], ?_⟩
        rw [← same]
        intro ends
        simp only [List.take_succ_cons, List.take_zero, List.cons.injEq, and_true] at ends
        exact wrong.elim (fun other => other ends.1) fun other => other ends.2
      case isFalse => exact absurd refused (finish_ne_error _ _ _)
    case h_2 => cases refused

theorem refuses_of_step {message : Bytes} (some : unread ≠ [])
    (refused : parser.step unread = .halt (.error message) parser unread) :
    parser.Refuses unread := by
  unfold RespParser.Refuses
  unfold RespParser.step at refused
  cases state : parser.state with
  | start =>
    rw [state] at refused
    obtain ⟨type, rest, rfl⟩ := List.exists_cons_of_ne_nil some
    dsimp only [RespParser.parseStart] at refused
    split at refused
    · cases refused
    · have same : rest = type :: rest := (Iteration.halt.inj refused).2.2
      exact absurd (congrArg List.length same) (by simp)
  | simpleString =>
    rw [state] at refused
    exact absurd refused withLine_finish_ne_error
  | error =>
    rw [state] at refused
    exact absurd refused withLine_finish_ne_error
  | integer =>
    rw [state] at refused
    obtain ⟨split, found, invalid⟩ :=
      withInteger_refuses (fun _ _ _ _ => finish_ne_error _ _ _) refused
    exact ⟨split, found, by simpa using invalid⟩
  | bulkStringSize =>
    rw [state] at refused
    refine withInteger_refuses (fun size parser' rest _ => ?_) refused
    split
    · exact finish_ne_error _ _ _
    · nofun
  | arraySize =>
    rw [state] at refused
    refine withInteger_refuses (fun size parser' rest other => ?_) refused
    split_ifs
    · exact finish_ne_error _ _ _
    · exact finish_ne_error _ _ _
    · nofun
    -- too deep a nesting is only found behind the header line
    · exact fun same => other (Iteration.halt.inj same).2.2.symm
    · nofun
  | bulkStringData =>
    rw [state] at refused
    exact parseBulkStringData_refuses some refused
  | arrayElement =>
    rw [state] at refused
    cases refused

theorem withInteger_of_invalid {title : String} {valid : Int → Bool}
    {use : Int → RespParser → Bytes → Next} {split : Bytes × Bytes}
    (found : splitLine unread = some split) (invalid : valid (parseInteger split.1) = false) :
    parser.withInteger unread title valid use = .halt (.error (text title)) parser unread := by
  simp [RespParser.withInteger, RespParser.withLine, found, invalid]

theorem step_of_refuses (refuses : parser.Refuses unread) :
    ∃ message, parser.step unread = .halt (.error message) parser unread := by
  unfold RespParser.Refuses at refuses
  unfold RespParser.step
  cases state : parser.state with
  | integer =>
    rw [state] at refuses
    obtain ⟨split, found, sentinel⟩ := refuses
    exact ⟨_, withInteger_of_invalid found (by simpa using sentinel)⟩
  | bulkStringSize =>
    rw [state] at refuses
    obtain ⟨split, found, invalid⟩ := refuses
    exact ⟨_, withInteger_of_invalid found invalid⟩
  | arraySize =>
    rw [state] at refuses
    obtain ⟨split, found, invalid⟩ := refuses
    exact ⟨_, withInteger_of_invalid found invalid⟩
  | bulkStringData =>
    rw [state] at refuses
    obtain ⟨full, long, wrong⟩ := refuses
    rcases unread with _ | ⟨cr, _ | ⟨lf, rest⟩⟩
    · exact absurd long (by decide)
    · exact absurd long (by simp)
    · have other : cr ≠ 13 ∨ lf ≠ 10 := by
        by_contra ends
        push Not at ends
        exact wrong (by rw [ends.1, ends.2]; rfl)
      simp only [RespParser.parseBulkStringData, full, Nat.not_lt_zero, if_false, List.take_zero,
        List.drop_zero, absorb_nil, if_pos other]
      exact ⟨_, rfl⟩
  | start => rw [state] at refuses; exact refuses.elim
  | simpleString => rw [state] at refuses; exact refuses.elim
  | error => rw [state] at refuses; exact refuses.elim
  | arrayElement => rw [state] at refuses; exact refuses.elim

/-- A call that halts without taking a byte and does not restart was refused. -/
theorem returns_refused {outcome : Halt} {last : RespParser} (some : data ≠ [])
    (state : parser.state ≠ .arrayElement)
    (returns : Returns RespParser.step parser data (.halted outcome last unread))
    (nothing : unread.length = data.length) :
    ∃ message, outcome = .error message ∧ unread = data ∧ last = parser ∧
      parser.step data = .halt (.error message) parser data := by
  have moving : ¬ Stalled parser data := by
    intro stalled
    obtain ⟨fuel, returned⟩ := returns
    rw [(stalls_iff.mpr stalled).loop_eq_none] at returned
    cases returned
  have acts := step_acts some moving
  generalize iteration : parser.step data = next at acts
  cases acts with
  | refuses message =>
    have same := returns.unique (returns_of_halt some iteration)
    cases same
    exact ⟨message, rfl, rfl, rfl, rfl⟩
  | takes whole taken =>
    obtain ⟨more, left, -⟩ := returns_counts ((returns_of_more some iteration).mp returns)
    have pos := List.length_pos_iff.mpr taken
    have total := congrArg List.length whole
    have total' := congrArg List.length left
    simp only [List.length_append, Ending.unread] at total total'
    omega
  | stops outcome' whole taken =>
    have same := returns.unique (returns_of_halt some iteration)
    cases same
    have pos := List.length_pos_iff.mpr taken
    have total := congrArg List.length whole
    rw [List.length_append] at total
    omega
  | restarts impossible => exact absurd impossible state

/-- **A call that halts without taking a byte fails on what the parser refuses.** -/
theorem returns_halted {outcome : Halt} {last : RespParser} (some : data ≠ [])
    (returns : Returns RespParser.step parser data (.halted outcome last unread))
    (nothing : unread.length = data.length) :
    (∃ message, outcome = .error message) ∧ last = parser ∧ parser.Refuses data := by
  by_cases state : parser.state = .arrayElement
  · have restarts : parser.step data = .more { parser with state := .start } data := by
      rw [RespParser.step, state]
      rfl
    obtain ⟨message, -, -, -, refused⟩ :=
      returns_refused some (show ParseState.start ≠ .arrayElement by decide)
        ((returns_of_more some restarts).mp returns) nothing
    exact (refuses_of_step some refused).elim
  · obtain ⟨message, failed, -, same, refused⟩ := returns_refused some state returns nothing
    exact ⟨⟨message, failed⟩, same, refuses_of_step some refused⟩

/-- **What is refused stays refused**, whatever arrives. -/
theorem Refuses.append (some : unread ≠ []) (refuses : parser.Refuses unread) (later : Bytes) :
    parser.Refuses (unread ++ later) := by
  obtain ⟨message, refused⟩ := step_of_refuses refuses
  exact refuses_of_step (List.append_ne_nil_of_left_ne_nil some later)
    (step_resumable.halt some refused later)

end Refusal

/-! ### Calls -/

/-- **What a call of `parse` on some bytes does**, one case for each result: which bytes it took,
and how its loop ended. -/
inductive Call (parser : RespParser) (unread : Bytes) : ParseResult → RespParser → Prop
  | success {value : RespValue} {last : RespParser} {taken rest : Bytes}
      (whole : unread = taken ++ rest) (some : taken ≠ [])
      (counted : last.processedBytes = parser.processedBytes + taken.length)
      (returns : Returns RespParser.step parser unread (.halted (.success value) last rest)) :
      Call parser unread (.success value last.processedBytes) last
  | incomplete {last : RespParser}
      (counted : last.processedBytes = parser.processedBytes + unread.length)
      (returns : Returns RespParser.step parser unread (.dry last)) :
      Call parser unread (.incomplete last.processedBytes) last
  | error {message : Bytes} {last : RespParser} {taken rest : Bytes}
      (whole : unread = taken ++ rest)
      (counted : last.processedBytes = parser.processedBytes + taken.length)
      (returns : Returns RespParser.step parser unread (.halted (.error message) last rest))
      (refuses : taken = [] → last = parser ∧ parser.Refuses unread) :
      Call parser unread (.error message) last
  | thrown {last : RespParser} {rest : Bytes}
      (returns : Returns RespParser.step parser unread (.halted .thrown last rest)) :
      Call parser unread .thrown last

theorem parse_call {parser last : RespParser} {unread : Bytes} (some : unread ≠ [])
    {result : ParseResult} (called : parser.parse unread = Option.some (result, last)) :
    Call parser unread result last := by
  obtain ⟨ending, returns, same⟩ := (parse_eq_some_iff some).mp called
  obtain ⟨taken, whole, counted⟩ := returns_counts returns
  cases ending with
  | dry state =>
    cases same
    obtain rfl : unread = taken := whole.trans (List.append_nil taken)
    exact .incomplete counted returns
  | halted outcome state rest =>
    have nothing (empty : taken = []) : rest.length = unread.length := by
      rw [whole, empty]
      rfl
    cases outcome with
    | success value =>
      cases same
      refine .success whole (fun empty => ?_) counted returns
      obtain ⟨⟨_, failed⟩, -⟩ := returns_halted some returns (nothing empty)
      cases failed
    | error message =>
      cases same
      exact .error whole counted returns fun empty =>
        (returns_halted some returns (nothing empty)).2
    | thrown =>
      cases same
      exact .thrown returns

end SunKV.Protocol
