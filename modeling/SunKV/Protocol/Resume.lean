/-
**A parser fed in pieces.**

`step_resumable` — no iteration depends on bytes behind those it reads, except that a bulk body may
be absorbed in several iterations or in one (`parseBulkStringData_append`). So a call that used up
its data can be continued by the next call as if all data had come at once, and a call that ended
with a value or an error would have ended so on any longer data.
-/

import SunKV.Protocol.Parser

namespace SunKV.Protocol

open SunKV.Lib

/-! ### Iterations on longer data -/

section Feed

variable {parser : RespParser} {unread later : Bytes}

theorem finish_feed (parser : RespParser) (value : RespValue) (rest later : Bytes) :
    parser.finish value (rest ++ later) = (parser.finish value rest).feed later := by
  unfold RespParser.finish
  split
  · rfl
  · split <;> rfl

theorem withLine_feed {use : Bytes → Bytes → Next} {use' : Bytes → Bytes → Next}
    (complete : findCRLF unread ≠ none)
    (same : ∀ line rest, use' line (rest ++ later) = (use line rest).feed later) :
    parser.withLine (unread ++ later) use' = (parser.withLine unread use).feed later := by
  cases split : splitLine unread with
  | none => exact absurd (Option.map_eq_none_iff.mp split) complete
  | some found =>
    obtain ⟨line, rest⟩ := found
    simp only [RespParser.withLine, split, splitLine_append split, same]

theorem withInteger_feed {message : String} {valid : Int → Bool}
    {use : Int → RespParser → Bytes → Next} (complete : findCRLF unread ≠ none)
    (same : ∀ size parser rest,
      use size parser (rest ++ later) = (use size parser rest).feed later) :
    parser.withInteger (unread ++ later) message valid use =
      (parser.withInteger unread message valid use).feed later := by
  refine withLine_feed complete fun line rest => ?_
  split
  · exact same _ _ _
  · rfl

theorem remaining_absorb {taken : Bytes} (fits : taken.length ≤ parser.remaining) :
    (parser.absorb taken).remaining = parser.remaining - taken.length := by
  simp only [RespParser.remaining, RespParser.absorb, RespParser.advance, List.length_append,
    Nat.cast_add] at fits ⊢
  omega

theorem absorb_absorb (parser : RespParser) (taken more : Bytes) :
    (parser.absorb taken).absorb more = parser.absorb (taken ++ more) := by
  simp only [RespParser.absorb, RespParser.advance, List.length_append, List.append_assoc,
    Nat.add_assoc]

/-- **A bulk body may come in pieces.** -/
theorem parseBulkStringData_append {taken : Bytes} (fits : taken.length ≤ parser.remaining)
    (later : Bytes) :
    parser.parseBulkStringData (taken ++ later) =
      (parser.absorb taken).parseBulkStringData later := by
  have left := remaining_absorb fits
  have short : (taken ++ later).length < parser.remaining ↔
      later.length < parser.remaining - taken.length := by
    rw [List.length_append]
    omega
  simp only [RespParser.parseBulkStringData, left, short, absorb_absorb,
    List.take_append, List.drop_append, List.take_of_length_le fits, List.drop_of_length_le fits,
    List.nil_append]

/-- With the body complete, only its end is read. -/
theorem parseBulkStringData_feed (full : parser.remaining = 0) {cr lf : UInt8}
    (rest later : Bytes) :
    parser.parseBulkStringData (cr :: lf :: rest ++ later) =
      (parser.parseBulkStringData (cr :: lf :: rest)).feed later := by
  simp only [RespParser.parseBulkStringData, full, Nat.not_lt_zero, if_false, List.take_zero,
    List.drop_zero, absorb_nil, List.cons_append]
  split
  · rfl
  · exact finish_feed _ _ _ _

/-- The iteration of a bulk body on longer data. -/
theorem parseBulkStringData_resumes (parser : RespParser) (unread later : Bytes) :
    parser.parseBulkStringData (unread ++ later) =
        (parser.parseBulkStringData unread).feed later ∨
      ∃ taken rest, parser.parseBulkStringData unread = .more (parser.absorb taken) rest ∧
        parser.parseBulkStringData (unread ++ later) =
          (parser.absorb taken).parseBulkStringData (rest ++ later) := by
  by_cases short : unread.length < parser.remaining
  · refine Or.inr ⟨unread, [], ?_, parseBulkStringData_append (Nat.le_of_lt short) later⟩
    rw [RespParser.parseBulkStringData, if_pos short]
  · have counted : (unread.take parser.remaining).length = parser.remaining :=
      List.length_take_of_le (Nat.not_lt.mp short)
    have whole : unread.take parser.remaining ++ unread.drop parser.remaining = unread :=
      List.take_append_drop _ _
    generalize unread.take parser.remaining = taken at whole counted
    generalize unread.drop parser.remaining = left at whole
    subst whole
    have full : (parser.absorb taken).remaining = 0 := by
      rw [remaining_absorb counted.le, counted, Nat.sub_self]
    rw [List.append_assoc, parseBulkStringData_append counted.le,
      parseBulkStringData_append counted.le]
    rcases left with _ | ⟨cr, _ | ⟨lf, rest⟩⟩
    · refine Or.inr ⟨taken, [], ?_, rfl⟩
      simp only [RespParser.parseBulkStringData, full, List.length_nil, Nat.lt_irrefl, if_false,
        List.take_zero, List.drop_zero, absorb_nil]
    · refine Or.inr ⟨taken, [cr], ?_, rfl⟩
      simp only [RespParser.parseBulkStringData, full, Nat.not_lt_zero, if_false, List.take_zero,
        List.drop_zero, absorb_nil]
    · exact Or.inl (parseBulkStringData_feed full rest later)

end Feed

/-- **The parser may be fed in pieces.** -/
theorem step_resumable : Resumable RespParser.step := by
  refine Resumable.of_feed fun {parser unread} some later => ?_
  by_cases stalled : Stalled parser unread
  · exact Or.inr ⟨parser, unread, step_of_stalled stalled, rfl⟩
  have complete (line : parser.state.isLine = true) : findCRLF unread ≠ none :=
    fun nothing => stalled (Or.inl ⟨line, some, nothing⟩)
  cases state : parser.state with
  | start =>
    left
    obtain ⟨type, rest, rfl⟩ := List.exists_cons_of_ne_nil some
    simp only [RespParser.step, state, List.cons_append, RespParser.parseStart]
    split <;> rfl
  | simpleString =>
    left
    simp only [RespParser.step, state]
    exact withLine_feed (complete (by rw [state]; rfl)) fun _ _ => finish_feed _ _ _ _
  | error =>
    left
    simp only [RespParser.step, state]
    exact withLine_feed (complete (by rw [state]; rfl)) fun _ _ => finish_feed _ _ _ _
  | integer =>
    left
    simp only [RespParser.step, state]
    exact withInteger_feed (complete (by rw [state]; rfl)) fun _ _ _ => finish_feed _ _ _ _
  | bulkStringSize =>
    left
    simp only [RespParser.step, state]
    refine withInteger_feed (complete (by rw [state]; rfl)) fun _ _ _ => ?_
    split
    · exact finish_feed _ _ _ _
    · rfl
  | bulkStringData =>
    have inData (taken : Bytes) : (parser.absorb taken).state = .bulkStringData := state
    rcases parseBulkStringData_resumes parser unread later with same | ⟨taken, rest, goes, merged⟩
    · left
      simp only [RespParser.step, state]
      exact same
    · refine Or.inr ⟨parser.absorb taken, rest, ?_, ?_⟩
      · simp only [RespParser.step, state]
        exact goes
      · simp only [RespParser.step, state, inData]
        exact merged
  | arraySize =>
    left
    simp only [RespParser.step, state]
    refine withInteger_feed (complete (by rw [state]; rfl)) fun _ _ _ => ?_
    split_ifs
    · exact finish_feed _ _ _ _
    · exact finish_feed _ _ _ _
    all_goals rfl
  | arrayElement =>
    left
    simp only [RespParser.step, state]
    rfl

end SunKV.Protocol
