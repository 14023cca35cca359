/-
**Which values the parser reads back.**

An array that is complete ends the call with that array as the result, also where it is an element
of another one. So no value that the parser returns has an array with elements inside an array, and
the values it reads back from their encodings are those.

* `step_unnested` — an iteration collects only values without elements, and so the result of a call
  is flat, whatever the bytes (`parse_flat`).
* `parse_encode_iff` — the encoding of a value, with anything behind it, is read back as the value
  exactly when it is flat.
-/

import SunKV.Protocol.Call
import SunKV.Protocol.Encode

namespace SunKV.Protocol

open SunKV.Lib

/-! ### Results are flat -/

/-- No element collected so far has elements of its own. -/
def RespParser.Unnested (parser : RespParser) : Prop :=
  ∀ ctx ∈ parser.arrayStack, ∀ value ∈ ctx.elements, value.filled = false

/-- A value that an iteration halts with is flat. -/
def Halt.Flat (outcome : Halt) : Prop := ∀ value, outcome = .success value → value.Flat

section Unnested

variable {parser : RespParser}

/-- **A value without elements** is collected, or completes a flat result. -/
theorem finish_unnested (unnested : parser.Unnested) {value : RespValue}
    (unfilled : value.filled = false) (rest : Bytes) :
    (parser.finish value rest).Keeps RespParser.Unnested Halt.Flat := by
  unfold RespParser.finish
  split
  case h_1 =>
    rintro _ ⟨⟩
    cases value with
    | array values =>
      cases values with
      | nil => exact fun _ => nofun
      | cons => cases unfilled
    | _ => trivial
  case h_2 ctx outer stack =>
    have collected : ∀ element ∈ ctx.elements ++ [value], element.filled = false := by
      intro element member
      rcases List.mem_append.mp member with member | member
      · exact unnested ctx (stack ▸ List.mem_cons_self) element member
      · rw [List.mem_singleton.mp member]
        exact unfilled
    split
    · rintro _ ⟨⟩
      exact collected
    · intro other member
      rcases List.mem_cons.mp member with rfl | member
      · exact collected
      · exact unnested other (stack ▸ List.mem_cons_of_mem _ member)

theorem withLine_unnested (unnested : parser.Unnested) {unread : Bytes} {use : Bytes → Bytes → Next}
    (keeps : ∀ line rest, (use line rest).Keeps RespParser.Unnested Halt.Flat) :
    (parser.withLine unread use).Keeps RespParser.Unnested Halt.Flat := by
  unfold RespParser.withLine
  split
  · exact unnested
  · exact keeps _ _

theorem withInteger_unnested (unnested : parser.Unnested) {unread : Bytes} {message : String}
    {valid : Int → Bool} {use : Int → RespParser → Bytes → Next}
    (keeps : ∀ size count rest,
      (use size (parser.advance count) rest).Keeps RespParser.Unnested Halt.Flat) :
    (parser.withInteger unread message valid use).Keeps RespParser.Unnested Halt.Flat := by
  refine withLine_unnested unnested fun line rest => ?_
  split
  · exact keeps _ _ _
  · exact fun _ => nofun

/-- **An iteration collects only values without elements**, and halts with a flat one. -/
theorem step_unnested (parser : RespParser) (unread : Bytes) (unnested : parser.Unnested) :
    (parser.step unread).Keeps RespParser.Unnested Halt.Flat := by
  have advanced (count : Nat) : (parser.advance count).Unnested := unnested
  unfold RespParser.step
  split
  case h_1 =>
    unfold RespParser.parseStart
    split
    · exact unnested
    · split
      · exact unnested
      · exact fun _ => nofun
  case h_2 => exact withLine_unnested unnested fun _ _ => finish_unnested (advanced _) rfl _
  case h_3 => exact withLine_unnested unnested fun _ _ => finish_unnested (advanced _) rfl _
  case h_4 => exact withInteger_unnested unnested fun _ _ _ => finish_unnested (advanced _) rfl _
  case h_5 =>
    refine withInteger_unnested unnested fun size count rest => ?_
    split
    · have sized : ({ parser.advance count with bulkSize := size } : RespParser).Unnested :=
        unnested
      exact finish_unnested sized rfl _
    · exact unnested
  case h_6 =>
    unfold RespParser.parseBulkStringData
    split
    · exact unnested
    · dsimp only
      split
      · split
        · exact fun _ => nofun
        · have full (taken : Bytes) : ((parser.absorb taken).advance 2).Unnested := unnested
          exact finish_unnested (full _) rfl _
      · exact unnested
  case h_7 =>
    refine withInteger_unnested unnested fun size count rest => ?_
    split_ifs
    · exact finish_unnested (advanced _) rfl _
    · exact finish_unnested (advanced _) rfl _
    · exact fun _ => nofun
    · exact fun _ => nofun
    · intro ctx member
      rcases List.mem_cons.mp member with rfl | member
      · exact fun _ => nofun
      · exact unnested ctx member
  case h_8 => exact unnested

end Unnested

/-- **A fresh parser returns only flat values**, whatever it is given. -/
theorem parse_flat {data : Bytes} {value : RespValue} {processed : Nat} {last : RespParser}
    (parsed : RespParser.parse {} data = some (.success value processed, last)) : value.Flat := by
  have some : data ≠ [] := by
    rintro rfl
    cases parsed
  obtain ⟨ending, returns, same⟩ := (parse_eq_some_iff some).mp parsed
  have fresh : ({} : RespParser).Unnested := fun _ => nofun
  rcases ending with _ | ⟨_ | _ | _, final, unread⟩ <;> cases same
  exact returns.good step_unnested fresh value rfl

/-! ### Reading back -/

/-- **The encoding of a value is read back, whatever follows it, exactly when no element of the
value is itself an array with elements.** -/
theorem parse_encode_iff (value : RespValue) (readable : value.Every RespValue.Readable)
    (rest : Bytes) :
    (∃ last, RespParser.parse {} (value.encode ++ rest) =
      some (.success value value.encode.length, last)) ↔ value.Flat := by
  constructor
  · rintro ⟨last, parsed⟩
    exact parse_flat parsed
  · intro flat
    have awaits := awaits_flat readable flat
    obtain ⟨last, returns⟩ := awaits.2 rest
    obtain ⟨taken, whole, counted⟩ := returns_counts returns
    obtain rfl : value.encode = taken := List.append_cancel_right whole
    have processed : last.processedBytes = value.encode.length := counted.trans (Nat.zero_add _)
    refine ⟨last, ?_⟩
    rw [parse_eq_some_iff (List.append_ne_nil_of_left_ne_nil awaits.1 rest)]
    refine ⟨_, returns, ?_⟩
    rw [conclude, processed]

/-- A line that ends in a carriage return, a body that looks like a header, and arrays without
elements. -/
theorem parse_encode_mixed :
    ∃ last, RespParser.parse {} ((RespValue.array [.simpleString (text "a\r"), .integer (-7),
        .bulkString (text "*1\r\n"), .array [], .nullArray, .nullBulkString]).encode ++ text "+") =
      some (.success (.array [.simpleString (text "a\r"), .integer (-7),
        .bulkString (text "*1\r\n"), .array [], .nullArray, .nullBulkString]) 38, last) := by
  have scalar {value : RespValue} (other : ∀ values, value ≠ .array values)
      (readable : value.Readable) : value.Every RespValue.Readable := .leaf other readable
  refine (parse_encode_iff (.array [.simpleString (text "a\r"), .integer (-7),
    .bulkString (text "*1\r\n"), .array [], .nullArray, .nullBulkString]) ?_ _).mpr ?_
  · refine .array (by decide) ?_
    simp only [List.forall_mem_cons]
    exact ⟨scalar nofun (by decide), scalar nofun (by decide), scalar nofun (by decide),
      .array (by decide) nofun, scalar nofun trivial, scalar nofun trivial, nofun⟩
  · simp only [RespValue.Flat, List.forall_mem_cons]
    exact ⟨rfl, rfl, rfl, rfl, rfl, rfl, nofun⟩

mutual

/-- How deep arrays are nested. -/
def RespValue.depth : RespValue → Nat
  | .array values => RespValue.depthAll values + 1
  | _ => 0

/-- The depth of the deepest element. -/
def RespValue.depthAll : List RespValue → Nat
  | [] => 0
  | value :: values => max value.depth (RespValue.depthAll values)

end

/-- An array whose only element is an array with one element: the result is the inner array. -/
theorem parse_encode_nested :
    (RespValue.array [.array [.integer 1]]).Every RespValue.Readable ∧
    (RespValue.array [.array [.integer 1]]).depth = 2 ∧
    (∃ last, RespParser.parse {} (RespValue.array [.array [.integer 1]]).encode =
      some (.success (.array [.integer 1]) 12, last)) ∧
    ¬ ∃ last, RespParser.parse {} (RespValue.array [.array [.integer 1]]).encode =
      some (.success (.array [.array [.integer 1]])
        (RespValue.array [.array [.integer 1]]).encode.length, last) := by
  have number : (RespValue.integer 1).Every RespValue.Readable :=
    .leaf nofun (by decide)
  have inner : (RespValue.array [.integer 1]).Every RespValue.Readable :=
    .array (by decide) (by simpa using number)
  refine ⟨.array (by decide) (by simpa using inner), by decide, ⟨_, rfl⟩, ?_⟩
  rintro ⟨last, parsed⟩
  exact absurd (parse_flat parsed _ List.mem_cons_self) (by decide)

end SunKV.Protocol
