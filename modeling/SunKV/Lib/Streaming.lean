/-
**Decoders of a stream.**

A decoder looks at the input received so far: it begins with a value that ends somewhere, it begins
with nothing that could become a value, or more is needed to tell.

* `Extends decode other` — what `decode` settles, `other` settles the same way, whatever arrives
  later. A decoder that extends itself (`Stable`) never takes back an answer.
* `repeated` — a decoder repeated a number of times; it inherits all this (`Extends.repeated`,
  `Bounded.repeated`, `repeated_congr`).
* `Reads decode spelling meaning` — whatever follows it, the spelling is decoded to its meaning, a
  value or a failure. `Reads.incomplete_of_front` — of a strict front of the spelling of a value a
  stable decoder can only say that more is needed.
-/

import Mathlib.Logic.Basic
import Mathlib.Data.List.Basic

namespace SunKV.Lib

/-- What a decoder says about the input received so far. -/
inductive Outcome (β ε : Type)
  | failed (error : ε)
  | incomplete
  | complete (value : β) (consumed : Nat)

section Streaming

variable {α β ε : Type}

/-- The outcome with another value. -/
def Outcome.map {γ : Type} (convert : β → γ) : Outcome β ε → Outcome γ ε
  | .failed error => .failed error
  | .incomplete => .incomplete
  | .complete value consumed => .complete (convert value) consumed

theorem Outcome.map_eq_incomplete {γ : Type} {convert : β → γ} {outcome : Outcome β ε} :
    outcome.map convert = .incomplete ↔ outcome = .incomplete := by
  cases outcome <;> simp [Outcome.map]

theorem Outcome.map_eq_complete {γ : Type} {convert : β → γ} {outcome : Outcome β ε} {value : γ}
    {consumed : Nat} (mapped : outcome.map convert = .complete value consumed) :
    ∃ source, outcome = .complete source consumed := by
  cases outcome with
  | complete source count =>
    cases mapped
    exact ⟨source, rfl⟩
  | failed => cases mapped
  | incomplete => cases mapped

/-- **What `decode` settles, `other` settles the same way**, whatever arrives later. -/
def Extends (decode other : List α → Outcome β ε) : Prop :=
  ∀ input later, decode input ≠ .incomplete → other (input ++ later) = decode input

/-- A value is taken from the input there is. -/
def Bounded (decode : List α → Outcome β ε) : Prop :=
  ∀ input value consumed, decode input = .complete value consumed → consumed ≤ input.length

/-- **A decoder that never takes back an answer.** -/
structure Stable (decode : List α → Outcome β ε) : Prop where
  keeps : Extends decode decode
  bounded : Bounded decode

/-! ### Repetition -/

/-- **A decoder repeated**, from an offset on and with the values collected so far; `stuck` is the
failure of a value that takes nothing. -/
def repeated (decode : List α → Outcome β ε) (stuck : ε) :
    Nat → List α → Nat → List β → Outcome (List β) ε
  | 0, _, offset, values => .complete values offset
  | count + 1, input, offset, values =>
    match decode input with
    | .failed error => .failed error
    | .incomplete => .incomplete
    | .complete value consumed =>
      if consumed = 0 then .failed stuck
      else repeated decode stuck count (input.drop consumed) (offset + consumed) (values ++ [value])

section Many

variable {decode other : List α → Outcome β ε} {stuck : ε} {count offset : Nat} {input : List α}
  {values : List β}

theorem repeated_failed {error : ε} (failed : decode input = .failed error) :
    repeated decode stuck (count + 1) input offset values = .failed error := by
  rw [repeated, failed]

theorem repeated_incomplete (more : decode input = .incomplete) :
    repeated decode stuck (count + 1) input offset values = .incomplete := by
  rw [repeated, more]

theorem repeated_stuck {value : β} (complete : decode input = .complete value 0) :
    repeated decode stuck (count + 1) input offset values = .failed stuck := by
  rw [repeated, complete]
  exact if_pos rfl

theorem repeated_complete {value : β} {consumed : Nat}
    (complete : decode input = .complete value consumed)
    (some : consumed ≠ 0) :
    repeated decode stuck (count + 1) input offset values =
      repeated decode stuck count (input.drop consumed) (offset + consumed)
        (values ++ [value]) := by
  rw [repeated, complete]
  exact if_neg some

/-- Repetition keeps what is settled. -/
theorem Extends.repeated (extended : Extends decode other) (bounded : Bounded decode)
    (settled : repeated decode stuck count input offset values ≠ .incomplete) (later : List α) :
    repeated other stuck count (input ++ later) offset values =
      repeated decode stuck count input offset values := by
  induction count generalizing input offset values with
  | zero => rfl
  | succ count ih =>
    cases first : decode input with
    | incomplete => exact absurd (repeated_incomplete first) settled
    | failed error =>
      have same := extended input later (by rw [first]; nofun)
      rw [repeated_failed first, repeated_failed (same.trans first)]
    | complete value consumed =>
      have same := extended input later (by rw [first]; nofun)
      rcases Nat.eq_zero_or_pos consumed with rfl | pos
      · rw [repeated_stuck first, repeated_stuck (same.trans first)]
      · have some : consumed ≠ 0 := Nat.ne_of_gt pos
        rw [repeated_complete first some] at settled
        rw [repeated_complete first some, repeated_complete (same.trans first) some,
          List.drop_append_of_le_length (bounded input value consumed first)]
        exact ih settled

/-- Repetition takes from the input there is. -/
theorem Bounded.repeated (bounded : Bounded decode) {result : List β} {consumed : Nat}
    (complete : repeated decode stuck count input offset values = .complete result consumed) :
    consumed ≤ offset + input.length := by
  induction count generalizing input offset values with
  | zero =>
    cases complete
    exact Nat.le_add_right _ _
  | succ count ih =>
    cases first : decode input with
    | incomplete =>
      rw [repeated_incomplete first] at complete
      cases complete
    | failed error =>
      rw [repeated_failed first] at complete
      cases complete
    | complete value taken =>
      have enough := bounded input value taken first
      rcases Nat.eq_zero_or_pos taken with rfl | pos
      · rw [repeated_stuck first] at complete
        cases complete
      · rw [repeated_complete first (Nat.ne_of_gt pos)] at complete
        have rest := ih complete
        rw [List.length_drop] at rest
        omega

/-- Repetition only looks at what is left of the input. -/
theorem repeated_congr
    (same : ∀ part : List α, part.length ≤ input.length → decode part = other part) :
    repeated decode stuck count input offset values =
      repeated other stuck count input offset values := by
  induction count generalizing input offset values with
  | zero => rfl
  | succ count ih =>
    have here := same input (Nat.le_refl _)
    cases first : decode input with
    | incomplete => rw [repeated_incomplete first, repeated_incomplete (here.symm.trans first)]
    | failed error => rw [repeated_failed first, repeated_failed (here.symm.trans first)]
    | complete value consumed =>
      rcases Nat.eq_zero_or_pos consumed with rfl | pos
      · rw [repeated_stuck first, repeated_stuck (here.symm.trans first)]
      · rw [repeated_complete first (Nat.ne_of_gt pos),
          repeated_complete (here.symm.trans first) (Nat.ne_of_gt pos)]
        refine ih fun part short => same part ?_
        rw [List.length_drop] at short
        omega

end Many

/-! ### Spellings -/

/-- The outcome of a meaning spelled in so much input. -/
def settled (length : Nat) : Except ε β → Outcome β ε
  | .ok value => .complete value length
  | .error error => .failed error

/-- **Whatever follows it, the spelling is decoded to its meaning.** -/
def Reads (decode : List α → Outcome β ε) (spelling : List α) (meaning : Except ε β) : Prop :=
  ∀ rest, decode (spelling ++ rest) = settled spelling.length meaning

/-- **A strict front of a value leaves a stable decoder waiting.** -/
theorem Reads.incomplete_of_front {decode : List α → Outcome β ε} {front back : List α} {value : β}
    (reads : Reads decode (front ++ back) (.ok value)) (stable : Stable decode) (more : back ≠ []) :
    decode front = .incomplete := by
  by_contra answered
  have whole := reads []
  rw [List.append_nil, stable.keeps front back answered] at whole
  have enough := stable.bounded front value _ whole
  have pos := List.length_pos_iff.mpr more
  rw [List.length_append] at enough
  omega

end Streaming

end SunKV.Lib
