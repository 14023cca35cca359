/-
**Loops of compare-and-exchange.**

A thread raises a shared register: it loads a value, and as long as it wants another one it tries to
exchange the value it has seen for the next one. The exchange fails if the register has changed in
the meantime, and the weak one may fail without a reason; then the thread has seen what the register
holds now.

* `Attempted` — what one pass of the loop can do;
* `Attempted.le` — a loop that only goes up never lowers the register;
* `Attempted.reaches` — and when it ends, the register has what it wanted.
-/

import Mathlib.Order.Basic

namespace SunKV.Lib

/-- A loop: the values that are not enough for it, and what it puts in their place. -/
structure CasLoop (ν : Type) where
  wants : ν → Bool
  next : ν → ν

section Loop

variable {ν : Type} [DecidableEq ν] (loop : CasLoop ν)

/-- **One pass**: the register afterwards, and the value that the thread has seen then, `none` when
the loop has ended. -/
def CasLoop.attempt (register seen : ν) (spurious : Bool) : ν × Option ν :=
  if loop.wants seen then
    if register = seen ∧ spurious = false then (loop.next seen, some (loop.next seen))
    else (register, some register)
  else (register, none)

/-- What one pass can do. -/
inductive CasLoop.Attempted (register seen : ν) : ν → Option ν → Prop
  | exchanged (wants : loop.wants seen = true) (same : register = seen) :
      Attempted register seen (loop.next seen) (some (loop.next seen))
  | failed (wants : loop.wants seen = true) : Attempted register seen register (some register)
  | ended (enough : loop.wants seen = false) : Attempted register seen register none

theorem CasLoop.attempted (register seen : ν) (spurious : Bool) :
    loop.Attempted register seen (loop.attempt register seen spurious).1
      (loop.attempt register seen spurious).2 := by
  unfold CasLoop.attempt
  split
  case isTrue wants =>
    split
    case isTrue exchanges => exact .exchanged wants exchanges.1
    case isFalse => exact .failed wants
  case isFalse enough => exact .ended (Bool.eq_false_iff.mpr enough)

end Loop

section Order

variable {ν : Type} [Preorder ν] {loop : CasLoop ν} {register seen register' : ν} {now : Option ν}

/-- **The register is never lowered.** -/
theorem CasLoop.Attempted.le (attempted : loop.Attempted register seen register' now)
    (up : loop.wants seen = true → seen ≤ loop.next seen) : register ≤ register' := by
  cases attempted with
  | exchanged wants same => exact same ▸ up wants
  | failed => exact le_rfl
  | ended => exact le_rfl

/-- What the thread has seen is not above the register. -/
theorem CasLoop.Attempted.seen_le (attempted : loop.Attempted register seen register' now) :
    ∀ value ∈ now, value ≤ register' := by
  rintro value ⟨⟩
  cases attempted <;> exact le_rfl

/-- **When the loop ends, the register is at least what was enough.** -/
theorem CasLoop.Attempted.reaches (attempted : loop.Attempted register seen register' none)
    (below : seen ≤ register) : loop.wants seen = false ∧ seen ≤ register' := by
  cases attempted with
  | ended enough => exact ⟨enough, below⟩

end Order

end SunKV.Lib
