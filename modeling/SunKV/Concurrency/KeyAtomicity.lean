/-
**Two operations on one key, call by call.**

Every backend call is atomic, an engine operation is a sequence of them. Two operations on one key
interleave call by call, in the order a schedule gives; the readings of the clock belong to the
operation that makes them (`atClock`), so an operation run alone sees the times it saw in the
interleaving.

* `interleave_operations_serial` — an interleaving in which no call changes the store while the
  other operation is between its first call and its end, nor while the other has changed it and has
  calls left, has the results and the store of one of the two serial orders.
* `interleave_lpush_lost` — without that, one of two acknowledged `LPUSH`es is lost: both read
  before either writes.
-/

import SunKV.Storage.Engine

namespace SunKV.Concurrency

open SunKV.Lib SunKV.Lib.Program SunKV.Storage

/-! ### Operations and their clocks -/

/-- What can run on one key: a client's command (the TTL cleanup thread issues `pttl`), or the
visit of the snapshot thread. -/
inductive Operation
  | command (issued : Command)
  | visit (key : Bytes)

/-- What an operation returns. -/
inductive Outcome
  | result (result : StorageResult Reply)
  | visited (record : Option Record) (mutations : MutationBatch)
  deriving DecidableEq

/-- The backend calls of an operation. -/
def Operation.program : Operation → Engine Outcome
  | .command issued => return .result (← issued.program)
  | .visit key => do
    let (record, mutations) ← getLiveRecordOrExpire key
    return .visited record mutations

/-- The program with the readings of its clock filled in, so that only backend calls remain. -/
def atClock {α : Type} (clock : Nat → Int64) : Nat → Engine α → Engine α
  | _, .pure value => .pure value
  | reading, .query .nowEpochUs next => atClock clock (reading + 1) (next (clock reading))
  | reading, .query (.getRecord key) next =>
      .query (.getRecord key) fun answer => atClock clock reading (next answer)
  | reading, .query (.putRecord key record) next =>
      .query (.putRecord key record) fun answer => atClock clock reading (next answer)
  | reading, .query (.delKey key) next =>
      .query (.delKey key) fun answer => atClock clock reading (next answer)
  | reading, .query .clearAll next =>
      .query .clearAll fun answer => atClock clock reading (next answer)
  | reading, .query .size next =>
      .query .size fun answer => atClock clock reading (next answer)
  | reading, .query .keys next =>
      .query .keys fun answer => atClock clock reading (next answer)
  | reading, .query (.setBypassStorageLimit on) next =>
      .query (.setBypassStorageLimit on) fun answer => atClock clock reading (next answer)

/-- An operation with its clock. -/
structure Client where
  operation : Operation
  clock : Nat → Int64

/-- The backend calls of a client. -/
def Client.program (client : Client) : Engine Outcome :=
  atClock client.clock 0 client.operation.program

/-! ### Two operations -/

/-- **A disciplined interleaving of two operations is serial**, on one key or on two. -/
theorem interleave_operations_serial (env : Env) (left right : Client)
    (schedule : List Side) (world : World)
    (disciplined : Disciplined env.handle schedule left.program .fresh right.program .fresh world)
    (leftOutcome rightOutcome : Outcome) (final : World)
    (finished : interleave env.handle schedule left.program right.program world =
      (.pure leftOutcome, .pure rightOutcome, final)) :
    (leftOutcome, rightOutcome, final) = serial env.handle left.program right.program world ∨
      (leftOutcome, rightOutcome, final) =
        serialRight env.handle left.program right.program world :=
  interleave_serial schedule left.program right.program world disciplined finished

/-- A command at a clock that shows zero. -/
def Client.atZero (command : Command) : Client := ⟨.command command, fun _ => 0⟩

/-- A `GET` that reads between the read and the first write of an `LPUSH`. -/
theorem interleave_lpush_get :
    ∃ leftOutcome rightOutcome final,
      interleave (Env.still 0).handle [.left, .right, .left, .left]
        (Client.atZero (.lpush [107] [[1]])).program (Client.atZero (.get [107])).program {} =
        (.pure leftOutcome, .pure rightOutcome, final) ∧
      ((leftOutcome, rightOutcome, final) = serial (Env.still 0).handle
          (Client.atZero (.lpush [107] [[1]])).program (Client.atZero (.get [107])).program {} ∨
        (leftOutcome, rightOutcome, final) = serialRight (Env.still 0).handle
          (Client.atZero (.lpush [107] [[1]])).program
          (Client.atZero (.get [107])).program {}) := by
  refine ⟨_, _, _, rfl, interleave_operations_serial (Env.still 0)
    (Client.atZero (.lpush [107] [[1]])) (Client.atZero (.get [107]))
    [.left, .right, .left, .left] {} ?_ _ _ _ rfl⟩
  -- the list has only been read when the `GET` comes, and the `GET` is over after one call
  refine ⟨fun _ flight => flight.1.elim, fun _ _ => ⟨?_, rfl⟩, fun _ flight => flight.2.elim,
    fun _ flight => flight.2.elim, trivial⟩
  have reads : (Client.atZero (.lpush [107] [[1]])).program.calls := trivial
  rw [phaseAfter, if_pos reads]
  rintro (never | changed)
  · exact never
  · exact changed rfl

/-- Two `LPUSH`es on an absent key, both reading before either writes: both are acknowledged with
length one, and one element is lost. -/
theorem interleave_lpush_lost :
    ∃ leftOutcome rightOutcome final,
      interleave (Env.still 0).handle [.left, .right, .left, .right, .left, .right]
        (Client.atZero (.lpush [107] [[1]])).program
        (Client.atZero (.lpush [107] [[2]])).program {} =
        (.pure leftOutcome, .pure rightOutcome, final) ∧
      (leftOutcome, rightOutcome, final) ≠ serial (Env.still 0).handle
        (Client.atZero (.lpush [107] [[1]])).program
        (Client.atZero (.lpush [107] [[2]])).program {} ∧
      (leftOutcome, rightOutcome, final) ≠ serialRight (Env.still 0).handle
        (Client.atZero (.lpush [107] [[1]])).program
        (Client.atZero (.lpush [107] [[2]])).program {} :=
  ⟨_, _, _, rfl, by decide +kernel, by decide +kernel⟩

end SunKV.Concurrency
