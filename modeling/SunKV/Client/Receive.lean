/-
**The receive loop of the client.**

`recvOneRespWithTimeout` parses what the buffer holds, and as long as that is incomplete waits for
the socket and appends what it reads. The waits and reads of a call are given as a list; a call that
gets to its end is still waiting.

* `recv_cases` — what a call can do, with the reads it used.
* `replies_decoded` — the decoder reads back every value without null arrays and waits on every
  strict prefix, so the values received do not depend on how the stream is cut into reads.
-/

import SunKV.Client.Codec

namespace SunKV.Client

open SunKV.Lib SunKV.Protocol

/-- `enum class ErrorCode`, as far as calls on a connection return it. -/
inductive ErrorCode
  | notConnected
  | timeout
  | ioError
  | protocolError
  | serverError
  | invalidArgument
  deriving DecidableEq

/-- `struct Result`, and the exception a call may end with instead. -/
inductive Result (α : Type)
  | success (value : α)
  | failure (code : ErrorCode) (message : Bytes)
  | thrown

/-- **What waiting for the socket and reading from it comes to.** -/
inductive Read
  | timeout
  | selectFailed (reason : Bytes)
  | data (bytes : Bytes)
  | closed
  | interrupted
  | recvFailed (reason : Bytes)

/-- The error a wait or a read ends a call with. -/
def Read.error : Read → Option (ErrorCode × Bytes)
  | .timeout => some (.timeout, text "I/O timeout")
  | .selectFailed reason => some (.ioError, text "select failed: " ++ reason)
  | .data _ => none
  | .closed => some (.ioError, text "peer closed connection")
  | .interrupted => none
  | .recvFailed reason => some (.ioError, text "recv failed: " ++ reason)

/-- The bytes of a read. -/
def Read.bytes : Read → Bytes
  | .data bytes => bytes
  | _ => []

/-- The bytes of some reads. -/
def arrived (reads : List Read) : Bytes := reads.flatMap Read.bytes

/-- What a call returns, and the buffer and the reads it leaves. -/
structure Receipt where
  result : Result RespValue
  inbuf : Bytes
  later : List Read

/-- `inbuf.erase(0, consumed)` behind its check. -/
def eraseFront (inbuf : Bytes) (consumed : Nat) : Bytes :=
  if 0 < consumed ∧ consumed ≤ inbuf.length then inbuf.drop consumed else inbuf

/-- **`recvOneRespWithTimeout`**: `none` while the call is still waiting. -/
def recvOneRespWithTimeout (readTimeoutMs : Int) (inbuf : Bytes) (reads : List Read) :
    Option Receipt :=
  match parseRespValue inbuf with
  | .failed (.error message) => some ⟨.failure .protocolError message, inbuf, reads⟩
  | .failed .thrown => some ⟨.thrown, inbuf, reads⟩
  | .complete value consumed => some ⟨.success value, eraseFront inbuf consumed, reads⟩
  | .incomplete =>
    if readTimeoutMs < 0 then
      some ⟨.failure .invalidArgument (text "negative timeout"), inbuf, reads⟩
    else
      match reads with
      | [] => none
      | read :: reads =>
        match read.error with
        | some (code, message) => some ⟨.failure code message, inbuf, reads⟩
        | none => recvOneRespWithTimeout readTimeoutMs (inbuf ++ read.bytes) reads

/-! ### What a call does -/

section Calls

variable {readTimeoutMs : Int} {inbuf : Bytes} {reads : List Read} {receipt : Receipt}

/-- **What a call can do once it holds `buffer`**, having used some of the reads. -/
inductive Receives (readTimeoutMs : Int) (used : List Read) (buffer : Bytes) :
    Result RespValue → Bytes → Prop
  | success {value : RespValue} {consumed : Nat}
      (complete : parseRespValue buffer = .complete value consumed) :
      Receives readTimeoutMs used buffer (.success value) (buffer.drop consumed)
  | protocolError {message : Bytes} (failed : parseRespValue buffer = .failed (.error message)) :
      Receives readTimeoutMs used buffer (.failure .protocolError message) buffer
  | thrown (failed : parseRespValue buffer = .failed .thrown) :
      Receives readTimeoutMs used buffer .thrown buffer
  | negative (message : Bytes) (negative : readTimeoutMs < 0)
      (more : parseRespValue buffer = .incomplete) :
      Receives readTimeoutMs used buffer (.failure .invalidArgument message) buffer
  | ended {read : Read} {code : ErrorCode} {message : Bytes} (member : read ∈ used)
      (error : read.error = some (code, message)) :
      Receives readTimeoutMs used buffer (.failure code message) buffer

theorem eraseFront_eq {value : RespValue} {consumed : Nat}
    (complete : parseRespValue inbuf = .complete value consumed) :
    eraseFront inbuf consumed = inbuf.drop consumed := by
  have bounded := parseRespValue_stable.bounded inbuf value consumed complete
  unfold eraseFront
  split
  · rfl
  · obtain rfl : consumed = 0 := by omega
    rfl

/-- A call that does not wait. -/
theorem recv_settled (reads : List Read)
    (settled : parseRespValue inbuf ≠ .incomplete ∨ readTimeoutMs < 0) :
    ∃ result left, recvOneRespWithTimeout readTimeoutMs inbuf reads = some ⟨result, left, reads⟩ ∧
      Receives readTimeoutMs [] inbuf result left := by
  unfold recvOneRespWithTimeout
  cases parsed : parseRespValue inbuf with
  | failed fault =>
    cases fault with
    | error message => exact ⟨_, _, rfl, .protocolError parsed⟩
    | thrown => exact ⟨_, _, rfl, .thrown parsed⟩
  | complete value consumed =>
    refine ⟨_, _, rfl, ?_⟩
    rw [eraseFront_eq parsed]
    exact .success parsed
  | incomplete =>
    have negative := settled.resolve_left (fun other => other parsed)
    exact ⟨_, _, if_pos negative, .negative _ negative parsed⟩

theorem recv_wait (more : parseRespValue inbuf = .incomplete) (patient : ¬ readTimeoutMs < 0) :
    recvOneRespWithTimeout readTimeoutMs inbuf [] = none := by
  unfold recvOneRespWithTimeout
  rw [more]
  exact if_neg patient

theorem recv_end {read : Read} {code : ErrorCode} {message : Bytes}
    (more : parseRespValue inbuf = .incomplete) (patient : ¬ readTimeoutMs < 0)
    (error : read.error = some (code, message)) :
    recvOneRespWithTimeout readTimeoutMs inbuf (read :: reads) =
      some ⟨.failure code message, inbuf, reads⟩ := by
  unfold recvOneRespWithTimeout
  simp only [more, patient, if_false, error]

theorem recv_more {read : Read} (more : parseRespValue inbuf = .incomplete)
    (patient : ¬ readTimeoutMs < 0) (quiet : read.error = none) :
    recvOneRespWithTimeout readTimeoutMs inbuf (read :: reads) =
      recvOneRespWithTimeout readTimeoutMs (inbuf ++ read.bytes) reads := by
  rw [recvOneRespWithTimeout]
  simp only [more, patient, if_false, quiet]

/-- A read more does not change what a call does. -/
theorem Receives.cons {used : List Read} {buffer left : Bytes} {result : Result RespValue}
    (receives : Receives readTimeoutMs used buffer result left) (patient : ¬ readTimeoutMs < 0)
    (read : Read) : Receives readTimeoutMs (read :: used) buffer result left := by
  cases receives with
  | success complete => exact .success complete
  | protocolError failed => exact .protocolError failed
  | thrown failed => exact .thrown failed
  | negative _ negative _ => exact absurd negative patient
  | ended member error => exact .ended (List.mem_cons_of_mem _ member) error

/-- **A call uses some of the reads** and ends as the buffer, the last read or the timeout says. -/
theorem recv_cases (received : recvOneRespWithTimeout readTimeoutMs inbuf reads = some receipt) :
    ∃ used, reads = used ++ receipt.later ∧
      Receives readTimeoutMs used (inbuf ++ arrived used) receipt.result receipt.inbuf := by
  induction reads generalizing inbuf with
  | nil =>
    by_cases settled : parseRespValue inbuf ≠ .incomplete ∨ readTimeoutMs < 0
    · obtain ⟨result, left, same, receives⟩ := recv_settled [] settled
      obtain rfl := Option.some.inj (received.symm.trans same)
      exact ⟨[], rfl, by rwa [arrived, List.flatMap_nil, List.append_nil]⟩
    · push Not at settled
      rw [recv_wait settled.1 (Int.not_lt.mpr settled.2)] at received
      cases received
  | cons read reads ih =>
    by_cases settled : parseRespValue inbuf ≠ .incomplete ∨ readTimeoutMs < 0
    · obtain ⟨result, left, same, receives⟩ := recv_settled (read :: reads) settled
      obtain rfl := Option.some.inj (received.symm.trans same)
      exact ⟨[], rfl, by rwa [arrived, List.flatMap_nil, List.append_nil]⟩
    · push Not at settled
      have patient : ¬ readTimeoutMs < 0 := Int.not_lt.mpr settled.2
      cases error : read.error with
      | some failure =>
        rw [recv_end settled.1 patient error] at received
        obtain rfl := Option.some.inj received
        refine ⟨[read], rfl, ?_⟩
        have nothing : read.bytes = [] := by
          cases read with
          | data => cases error
          | _ => rfl
        rw [arrived, List.flatMap_singleton, nothing, List.append_nil]
        exact .ended List.mem_cons_self error
      | none =>
        rw [recv_more settled.1 patient error] at received
        obtain ⟨used, rfl, receives⟩ := ih received
        refine ⟨read :: used, rfl, ?_⟩
        rw [arrived, List.flatMap_cons, ← List.append_assoc]
        exact receives.cons patient read

theorem recv_unsettled (waiting : recvOneRespWithTimeout readTimeoutMs inbuf reads = none) :
    parseRespValue inbuf = .incomplete ∧ ¬ readTimeoutMs < 0 := by
  have unsettled : ¬ (parseRespValue inbuf ≠ .incomplete ∨ readTimeoutMs < 0) := by
    intro settled
    obtain ⟨result, left, same, -⟩ := recv_settled reads settled
    rw [same] at waiting
    cases waiting
  push Not at unsettled
  exact ⟨unsettled.1, Int.not_lt.mpr unsettled.2⟩

/-- A call that is still waiting holds all that has arrived, and that is incomplete. -/
theorem recv_eq_none (waiting : recvOneRespWithTimeout readTimeoutMs inbuf reads = none) :
    parseRespValue (inbuf ++ arrived reads) = .incomplete := by
  obtain ⟨more, patient⟩ := recv_unsettled waiting
  induction reads generalizing inbuf with
  | nil => exact (congrArg parseRespValue (List.append_nil inbuf)).trans more
  | cons read reads ih =>
    cases error : read.error with
    | some failure =>
      rw [recv_end more patient error] at waiting
      cases waiting
    | none =>
      rw [recv_more more patient error] at waiting
      have later := ih waiting (recv_unsettled waiting).1
      rwa [List.append_assoc] at later

/-- **A call that takes a value off a stream takes the first one.** -/
theorem recv_first {spelling rest future : Bytes} {meant : Except Fault RespValue}
    (reads_spelling : Reads parseRespValue spelling meant) {used : List Read} {value : RespValue}
    {left : Bytes} (receives : Receives readTimeoutMs used inbuf (.success value) left)
    (stream : inbuf ++ future = spelling ++ rest) : meant = .ok value ∧ left ++ future = rest := by
  cases receives with
  | success complete =>
    rename_i consumed
    have whole := parseRespValue_stable.keeps inbuf future (by rw [complete]; nofun)
    have enough := parseRespValue_stable.bounded inbuf value consumed complete
    rw [stream, reads_spelling rest, complete] at whole
    cases meant with
    | error fault => cases whole
    | ok meant =>
      obtain ⟨rfl, rfl⟩ := Outcome.complete.inj whole
      refine ⟨rfl, ?_⟩
      rw [← List.drop_append_of_le_length enough, stream, List.drop_left]

end Calls

/-! ### Calls on a stream -/

/-- So many calls, one after the other: their results, and the buffer and the reads left. -/
def receiveAll (readTimeoutMs : Int) :
    Nat → Bytes → List Read → Option (List (Result RespValue) × Bytes × List Read)
  | 0, inbuf, reads => some ([], inbuf, reads)
  | calls + 1, inbuf, reads => do
    let receipt ← recvOneRespWithTimeout readTimeoutMs inbuf reads
    let (results, inbuf, reads) ← receiveAll readTimeoutMs calls receipt.inbuf receipt.later
    return (receipt.result :: results, inbuf, reads)

/-- A value that the client can hold: one that can be sent, and no null array. -/
def Receivable (value : Protocol.RespValue) : Prop := Sendable value ∧ value ≠ .nullArray

theorem meanings_ok {values : List Protocol.RespValue}
    (each : ∀ value ∈ values, ∃ reply, meaning value = .ok reply) :
    ∃ replies, meanings values = .ok replies := by
  induction values with
  | nil => exact ⟨[], rfl⟩
  | cons value values ih =>
    obtain ⟨reply, first⟩ := each value List.mem_cons_self
    obtain ⟨replies, others⟩ := ih fun other member => each other (List.mem_cons_of_mem _ member)
    refine ⟨reply :: replies, ?_⟩
    rw [meanings, first, others]
    rfl

theorem meaning_ok {value : Protocol.RespValue} (receivable : value.Every Receivable) :
    ∃ reply, meaning value = .ok reply := by
  induction receivable with
  | @leaf value scalar here =>
    cases value with
    | array values => exact absurd rfl (scalar values)
    | nullArray => exact absurd rfl here.2
    | _ => exact ⟨_, rfl⟩
  | @array values _ _ ih =>
    obtain ⟨replies, all⟩ := meanings_ok ih
    refine ⟨.array replies, ?_⟩
    rw [meaning, all]
    rfl

/-- **A call on reads that bring the next value returns it.** -/
theorem recv_reads {readTimeoutMs : Int} (patient : 0 ≤ readTimeoutMs) {spelling rest : Bytes}
    {reply : RespValue} (reads_spelling : Reads parseRespValue spelling (.ok reply)) {inbuf : Bytes}
    {reads : List Read} (quiet : ∀ read ∈ reads, read.error = none)
    (stream : inbuf ++ arrived reads = spelling ++ rest) :
    ∃ left later, recvOneRespWithTimeout readTimeoutMs inbuf reads =
      some ⟨.success reply, left, later⟩ ∧ later ⊆ reads ∧ left ++ arrived later = rest := by
  cases received : recvOneRespWithTimeout readTimeoutMs inbuf reads with
  | none =>
    have waiting := recv_eq_none received
    rw [stream, reads_spelling rest] at waiting
    cases waiting
  | some receipt =>
    obtain ⟨result, left, later⟩ := receipt
    obtain ⟨used, rfl, receives⟩ := recv_cases received
    have stream' : inbuf ++ arrived used ++ arrived later = spelling ++ rest := by
      rw [← stream, List.append_assoc, arrived, arrived, arrived, List.flatMap_append]
    have whole : parseRespValue (inbuf ++ arrived used ++ arrived later) =
        .complete reply spelling.length := by
      rw [stream']
      exact reads_spelling rest
    have refused {fault : Fault} (failed : parseRespValue (inbuf ++ arrived used) = .failed fault) :
        False := by
      rw [parseRespValue_stable.keeps _ _ (by rw [failed]; nofun), failed] at whole
      cases whole
    dsimp only at receives
    cases result with
    | success value =>
      obtain ⟨same, left_over⟩ := recv_first reads_spelling receives stream'
      cases same
      exact ⟨left, later, rfl, List.subset_append_right _ _, left_over⟩
    | thrown =>
      cases receives with
      | thrown failed => exact (refused failed).elim
    | failure code message =>
      exfalso
      cases receives with
      | protocolError failed => exact refused failed
      | negative _ negative _ => omega
      | ended member error =>
        rw [quiet _ (List.mem_append_left _ member)] at error
        cases error

theorem receiveAll_reads {readTimeoutMs : Int} (patient : 0 ≤ readTimeoutMs)
    {values : List Protocol.RespValue} (receivable : ∀ value ∈ values, value.Every Receivable)
    {replies : List RespValue} (meant : meanings values = .ok replies) {inbuf rest : Bytes}
    {reads : List Read} (quiet : ∀ read ∈ reads, read.error = none)
    (stream : inbuf ++ arrived reads = Protocol.RespValue.encodeAll values ++ rest) :
    ∃ left later, receiveAll readTimeoutMs values.length inbuf reads =
      some (replies.map .success, left, later) ∧ left ++ arrived later = rest := by
  induction values generalizing inbuf reads replies with
  | nil =>
    cases meant
    exact ⟨inbuf, reads, rfl, stream⟩
  | cons value values ih =>
    have here := receivable value List.mem_cons_self
    have others (other : Protocol.RespValue) (member : other ∈ values) : other.Every Receivable :=
      receivable other (List.mem_cons_of_mem _ member)
    obtain ⟨reply, first⟩ := meaning_ok here
    obtain ⟨replies', later⟩ := meanings_ok fun other member => meaning_ok (others other member)
    obtain rfl : replies = reply :: replies' := by
      rw [meanings, first, later] at meant
      exact (Except.ok.inj meant).symm
    have reads_value := reads_encode (here.mono fun _ => And.left)
    rw [first] at reads_value
    rw [Protocol.RespValue.encodeAll, List.append_assoc] at stream
    obtain ⟨left, further, received, fewer, rest'⟩ := recv_reads patient reads_value quiet stream
    obtain ⟨left', further', all, rest''⟩ :=
      ih others later (fun read member => quiet read (fewer member)) rest'
    refine ⟨left', further', ?_, rest''⟩
    rw [List.length_cons, receiveAll, received]
    simp only [Option.bind_eq_bind, Option.bind_some, all]
    rfl

/-- **The decoder reads back every value without null arrays, and waits on every strict prefix of
one; so the calls on a stream return its values however it is cut into reads.** -/
theorem replies_decoded :
    (∀ value : Protocol.RespValue, value.Every Receivable → ∃ reply, meaning value = .ok reply ∧
      (∀ rest, parseRespValue (value.encode ++ rest) = .complete reply value.encode.length) ∧
      ∀ front, front <+: value.encode → front ≠ value.encode →
        parseRespValue front = .incomplete) ∧
    ∀ values : List Protocol.RespValue, (∀ value ∈ values, value.Every Receivable) →
      ∃ replies, meanings values = .ok replies ∧
        ∀ (readTimeoutMs : Int) (reads : List Read) (rest : Bytes), 0 ≤ readTimeoutMs →
          (∀ read ∈ reads, read.error = none) →
          arrived reads = Protocol.RespValue.encodeAll values ++ rest →
          ∃ left later, receiveAll readTimeoutMs values.length [] reads =
            some (replies.map .success, left, later) ∧ left ++ arrived later = rest := by
  constructor
  · intro value receivable
    obtain ⟨reply, meant⟩ := meaning_ok receivable
    have reads_value := reads_encode (receivable.mono fun _ => And.left)
    rw [meant] at reads_value
    refine ⟨reply, meant, reads_value, ?_⟩
    rintro front ⟨back, whole⟩ strict
    rw [← whole] at reads_value
    refine reads_value.incomplete_of_front parseRespValue_stable ?_
    rintro rfl
    exact strict ((List.append_nil front).symm.trans whole)
  · intro values receivable
    obtain ⟨replies, meant⟩ :=
      meanings_ok fun value member => meaning_ok (receivable value member)
    exact ⟨replies, meant, fun readTimeoutMs reads rest patient quiet stream =>
      receiveAll_reads patient receivable meant quiet stream⟩

/-- A nested array and an extreme integer, read with an interruption, the array cut between carriage
return and line feed. -/
theorem replies_decoded_cut :
    (parseRespValue (text "*1\r\n*1\r\n$1\r") = .incomplete) ∧
    ∃ left later, receiveAll 0 2 [] [.data (text "*1\r\n*1\r\n$1\r"), .interrupted,
        .data (text "\na\r\n:-9223372036854775808\r\n")] =
      some ([.success (.array [.array [.bulkString (text "a")]]),
        .success (.integer (-9223372036854775808))], left, later) ∧ left ++ arrived later = [] := by
  have scalar : (Protocol.RespValue.bulkString (text "a")).Every Receivable :=
    .leaf nofun ⟨by decide, nofun⟩
  have inner : (Protocol.RespValue.array [.bulkString (text "a")]).Every Receivable :=
    .array ⟨by decide, nofun⟩ (by simpa using scalar)
  have outer : (Protocol.RespValue.array [.array [.bulkString (text "a")]]).Every Receivable :=
    .array ⟨by decide, nofun⟩ (by simpa using inner)
  have number : (Protocol.RespValue.integer (-9223372036854775808)).Every Receivable :=
    .leaf nofun ⟨by decide, nofun⟩
  constructor
  · obtain ⟨reply, -, -, waits⟩ := replies_decoded.1 _ outer
    exact waits _ (by decide) (by decide)
  · obtain ⟨replies, meant, received⟩ := replies_decoded.2
      [.array [.array [.bulkString (text "a")]], .integer (-9223372036854775808)]
      (by simpa using ⟨outer, number⟩)
    cases meant
    exact received 0 _ [] (by decide) (by simp [Read.error]) (by decide)

end SunKV.Client
