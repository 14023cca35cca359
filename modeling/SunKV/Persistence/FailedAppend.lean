/-
**Appends that fail.**

`::write` may take only a front of its buffer, and may fail after that; `writeAll` then gives up in
the middle of an entry. Nothing cuts the file back and nothing marks the writer as broken, so the
next append goes on behind the torn entry.

* `stops` — where the disk stops a buffer, by the results of its `::write` calls; `writeAllCalls_eq`
  says that `writeAll` leaves exactly the bytes before that point.
* `Harmless` — every append that is stopped inside an entry is the last of which a byte is written.
* `appends_unpoisoned` — then the log can be read, and holds every mutation of every append that
  returned `true`, in order. An append that fails is a session that is cut, so this is what
  `decodeEntries_sessions` says of sessions.
-/

import SunKV.Persistence.Sessions

namespace SunKV.Persistence

open SunKV.Lib SunKV.Storage

/-! ### Writing -/

/-- A `::write`: how many of the bytes given to it are written, and whether it fails after that. -/
structure WriteCall where
  count : Nat
  fails : Bool
  deriving DecidableEq

/-- **`writeAll`**, given the results of its `::write` calls: the bytes written, and what it
returns. Calls past the list write all that is left. -/
def writeAllCalls : List WriteCall → Bytes → Bytes × Bool
  | [], data => (data, true)
  | call :: calls, data =>
    if data = [] then ([], true)
    else if call.fails ∨ (data.take call.count).length = 0 then (data.take call.count, false)
    else
      let rest := writeAllCalls calls (data.drop call.count)
      (data.take call.count ++ rest.1, rest.2)

/-- **Where the disk stops a buffer of this size**, if it does. -/
def stops : List WriteCall → Nat → Option Nat
  | [], _ => none
  | call :: calls, size =>
    if size = 0 then none
    else if call.fails ∨ call.count = 0 then some call.count
    else (stops calls (size - call.count)).map (call.count + ·)

/-- `writeAll` writes all there is before the point where the disk stops it. -/
theorem writeAllCalls_eq (calls : List WriteCall) (data : Bytes) :
    writeAllCalls calls data =
      (data.take ((stops calls data.length).getD data.length),
        (stops calls data.length).isNone) := by
  induction calls generalizing data with
  | nil => rw [writeAllCalls, stops, Option.getD_none, List.take_length]; rfl
  | cons call calls ih =>
    rw [writeAllCalls, stops]
    by_cases empty : data = []
    · rw [if_pos empty, if_pos (List.length_eq_zero_iff.mpr empty), empty]
      rfl
    have nothing : (data.take call.count).length = 0 ↔ call.count = 0 := by
      rw [List.length_eq_zero_iff, List.take_eq_nil_iff, or_iff_left empty]
    rw [if_neg empty, if_neg fun none => empty (List.length_eq_zero_iff.mp none)]
    simp only [nothing]
    split
    case isTrue => rfl
    case isFalse =>
      rw [ih, List.length_drop]
      cases stops calls (data.length - call.count) with
      | none =>
        rw [Option.getD_none, ← List.length_drop, List.take_length, List.take_append_drop]
        simp
      | some count =>
        show (data.take call.count ++ (data.drop call.count).take count, false) =
          (data.take (call.count + count), false)
        rw [List.take_add]

/-! ### Runs of appends -/

/-- An append: its batch, and the results of the `::write` calls it makes. -/
structure Attempt where
  batch : MutationBatch
  calls : List WriteCall

/-- **`WalWriter::append`** with `max_file_bytes = 0`: the directory, and what it returns. `opened`
says whether the constructor could open the file. -/
def appendAttempt (base : Bytes) (opened : Bool) (directory : Directory) (attempt : Attempt) :
    Directory × Bool :=
  if ¬ opened then (directory, false)
  else if attempt.batch.isEmpty then (directory, true)
  else
    let wrote := writeAllCalls attempt.calls (encodeBatch attempt.batch)
    (writeAll base directory wrote.1, wrote.2)

/-- A run of appends: the directory, and the mutations of those that returned `true`. -/
def runAttempts (base : Bytes) (opened : Bool) : List Attempt → Directory →
    Directory × List Mutation
  | [], directory => (directory, [])
  | attempt :: attempts, directory =>
    let first := appendAttempt base opened directory attempt
    let rest := runAttempts base opened attempts first.1
    (rest.1, (if first.2 then attempt.batch else []) ++ rest.2)

/-- The append as a session that is cut where the disk stops it. -/
def Attempt.session (attempt : Attempt) : Session where
  batches := [attempt.batch]
  cut := (stops attempt.calls (encodeBatch attempt.batch).length).getD
    (encodeBatch attempt.batch).length

/-- **An append that is stopped inside an entry is the last of which a byte is written.** -/
def Harmless (attempts : List Attempt) : Prop := Clean (attempts.map Attempt.session)

section Runs

variable {lister : Lister} {base content : Bytes} {directory : Directory} {attempt : Attempt}
  {attempts : List Attempt}

theorem Attempt.session_mutations (attempt : Attempt) :
    attempt.session.mutations = attempt.batch := List.append_nil _

/-- What an append leaves behind the log. -/
theorem Attempt.session_left (attempt : Attempt) :
    attempt.session.left =
      (writeAllCalls attempt.calls (encodeBatch attempt.batch)).1 := by
  rw [writeAllCalls_eq, Session.left, Attempt.session_mutations]
  rfl

/-- **One append** leaves its bytes behind the log. -/
theorem Single.appendAttempt (single : Single base content directory) (attempt : Attempt) :
    Single base (content ++ attempt.session.left)
      (appendAttempt base true directory attempt).1 := by
  rw [Attempt.session_left]
  unfold Persistence.appendAttempt
  rw [if_neg (by simp)]
  split
  case isTrue empty =>
    rw [List.isEmpty_iff.mp empty, encodeBatch_nil, writeAllCalls_eq, List.take_nil,
      List.append_nil]
    exact single
  case isFalse =>
    show Single base _ (writeAll base directory _)
    rw [writeAll, single.primary, Option.getD_some]
    exact Single.insert single.only _

theorem Single.runAttempts (single : Single base content directory) (attempts : List Attempt) :
    Single base (content ++ (attempts.map Attempt.session).flatMap Session.left)
      (runAttempts base true attempts directory).1 := by
  induction attempts generalizing content directory with
  | nil =>
    rw [List.map_nil, List.flatMap_nil, List.append_nil]
    exact single
  | cons attempt attempts ih =>
    rw [List.map_cons, List.flatMap_cons, ← List.append_assoc]
    exact ih (single.appendAttempt attempt)

/-- What is kept of an append that returns `true` is its batch. -/
theorem Attempt.kept_of_returned (returned : (appendAttempt base true directory attempt).2 = true) :
    attempt.session.kept = attempt.batch := by
  have whole : attempt.session.cut = (encodeBatch attempt.batch).length := by
    unfold appendAttempt at returned
    rw [if_neg (by simp)] at returned
    split at returned
    case isTrue empty =>
      rw [Attempt.session, List.isEmpty_iff.mp empty, encodeBatch_nil]
      cases attempt.calls <;> rfl
    case isFalse =>
      dsimp only at returned
      rw [writeAllCalls_eq, Option.isNone_iff_eq_none] at returned
      rw [Attempt.session, returned]
      rfl
  rw [Session.kept, whole, Attempt.session_mutations, entriesWithin_length]

/-- The mutations of the appends that returned `true` are among those kept. -/
theorem acknowledged_sublist (attempts : List Attempt) (directory : Directory) :
    (runAttempts base true attempts directory).2.Sublist
      ((attempts.map Attempt.session).flatMap Session.kept) := by
  induction attempts generalizing directory with
  | nil => exact List.Sublist.slnil
  | cons attempt attempts ih =>
    rw [runAttempts, List.map_cons, List.flatMap_cons]
    refine List.Sublist.append ?_ (ih _)
    split
    case isTrue returned => rw [Attempt.kept_of_returned returned]
    case isFalse => exact List.nil_sublist _

theorem runAttempts_closed (attempts : List Attempt) (directory : Directory) :
    runAttempts base false attempts directory = (directory, []) := by
  induction attempts with
  | nil => rfl
  | cons attempt attempts ih => exact ih

end Runs

/-- **Failed appends that do no harm.** The log can be read afterwards, and it holds what it held
before and every mutation of every append that returned `true`, in order. -/
theorem appends_unpoisoned (lister : Lister) (base : Bytes) (directory : Directory)
    (earlier : List Mutation) (holds : Holds base (encodeBatch earlier) directory) (opened : Bool)
    (attempts : List Attempt) (encodableEarlier : ∀ mutation ∈ earlier, Encodable mutation)
    (encodable : ∀ attempt ∈ attempts, ∀ mutation ∈ attempt.batch, Encodable mutation)
    (harmless : Harmless attempts) :
    let run := runAttempts base opened attempts
      (if opened then openAppend base directory else directory)
    ∃ found, readChain lister base run.1 = some found ∧ (earlier ++ run.2).Sublist found := by
  cases opened with
  | false =>
    refine ⟨earlier, ?_, ?_⟩
    · rw [runAttempts_closed, if_neg Bool.false_ne_true, holds.readChain lister,
        readAllMutations_eq, decodeEntries_encode encodableEarlier]
    · rw [runAttempts_closed, List.append_nil]
  | true =>
    have inSessions : ∀ session ∈ attempts.map Attempt.session,
        ∀ mutation ∈ session.mutations, Encodable mutation := by
      intro session member
      obtain ⟨attempt, inAttempts, rfl⟩ := List.mem_map.mp member
      rw [Attempt.session_mutations]
      exact encodable attempt inAttempts
    obtain ⟨tail, decoded⟩ := decodeEntries_sessions inSessions harmless
    refine ⟨earlier ++ (attempts.map Attempt.session).flatMap Session.kept, ?_, ?_⟩
    · rw [if_pos rfl, (holds.openAppend.runAttempts attempts).readChain lister,
        readAllMutations_eq, decodeEntries_encode_append encodableEarlier, decoded]
    · exact (List.Sublist.refl earlier).append (acknowledged_sublist attempts _)

/-- The first append is stopped between its two entries, and the second is not stopped. -/
theorem appends_unpoisoned_between :
    let attempts : List Attempt :=
      [⟨[.del [107] 0, .del [109] 0], [⟨10, false⟩, ⟨11, true⟩]⟩, ⟨[.del [108] 0], []⟩]
    let run := runAttempts [119] true attempts (openAppend [119] ∅)
    ∃ found, readChain Lister.sorted [119] run.1 = some found ∧ ([] ++ run.2).Sublist found := by
  refine appends_unpoisoned Lister.sorted [119] ∅ [] (Or.inr ⟨rfl, noChain_empty _⟩) true
    [⟨[.del [107] 0, .del [109] 0], [⟨10, false⟩, ⟨11, true⟩]⟩, ⟨[.del [108] 0], []⟩] ?_ ?_ ?_
  · exact fun _ member => (List.not_mem_nil member).elim
  · intro attempt member mutation inside
    have one : ∃ byte : UInt8, mutation = .del [byte] 0 := by
      rcases List.mem_cons.mp member with rfl | member
      · rcases List.mem_cons.mp inside with rfl | inside
        · exact ⟨107, rfl⟩
        · exact ⟨109, List.mem_singleton.mp inside⟩
      · obtain rfl := List.mem_singleton.mp member
        exact ⟨108, List.mem_singleton.mp inside⟩
    obtain ⟨byte, rfl⟩ := one
    exact encodable_del (Nat.one_lt_two_pow (by decide)) 0
  · exact ⟨Or.inr ⟨1, by decide⟩, Or.inl rfl, trivial⟩

/-- An append is stopped after its first byte, and the next one returns `true`: the log cannot be
read any more. Stopped after five bytes, the second entry is read as the rest of the first, and
nothing comes back of an append that returned `true`. -/
theorem appends_poisoned :
    let torn := fun count : Nat => runAttempts [119] true
      [⟨[.del [107] 0], [⟨count, true⟩]⟩, ⟨[.del [108] 0], []⟩] (openAppend [119] ∅)
    (torn 1).2 = [.del [108] 0] ∧ readChain Lister.sorted [119] (torn 1).1 = none ∧
      (torn 5).2 = [.del [108] 0] ∧ readChain Lister.sorted [119] (torn 5).1 = some [] := by
  decide +kernel

end SunKV.Persistence
