/-
**Replacing the snapshot file.**

`writeToFile` writes the new snapshot next to the old one and renames it into place; where that
fails it removes the old file and renames again. It is a program over the steps it takes in the file
system (`FileCall`). `Faults` says which of them fail and behind which the process crashes; after a
crash nothing happens any more.

* `prepare` — everything before the first rename. It leaves the file at the path alone
  (`prepare_path`) and, if nothing goes wrong, the whole new snapshot in the temporary file
  (`prepare_ready`).
* `Stranded` — the first rename fails, the old file is removed, and then the second rename fails or
  the process crashes in between.
* `writeToFile_atomic_iff` — the path holds the old snapshot or the new one, and a snapshot that can
  be read whenever `writeToFile` returns `false`, exactly when the run is not stranded.
-/

import SunKV.Lib.Program
import SunKV.Persistence.SnapshotFile

namespace SunKV.Persistence

open SunKV.Lib SunKV.Storage

/-! ### The steps -/

/-- The steps of `writeToFile` in the file system. A `put` is what is written to the stream between
two looks at its state. -/
inductive FileCall
  | createDirectories
  | openTmp
  | put (index : Nat) (data : Bytes)
  | flush
  | close
  | fsyncFile
  | rename
  | removePath
  | renameAgain
  | removeTmp
  | fsyncDir
  deriving DecidableEq

/-- **What goes wrong**: the steps that fail, how many of the bytes a stream holds a step on it
brings to the file, and the step behind which the process crashes. -/
structure Faults where
  fails : FileCall → Bool
  moves : FileCall → Nat
  crashAfter : Option FileCall

/-- The file at the path, the temporary file, the output stream on it with the bytes it holds back
and `good()`, and whether the process has crashed. -/
structure Files where
  path : Option Bytes
  tmp : Option Bytes := none
  buffer : Bytes := []
  good : Bool := true
  crashed : Bool := false

/-- The first bytes the stream holds, brought to the file. -/
def Files.spill (files : Files) (count : Nat) : Files :=
  { files with
    tmp := files.tmp.map (· ++ files.buffer.take count)
    buffer := files.buffer.drop count }

/-- What a step does in the file system. One that fails does nothing, except on the stream: that
goes bad, with some of its bytes in the file. A bad stream takes nothing. -/
def Files.perform (faults : Faults) (files : Files) (call : FileCall) : Files :=
  match call, faults.fails call with
  | .createDirectories, _ => files
  | .openTmp, false => { files with tmp := some [], buffer := [], good := true }
  | .openTmp, true => files
  | .put _ data, failed =>
      if files.good then
        { files with buffer := files.buffer ++ data, good := !failed }.spill (faults.moves call)
      else files
  | .flush, failed =>
      if files.good then
        if failed then { files with good := false }.spill (faults.moves call)
        else files.spill files.buffer.length
      else files
  | .close, _ => files.spill (faults.moves call)
  | .fsyncFile, _ => files
  | .rename, false => { files with path := files.tmp, tmp := none }
  | .rename, true => files
  | .removePath, false => { files with path := none }
  | .removePath, true => files
  | .renameAgain, false => { files with path := files.tmp, tmp := none }
  | .renameAgain, true => files
  | .removeTmp, false => { files with tmp := none }
  | .removeTmp, true => files
  | .fsyncDir, _ => files

/-- What the program learns of a step: whether the stream is still good, or the step succeeded. -/
def Files.answer (faults : Faults) (after : Files) : FileCall → Bool
  | .put _ _ | .flush => after.good
  | call => !faults.fails call

/-- **The steps, with their faults.** A crash freezes the files. -/
def filing (faults : Faults) : Handler (fun _ : FileCall => Bool) Files := fun call files =>
  if files.crashed then (false, files)
  else
    let after := files.perform faults call
    (after.answer faults call,
      { after with crashed := decide (faults.crashAfter = some call) })

/-- The step succeeds, and no crash follows. Nobody looks at the result of `close`. -/
def Faults.Spares (faults : Faults) (call : FileCall) : Prop :=
  (call = .close ∨ faults.fails call = false) ∧ faults.crashAfter ≠ some call

/-- The stream is good, and `content` is in the file or on its way there. -/
structure Files.Intact (files : Files) (content : Bytes) : Prop where
  alive : files.crashed = false
  good : files.good = true
  written : ∃ front, files.tmp = some front ∧ front ++ files.buffer = content

/-- The process has crashed, or the stream has gone bad. -/
def Files.Spoilt (files : Files) : Prop := files.crashed = true ∨ files.good = false

/-- The file is complete. -/
structure Files.Ready (files : Files) (content : Bytes) : Prop where
  alive : files.crashed = false
  written : files.tmp = some content

namespace SnapshotWriter

/-! ### The program -/

/-- A program over the steps. -/
abbrev Filing := Program fun _ : FileCall => Bool

/-- A step. -/
def step (call : FileCall) : Filing Bool := Program.ask call

/-- How `writeToFile` ends. -/
inductive Outcome
  | returned (ok : Bool)
  | thrown
  deriving DecidableEq

/-- The temporary file is given up; `fs::remove` without an error code throws. -/
def abandon : Filing Outcome := do
  if ← step .removeTmp then return .returned false else return .thrown

/-- The loop over the records: whether the stream was good behind each. -/
def putRecords : Nat → List (Bytes × Record) → Filing Bool
  | _, [] => return true
  | index, entry :: rest => do
    if ← step (.put index (writeRecord entry)) then putRecords (index + 1) rest
    else return false

/-- The stream is written and closed; nothing is returned where `writeToFile` goes on. -/
def writeStream (records : List (Bytes × Record)) : Filing (Option Outcome) := do
  let _ ← step (.put 0 (header records.length))
  if ← putRecords 1 records then
    if ← step .flush then
      let _ ← step .close
      return none
    else
      let _ ← step .close
      return some (← abandon)
  else
    let _ ← step .close
    return some (← abandon)

/-- From the temporary file to its `fsync`. -/
def writeTmp (records : List (Bytes × Record)) : Filing (Option Outcome) := do
  if ← step .openTmp then
    match ← writeStream records with
    | some outcome => return some outcome
    | none => if ← step .fsyncFile then return none else return some (← abandon)
  else return some (.returned false)

/-- Everything before the first rename; without a parent directory there is none to create. -/
def prepare (hasParent : Bool) (records : List (Bytes × Record)) : Filing (Option Outcome) :=
  if hasParent then do
    if ← step .createDirectories then writeTmp records else return some (.returned false)
  else writeTmp records

/-- `fsyncDir`, and the end. -/
def syncParent (hasParent : Bool) : Filing Outcome :=
  if hasParent then return .returned (← step .fsyncDir) else return .returned true

/-- From the first rename on. -/
def replace (hasParent : Bool) : Filing Outcome := do
  if ← step .rename then syncParent hasParent
  else
    let _ ← step .removePath
    if ← step .renameAgain then syncParent hasParent else abandon

/-- **`SnapshotWriter::writeToFile`.** -/
def writeToFile (hasParent : Bool) (records : List (Bytes × Record)) : Filing Outcome := do
  match ← prepare hasParent records with
  | some outcome => return outcome
  | none => replace hasParent

/-! ### Frozen files -/

section Frames

variable {faults : Faults} {files : Files}

theorem run_step (call : FileCall) (files : Files) :
    (step call).run (filing faults) files = filing faults call files := rfl

theorem filing_crashed (crashed : files.crashed = true) (call : FileCall) :
    filing faults call files = (false, files) := by
  rw [filing, if_pos crashed]

/-- After a crash a program does nothing. -/
theorem run_crashed {α : Type} (program : Filing α) (crashed : files.crashed = true) :
    (program.run (filing faults) files).2 = files := by
  induction program with
  | pure value => rfl
  | query call next ih =>
    rw [Program.run, filing_crashed crashed]
    exact ih false

/-- The steps that touch the file at the path. -/
def TouchesPath : FileCall → Prop
  | .rename | .removePath | .renameAgain => True
  | _ => False

theorem filing_path {call : FileCall} (elsewhere : ¬ TouchesPath call) :
    (filing faults call files).2.path = files.path := by
  unfold filing
  split
  · rfl
  · show (files.perform faults call).path = files.path
    cases call with
    | rename => exact absurd trivial elsewhere
    | removePath => exact absurd trivial elsewhere
    | renameAgain => exact absurd trivial elsewhere
    | createDirectories => rfl
    | fsyncFile => rfl
    | fsyncDir => rfl
    | close => rfl
    | openTmp => unfold Files.perform; cases faults.fails .openTmp <;> rfl
    | removeTmp => unfold Files.perform; cases faults.fails .removeTmp <;> rfl
    | put index data => unfold Files.perform; dsimp only; split <;> rfl
    | flush => unfold Files.perform; dsimp only; split_ifs <;> rfl

/-- **Steps elsewhere leave the file at the path alone.** -/
theorem run_path {α : Type} {program : Filing α} (makes : program.Makes (¬ TouchesPath ·))
    (files : Files) : (program.run (filing faults) files).2.path = files.path := by
  have kept (call : FileCall) (elsewhere : ¬ TouchesPath call) (now : Files)
      (same : now.path = files.path) : (filing faults call now).2.path = files.path :=
    (filing_path elsewhere).trans same
  exact makes.run_keeps kept rfl

theorem makes_step {call : FileCall} (elsewhere : ¬ TouchesPath call) :
    (step call).Makes (¬ TouchesPath ·) :=
  Program.makes_ask elsewhere

theorem makes_abandon : abandon.Makes (¬ TouchesPath ·) := by
  refine (makes_step id).bind fun removed => ?_
  split <;> trivial

theorem makes_putRecords (index : Nat) (records : List (Bytes × Record)) :
    (putRecords index records).Makes (¬ TouchesPath ·) := by
  induction records generalizing index with
  | nil => trivial
  | cons entry rest ih =>
    refine (makes_step id).bind fun good => ?_
    split
    · exact ih (index + 1)
    · trivial

theorem makes_writeStream (records : List (Bytes × Record)) :
    (writeStream records).Makes (¬ TouchesPath ·) := by
  have gives : (do let _ ← step .close; return some (← abandon) : Filing (Option Outcome)).Makes
      (¬ TouchesPath ·) :=
    (makes_step id).bind fun _ => makes_abandon.bind fun _ => trivial
  refine (makes_step id).bind fun _ => (makes_putRecords 1 records).bind fun good => ?_
  split
  · refine (makes_step id).bind fun flushed => ?_
    split
    · exact (makes_step id).bind fun _ => trivial
    · exact gives
  · exact gives

theorem makes_writeTmp (records : List (Bytes × Record)) :
    (writeTmp records).Makes (¬ TouchesPath ·) := by
  refine (makes_step id).bind fun opened => ?_
  split
  · refine (makes_writeStream records).bind fun early => ?_
    cases early with
    | some outcome => trivial
    | none =>
      refine (makes_step id).bind fun synced => ?_
      split
      · trivial
      · exact makes_abandon.bind fun _ => trivial
  · trivial

theorem makes_prepare (hasParent : Bool) (records : List (Bytes × Record)) :
    (prepare hasParent records).Makes (¬ TouchesPath ·) := by
  unfold prepare
  split
  · refine (makes_step id).bind fun created => ?_
    split
    · exact makes_writeTmp records
    · trivial
  · exact makes_writeTmp records

end Frames

/-! ### The temporary file -/

section Temporary

variable {faults : Faults} {files : Files} {content : Bytes}

theorem filing_alive (alive : files.crashed = false) (call : FileCall) :
    filing faults call files =
      ((files.perform faults call).answer faults call,
        { files.perform faults call with
          crashed := decide (faults.crashAfter = some call) }) := by
  rw [filing, alive]
  rfl

/-- A good stream takes what is put on it. -/
theorem Intact.put (intact : files.Intact content) {index : Nat} {data : Bytes}
    (spares : faults.Spares (.put index data)) :
    (filing faults (.put index data) files).1 = true ∧
      (filing faults (.put index data) files).2.Intact (content ++ data) := by
  obtain ⟨alive, good, front, tmp, rfl⟩ := intact
  obtain ⟨fine | fine, noCrash⟩ := spares
  · cases fine
  rw [filing_alive alive]
  simp only [Files.perform, Files.answer, good, fine, if_true, Files.spill, tmp, Option.map_some]
  refine ⟨rfl, decide_eq_false noCrash, rfl, _, rfl, ?_⟩
  rw [List.append_assoc, List.take_append_drop, List.append_assoc]

/-- A step on a good stream that spoils something, without a crash behind it, fails. -/
theorem fails_of_spoils {call : FileCall} (alive : files.crashed = false)
    (good : files.good = true) (noCrash : faults.crashAfter ≠ some call)
    (spoils : files.Spoilt ∨ ¬ faults.Spares call) : faults.fails call = true := by
  rcases spoils with (crashed | bad) | faulty
  · cases alive.symm.trans crashed
  · cases good.symm.trans bad
  · by_contra fine
    exact faulty ⟨Or.inr (Bool.eq_false_iff.mpr fine), noCrash⟩

/-- A fault spoils the stream, and it stays spoilt. -/
theorem spoilt_put {index : Nat} {data : Bytes}
    (spoils : files.Spoilt ∨ ¬ faults.Spares (.put index data)) :
    (filing faults (.put index data) files).2.Spoilt := by
  cases alive : files.crashed with
  | true =>
    rw [filing_crashed alive]
    exact Or.inl alive
  | false =>
    rw [filing_alive alive]
    by_cases crash : faults.crashAfter = some (.put index data)
    · exact Or.inl (decide_eq_true crash)
    · refine Or.inr ?_
      cases good : files.good with
      | false => simp [Files.perform, good]
      | true =>
        have fails := fails_of_spoils alive good crash spoils
        simp [Files.perform, good, fails, Files.spill]

/-- What is reported bad is spoilt. -/
theorem spoilt_of_put_false {index : Nat} {data : Bytes}
    (bad : (filing faults (.put index data) files).1 = false) :
    (filing faults (.put index data) files).2.Spoilt := by
  cases alive : files.crashed with
  | true =>
    rw [filing_crashed alive]
    exact Or.inl alive
  | false =>
    rw [filing_alive alive] at bad ⊢
    exact Or.inr bad

theorem Intact.flush (intact : files.Intact content) (spares : faults.Spares .flush) :
    (filing faults .flush files).1 = true ∧ (filing faults .flush files).2.Ready content ∧
      (filing faults .flush files).2.buffer = [] := by
  obtain ⟨alive, good, front, tmp, rfl⟩ := intact
  obtain ⟨fine | fine, noCrash⟩ := spares
  · cases fine
  rw [filing_alive alive]
  simp only [Files.perform, Files.answer, good, fine, if_true, Bool.false_eq_true, if_false,
    Files.spill, tmp, Option.map_some, List.take_length, List.drop_length]
  exact ⟨trivial, ⟨decide_eq_false noCrash, rfl⟩, trivial⟩

/-- Of a spoilt stream `flush` does not report success, unless the process crashes behind it. -/
theorem spoilt_flush (spoils : files.Spoilt ∨ ¬ faults.Spares .flush) :
    (filing faults .flush files).1 = false ∨ (filing faults .flush files).2.crashed = true := by
  cases alive : files.crashed with
  | true =>
    rw [filing_crashed alive]
    exact Or.inl rfl
  | false =>
    rw [filing_alive alive]
    by_cases crash : faults.crashAfter = some .flush
    · exact Or.inr (decide_eq_true crash)
    · refine Or.inl ?_
      cases good : files.good with
      | false => simp [Files.perform, Files.answer, good]
      | true =>
        have fails := fails_of_spoils alive good crash spoils
        simp [Files.perform, Files.answer, good, fails, Files.spill]

/-- A step outside the stream reports its fault, or the process crashes. -/
theorem reports_fault {call : FileCall}
    (plain : ∀ after : Files, after.answer faults call = !faults.fails call)
    (faulty : ¬ faults.Spares call) :
    (filing faults call files).1 = false ∨ (filing faults call files).2.crashed = true := by
  cases alive : files.crashed with
  | true =>
    rw [filing_crashed alive]
    exact Or.inl rfl
  | false =>
    rw [filing_alive alive]
    by_cases crash : faults.crashAfter = some call
    · exact Or.inr (decide_eq_true crash)
    · refine Or.inl ?_
      dsimp only
      rw [plain]
      cases fails : faults.fails call with
      | true => rfl
      | false => exact absurd ⟨Or.inr fails, crash⟩ faulty

/-- A crash behind `close`. -/
theorem crashed_close (faulty : ¬ faults.Spares .close) :
    (filing faults .close files).2.crashed = true := by
  cases alive : files.crashed with
  | true => rw [filing_crashed alive]; exact alive
  | false =>
    rw [filing_alive alive]
    refine decide_eq_true ?_
    by_contra noCrash
    exact faulty ⟨Or.inl rfl, noCrash⟩

end Temporary

/-! ### Before the first rename -/

/-- The writes of the records. -/
def putCalls : Nat → List (Bytes × Record) → List FileCall
  | _, [] => []
  | index, entry :: rest => .put index (writeRecord entry) :: putCalls (index + 1) rest

/-- The steps on the stream. -/
def streamCalls (records : List (Bytes × Record)) : List FileCall :=
  .put 0 (header records.length) :: (putCalls 1 records ++ [.flush, .close])

/-- **The steps before the first rename.** -/
def before (hasParent : Bool) (records : List (Bytes × Record)) : List FileCall :=
  (if hasParent then [.createDirectories] else []) ++
    (.openTmp :: (streamCalls records ++ [.fsyncFile]))

section Before

variable {faults : Faults} {files : Files} {content : Bytes}

/-- `writeToFile` has returned, or the process has crashed. -/
def Astray (final : Option Outcome × Files) : Prop := final.1 ≠ none ∨ final.2.crashed = true

theorem putRecords_intact {index : Nat} {records : List (Bytes × Record)}
    (intact : files.Intact content) (spares : ∀ call ∈ putCalls index records, faults.Spares call) :
    ((putRecords index records).run (filing faults) files).1 = true ∧
      ((putRecords index records).run (filing faults) files).2.Intact
        (content ++ records.flatMap writeRecord) := by
  induction records generalizing index files content with
  | nil =>
    rw [List.flatMap_nil, List.append_nil]
    exact ⟨rfl, intact⟩
  | cons entry rest ih =>
    obtain ⟨fine, next⟩ := Intact.put intact (spares _ List.mem_cons_self)
    have later := ih next fun call member => spares call (List.mem_cons_of_mem _ member)
    rw [putRecords, Program.run_bind, run_step, if_pos fine, List.flatMap_cons,
      ← List.append_assoc]
    exact later

theorem putRecords_spoilt {index : Nat} {records : List (Bytes × Record)}
    (spoils : files.Spoilt ∨ ∃ call ∈ putCalls index records, ¬ faults.Spares call) :
    ((putRecords index records).run (filing faults) files).2.Spoilt := by
  induction records generalizing index files with
  | nil =>
    rcases spoils with spoilt | ⟨call, member, -⟩
    · exact spoilt
    · cases member
  | cons entry rest ih =>
    rw [putRecords, Program.run_bind, run_step]
    cases good : (filing faults (.put index (writeRecord entry)) files).1 with
    | false => exact spoilt_of_put_false good
    | true =>
      refine ih ?_
      rcases spoils with spoilt | ⟨call, member, faulty⟩
      · exact Or.inl (spoilt_put (Or.inl spoilt))
      · rcases List.mem_cons.mp member with rfl | member
        · exact Or.inl (spoilt_put (Or.inr faulty))
        · exact Or.inr ⟨call, member, faulty⟩

/-- What happens after a crash does not count. -/
theorem Astray.of_crashed (program : Filing (Option Outcome)) (crashed : files.crashed = true) :
    Astray (program.run (filing faults) files) := by
  refine Or.inr ?_
  rw [run_crashed program crashed]
  exact crashed

/-- Giving up returns. -/
theorem astray_gives_up : Astray
    ((do let _ ← step .close; return some (← abandon) : Filing (Option Outcome)).run
      (filing faults) files) := by
  refine Or.inl ?_
  rw [Program.run_bind, Program.run_bind]
  exact Option.some_ne_none _

theorem writeStream_ready {records : List (Bytes × Record)} (intact : files.Intact [])
    (spares : ∀ call ∈ streamCalls records, faults.Spares call) :
    ((writeStream records).run (filing faults) files).1 = none ∧
      ((writeStream records).run (filing faults) files).2.Ready (writtenBytes records) := by
  have inPuts : ∀ call ∈ putCalls 1 records, faults.Spares call := fun call member =>
    spares call (List.mem_cons_of_mem _ (List.mem_append_left _ member))
  have flushes : faults.Spares .flush := spares _ (by simp [streamCalls])
  have closes : faults.Spares .close := spares _ (by simp [streamCalls])
  obtain ⟨-, headed⟩ := Intact.put intact (spares _ List.mem_cons_self)
  obtain ⟨fine, whole⟩ := putRecords_intact headed inPuts
  obtain ⟨flushed, ready, empty⟩ := Intact.flush whole flushes
  rw [writeStream, Program.run_bind, run_step, Program.run_bind, if_pos fine, Program.run_bind,
    run_step, if_pos flushed, Program.run_bind, run_step]
  refine ⟨rfl, ?_⟩
  show (filing faults .close _).2.Ready _
  rw [filing_alive ready.alive]
  refine ⟨decide_eq_false closes.2, ?_⟩
  simp only [Files.perform, Files.spill, empty, ready.written, List.take_nil, Option.map_some,
    List.append_nil, List.nil_append]
  rfl

theorem writeStream_astray {records : List (Bytes × Record)}
    (faulty : ∃ call ∈ streamCalls records, ¬ faults.Spares call) :
    Astray ((writeStream records).run (filing faults) files) := by
  rw [writeStream, Program.run_bind, run_step, Program.run_bind]
  split
  case isFalse => exact astray_gives_up
  case isTrue =>
    generalize headed : (filing faults (.put 0 (header records.length)) files).2 = begun
    generalize put : ((putRecords 1 records).run (filing faults) begun).2 = filled
    rw [Program.run_bind, run_step]
    split
    case isFalse => exact astray_gives_up
    case isTrue flushed =>
      have crashes (spoils : filled.Spoilt ∨ ¬ faults.Spares .flush) :
          (filing faults .flush filled).2.crashed = true :=
        (spoilt_flush spoils).resolve_left (by simp [flushed])
      obtain ⟨call, member, spoils⟩ := faulty
      rw [streamCalls, List.mem_cons, List.mem_append] at member
      rcases member with rfl | member | member
      · have spoilt : begun.Spoilt := headed ▸ spoilt_put (Or.inr spoils)
        exact .of_crashed _ (crashes (Or.inl (put ▸ putRecords_spoilt (Or.inl spoilt))))
      · exact .of_crashed _ (crashes (Or.inl (put ▸ putRecords_spoilt
          (Or.inr ⟨call, member, spoils⟩))))
      · rcases List.mem_cons.mp member with rfl | member
        · exact .of_crashed _ (crashes (Or.inr spoils))
        · obtain rfl := List.mem_singleton.mp member
          exact Or.inr (crashed_close spoils)

theorem openTmp_intact (alive : files.crashed = false) (spares : faults.Spares .openTmp) :
    (filing faults .openTmp files).1 = true ∧ (filing faults .openTmp files).2.Intact [] := by
  obtain ⟨fine | fine, noCrash⟩ := spares
  · cases fine
  rw [filing_alive alive]
  simp only [Files.perform, Files.answer, fine]
  exact ⟨rfl, decide_eq_false noCrash, rfl, [], rfl, rfl⟩

theorem writeTmp_ready {records : List (Bytes × Record)} (alive : files.crashed = false)
    (spares : ∀ call ∈ before false records, faults.Spares call) :
    ((writeTmp records).run (filing faults) files).1 = none ∧
      ((writeTmp records).run (filing faults) files).2.Ready (writtenBytes records) := by
  have syncs : faults.Spares .fsyncFile := spares _ (by simp [before])
  obtain ⟨opened, intact⟩ := openTmp_intact alive (spares _ List.mem_cons_self)
  obtain ⟨onward, ready⟩ := writeStream_ready intact fun call member =>
    spares call (List.mem_cons_of_mem _ (List.mem_append_left _ member))
  obtain ⟨fine | fine, noCrash⟩ := syncs
  · cases fine
  rw [writeTmp, Program.run_bind, run_step, if_pos opened, Program.run_bind, onward,
    Program.run_bind, run_step, filing_alive ready.alive, if_pos (by simp [Files.answer, fine])]
  exact ⟨rfl, decide_eq_false noCrash, ready.written⟩

theorem writeTmp_astray {records : List (Bytes × Record)}
    (faulty : ∃ call ∈ before false records, ¬ faults.Spares call) :
    Astray ((writeTmp records).run (filing faults) files) := by
  obtain ⟨call, member, spoils⟩ := faulty
  rw [writeTmp, Program.run_bind, run_step]
  split
  case isFalse => exact Or.inl (Option.some_ne_none _)
  case isTrue opened =>
    generalize began : (filing faults .openTmp files).2 = begun
    rw [Program.run_bind]
    cases early : ((writeStream records).run (filing faults) begun).1 with
    | some outcome => exact Or.inl (Option.some_ne_none _)
    | none =>
      dsimp only
      rcases List.mem_cons.mp member with rfl | member
      · -- the crash behind `open` is still there
        have crashed : begun.crashed = true := began ▸
          (reports_fault (fun _ => rfl) spoils).resolve_left (by simp [opened])
        rw [run_crashed _ crashed]
        exact .of_crashed _ crashed
      · rcases List.mem_append.mp member with member | member
        · have astray : Astray ((writeStream records).run (filing faults) begun) :=
            writeStream_astray ⟨call, member, spoils⟩
          exact .of_crashed _ (astray.resolve_left (not_not.mpr early))
        · obtain rfl := List.mem_singleton.mp member
          rw [Program.run_bind, run_step]
          split
          · exact Or.inr ((reports_fault (fun _ => rfl) spoils).resolve_left (by simp [*]))
          · refine Or.inl ?_
            rw [Program.run_bind]
            exact Option.some_ne_none _

theorem mem_before {hasParent : Bool} {records : List (Bytes × Record)} {call : FileCall} :
    call ∈ before hasParent records ↔
      (hasParent = true ∧ call = .createDirectories) ∨ call ∈ before false records := by
  cases hasParent <;> simp [before]

/-- **If nothing goes wrong, the new snapshot stands in the temporary file.** -/
theorem prepare_ready {hasParent : Bool} {records : List (Bytes × Record)}
    (alive : files.crashed = false)
    (spares : ∀ call ∈ before hasParent records, faults.Spares call) :
    ((prepare hasParent records).run (filing faults) files).1 = none ∧
      ((prepare hasParent records).run (filing faults) files).2.Ready (writtenBytes records) := by
  have later : ∀ call ∈ before false records, faults.Spares call :=
    fun call member => spares call (mem_before.mpr (Or.inr member))
  unfold prepare
  split
  case isTrue parent =>
    obtain ⟨fine | fine, noCrash⟩ :=
      spares .createDirectories (mem_before.mpr (Or.inl ⟨parent, rfl⟩))
    · cases fine
    rw [Program.run_bind, run_step, filing_alive alive, if_pos (by simp [Files.answer, fine])]
    exact writeTmp_ready (decide_eq_false noCrash) later
  case isFalse => exact writeTmp_ready alive later

/-- **After a fault, `writeToFile` returns or the process crashes before the first rename.** -/
theorem prepare_astray {hasParent : Bool} {records : List (Bytes × Record)}
    (faulty : ¬ ∀ call ∈ before hasParent records, faults.Spares call) :
    Astray ((prepare hasParent records).run (filing faults) files) := by
  push Not at faulty
  obtain ⟨call, member, spoils⟩ := faulty
  unfold prepare
  rcases mem_before.mp member with ⟨rfl, rfl⟩ | member
  · rw [if_pos rfl, Program.run_bind, run_step]
    split
    case isTrue created =>
      exact .of_crashed _ ((reports_fault (fun _ => rfl) spoils).resolve_left (by simp [created]))
    case isFalse => exact Or.inl (Option.some_ne_none _)
  · split
    · rw [Program.run_bind, run_step]
      split
      · exact writeTmp_astray ⟨call, member, spoils⟩
      · exact Or.inl (Option.some_ne_none _)
    · exact writeTmp_astray ⟨call, member, spoils⟩

end Before

/-! ### The replacement -/

/-- **The first rename fails, the old file is removed, and it stays so**: the second rename fails,
or the process crashes before it. -/
def Stranded (faults : Faults) (hasParent : Bool) (records : List (Bytes × Record)) : Prop :=
  (∀ call ∈ before hasParent records, faults.Spares call) ∧
    faults.fails .rename = true ∧ faults.crashAfter ≠ some .rename ∧
    faults.fails .removePath = false ∧
    (faults.crashAfter = some .removePath ∨ faults.fails .renameAgain = true)

/-- **The path holds the old snapshot or the new one**, and after a reported failure one that can
be read. -/
structure Atomic (old : Bytes) (records : List (Bytes × Record)) (final : Outcome × Files) :
    Prop where
  holds : final.2.path = some old ∨ final.2.path = some (writtenBytes records)
  readable : final.2.crashed = false → final.1 = .returned false →
    (readFromFile final.2.path).isSome

section Replacement

variable {faults : Faults} {files : Files} {old content : Bytes}

theorem run_syncParent_path (hasParent : Bool) (files : Files) :
    ((syncParent hasParent).run (filing faults) files).2.path = files.path := by
  refine run_path ?_ files
  unfold syncParent
  split
  · exact (makes_step id).bind fun _ => trivial
  · trivial

/-- The second rename, from a process that is alive. -/
theorem renameAgain_path (hasParent : Bool) (alive : files.crashed = false) :
    ((do if ← step .renameAgain then syncParent hasParent else abandon : Filing Outcome).run
      (filing faults) files).2.path =
      if faults.fails .renameAgain = false then files.tmp else files.path := by
  rw [Program.run_bind, run_step, filing_alive alive]
  cases fails : faults.fails .renameAgain with
  | false =>
    rw [if_pos (by simp [Files.answer, fails]), run_syncParent_path]
    simp [Files.perform, fails]
  | true =>
    rw [if_neg (by simp [Files.answer, fails]), run_path makes_abandon]
    simp [Files.perform, fails]

/-- **What stands at the path in the end**, given a complete temporary file. -/
theorem replace_path (hasParent : Bool) (ready : files.Ready content) :
    ((replace hasParent).run (filing faults) files).2.path =
      if faults.fails .rename = false then some content
      else if faults.crashAfter = some .rename then files.path
      else if faults.crashAfter ≠ some .removePath ∧ faults.fails .renameAgain = false then
        some content
      else if faults.fails .removePath = false then none else files.path := by
  obtain ⟨alive, written⟩ := ready
  rw [replace, Program.run_bind, run_step, filing_alive alive]
  cases fails : faults.fails .rename with
  | false =>
    rw [if_pos (by simp [Files.answer, fails]), run_syncParent_path, if_pos rfl]
    simp [Files.perform, fails, written]
  | true =>
    rw [if_neg (by simp [Files.answer, fails]), if_neg (by decide)]
    have same : files.perform faults .rename = files := by simp [Files.perform, fails]
    rw [same]
    by_cases crash : faults.crashAfter = some .rename
    · rw [if_pos crash, run_crashed _ (decide_eq_true crash)]
    · rw [if_neg crash, Program.run_bind, run_step, filing_alive (decide_eq_false crash)]
      by_cases crash' : faults.crashAfter = some .removePath
      · rw [run_crashed _ (decide_eq_true crash'), if_neg (fun both => both.1 crash')]
        cases removed : faults.fails .removePath <;> simp [Files.perform, removed]
      · rw [renameAgain_path hasParent (decide_eq_false crash')]
        cases removed : faults.fails .removePath <;>
          simp [Files.perform, removed, crash', written]

/-- **What `writeToFile` leaves at the path**: nothing where it is stranded. -/
theorem writeToFile_path (faults : Faults) (files : Files) (alive : files.crashed = false)
    (hasParent : Bool) (records : List (Bytes × Record)) :
    (Stranded faults hasParent records ∧
        ((writeToFile hasParent records).run (filing faults) files).2.path = none) ∨
      (¬ Stranded faults hasParent records ∧
        (((writeToFile hasParent records).run (filing faults) files).2.path = files.path ∨
          ((writeToFile hasParent records).run (filing faults) files).2.path =
            some (writtenBytes records))) := by
  have kept : ((prepare hasParent records).run (filing faults) files).2.path = files.path :=
    run_path (makes_prepare hasParent records) files
  rw [writeToFile, Program.run_bind]
  by_cases spares : ∀ call ∈ before hasParent records, faults.Spares call
  · obtain ⟨onward, ready⟩ := prepare_ready alive spares
    rw [onward]
    dsimp only
    rw [replace_path hasParent ready, kept]
    unfold Stranded
    by_cases first : faults.fails .rename = false
    · rw [if_pos first]
      exact Or.inr ⟨fun stranded => by simp [first] at stranded, Or.inr rfl⟩
    rw [if_neg first]
    by_cases crash : faults.crashAfter = some .rename
    · rw [if_pos crash]
      exact Or.inr ⟨fun stranded => stranded.2.2.1 crash, Or.inl rfl⟩
    rw [if_neg crash]
    by_cases again : faults.crashAfter ≠ some .removePath ∧ faults.fails .renameAgain = false
    · rw [if_pos again]
      refine Or.inr ⟨fun stranded => ?_, Or.inr rfl⟩
      rcases stranded.2.2.2.2 with crash' | fails
      · exact again.1 crash'
      · cases again.2.symm.trans fails
    rw [if_neg again]
    by_cases removed : faults.fails .removePath = false
    · rw [if_pos removed]
      refine Or.inl ⟨⟨spares, Bool.eq_true_of_not_eq_false first, crash, removed, ?_⟩, rfl⟩
      by_contra neither
      push Not at neither
      exact again ⟨neither.1, Bool.eq_false_iff.mpr neither.2⟩
    · rw [if_neg removed]
      exact Or.inr ⟨fun stranded => removed stranded.2.2.2.1, Or.inl rfl⟩
  · refine Or.inr ⟨fun stranded => spares stranded.1, Or.inl ?_⟩
    rcases prepare_astray spares with returned | crashed
    · obtain ⟨outcome, early⟩ := Option.ne_none_iff_exists'.mp returned
      rw [early]
      exact kept
    · rw [run_crashed _ crashed]
      exact kept

/-- **Snapshot replacement is atomic unless the run is stranded**: whatever fails and wherever the
process crashes, the path holds the old snapshot or the new one. -/
theorem writeToFile_atomic_iff (hasParent : Bool) (old : Bytes) (leftover : Option Bytes)
    (complete : (readFromFile (some old)).isSome) (records : List (Bytes × Record))
    (storable : Storable records) (faults : Faults) :
    Atomic old records
        ((writeToFile hasParent records).run (filing faults)
          { path := some old, tmp := leftover }) ↔
      ¬ Stranded faults hasParent records := by
  have new : (readFromFile (some (writtenBytes records))).isSome := by
    rw [storable.readFromFile]
    rfl
  rcases writeToFile_path faults { path := some old, tmp := leftover } rfl hasParent records with
    ⟨stranded, nothing⟩ | ⟨safe, holds⟩
  · refine ⟨fun atomic => ?_, fun safe => absurd stranded safe⟩
    have held := atomic.holds
    rw [nothing] at held
    rcases held with held | held <;> cases held
  · refine ⟨fun _ => safe, fun _ => ⟨holds, fun _ _ => ?_⟩⟩
    rcases holds with holds | holds
    · rw [holds]
      exact complete
    · rw [holds]
      exact new

/-- Both renames fail and the removal in between does not: `writeToFile` returns `false`, and
there is no snapshot at the path, neither the old nor the new. -/
theorem writeToFile_stranded :
    let faults : Faults :=
      { fails := fun call => call = .rename ∨ call = .renameAgain
        moves := fun _ => 0
        crashAfter := none }
    let final := (writeToFile true [([107], { value := .ofString [118] })]).run (filing faults)
      { path := some (writtenBytes []) }
    (readFromFile (some (writtenBytes []))).isSome ∧ final.1 = .returned false ∧
      final.2.crashed = false ∧ final.2.path = none ∧ final.2.tmp = none := by
  decide +kernel

/-- A full disk: the flush fails, and the old snapshot stays. -/
theorem writeToFile_atomic_full :
    let faults : Faults :=
      { fails := fun call => call = .flush, moves := fun _ => 3, crashAfter := none }
    ¬ Stranded faults true [([107], { value := .ofString [118] })] ∧
      Atomic (writtenBytes []) [([107], { value := .ofString [118] })]
        ((writeToFile true [([107], { value := .ofString [118] })]).run (filing faults)
          { path := some (writtenBytes []), tmp := none }) := by
  intro faults
  have safe : ¬ Stranded faults true [([107], { value := .ofString [118] })] :=
    fun stranded => absurd stranded.2.1 (by decide)
  refine ⟨safe, (writeToFile_atomic_iff true _ none (by decide +kernel) _ ?_ faults).mpr safe⟩
  refine ⟨by decide, fun entry member => ?_⟩
  obtain rfl := List.mem_singleton.mp member
  exact ⟨by decide, by decide, DataValue.ofString_wellFormed _⟩

end Replacement

end SnapshotWriter

end SunKV.Persistence
