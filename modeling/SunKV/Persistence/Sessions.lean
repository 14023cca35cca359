/-
**Crash, restart and continue.**

A session reads the log, opens a writer on it and appends batches; a crash then leaves some front
of what the session wrote. The next writer opens the file with `O_APPEND` and goes on after
whatever is there, a torn entry included: nothing truncates the tail the reader tolerates.

`Clean` says where that does no harm: a session that later bytes follow was cut between two
entries. `runSessions_clean` — then every session starts, and the log gives back, session by
session, the mutations that lie wholly before the cut.
-/

import SunKV.Persistence.Rotation

namespace SunKV.Persistence

open SunKV.Lib SunKV.Storage

/-! ### Sessions -/

/-- What a session appends, and how many of the bytes it wrote the crash at its end leaves. -/
structure Session where
  batches : List MutationBatch
  cut : Nat

/-- The mutations of a session. -/
def Session.mutations (session : Session) : List Mutation := session.batches.flatten

/-- The bytes of a session that are still there after its crash. -/
def Session.left (session : Session) : Bytes := (encodeBatch session.mutations).take session.cut

/-- A writer opened on the path, and its appends. -/
def writeBatches (lister : Lister) (base : Bytes) (batches : List MutationBatch)
    (directory : Directory) : Directory :=
  batches.foldl (append lister base 0) (openAppend base directory)

/-- The length of the log file. -/
def fileLength (base : Bytes) (directory : Directory) : Nat := (directory[base]?.getD []).length

/-- A crash: the file keeps its first `length` bytes. -/
def truncate (base : Bytes) (length : Nat) (directory : Directory) : Directory :=
  directory.insert base ((directory[base]?.getD []).take length)

/-- A run of sessions that end in a crash. It stops with nothing when a session cannot read the
log at its start. -/
def runSessions (lister : Lister) (base : Bytes) : List Session → Directory → Option Directory
  | [], directory => some directory
  | session :: sessions, directory =>
    match readChain lister base directory with
    | none => none
    | some _ =>
      runSessions lister base sessions
        (truncate base (fileLength base directory + session.cut)
          (writeBatches lister base session.batches directory))

/-- The sessions that crash, then a last one that does not: what the reader finds at the end. -/
def readAfterSessions (lister : Lister) (base : Bytes) (sessions : List Session)
    (last : List MutationBatch) (directory : Directory) : Option (List Mutation) :=
  match runSessions lister base sessions directory with
  | none => none
  | some crashed =>
    match readChain lister base crashed with
    | none => none
    | some _ => readChain lister base (writeBatches lister base last crashed)

/-- **Sessions that are followed by bytes were cut between two entries.** -/
def Clean : List Session → Prop
  | [] => True
  | session :: later =>
    (later.flatMap Session.left = [] ∨ Boundary session.mutations session.left.length) ∧ Clean later

/-- A session without a crash, as one whose cut is behind its last byte. -/
def Session.whole (batches : List MutationBatch) : Session where
  batches := batches
  cut := (encodeBatch batches.flatten).length

/-! ### The file between sessions -/

section Files

variable {lister : Lister} {base content : Bytes} {directory : Directory}

/-- The log file holds `content`, or there is none yet and `content` is empty. -/
def Holds (base content : Bytes) (directory : Directory) : Prop :=
  Single base content directory ∨ content = [] ∧ NoChain base directory

theorem Holds.readChain (lister : Lister) (holds : Holds base content directory) :
    readChain lister base directory = readAllMutations (some content) := by
  rcases holds with single | ⟨rfl, fresh⟩
  · exact single.readChain lister
  · rw [fresh.readChain lister, readAllMutations_eq, decodeEntries_nil]

theorem Holds.fileLength (holds : Holds base content directory) :
    fileLength base directory = content.length := by
  rcases holds with single | ⟨rfl, fresh⟩
  · rw [Persistence.fileLength, single.primary, Option.getD_some]
  · rw [Persistence.fileLength, Std.ExtTreeMap.getElem?_eq_none fresh.1]
    rfl

theorem Holds.openAppend (holds : Holds base content directory) :
    Single base content (openAppend base directory) := by
  rcases holds with single | ⟨rfl, fresh⟩
  · rwa [single.openAppend]
  · exact fresh.openAppend

theorem Holds.writeBatches (lister : Lister) (holds : Holds base content directory)
    (batches : List MutationBatch) :
    Single base (content ++ encodeBatch batches.flatten)
      (writeBatches lister base batches directory) := by
  have general : ∀ (batches : List MutationBatch) (content : Bytes) (directory : Directory),
      Single base content directory → Single base (content ++ encodeBatch batches.flatten)
        (batches.foldl (append lister base 0) directory) := by
    intro batches
    induction batches with
    | nil =>
      intro content directory single
      rw [List.flatten_nil, encodeBatch_nil, List.append_nil]
      exact single
    | cons batch batches ih =>
      intro content directory single
      have later := ih _ _ (single.append lister batch)
      rw [List.append_assoc, ← encodeBatch_append] at later
      exact later
  exact general batches content _ holds.openAppend

theorem Single.truncate (single : Single base content directory) (length : Nat) :
    Single base (content.take length) (truncate base length directory) := by
  rw [Persistence.truncate, single.primary, Option.getD_some]
  exact Single.insert single.only _

/-- One session leaves its surviving bytes behind the log it found. -/
theorem Holds.session (lister : Lister) (holds : Holds base content directory)
    (session : Session) :
    Single base (content ++ session.left)
      (Persistence.truncate base (Persistence.fileLength base directory + session.cut)
        (Persistence.writeBatches lister base session.batches directory)) := by
  have crashed := (holds.writeBatches lister session.batches).truncate
    (Persistence.fileLength base directory + session.cut)
  rw [holds.fileLength, List.take_length_add_append] at crashed
  rw [holds.fileLength]
  exact crashed

end Files

/-! ### Reading what sessions left -/

theorem Clean.of_append {first second : List Session} (clean : Clean (first ++ second)) :
    Clean first := by
  induction first with
  | nil => trivial
  | cons session first ih =>
    obtain ⟨here, later⟩ := clean
    refine ⟨?_, ih later⟩
    rcases here with empty | boundary
    · have both : (first ++ second).flatMap Session.left = [] := empty
      rw [List.flatMap_append] at both
      exact Or.inl (List.append_eq_nil_iff.mp both).1
    · exact Or.inr boundary

/-- The mutations of a session that lie wholly before its cut. -/
def Session.kept (session : Session) : List Mutation := entriesWithin session.cut session.mutations

theorem Session.whole_left (batches : List MutationBatch) :
    (Session.whole batches).left = encodeBatch batches.flatten := List.take_length

section Reading

variable {session : Session} {sessions : List Session}

/-- Of a session that left no byte, no entry is kept. -/
theorem Session.kept_of_left_nil (none : session.left = []) : session.kept = [] := by
  unfold Session.kept
  unfold Session.left at none
  cases list : session.mutations with
  | nil => rfl
  | cons mutation mutations =>
    rw [list, encodeBatch_cons, List.take_eq_nil_iff] at none
    have pos := encodeMutation_pos mutation
    rcases none with zero | empty
    · rw [zero, entriesWithin, if_neg (by omega)]
    · have length := congrArg List.length empty
      rw [List.length_append, List.length_nil] at length
      omega

/-- What a session cut between two entries left is the log of what is kept of it. -/
theorem Session.left_of_boundary (encodable : ∀ mutation ∈ session.mutations, Encodable mutation)
    (boundary : Boundary session.mutations session.left.length) :
    session.left = encodeBatch session.kept ∧ ∀ mutation ∈ session.kept, Encodable mutation := by
  obtain ⟨front, back, split, _, take, _⟩ := boundary.split
  have inFront : ∀ mutation ∈ front, Encodable mutation :=
    fun mutation member => encodable mutation (by rw [split]; exact List.mem_append_left _ member)
  have whole : session.left = encodeBatch front := by
    rw [← take]
    have start : session.left <+: encodeBatch session.mutations := List.take_prefix _ _
    exact List.prefix_iff_eq_take.mp start
  -- both decode the same bytes, so the entries kept are the front
  have decoded := decodeEntries_take encodable session.cut
  rw [show (encodeBatch session.mutations).take session.cut = session.left from rfl, whole,
    decodeEntries_encode inFront] at decoded
  obtain rfl : front = session.kept := congrArg Prod.fst decoded
  exact ⟨whole, inFront⟩

/-- **What clean sessions left decodes to what is kept of each.** -/
theorem decodeEntries_sessions
    (encodable : ∀ session ∈ sessions, ∀ mutation ∈ session.mutations, Encodable mutation)
    (clean : Clean sessions) :
    ∃ tail, decodeEntries (sessions.flatMap Session.left) =
      (sessions.flatMap Session.kept, .tail tail) := by
  induction sessions with
  | nil => exact ⟨[], rfl⟩
  | cons session later ih =>
    have here := encodable session List.mem_cons_self
    obtain ⟨followed, cleanLater⟩ := clean
    rw [List.flatMap_cons, List.flatMap_cons]
    rcases followed with empty | boundary
    · have keptLater : later.flatMap Session.kept = [] := by
        refine List.flatMap_eq_nil_iff.mpr fun other member => ?_
        exact Session.kept_of_left_nil (List.flatMap_eq_nil_iff.mp empty other member)
      rw [empty, keptLater, List.append_nil, List.append_nil]
      exact ⟨_, decodeEntries_take here session.cut⟩
    · obtain ⟨left, inKept⟩ := Session.left_of_boundary here boundary
      obtain ⟨tail, rest⟩ :=
        ih (fun other member => encodable other (List.mem_cons_of_mem _ member)) cleanLater
      refine ⟨tail, ?_⟩
      rw [left, decodeEntries_encode_append inKept, rest]

/-- The reader on what clean sessions left. -/
theorem readAllMutations_sessions
    (encodable : ∀ session ∈ sessions, ∀ mutation ∈ session.mutations, Encodable mutation)
    (clean : Clean sessions) :
    readAllMutations (some (sessions.flatMap Session.left)) =
      some (sessions.flatMap Session.kept) := by
  obtain ⟨tail, decoded⟩ := decodeEntries_sessions encodable clean
  rw [readAllMutations_eq, decoded]

end Reading

/-- The step from session to session: the file holds what all sessions so far left. -/
theorem runSessions_holds (lister : Lister) {base : Bytes} (past sessions : List Session)
    {directory : Directory}
    (encodable : ∀ session ∈ past ++ sessions, ∀ mutation ∈ session.mutations, Encodable mutation)
    (clean : Clean (past ++ sessions))
    (holds : Holds base (past.flatMap Session.left) directory) :
    ∃ crashed, runSessions lister base sessions directory = some crashed ∧
      Holds base ((past ++ sessions).flatMap Session.left) crashed := by
  induction sessions generalizing past directory with
  | nil => exact ⟨directory, rfl, by rwa [List.append_nil]⟩
  | cons session sessions ih =>
    have started : readChain lister base directory = some (past.flatMap Session.kept) := by
      rw [holds.readChain lister]
      exact readAllMutations_sessions
        (fun other member => encodable other (List.mem_append_left _ member)) clean.of_append
    have after := holds.session lister session
    have shift : past ++ session :: sessions = (past ++ [session]) ++ sessions := by simp
    have left : (past ++ [session]).flatMap Session.left =
        past.flatMap Session.left ++ session.left := by simp
    rw [shift] at encodable clean
    rw [← left] at after
    obtain ⟨crashed, ran, held⟩ := ih (past ++ [session]) encodable clean (Or.inl after)
    refine ⟨crashed, ?_, by rwa [shift]⟩
    rw [runSessions, started]
    exact ran

/-- **Cut between entries, a log survives any number of crashes and restarts**: every session
starts, and the last read gives, session by session, the mutations wholly before its cut. -/
theorem readAfterSessions_clean (lister : Lister) (base : Bytes) (directory : Directory)
    (fresh : NoChain base directory) (sessions : List Session) (last : List MutationBatch)
    (encodable : ∀ session ∈ sessions ++ [Session.whole last],
      ∀ mutation ∈ session.mutations, Encodable mutation)
    (clean : Clean (sessions ++ [Session.whole last])) :
    readAfterSessions lister base sessions last directory =
      some (sessions.flatMap Session.kept ++ last.flatten) := by
  have inSessions : ∀ session ∈ sessions, ∀ mutation ∈ session.mutations, Encodable mutation :=
    fun session member => encodable session (List.mem_append_left _ member)
  obtain ⟨crashed, ran, held⟩ := runSessions_holds lister [] sessions inSessions
    clean.of_append (Or.inr ⟨rfl, fresh⟩)
  rw [List.nil_append] at held
  have started : readChain lister base crashed = some (sessions.flatMap Session.kept) := by
    rw [held.readChain lister]
    exact readAllMutations_sessions inSessions clean.of_append
  have final : readChain lister base (writeBatches lister base last crashed) =
      some ((sessions ++ [Session.whole last]).flatMap Session.kept) := by
    rw [(held.writeBatches lister last).readChain lister,
      ← readAllMutations_sessions encodable clean]
    simp [Session.whole_left]
  have keptLast : (Session.whole last).kept = last.flatten := entriesWithin_length _
  rw [readAfterSessions, ran]
  dsimp only
  rw [started]
  dsimp only
  rw [final, List.flatMap_append, List.flatMap_singleton, keptLast]

/-- Two entries cut after the first, then a session with one more. -/
theorem readAfterSessions_between :
    readAfterSessions Lister.sorted [119] [⟨[[.del [107] 0, .del [109] 0]], 21⟩]
      [[.del [108] 0]] ∅ = some [.del [107] 0, .del [108] 0] := by
  refine readAfterSessions_clean Lister.sorted [119] ∅ (noChain_empty _)
    [⟨[[.del [107] 0, .del [109] 0]], 21⟩] [[.del [108] 0]] ?_ ?_
  · intro session member mutation inside
    have one : ∃ byte : UInt8, mutation = .del [byte] 0 := by
      simp only [List.cons_append, List.nil_append, List.mem_cons, List.not_mem_nil, or_false]
        at member
      rcases member with rfl | rfl
      · simp only [Session.mutations, List.flatten_cons, List.flatten_nil, List.append_nil,
          List.mem_cons, List.not_mem_nil, or_false] at inside
        rcases inside with rfl | rfl
        · exact ⟨107, rfl⟩
        · exact ⟨109, rfl⟩
      · simp only [Session.whole, Session.mutations, List.flatten_cons, List.flatten_nil,
          List.append_nil, List.mem_singleton] at inside
        exact ⟨108, inside⟩
    obtain ⟨byte, rfl⟩ := one
    exact encodable_del (Nat.one_lt_two_pow (by decide)) 0
  · exact ⟨Or.inr ⟨1, by decide⟩, Or.inl rfl, trivial⟩

/-- An entry cut after five bytes, then a session with one more: the second entry is read as the
rest of the first, and nothing comes back of a session that was never cut. -/
theorem readAfterSessions_torn :
    readAfterSessions Lister.sorted [119] [⟨[[.del [107] 0]], 5⟩] [[.del [108] 0]] ∅ = some [] ∧
      [(⟨[[.del [107] 0]], 5⟩ : Session)].flatMap Session.kept ++ [[.del [108] 0]].flatten =
        [Mutation.del [108] 0] := by
  decide +kernel

end SunKV.Persistence
