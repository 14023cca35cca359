/-
**When a rotated log reads back.**

The writer cuts the log at every multiple of the file limit, wherever entries end; the chain reader
decodes every file on its own. So the chain reads back exactly the appended mutations if and only
if every cut falls between two entries (`Boundary`), and every archived file has a number an `int`
holds (`readChain_runWriter_iff`).

* `readPieces_encode` — pieces cut at boundaries decode to the whole list: by induction on the
  pieces, the first one being the log of a prefix of the mutations.
* `boundary_of_readPieces` — conversely, a decoded entry costs at least its encoding, so if the
  pieces give all mutations back then every piece is used up by whole entries.
-/

import SunKV.Persistence.WalChain

namespace SunKV.Persistence

open SunKV.Lib SunKV.Storage

/-! ### Runs of the writer -/

/-- A call on the writer, or closing it and opening another on the same path. -/
inductive WriterOp
  | append (batch : MutationBatch)
  | appendBytes (batch : MutationBatch)
  | reopen
  deriving DecidableEq

/-- The mutations a call appends. -/
def WriterOp.mutations : WriterOp → List Mutation
  | .append batch => batch
  | .appendBytes batch => batch
  | .reopen => []

/-- All mutations of a run, in append order. -/
def appended (ops : List WriterOp) : List Mutation := ops.flatMap WriterOp.mutations

/-- One call. -/
def runOp (lister : Lister) (base : Bytes) (limit : Nat) (directory : Directory) :
    WriterOp → Directory
  | .append batch => append lister base limit directory batch
  | .appendBytes batch => appendBytes lister base limit directory (encodeBatch batch)
  | .reopen => openAppend base directory

/-- A run of the writer, from its construction on. -/
def runWriter (lister : Lister) (base : Bytes) (limit : Nat) (ops : List WriterOp)
    (directory : Directory) : Directory :=
  ops.foldl (runOp lister base limit) (openAppend base directory)

section Runs

variable {lister : Lister} {base : Bytes} {limit : Nat} {directory : Directory}

theorem Stored.runOp (positive : 0 < limit) {log : Bytes} (stored : Stored base limit log directory)
    (op : WriterOp) :
    Stored base limit (log ++ encodeBatch op.mutations) (runOp lister base limit directory op) := by
  cases op with
  | append batch => exact stored.append positive batch
  | appendBytes batch => exact stored.appendBytes positive _
  | reopen =>
    rw [Persistence.runOp, Laid.openAppend stored, WriterOp.mutations, encodeBatch_nil,
      List.append_nil]
    exact stored

/-- **After any run the directory holds the log of all appended mutations.** -/
theorem stored_runWriter (positive : 0 < limit) (fresh : NoChain base directory)
    (ops : List WriterOp) :
    Stored base limit (encodeBatch (appended ops)) (runWriter lister base limit ops directory) := by
  have general : ∀ (ops : List WriterOp) (log : Bytes) (directory : Directory),
      Stored base limit log directory →
      Stored base limit (log ++ encodeBatch (appended ops))
        (ops.foldl (runOp lister base limit) directory) := by
    intro ops
    induction ops with
    | nil =>
      intro log directory stored
      simpa [appended] using stored
    | cons op ops ih =>
      intro log directory stored
      have later := ih _ (runOp lister base limit directory op) (stored.runOp positive op)
      rw [List.append_assoc, ← encodeBatch_append] at later
      exact later
  have opened : Stored base limit [] (openAppend base directory) :=
    (Laid.of_noChain fresh).stored positive (Or.inl rfl)
  exact general ops [] _ opened

end Runs

/-! ### Pieces of a log -/

/-- An offset at which an entry ends, or the start of the log. -/
def Boundary (mutations : List Mutation) (offset : Nat) : Prop :=
  ∃ count, (encodeBatch (mutations.take count)).length = offset

/-- The log cut `count` times, every `limit` bytes. -/
def cutEvery (limit : Nat) : Nat → Bytes → List Bytes
  | 0, log => [log]
  | count + 1, log => log.take limit :: cutEvery limit count (log.drop limit)

theorem cutEvery_eq (limit count : Nat) (log : Bytes) :
    cutEvery limit count log =
      (List.range count).map (fun index => (log.drop (index * limit)).take limit) ++
        [log.drop (count * limit)] := by
  induction count generalizing log with
  | zero => simp [cutEvery]
  | succ count ih =>
    rw [cutEvery, ih, List.range_succ_eq_map, List.map_cons, List.map_map, Nat.zero_mul,
      List.drop_zero, List.cons_append, List.drop_drop]
    congr 2
    · refine List.map_congr_left fun index _ => ?_
      show ((log.drop limit).drop (index * limit)).take limit =
        (log.drop ((index + 1) * limit)).take limit
      rw [List.drop_drop, Nat.add_mul, Nat.one_mul, Nat.add_comm]
    · rw [Nat.add_mul, Nat.one_mul, Nat.add_comm]

/-- The chain reader on the contents of its files. -/
def readPieces (pieces : List Bytes) : Option (List Mutation) := readSegments (pieces.map some)

theorem readPieces_cons (piece : Bytes) (pieces : List Bytes) :
    readPieces (piece :: pieces) =
      match decodeEntries piece with
      | (mutations, .tail _) => (readPieces pieces).map (mutations ++ ·)
      | (_, .corrupt _) => none := by
  rw [readPieces, List.map_cons, readSegments, readAllMutations_eq]
  rcases decodeEntries piece with ⟨mutations, left | left⟩
  · show (readPieces pieces).bind _ = (readPieces pieces).map _
    cases readPieces pieces <;> rfl
  · rfl

/-- A boundary splits the mutations where the offset splits their log. -/
theorem Boundary.split {mutations : List Mutation} {offset : Nat}
    (boundary : Boundary mutations offset) :
    ∃ front back, mutations = front ++ back ∧ (encodeBatch front).length = offset ∧
      (encodeBatch mutations).take offset = encodeBatch front ∧
      (encodeBatch mutations).drop offset = encodeBatch back := by
  obtain ⟨count, length⟩ := boundary
  refine ⟨mutations.take count, mutations.drop count, (List.take_append_drop _ _).symm, length, ?_⟩
  have parts : encodeBatch mutations =
      encodeBatch (mutations.take count) ++ encodeBatch (mutations.drop count) := by
    rw [← encodeBatch_append, List.take_append_drop]
  rw [parts, ← length]
  exact ⟨List.take_left, List.drop_left⟩

/-- Boundaries past a front are boundaries of the back. -/
theorem Boundary.of_append {front back : List Mutation} {offset : Nat}
    (boundary : Boundary (front ++ back) ((encodeBatch front).length + offset)) :
    Boundary back offset := by
  obtain ⟨count, length⟩ := boundary
  by_cases inside : front.length ≤ count
  · refine ⟨count - front.length, ?_⟩
    rw [List.take_append, List.take_of_length_le inside, encodeBatch_append,
      List.length_append] at length
    omega
  · refine ⟨0, ?_⟩
    -- a count inside the front gives an offset inside its log, so nothing is left past it
    have short : (encodeBatch (front.take count)).length ≤ (encodeBatch front).length := by
      conv_rhs => rw [← List.take_append_drop count front, encodeBatch_append, List.length_append]
      exact Nat.le_add_right _ _
    rw [List.take_append_of_le_length (by omega)] at length
    show 0 = offset
    omega

theorem Boundary.append {back : List Mutation} {offset : Nat} (boundary : Boundary back offset)
    (front : List Mutation) :
    Boundary (front ++ back) ((encodeBatch front).length + offset) := by
  obtain ⟨count, length⟩ := boundary
  refine ⟨front.length + count, ?_⟩
  rw [List.take_length_add_append, encodeBatch_append, List.length_append, length]

/-- **Pieces cut at boundaries decode to the whole list.** -/
theorem readPieces_encode {limit count : Nat} {mutations : List Mutation}
    (encodable : ∀ mutation ∈ mutations, Encodable mutation)
    (boundaries : ∀ piece, 0 < piece → piece ≤ count → Boundary mutations (piece * limit)) :
    readPieces (cutEvery limit count (encodeBatch mutations)) = some mutations := by
  induction count generalizing mutations with
  | zero =>
    rw [cutEvery, readPieces_cons, decodeEntries_encode encodable]
    show some (mutations ++ []) = some mutations
    rw [List.append_nil]
  | succ count ih =>
    have first := boundaries 1 Nat.one_pos (by omega)
    rw [Nat.one_mul] at first
    obtain ⟨front, back, rfl, length, take, drop⟩ := first.split
    have inFront : ∀ mutation ∈ front, Encodable mutation :=
      fun mutation member => encodable mutation (List.mem_append_left _ member)
    have inBack : ∀ mutation ∈ back, Encodable mutation :=
      fun mutation member => encodable mutation (List.mem_append_right _ member)
    have later : readPieces (cutEvery limit count (encodeBatch back)) = some back := by
      refine ih inBack fun piece positive few => ?_
      have boundary := boundaries (piece + 1) (by omega) (by omega)
      rw [Nat.add_mul, Nat.one_mul, Nat.add_comm, ← length] at boundary
      rw [← length]
      exact boundary.of_append
    rw [cutEvery, take, drop, readPieces_cons, decodeEntries_encode inFront, later]
    rfl

/-- What pieces decode to costs no more than the pieces. -/
theorem readPieces_cost {pieces : List Bytes} {mutations : List Mutation}
    (read : readPieces pieces = some mutations) :
    (encodeBatch mutations).length ≤ (pieces.map List.length).sum := by
  induction pieces generalizing mutations with
  | nil =>
    obtain rfl : [] = mutations := Option.some.inj read
    exact Nat.zero_le _
  | cons piece pieces ih =>
    have cost := decodeEntries_cost piece
    rw [readPieces_cons] at read
    rcases equation : decodeEntries piece with ⟨front, left | left⟩
    all_goals simp only [equation] at read cost
    · obtain ⟨back, later, rfl⟩ := Option.map_eq_some_iff.mp read
      have rest := ih later
      rw [encodeBatch_append, List.length_append, List.map_cons, List.sum_cons]
      omega
    · cases read

theorem cutEvery_sum {limit count : Nat} {log : Bytes} (long : count * limit ≤ log.length) :
    ((cutEvery limit count log).map List.length).sum = log.length := by
  induction count generalizing log with
  | zero => simp [cutEvery]
  | succ count ih =>
    rw [Nat.add_mul, Nat.one_mul] at long
    have rest : ((cutEvery limit count (log.drop limit)).map List.length).sum =
        (log.drop limit).length := ih (by rw [List.length_drop]; omega)
    rw [cutEvery, List.map_cons, List.sum_cons, rest, List.length_take, List.length_drop]
    omega

/-- **If the pieces give back entries of the length of the log, every cut is a boundary.** -/
theorem boundary_of_readPieces {limit count : Nat} {log : Bytes} {mutations : List Mutation}
    (long : count * limit ≤ log.length)
    (read : readPieces (cutEvery limit count log) = some mutations)
    (complete : (encodeBatch mutations).length = log.length) {piece : Nat} (few : piece ≤ count) :
    Boundary mutations (piece * limit) := by
  induction count generalizing log mutations piece with
  | zero =>
    obtain rfl : piece = 0 := Nat.le_zero.mp few
    exact ⟨0, by simp⟩
  | succ count ih =>
    rw [Nat.add_mul, Nat.one_mul] at long
    have rest : count * limit ≤ (log.drop limit).length := by rw [List.length_drop]; omega
    have cost := decodeEntries_cost (log.take limit)
    rw [cutEvery, readPieces_cons] at read
    rcases equation : decodeEntries (log.take limit) with ⟨front, left | left⟩
    all_goals simp only [equation] at read cost
    · obtain ⟨back, later, rfl⟩ := Option.map_eq_some_iff.mp read
      have costLater := readPieces_cost later
      rw [cutEvery_sum rest, List.length_drop] at costLater
      rw [encodeBatch_append, List.length_append] at complete
      rw [List.length_take] at cost
      have exactFront : (encodeBatch front).length = limit := by omega
      cases piece with
      | zero => exact ⟨0, by simp⟩
      | succ piece =>
        have boundary := ih rest later (by rw [List.length_drop]; omega)
          (Nat.le_of_succ_le_succ few)
        have whole := boundary.append front
        rw [exactFront] at whole
        rwa [Nat.add_mul, Nat.one_mul, Nat.add_comm]
    · cases read

/-! ### The chain -/

section Chain

variable {base : Bytes} {limit : Nat} {log : Bytes} {directory : Directory}

theorem Stored.readChain_of_le (lister : Lister) (stored : Stored base limit log directory)
    (few : (log.length - 1) / limit ≤ intMax) :
    readChain lister base directory =
      readPieces (cutEvery limit ((log.length - 1) / limit) log) := by
  rw [Laid.readChain stored, Nat.min_eq_left few, readPieces, cutEvery_eq, List.map_append,
    List.map_map]
  rfl

/-- A chain that gives back as much as was appended has lost no segment. -/
theorem Stored.count_le_intMax (lister : Lister) (positive : 0 < limit)
    (stored : Stored base limit log directory) {mutations : List Mutation}
    (read : readChain lister base directory = some mutations)
    (complete : (encodeBatch mutations).length = log.length) :
    (log.length - 1) / limit ≤ intMax := by
  by_contra many
  have kept : min ((log.length - 1) / limit) intMax = intMax := Nat.min_eq_right (by omega)
  have pieces : readPieces ((List.range intMax).map
      (fun index => (log.drop (index * limit)).take limit) ++
        [log.drop ((log.length - 1) / limit * limit)]) = some mutations := by
    rw [Laid.readChain stored, kept] at read
    rw [readPieces, List.map_append, List.map_map]
    exact read
  have cost := readPieces_cost pieces
  have bounded : ((List.range intMax).map fun index =>
      ((log.drop (index * limit)).take limit).length).sum ≤ intMax * limit := by
    have each := List.sum_le_card_nsmul ((List.range intMax).map fun index =>
      ((log.drop (index * limit)).take limit).length) limit
    rw [List.length_map, List.length_range, smul_eq_mul] at each
    refine each fun length member => ?_
    obtain ⟨index, _, rfl⟩ := List.mem_map.mp member
    exact List.length_take_le _ _
  have more : (intMax + 1) * limit ≤ (log.length - 1) / limit * limit :=
    Nat.mul_le_mul_right _ (by omega)
  have low := stored.low
  rw [Nat.add_mul, Nat.one_mul] at more
  rw [List.map_append, List.sum_append, List.map_map] at cost
  simp only [List.map_cons, List.map_nil, List.sum_cons, List.sum_nil, List.length_drop] at cost
  have first : ((List.range intMax).map
      (List.length ∘ fun index => (log.drop (index * limit)).take limit)).sum ≤ intMax * limit :=
    bounded
  omega

end Chain

/-- **A rotated log reads back exactly when every cut falls between two entries** and every archived
file has a number. -/
theorem readChain_runWriter_iff (lister : Lister) (base : Bytes) (limit : Nat)
    (positive : 0 < limit) (directory : Directory) (fresh : NoChain base directory)
    (ops : List WriterOp) (encodable : ∀ mutation ∈ appended ops, Encodable mutation) :
    readChain lister base (runWriter lister base limit ops directory) = some (appended ops) ↔
      (∀ piece, 0 < piece → piece * limit < (encodeBatch (appended ops)).length →
        Boundary (appended ops) (piece * limit)) ∧
      ((encodeBatch (appended ops)).length - 1) / limit ≤ intMax := by
  have stored : Stored base limit (encodeBatch (appended ops))
      (runWriter lister base limit ops directory) := stored_runWriter positive fresh ops
  have range : ∀ piece, piece * limit < (encodeBatch (appended ops)).length →
      piece ≤ ((encodeBatch (appended ops)).length - 1) / limit :=
    fun piece inside => (Nat.le_div_iff_mul_le positive).mpr (by omega)
  constructor
  · intro read
    have few := stored.count_le_intMax lister positive read rfl
    rw [stored.readChain_of_le lister few] at read
    exact ⟨fun piece _ inside =>
      boundary_of_readPieces stored.low read rfl (range piece inside), few⟩
  · rintro ⟨boundaries, few⟩
    rw [stored.readChain_of_le lister few]
    refine readPieces_encode encodable fun piece some below => boundaries piece some ?_
    have inside := (Nat.le_div_iff_mul_le positive).mp below
    have nonempty : 0 < piece * limit := Nat.mul_pos some positive
    omega

/-- Two entries of 21 bytes and a file limit of 21: the one cut falls between them. -/
theorem readChain_runWriter_between :
    readChain Lister.sorted [119]
      (runWriter Lister.sorted [119] 21 [.append [.del [107] 0, .del [108] 1]] ∅) =
      some [.del [107] 0, .del [108] 1] := by
  refine (readChain_runWriter_iff Lister.sorted [119] 21 (by decide) ∅ (noChain_empty _)
    [.append [.del [107] 0, .del [108] 1]] ?_).mpr ⟨fun piece _ inside => ?_, by decide⟩
  · intro mutation member
    rcases List.mem_cons.mp member with rfl | member
    · exact encodable_del (by decide) _
    · obtain rfl := List.mem_singleton.mp member
      exact encodable_del (by decide) _
  · have inside' : piece * 21 < 42 := inside
    obtain rfl : piece = 1 := by omega
    exact ⟨1, by decide⟩

/-- One entry of 21 bytes and a file limit of 10: the second file starts inside the entry, and the
chain is not read. -/
theorem readChain_runWriter_inside :
    readChain Lister.sorted [119]
      (runWriter Lister.sorted [119] 10 [.append [.del [107] 0]] ∅) = none := by
  decide +kernel

end SunKV.Persistence
