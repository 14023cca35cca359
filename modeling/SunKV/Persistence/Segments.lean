/-
**The segment chain as bytes.**

Any number of writers, one after the other, append buffers of any size to one path. The numbers
under which full files are archived come from the writer's own listing of the directory, the order
in which the chain is read from the reader's.

* `appendRounds` — `appendBytes` with the rounds of its loop counted; it returns
  (`Laid.appendRounds`): a full file costs one round, and every other round writes.
* `Laid.rotate_keeps` — a rotation changes no file but the primary.
* `segments_concat` — after any calls every file is within the limit, and the files in reading
  order are the bytes appended.
-/

import SunKV.Persistence.Rotation

namespace SunKV.Persistence

open SunKV.Lib SunKV.Storage

/-! ### Termination -/

section Rounds

variable (lister : Lister) (base : Bytes) (limit : Nat)

/-- The loop of `appendBytes`: nothing while the rounds do not suffice. -/
def appendRounds : Nat → Directory → Bytes → Option Directory
  | 0, _, _ => none
  | rounds + 1, directory, data =>
    if data = [] then some directory
    else
      let size := (directory[base]?.getD []).length
      if limit ≤ size then appendRounds rounds (rotate lister base directory) data
      else
        let chunk := min data.length (limit - size)
        appendRounds rounds (writeAll base directory (data.take chunk)) (data.drop chunk)

end Rounds

/-- What the counted loop returns is what the loop leaves. -/
theorem appendLoop_of_rounds {lister : Lister} {base : Bytes} {limit rounds : Nat}
    {directory after : Directory} {data : Bytes}
    (returned : appendRounds lister base limit (rounds + 1) directory data = some after) :
    appendLoop lister base limit rounds directory data = after := by
  induction rounds generalizing directory data with
  | zero =>
    rw [appendRounds] at returned
    split at returned
    case isTrue => exact Option.some.inj returned
    case isFalse =>
      dsimp only at returned
      split at returned
      · cases returned
      · cases returned
  | succ rounds ih =>
    rw [appendRounds] at returned
    rw [appendLoop]
    split at returned
    case isTrue empty =>
      rw [if_pos empty]
      exact Option.some.inj returned
    case isFalse some =>
      rw [if_neg some]
      dsimp only at returned ⊢
      split at returned
      case isTrue full =>
        rw [if_pos full]
        exact ih returned
      case isFalse room =>
        rw [if_neg room]
        exact ih returned

section Append

variable {lister : Lister} {base : Bytes} {limit count : Nat} {log : Bytes} {directory : Directory}

/-- The name the next segment gets is free. -/
theorem Laid.nextName_free (laid : Laid base limit count log directory) (few : count < intMax) :
    nextName base count ∉ directory := by
  intro member
  rw [nextName_of_lt base few] at member
  obtain ⟨index, inside, same, -⟩ :=
    laid.only _ member (count + 1) (segmentNumber_segmentName base few)
  omega

/-- **A rotation changes no file but the primary.** -/
theorem Laid.rotate_keeps (laid : Laid base limit count log directory)
    (occupied : count * limit < log.length) (few : count < intMax) {name : Bytes}
    (member : name ∈ directory) (other : name ≠ base) :
    name ∈ Persistence.rotate lister base directory ∧
      (Persistence.rotate lister base directory)[name]? = directory[name]? := by
  have fresh : name ≠ nextName base count := fun same => laid.nextName_free few (same ▸ member)
  have kept : (Persistence.rotate lister base directory)[name]? = directory[name]? := by
    rw [laid.rotate_eq occupied, getElem?_insert_eq, if_neg other, getElem?_insert_eq,
      if_neg fresh, getElem?_erase_eq, if_neg other]
  refine ⟨Std.ExtTreeMap.mem_iff_isSome_getElem?.mpr ?_, kept⟩
  rw [kept]
  exact Std.ExtTreeMap.mem_iff_isSome_getElem?.mp member

variable (lister)

/-- **The loop returns, and changes no file that was there but the primary.** A full primary costs
one round more. -/
theorem Laid.appendRounds (positive : 0 < limit) {rounds : Nat} (data : Bytes)
    (laid : Laid base limit count log directory)
    (few : log.length + data.length ≤ intMax * limit) (enough : 2 * data.length < rounds)
    (enough' : log.length = (count + 1) * limit → 2 * data.length + 1 < rounds) :
    ∃ after, appendRounds lister base limit rounds directory data = some after ∧
      ∀ name ∈ directory, name ≠ base → after[name]? = directory[name]? := by
  induction rounds generalizing count log directory data with
  | zero => omega
  | succ rounds ih =>
    unfold Persistence.appendRounds
    by_cases empty : data = []
    · exact ⟨directory, if_pos empty, fun _ _ _ => rfl⟩
    rw [if_neg empty, laid.size]
    have low := laid.low
    have high := laid.high
    have split := Nat.add_one_mul count limit
    have some : 0 < data.length := List.length_pos_of_ne_nil empty
    by_cases full : limit ≤ log.length - count * limit
    · have brim : log.length = (count + 1) * limit := by omega
      have more := Nat.add_one_mul (count + 1) limit
      have roundsLeft := enough' brim
      -- the bytes to come would not fit the chain if all its numbers were used
      have free : count < intMax := by
        refine Nat.lt_of_mul_lt_mul_right (a := limit) ?_
        omega
      simp only [full, if_true]
      obtain ⟨after, returned, kept⟩ := ih data (laid.rotate positive brim) few (by omega)
        (fun same => by omega)
      refine ⟨after, returned, fun name member other => ?_⟩
      obtain ⟨still, same⟩ := laid.rotate_keeps (by omega) free member other
      rw [kept name still other, same]
    · simp only [full, if_false]
      generalize size : min data.length (limit - (log.length - count * limit)) = chunk
      have written : (data.take chunk).length = chunk := by
        rw [List.length_take]
        omega
      have left : (data.drop chunk).length = data.length - chunk := List.length_drop
      obtain ⟨after, returned, kept⟩ := ih (data.drop chunk)
        (laid.writeAll (by rw [written]; omega)) (by rw [List.length_append]; omega) (by omega)
        (fun _ => by omega)
      refine ⟨after, returned, fun name member other => ?_⟩
      rw [kept name ((mem_insert_iff _ _ _).mpr (Or.inr member)) other, Persistence.writeAll,
        getElem?_insert_eq, if_neg other]

/-- **An append returns**, and changes no file that was there but the primary. -/
theorem Stored.appendBytes_returns (positive : 0 < limit) (stored : Stored base limit log directory)
    (data : Bytes) (few : log.length + data.length ≤ intMax * limit) :
    appendRounds lister base limit (2 * data.length + 2) directory data =
        some (Persistence.appendBytes lister base limit directory data) ∧
      ∀ name ∈ directory, name ≠ base →
        (Persistence.appendBytes lister base limit directory data)[name]? = directory[name]? := by
  obtain ⟨after, returned, kept⟩ := Laid.appendRounds lister positive data stored few
    (show 2 * data.length < 2 * data.length + 2 by omega) (fun _ => by omega)
  have same : Persistence.appendBytes lister base limit directory data = after := by
    unfold Persistence.appendBytes
    split
    case isTrue empty =>
      rw [Persistence.appendRounds, if_pos empty] at returned
      exact Option.some.inj returned
    case isFalse =>
      rw [if_neg positive.ne']
      exact appendLoop_of_rounds returned
  rw [same]
  exact ⟨returned, kept⟩

/-! ### The bytes of the chain -/

theorem flatten_cutEvery (limit count : Nat) (log : Bytes) :
    (cutEvery limit count log).flatten = log := by
  induction count generalizing log with
  | zero => exact List.append_nil log
  | succ count ih => rw [cutEvery, List.flatten_cons, ih, List.take_append_drop]

/-- What the files of the chain hold, in reading order. -/
def chainContents (reader : Lister) (base : Bytes) (directory : Directory) : List Bytes :=
  (walSegmentsOrdered reader base directory).map fun name => directory[name]?.getD []

/-- With few enough segments the chain is the log, cut every `limit` bytes. -/
theorem Laid.chainContents (laid : Laid base limit count log directory) (few : count ≤ intMax) :
    chainContents lister base directory = cutEvery limit count log := by
  rw [Persistence.chainContents, laid.walSegmentsOrdered, Nat.min_eq_left few, List.map_append,
    List.map_map, List.map_singleton, laid.primary, cutEvery_eq]
  congr 1
  refine List.map_congr_left fun index member => ?_
  show (directory[segmentName base (index + 1)]?).getD [] = _
  rw [laid.archived index (Nat.lt_min.mpr ⟨List.mem_range.mp member,
    Nat.lt_of_lt_of_le (List.mem_range.mp member) few⟩), Option.getD_some]

/-- No piece is longer than the limit. -/
theorem length_of_mem_cutEvery {piece : Bytes} (high : log.length ≤ (count + 1) * limit)
    (member : piece ∈ cutEvery limit count log) : piece.length ≤ limit := by
  induction count generalizing log with
  | zero =>
    obtain rfl := List.mem_singleton.mp member
    omega
  | succ count ih =>
    rcases List.mem_cons.mp member with rfl | member
    · exact List.length_take_le _ _
    · refine ih ?_ member
      rw [List.length_drop, Nat.add_mul (count + 1), Nat.one_mul] at *
      omega

end Append

/-! ### Runs -/

/-- Writers one after the other: each is opened on the path, makes its calls and is closed. -/
def runWriters (lister : Lister) (base : Bytes) (limit : Nat) (writers : List (List Bytes))
    (directory : Directory) : Directory :=
  writers.foldl (fun held calls =>
    calls.foldl (appendBytes lister base limit) (openAppend base held)) directory

section Runs

variable (lister : Lister) {base : Bytes} {limit : Nat} {log : Bytes} {directory : Directory}

theorem Stored.appendAll (positive : 0 < limit) (stored : Stored base limit log directory)
    (calls : List Bytes) :
    Stored base limit (log ++ calls.flatten)
      (calls.foldl (Persistence.appendBytes lister base limit) directory) := by
  induction calls generalizing log directory with
  | nil =>
    rw [List.flatten_nil, List.append_nil]
    exact stored
  | cons data calls ih =>
    rw [List.flatten_cons, ← List.append_assoc]
    exact ih (stored.appendBytes positive data)

/-- No chain yet, or the chain of a log. -/
def Kept (base : Bytes) (limit : Nat) (log : Bytes) (directory : Directory) : Prop :=
  Stored base limit log directory ∨ log = [] ∧ NoChain base directory

theorem Kept.openAppend (positive : 0 < limit) (kept : Kept base limit log directory) :
    Stored base limit log (openAppend base directory) := by
  rcases kept with stored | ⟨rfl, fresh⟩
  · rw [Laid.openAppend stored]
    exact stored
  · exact (Laid.of_noChain fresh).stored positive (Or.inl rfl)

theorem Kept.runWriters (positive : 0 < limit) (kept : Kept base limit log directory)
    (writers : List (List Bytes)) :
    Kept base limit (log ++ writers.flatten.flatten)
      (runWriters lister base limit writers directory) := by
  induction writers generalizing log directory with
  | nil =>
    rw [List.flatten_nil, List.flatten_nil, List.append_nil]
    exact kept
  | cons calls writers ih =>
    rw [List.flatten_cons, List.flatten_append, ← List.append_assoc]
    exact ih (Or.inl (Stored.appendAll lister positive (kept.openAppend positive) calls))

end Runs

/-- **The segment chain.** Take any writers that have come and gone, and a writer that has made some
calls. Its next call returns; it changes no file that was there but the primary; every file of the
chain is within the limit; and the files in reading order are all the bytes appended. -/
theorem segments_concat (lister reader : Lister) (base : Bytes) (limit : Nat) (positive : 0 < limit)
    (start : Directory) (fresh : NoChain base start) (writers : List (List Bytes))
    (calls : List Bytes) (data : Bytes)
    (few : (writers.flatten.flatten ++ calls.flatten ++ data).length ≤ intMax * limit) :
    let before := calls.foldl (appendBytes lister base limit)
      (openAppend base (runWriters lister base limit writers start))
    let after := appendBytes lister base limit before data
    (∃ rounds, appendRounds lister base limit rounds before data = some after) ∧
      (∀ name ∈ before, name ≠ base → after[name]? = before[name]?) ∧
      (∀ content ∈ chainContents reader base after, content.length ≤ limit) ∧
      (chainContents reader base after).flatten =
        writers.flatten.flatten ++ calls.flatten ++ data := by
  intro before after
  have past : Kept base limit writers.flatten.flatten
      (runWriters lister base limit writers start) := by
    have kept := Kept.runWriters lister positive (Or.inr ⟨rfl, fresh⟩) writers
    rwa [List.nil_append] at kept
  have stored : Stored base limit (writers.flatten.flatten ++ calls.flatten) before :=
    Stored.appendAll lister positive (past.openAppend positive) calls
  have extended : Stored base limit (writers.flatten.flatten ++ calls.flatten ++ data) after :=
    stored.appendBytes positive data
  have returns := Stored.appendBytes_returns lister positive stored data
    (by rwa [List.length_append] at few)
  have numbered : ((writers.flatten.flatten ++ calls.flatten ++ data).length - 1) / limit ≤
      intMax := by
    refine (Nat.div_le_div_right (Nat.sub_le _ _)).trans ?_
    exact Nat.div_le_of_le_mul (by rwa [Nat.mul_comm])
  have contents := Laid.chainContents reader extended numbered
  refine ⟨⟨_, returns.1⟩, returns.2, fun content member => ?_, ?_⟩
  · rw [contents] at member
    exact length_of_mem_cutEvery extended.high member
  · rw [contents, flatten_cutEvery]

/-- Three writers on files of two bytes: the first writes three bytes at once, the last goes on
behind a full primary. -/
theorem segments_concat_three :
    let before := [[5, 6]].foldl (appendBytes Lister.sorted [119] 2)
      (openAppend [119] (runWriters Lister.sorted [119] 2 [[[1, 2, 3]], [[4]]] ∅))
    let after := appendBytes Lister.sorted [119] 2 before [7]
    chainContents Lister.sorted [119] after = [[1, 2], [3, 4], [5, 6], [7]] ∧
      (∃ rounds, appendRounds Lister.sorted [119] 2 rounds before [7] = some after) ∧
      (∀ name ∈ before, name ≠ [119] → after[name]? = before[name]?) ∧
      (∀ content ∈ chainContents Lister.sorted [119] after, content.length ≤ 2) ∧
      (chainContents Lister.sorted [119] after).flatten = [1, 2, 3, 4, 5, 6, 7] :=
  ⟨by decide +kernel, segments_concat Lister.sorted Lister.sorted [119] 2 (by decide) ∅
    (noChain_empty _) [[[1, 2, 3]], [[4]]] [[5, 6]] [7] (by decide)⟩

end SunKV.Persistence
