/-
**Reading a log file.**

`decodeEntries` is the inner loop of `WalReader::readAll` over one buffer: entry after entry until
the buffer ends, an entry is incomplete, or bytes are no entry. It is a loop with fuel; every entry
takes bytes, so the length of the buffer is enough (`decodeEntries_eq` is its equation without
fuel).

`readAll` streams the file through a buffer, `kChunkBytes` at a time. `readAll_eq_readWhole` — for
every chunk size it returns what decoding the whole content in one buffer gives.

* `decodeEntries_append` — decoding goes on where a shorter buffer stopped.
* `decodeEntries_encode`, `decodeEntries_take` — the log of a list of mutations, whole and cut
  anywhere.
* `readAll_truncated` — a file cut anywhere reads as the entries before the cut.
-/

import SunKV.Persistence.CodecLaws

namespace SunKV.Persistence

open SunKV.Lib SunKV.Storage

/-! ### The decode loop -/

/-- Where the loop stops: at the bytes from `off` on, which are incomplete, or no entry. -/
inductive LoopEnd
  | tail (left : Bytes)
  | corrupt (left : Bytes)
  deriving DecidableEq

/-- `while (off < pending.size())`. -/
def decodeLoop : Nat → Bytes → List Mutation × LoopEnd
  | 0, pending => ([], .tail pending)
  | fuel + 1, pending =>
    match decodeOneStatus pending with
    | .ok mutation rest => (mutation :: (decodeLoop fuel rest).1, (decodeLoop fuel rest).2)
    | .incompleteTail => ([], .tail pending)
    | .corrupt => ([], .corrupt pending)

/-- The loop on a buffer. -/
def decodeEntries (pending : Bytes) : List Mutation × LoopEnd := decodeLoop pending.length pending

theorem decodeOneStatus_shorter {data rest : Bytes} {mutation : Mutation}
    (done : decodeOneStatus data = .ok mutation rest) : rest.length < data.length := by
  have cost := decodeOneStatus_cost done
  have pos := encodeMutation_pos mutation
  omega

/-- Fuel beyond the length of the buffer changes nothing. -/
theorem decodeLoop_of_le {fuel : Nat} {pending : Bytes} (enough : pending.length ≤ fuel) :
    decodeLoop fuel pending = decodeEntries pending := by
  unfold decodeEntries
  -- both sides with their own fuel, so that the hypothesis reaches the rest of the buffer
  have general : ∀ fuel fuel' (pending : Bytes), pending.length ≤ fuel → pending.length ≤ fuel' →
      decodeLoop fuel pending = decodeLoop fuel' pending := by
    intro fuel
    induction fuel with
    | zero =>
      intro fuel' pending short _
      obtain rfl := List.eq_nil_of_length_eq_zero (Nat.le_zero.mp short)
      cases fuel' with
      | zero => rfl
      | succ fuel' => rfl
    | succ fuel ih =>
      intro fuel' pending short short'
      cases fuel' with
      | zero =>
        obtain rfl := List.eq_nil_of_length_eq_zero (Nat.le_zero.mp short')
        rfl
      | succ fuel' =>
        cases found : decodeOneStatus pending with
        | incompleteTail => simp only [decodeLoop, found]
        | corrupt => simp only [decodeLoop, found]
        | ok mutation rest =>
          have less := decodeOneStatus_shorter found
          simp only [decodeLoop, found]
          rw [ih fuel' rest (by omega) (by omega)]
  exact general _ _ _ enough le_rfl

/-- **The loop, without fuel.** -/
theorem decodeEntries_eq (pending : Bytes) :
    decodeEntries pending =
      match decodeOneStatus pending with
      | .ok mutation rest => (mutation :: (decodeEntries rest).1, (decodeEntries rest).2)
      | .incompleteTail => ([], .tail pending)
      | .corrupt => ([], .corrupt pending) := by
  rw [← decodeLoop_of_le (Nat.le_succ pending.length), decodeLoop]
  cases found : decodeOneStatus pending with
  | incompleteTail => rfl
  | corrupt => rfl
  | ok mutation rest =>
    have less := decodeOneStatus_shorter found
    dsimp only
    rw [decodeLoop_of_le less.le]

section Steps

variable {pending rest : Bytes} {mutation : Mutation}

theorem decodeEntries_of_ok (found : decodeOneStatus pending = .ok mutation rest) :
    decodeEntries pending = (mutation :: (decodeEntries rest).1, (decodeEntries rest).2) := by
  rw [decodeEntries_eq, found]

theorem decodeEntries_of_incompleteTail (found : decodeOneStatus pending = .incompleteTail) :
    decodeEntries pending = ([], .tail pending) := by
  rw [decodeEntries_eq, found]

theorem decodeEntries_of_corrupt (found : decodeOneStatus pending = .corrupt) :
    decodeEntries pending = ([], .corrupt pending) := by
  rw [decodeEntries_eq, found]

end Steps

/-- Induction along the loop. -/
theorem decodeEntries_induction {motive : Bytes → Prop}
    (ok : ∀ pending mutation rest, decodeOneStatus pending = .ok mutation rest → motive rest →
      motive pending)
    (incompleteTail : ∀ pending, decodeOneStatus pending = .incompleteTail → motive pending)
    (corrupt : ∀ pending, decodeOneStatus pending = .corrupt → motive pending)
    (pending : Bytes) : motive pending := by
  induction length : pending.length using Nat.strong_induction_on generalizing pending with
  | _ size ih =>
    cases found : decodeOneStatus pending with
    | incompleteTail => exact incompleteTail pending found
    | corrupt => exact corrupt pending found
    | ok mutation rest =>
      have less := decodeOneStatus_shorter found
      exact ok pending mutation rest found (ih rest.length (by omega) rest rfl)

/-- A buffer that ended in a tail goes on with the tail and whatever follows. -/
theorem decodeEntries_append (pending more : Bytes) :
    decodeEntries (pending ++ more) =
      match decodeEntries pending with
      | (mutations, .tail left) =>
          (mutations ++ (decodeEntries (left ++ more)).1, (decodeEntries (left ++ more)).2)
      | (mutations, .corrupt left) => (mutations, .corrupt (left ++ more)) := by
  induction pending using decodeEntries_induction with
  | ok pending mutation rest found ih =>
    rw [decodeEntries_of_ok found, decodeEntries_of_ok (decodeOneStatus_append found more), ih]
    rcases decodeEntries rest with ⟨mutations, left | left⟩
    · rfl
    · rfl
  | incompleteTail pending found =>
    rw [decodeEntries_of_incompleteTail found]
    rfl
  | corrupt pending found =>
    rw [decodeEntries_of_corrupt found,
      decodeEntries_of_corrupt (decodeOneStatus_corrupt_append found more)]

/-- The entries decoded cost at least their encodings, and what is left is not among them. -/
theorem decodeEntries_cost (pending : Bytes) :
    match decodeEntries pending with
    | (mutations, .tail left) => (encodeBatch mutations).length + left.length ≤ pending.length
    | (mutations, .corrupt left) =>
        (encodeBatch mutations).length + left.length ≤ pending.length := by
  induction pending using decodeEntries_induction with
  | ok pending mutation rest found ih =>
    have cost := decodeOneStatus_cost found
    rw [decodeEntries_of_ok found]
    rcases equation : decodeEntries rest with ⟨mutations, left | left⟩ <;>
      simp only [equation, encodeBatch, List.flatMap_cons, List.length_append] at ih ⊢ <;> omega
  | incompleteTail pending found => simp [decodeEntries_of_incompleteTail found, encodeBatch]
  | corrupt pending found => simp [decodeEntries_of_corrupt found, encodeBatch]

/-- What is left is never longer than the buffer. -/
theorem decodeEntries_left_le (pending : Bytes) :
    match (decodeEntries pending).2 with
    | .tail left => left.length ≤ pending.length
    | .corrupt left => left.length ≤ pending.length := by
  have cost := decodeEntries_cost pending
  rcases equation : decodeEntries pending with ⟨mutations, left | left⟩ <;>
    simp only [equation] at cost ⊢ <;> omega

/-! ### Logs of mutations -/

/-- Entries in front of a buffer are decoded first. -/
theorem decodeEntries_encode_append {mutations : List Mutation}
    (encodable : ∀ mutation ∈ mutations, Encodable mutation) (more : Bytes) :
    decodeEntries (encodeBatch mutations ++ more) =
      (mutations ++ (decodeEntries more).1, (decodeEntries more).2) := by
  induction mutations with
  | nil => rfl
  | cons mutation mutations ih =>
    have first := decodeOneStatus_encode (encodable mutation List.mem_cons_self)
      (encodeBatch mutations ++ more)
    have rest := ih fun other member => encodable other (List.mem_cons_of_mem _ member)
    rw [show encodeBatch (mutation :: mutations) ++ more =
      encodeMutation mutation ++ (encodeBatch mutations ++ more) by simp [encodeBatch],
      decodeEntries_of_ok first, rest]
    rfl

theorem decodeEntries_nil : decodeEntries [] = ([], .tail []) := rfl

/-- **The log of a list of mutations decodes to it.** -/
theorem decodeEntries_encode {mutations : List Mutation}
    (encodable : ∀ mutation ∈ mutations, Encodable mutation) :
    decodeEntries (encodeBatch mutations) = (mutations, .tail []) := by
  have whole := decodeEntries_encode_append encodable []
  rwa [List.append_nil, decodeEntries_nil, List.append_nil] at whole

@[simp] theorem encodeBatch_nil : encodeBatch [] = [] := rfl

@[simp] theorem encodeBatch_cons (mutation : Mutation) (mutations : MutationBatch) :
    encodeBatch (mutation :: mutations) = encodeMutation mutation ++ encodeBatch mutations := rfl

@[simp] theorem encodeBatch_append (first second : MutationBatch) :
    encodeBatch (first ++ second) = encodeBatch first ++ encodeBatch second :=
  List.flatMap_append

/-- The longest prefix of the mutations whose encoding fits in `size` bytes. -/
def entriesWithin : Nat → List Mutation → List Mutation
  | _, [] => []
  | size, mutation :: mutations =>
    if (encodeMutation mutation).length ≤ size then
      mutation :: entriesWithin (size - (encodeMutation mutation).length) mutations
    else []

/-- In the whole of a log, all entries are. -/
theorem entriesWithin_length (mutations : List Mutation) :
    entriesWithin (encodeBatch mutations).length mutations = mutations := by
  induction mutations with
  | nil => rfl
  | cons mutation mutations ih =>
    rw [encodeBatch_cons, List.length_append, entriesWithin, if_pos (Nat.le_add_right _ _),
      Nat.add_sub_cancel_left, ih]

theorem entriesWithin_isPrefix (size : Nat) (mutations : List Mutation) :
    entriesWithin size mutations <+: mutations := by
  induction mutations generalizing size with
  | nil => exact List.prefix_rfl
  | cons mutation mutations ih =>
    unfold entriesWithin
    split
    · exact List.cons_prefix_cons.mpr ⟨rfl, ih _⟩
    · exact List.nil_prefix

theorem encodeBatch_entriesWithin_le (size : Nat) (mutations : List Mutation) :
    (encodeBatch (entriesWithin size mutations)).length ≤ size := by
  induction mutations generalizing size with
  | nil => exact Nat.zero_le _
  | cons mutation mutations ih =>
    unfold entriesWithin
    split
    case isTrue fits =>
      have rest := ih (size - (encodeMutation mutation).length)
      rw [encodeBatch_cons, List.length_append]
      omega
    case isFalse => exact Nat.zero_le _

/-- A prefix that fits is one of the entries kept. -/
theorem isPrefix_entriesWithin {size : Nat} {mutations shorter : List Mutation}
    (front : shorter <+: mutations) (fits : (encodeBatch shorter).length ≤ size) :
    shorter <+: entriesWithin size mutations := by
  induction mutations generalizing size shorter with
  | nil => exact front
  | cons mutation mutations ih =>
    cases shorter with
    | nil => exact List.nil_prefix
    | cons first shorter =>
      obtain ⟨rfl, behind⟩ := List.cons_prefix_cons.mp front
      rw [encodeBatch_cons, List.length_append] at fits
      rw [entriesWithin, if_pos (by omega)]
      exact List.cons_prefix_cons.mpr ⟨rfl, ih behind (by omega)⟩

/-- **A log cut anywhere decodes to the entries that lie wholly before the cut**, and ends in an
incomplete tail. -/
theorem decodeEntries_take {mutations : List Mutation}
    (encodable : ∀ mutation ∈ mutations, Encodable mutation) (size : Nat) :
    decodeEntries ((encodeBatch mutations).take size) =
      (entriesWithin size mutations,
        .tail (((encodeBatch mutations).take size).drop
          (encodeBatch (entriesWithin size mutations)).length)) := by
  induction mutations generalizing size with
  | nil => simp [entriesWithin, decodeEntries_nil]
  | cons mutation mutations ih =>
    have first := encodable mutation List.mem_cons_self
    have others : ∀ other ∈ mutations, Encodable other :=
      fun other member => encodable other (List.mem_cons_of_mem _ member)
    unfold entriesWithin
    split
    case isTrue fits =>
      have front : (encodeBatch (mutation :: mutations)).take size = encodeMutation mutation ++
          (encodeBatch mutations).take (size - (encodeMutation mutation).length) := by
        rw [encodeBatch_cons, List.take_append, List.take_of_length_le fits]
      rw [front, decodeEntries_of_ok (decodeOneStatus_encode first _), ih others, encodeBatch_cons,
        List.length_append, List.drop_append, List.drop_eq_nil_of_le (Nat.le_add_right _ _),
        Nat.add_sub_cancel_left, List.nil_append]
    case isFalse short =>
      have front : (encodeBatch (mutation :: mutations)).take size =
          (encodeMutation mutation).take size := by
        rw [encodeBatch_cons, List.take_append_of_le_length (by omega)]
      have torn : (encodeMutation mutation).drop size ≠ [] := by
        rw [ne_eq, List.drop_eq_nil_iff]
        exact short
      rw [front, decodeEntries_of_incompleteTail
        (decodeOneStatus_torn first (List.take_append_drop size _).symm torn)]
      rfl

/-! ### The streaming reader -/

/-- `struct ReadStats`. -/
structure ReadStats where
  fileBytes : Nat := 0
  decodedMutations : Nat := 0
  stoppedOffset : Nat := 0
  sawIncompleteTail : Bool := false
  sawCorrupt : Bool := false
  deriving DecidableEq

/-- What `readAll` returns, puts out and leaves in `last_stats_`. The batches it puts out have one
mutation each. -/
structure ReadResult where
  success : Bool
  mutations : List Mutation
  stats : ReadStats
  deriving DecidableEq

/-- `kChunkBytes`. -/
def kChunkBytes : Nat := 1024 * 1024

/-- The outer loop of `readAll`: a read that comes short of a chunk sets the end-of-file flag. -/
def readLoop (chunkBytes fileBytes : Nat) :
    Nat → (unread pending : Bytes) → (consumedPrefix : Nat) → (out : List Mutation) → ReadResult
  | 0, _, _, consumedPrefix, out =>
      { success := true, mutations := out
        stats := { fileBytes := fileBytes, decodedMutations := out.length
                   stoppedOffset := consumedPrefix } }
  | fuel + 1, unread, pending, consumedPrefix, out =>
    let buffer := pending ++ unread.take chunkBytes
    let out := out ++ (decodeEntries buffer).1
    match (decodeEntries buffer).2 with
    | .corrupt left =>
        { success := false, mutations := out
          stats := { fileBytes := fileBytes, decodedMutations := out.length, sawCorrupt := true
                     stoppedOffset := consumedPrefix + (buffer.length - left.length) } }
    | .tail left =>
      if unread.length < chunkBytes then
        { success := true, mutations := out
          stats := { fileBytes := fileBytes, decodedMutations := out.length
                     sawIncompleteTail := !left.isEmpty
                     stoppedOffset := consumedPrefix + (buffer.length - left.length) } }
      else
        readLoop chunkBytes fileBytes fuel (unread.drop chunkBytes) left
          (consumedPrefix + (buffer.length - left.length)) out

/-- `WalReader::readAll` with a chunk size, on the contents of the file if there is one. -/
def readAllBy (chunkBytes : Nat) : Option Bytes → ReadResult
  | none => { success := true, mutations := [], stats := {} }
  | some content => readLoop chunkBytes content.length (content.length + 1) content [] 0 []

/-- `WalReader::readAll`. -/
def readAll (file : Option Bytes) : ReadResult := readAllBy kChunkBytes file

/-- The outcome of decoding the rest of a file in one buffer, after `consumedPrefix` bytes. -/
def conclude (fileBytes consumedPrefix : Nat) (out : List Mutation) (buffer : Bytes) : ReadResult :=
  let mutations := out ++ (decodeEntries buffer).1
  match (decodeEntries buffer).2 with
  | .tail left =>
      { success := true, mutations := mutations
        stats := { fileBytes := fileBytes, decodedMutations := mutations.length
                   sawIncompleteTail := !left.isEmpty
                   stoppedOffset := consumedPrefix + (buffer.length - left.length) } }
  | .corrupt left =>
      { success := false, mutations := mutations
        stats := { fileBytes := fileBytes, decodedMutations := mutations.length, sawCorrupt := true
                   stoppedOffset := consumedPrefix + (buffer.length - left.length) } }

/-- Decoding the whole content in one buffer. -/
def readWhole (content : Bytes) : ReadResult := conclude content.length 0 [] content

/-- The loop invariant: what is pending and what is unread decode as one buffer. -/
theorem readLoop_eq_conclude {chunkBytes : Nat} (positive : 0 < chunkBytes) (fileBytes fuel : Nat)
    (unread pending : Bytes) (consumedPrefix : Nat) (out : List Mutation)
    (enough : unread.length < fuel) :
    readLoop chunkBytes fileBytes fuel unread pending consumedPrefix out =
      conclude fileBytes consumedPrefix out (pending ++ unread) := by
  induction fuel generalizing unread pending consumedPrefix out with
  | zero => omega
  | succ fuel ih =>
    have bound := decodeEntries_left_le (pending ++ unread.take chunkBytes)
    by_cases last : unread.length < chunkBytes
    · have whole : unread.take chunkBytes = unread := List.take_of_length_le last.le
      unfold readLoop conclude
      simp only [whole, last, if_true]
      cases (decodeEntries (pending ++ unread)).2 with
      | tail left => rfl
      | corrupt left => rfl
    · have parts : pending ++ unread =
          (pending ++ unread.take chunkBytes) ++ unread.drop chunkBytes := by
        rw [List.append_assoc, List.take_append_drop]
      have shorter : (unread.drop chunkBytes).length < fuel := by
        rw [List.length_drop]
        omega
      have along := decodeEntries_append (pending ++ unread.take chunkBytes)
        (unread.drop chunkBytes)
      rw [parts, readLoop]
      unfold conclude
      simp only [last, if_false]
      rcases equation : decodeEntries (pending ++ unread.take chunkBytes) with
        ⟨mutations, left | left⟩
      all_goals simp only [equation] at along bound ⊢
      · rw [ih _ _ _ _ shorter, along]
        unfold conclude
        have later := decodeEntries_left_le (left ++ unread.drop chunkBytes)
        rcases equation' : decodeEntries (left ++ unread.drop chunkBytes) with
          ⟨mutations', left' | left'⟩
        all_goals
          simp only [equation', List.append_assoc, List.length_append] at later bound ⊢
          congr 2
          omega
      · rw [along]
        simp only [List.length_append] at bound ⊢
        congr 2
        omega

/-- **Streaming is decoding the whole file**, for every chunk size. -/
theorem readAllBy_eq_readWhole {chunkBytes : Nat} (positive : 0 < chunkBytes) (content : Bytes) :
    readAllBy chunkBytes (some content) = readWhole content :=
  readLoop_eq_conclude positive _ _ _ _ _ _ (Nat.lt_succ_self _)

theorem readAll_eq_readWhole (content : Bytes) : readAll (some content) = readWhole content :=
  readAllBy_eq_readWhole (by decide) content

/-- **A torn tail is tolerated exactly.** Cut anywhere, a log reads without corruption, gives the
longest prefix of its mutations that lies before the cut, and stops where that prefix ends. -/
theorem readAll_truncated {mutations : List Mutation}
    (encodable : ∀ mutation ∈ mutations, Encodable mutation) (size : Nat)
    (within : size ≤ (encodeBatch mutations).length) :
    let result := readAll (some ((encodeBatch mutations).take size))
    result.success = true ∧ result.stats.sawCorrupt = false ∧
      (result.mutations <+: mutations ∧ (encodeBatch result.mutations).length ≤ size ∧
        ∀ other, other <+: mutations → (encodeBatch other).length ≤ size →
          other <+: result.mutations) ∧
      result.stats.stoppedOffset = (encodeBatch result.mutations).length := by
  have fits := encodeBatch_entriesWithin_le size mutations
  have offset : ((encodeBatch mutations).take size).length -
      (((encodeBatch mutations).take size).drop
        (encodeBatch (entriesWithin size mutations)).length).length =
      (encodeBatch (entriesWithin size mutations)).length := by
    rw [List.length_drop, List.length_take, Nat.min_eq_left within]
    omega
  intro result
  have whole : result = _ := readAll_eq_readWhole _
  rw [whole, readWhole, conclude, decodeEntries_take encodable size]
  refine ⟨rfl, rfl, ⟨entriesWithin_isPrefix size mutations, fits, ?_⟩, ?_⟩
  · exact fun other front short => isPrefix_entriesWithin front short
  · dsimp only
    rw [offset, Nat.zero_add, List.nil_append]

/-- Two entries, cut inside the second. -/
theorem readAll_truncated_second :
    let result := readAll (some ((encodeBatch [.del [107] 0, .del [108] 0]).take 30))
    result.success = true ∧ result.stats.sawCorrupt = false ∧
      (result.mutations <+: [.del [107] 0, .del [108] 0] ∧
        (encodeBatch result.mutations).length ≤ 30 ∧
        ∀ other, other <+: [.del [107] 0, .del [108] 0] → (encodeBatch other).length ≤ 30 →
          other <+: result.mutations) ∧
      result.stats.stoppedOffset = (encodeBatch result.mutations).length := by
  refine readAll_truncated (fun mutation member => ?_) 30 (by decide)
  simp only [List.mem_cons, List.not_mem_nil, or_false] at member
  rcases member with rfl | rfl
  · exact encodable_del (by decide) 0
  · exact encodable_del (by decide) 0

/-- `WalReader::readAllMutations`: nothing on failure. -/
def readAllMutations (file : Option Bytes) : Option (List Mutation) :=
  if (readAll file).success then some (readAll file).mutations else none

theorem readAllMutations_eq (content : Bytes) :
    readAllMutations (some content) =
      match decodeEntries content with
      | (mutations, .tail _) => some mutations
      | (_, .corrupt _) => none := by
  rw [readAllMutations, readAll_eq_readWhole, readWhole, conclude]
  rcases decodeEntries content with ⟨mutations, left | left⟩ <;> rfl

end SunKV.Persistence
