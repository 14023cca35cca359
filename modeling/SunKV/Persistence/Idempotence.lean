/-
**Recovery twice, and recovery from different snapshots.**

Everything recovery does to the engine is a list of events (`Performs`), so both facts come from the
events alone, by the last writer of each key:

* `recoverInto_idempotent` — a second recovery leaves the map and the byte counter as they are,
  from any state of the engine.
* `fuzzy_snapshot` — when the log mentions every key of two snapshots, or empties the store, it
  does not matter which of them is loaded before it.
-/

import SunKV.Persistence.Recovery

namespace SunKV.Persistence

open SunKV.Lib SunKV.Storage

/-! ### Recovery twice -/

section Recover

variable {lister : Lister} {base : Bytes} {disk : Disk}

/-- **Recovery is idempotent**: from any state of the engine it succeeds, and a second recovery
from the same files leaves the map and the byte counter exactly as they are. -/
theorem recoverInto_idempotent (readable : disk.Readable lister base) (env : Env) (world : World) :
    let first := env.exec (recoverInto lister base disk) world
    let second := env.exec (recoverInto lister base disk) first.2
    first.1 = true ∧ second.1 = true ∧
      second.2.backend.map = first.2.backend.map ∧
      second.2.backend.bytesUsed = first.2.backend.bytesUsed := by
  intro first second
  have performs := performs_recoverInto readable env world
  have again := performs_recoverInto readable env first.2
  refine ⟨performs.returns, again.returns, World.map_eq_of_view_eq ?_, ?_⟩
  · rw [again.view, performs.view, replay_replay]
  · rw [again.used, performs.view, performs.used, charges_charges]

end Recover

/-- A snapshot of one key, and a log that deletes it and puts another. -/
def twoKeyDisk : Disk where
  snapshot := some (encodeSnapshot [([107], { value := .ofString [118] })])
  wal := (∅ : Directory).insert [119]
    (encodeBatch [.del [107] 0, .put [108] { value := .ofString [119] } 0])

/-- Recovery twice from `twoKeyDisk`, into an engine with a byte counter of 7. -/
theorem recoverInto_idempotent_twoKeyDisk :
    let first := (Env.still 0).exec (recoverInto Lister.sorted [119] twoKeyDisk)
      { backend := { bytesUsed := 7 } }
    let second := (Env.still 0).exec (recoverInto Lister.sorted [119] twoKeyDisk) first.2
    twoKeyDisk.Readable Lister.sorted [119] ∧ first.1 = true ∧
      second.2.backend.bytesUsed = first.2.backend.bytesUsed := by
  intro first second
  have readable : twoKeyDisk.Readable Lister.sorted [119] := by
    refine ⟨?_, fun _ => ⟨[.del [107] 0, .put [108] { value := .ofString [119] } 0], ?_, ?_⟩⟩
    · rintro content ⟨⟩
      decide +kernel
    · decide +kernel
    · decide
  obtain ⟨done, -, -, used⟩ := recoverInto_idempotent readable (Env.still 0)
    { backend := { bytesUsed := 7 } }
  exact ⟨readable, done, used⟩

/-! ### Different snapshots -/

/-- Mutations applied one after the other. -/
def applyAll : List Mutation → Engine Unit
  | [] => return ()
  | mutation :: mutations => do
    let _ ← applyMutation mutation
    applyAll mutations

theorem performs_applyAll (env : Env) (world : World) (mutations : List Mutation) :
    Performs env (applyAll mutations) world () (events mutations) := by
  induction mutations generalizing world with
  | nil => exact performs_pure ()
  | cons mutation mutations ih =>
    rw [events_cons]
    exact Performs.bind (performs_applyMutation mutation) (ih _)

/-- Some event of the mutations mentions the key. -/
theorem mentioned_of_mutation {mutations : List Mutation} {mutation : Mutation} {key : Bytes}
    (member : mutation ∈ mutations) (carries : mutation.type = .putRecord → mutation.record.isSome)
    (names : ((mutation.type = .putRecord ∨ mutation.type = .delKey) ∧ mutation.key = key) ∨
      mutation.type = .clearAll) :
    ∃ event ∈ events mutations, event.Mentions key := by
  have mentions : ∃ event, mutation.event? = some event ∧ event.Mentions key := by
    unfold Mutation.event?
    rcases names with ⟨put | del, same⟩ | clear
    · obtain ⟨record, held⟩ := Option.isSome_iff_exists.mp (carries put)
      rw [put, held]
      exact ⟨_, rfl, same⟩
    · rw [del]
      exact ⟨_, rfl, same⟩
    · rw [clear]
      exact ⟨_, rfl, trivial⟩
  obtain ⟨event, found, mentions⟩ := mentions
  exact ⟨event, List.mem_filterMap.mpr ⟨mutation, member, found⟩, mentions⟩

/-- **A fuzzy snapshot cannot hurt**: whichever of two snapshots is loaded, the log leads to the
same map, if it mentions all their keys or empties the store. -/
theorem fuzzy_snapshot (env : Env) (world world' : World) (mutations : List Mutation)
    (carries : ∀ mutation ∈ mutations, mutation.type = .putRecord → mutation.record.isSome)
    (older newer : List (Bytes × Record))
    (covered : (∀ entry ∈ older ++ newer, ∃ mutation ∈ mutations,
        (mutation.type = .putRecord ∨ mutation.type = .delKey) ∧ mutation.key = entry.1) ∨
      ∃ mutation ∈ mutations, mutation.type = .clearAll) :
    (env.exec (do loadSnapshot older; applyAll mutations) world).2.backend.map =
      (env.exec (do loadSnapshot newer; applyAll mutations) world').2.backend.map := by
  have view : ∀ (start : World) (records : List (Bytes × Record)),
      (env.exec (do loadSnapshot records; applyAll mutations) start).2.view =
        replay (events mutations) (replay (puts records) fun _ => none) := by
    intro start records
    exact (Performs.bind (performs_loadSnapshot records)
      (performs_applyAll env _ mutations)).view.trans (replay_append _ _ _)
  -- A key that no mutation names is in neither snapshot.
  have silent : ∀ records : List (Bytes × Record), (∀ entry ∈ records, entry ∈ older ++ newer) →
      ∀ key, (¬ ∃ event ∈ events mutations, event.Mentions key) →
        replay (puts records) (fun _ => none) key = none := by
    intro records inside key unmentioned
    refine replay_of_not_mentions (puts records) (fun event member mentions => ?_) fun _ => none
    obtain ⟨entry, stored, rfl⟩ := List.mem_map.mp member
    obtain rfl : entry.1 = key := mentions
    rcases covered with named | ⟨mutation, found, clear⟩
    · obtain ⟨mutation, found, names⟩ := named entry (inside entry stored)
      exact unmentioned (mentioned_of_mutation found (carries mutation found) (.inl names))
    · exact unmentioned (mentioned_of_mutation found (carries mutation found) (.inr clear))
  refine World.map_eq_of_view_eq ?_
  rw [view, view]
  refine replay_eq_of_covered (events mutations) fun key => ?_
  by_cases mentioned : ∃ event ∈ events mutations, event.Mentions key
  · exact .inl mentioned
  · refine .inr ?_
    rw [silent older (fun _ member => List.mem_append_left _ member) key mentioned,
      silent newer (fun _ member => List.mem_append_right _ member) key mentioned]

/-- Two snapshots of one key, and a log that deletes it. -/
theorem fuzzy_snapshot_del :
    let stale : List (Bytes × Record) := [([107], { value := .ofString [118] })]
    ((Env.still 0).exec (do loadSnapshot stale; applyAll [.del [107] 0]) {}).2.backend.map =
      ((Env.still 0).exec (do loadSnapshot []; applyAll [.del [107] 0]) {}).2.backend.map := by
  intro stale
  refine fuzzy_snapshot (Env.still 0) {} {} [.del [107] 0] (by simp [Mutation.del]) stale []
    (.inl fun entry member => ?_)
  obtain rfl : entry = ([107], { value := .ofString [118] }) := by simpa [stale] using member
  exact ⟨_, List.mem_singleton_self _, .inr rfl, rfl⟩

end SunKV.Persistence
