/-
**The storage limit while `FLUSHALL` runs.**

`FLUSHALL` is `loadSnapshot` of nothing: it switches the bypass of the limit on, empties the store
and switches it off again. The switch belongs to the backend, so it is on for every client whose
call comes in between.

* `Oversteps` — a record that is stored with the bypass on although the limit has no room for it.
* `bytesUsed_change_iff` — no other call lifts the counter above the limit.
* `quota_kept_iff` — under any interleaving of any programs, the counter stays within the limit
  exactly when no call oversteps.
-/

import SunKV.Storage.Engine
import SunKV.Storage.Quota

namespace SunKV.Concurrency

open SunKV.Lib SunKV.Lib.Program SunKV.Storage

/-- The call stores a record for which the limit has no room, and the bypass is on. -/
def Oversteps (backend : InMemoryBackend) : Call → Prop
  | .putRecord key record => backend.bypassLimit = true ∧
      backend.maxStorageBytes.toNat + heldWeight estimateFootprint backend.map key <
        backend.footprints + estimateFootprint key record
  | _ => False

instance (backend : InMemoryBackend) : DecidablePred (Oversteps backend)
  | .putRecord _ _ => inferInstanceAs (Decidable (_ ∧ _))
  | .getRecord _ | .delKey _ | .clearAll | .size | .keys | .setBypassStorageLimit _
  | .nowEpochUs => isFalse id

section Call

variable {backend : InMemoryBackend} {request : Call}

theorem bytesUsed_putRecord_iff {key : Bytes} {record : Record} (exact : backend.Exact)
    (positive : 0 < backend.maxStorageBytes)
    (within : backend.bytesUsed ≤ backend.maxStorageBytes)
    (addressable : (backend.putRecord key record).2.footprints < 2 ^ 64) :
    (backend.putRecord key record).2.bytesUsed ≤ backend.maxStorageBytes ↔
      ¬ Oversteps backend (.putRecord key record) := by
  cases bypass : backend.bypassLimit with
  | false =>
    have limited : backend.Limited := ⟨positive, bypass, within⟩
    simp [limited.putRecord key record, Oversteps, bypass]
  | true =>
    have fits : backend.accepts key record = true := by simp [InMemoryBackend.accepts, bypass]
    have total := (exact.counted.putRecord key record).exact addressable
    have sum := backend.footprints_insert key record
    rw [InMemoryBackend.putRecord_of_accepts fits] at total ⊢
    rw [UInt64.le_iff_toNat_le, total]
    show totalWeight estimateFootprint (backend.map.insert key record) ≤ _ ↔ ¬ (_ ∧ _)
    simp only [bypass, true_and]
    omega

/-- **No other call lifts the counter above the limit.** -/
theorem bytesUsed_change_iff (exact : backend.Exact) (positive : 0 < backend.maxStorageBytes)
    (within : backend.bytesUsed ≤ backend.maxStorageBytes)
    (addressable : (request.change backend).footprints < 2 ^ 64) :
    (request.change backend).bytesUsed ≤ backend.maxStorageBytes ↔ ¬ Oversteps backend request := by
  cases request with
  | putRecord key record => exact bytesUsed_putRecord_iff exact positive within addressable
  | delKey key => exact iff_of_true (UInt64.le_trans (exact.bytesUsed_delKey key) within) id
  | clearAll => exact iff_of_true UInt64.zero_le id
  | _ => exact iff_of_true within id

end Call

/-- **The counter stays within the limit exactly when no record that the limit has no room for is
stored while the bypass is on.** The programs are those of any number of clients, `FLUSHALL` among
them; a turn of the schedule is one call of one of them. -/
theorem quota_kept_iff (env : Env) (programs : List (Engine Unit)) (schedule : List Nat)
    (world : World) (positive : 0 < world.backend.maxStorageBytes)
    (exact : world.backend.Exact) (within : world.backend.bytesUsed ≤ world.backend.maxStorageBytes)
    (addressable : ∀ done, done <+: schedule →
      (interleaveAll env.handle done programs world).2.backend.footprints < 2 ^ 64) :
    (∀ done, done <+: schedule →
        (interleaveAll env.handle done programs world).2.backend.bytesUsed ≤
          world.backend.maxStorageBytes) ↔
      ∀ done mover, done ++ [mover] <+: schedule →
        ∀ request ∈ nextOf (interleaveAll env.handle done programs world).1 mover,
          ¬ Oversteps (interleaveAll env.handle done programs world).2.backend request := by
  refine interleaveAll_good_iff
    (fun held : World => held.backend.Exact ∧
      held.backend.maxStorageBytes = world.backend.maxStorageBytes)
    (fun held => held.backend.footprints < 2 ^ 64)
    (fun held => held.backend.bytesUsed ≤ world.backend.maxStorageBytes)
    (fun request held => Oversteps held.backend request)
    ?_ schedule ⟨exact, rfl⟩ within addressable
  rintro request held ⟨exact', limit⟩ within' addressable'
  rw [handle_backend] at addressable' ⊢
  rw [← limit] at within' positive ⊢
  refine ⟨⟨(exact'.counted.change request).exact addressable', ?_⟩,
    bytesUsed_change_iff exact' positive within' addressable'⟩
  exact InMemoryBackend.maxStorageBytes_change request held.backend

/-- A client that stores one record. -/
def storing (key : Bytes) (record : Record) : Engine Unit := do
  let _ ← putRecord key record

/-- `FLUSHALL`, and a client whose record has room, stored while the bypass is on. -/
theorem quota_kept_small :
    let programs := [loadSnapshot [], storing [107] { value := .ofString [118] }]
    let world : World := { backend := emptyBackend 300 }
    (interleaveAll (Env.still 0).handle [0, 0, 1, 0] programs world).2.backend.bytesUsed = 134 ∧
      ∀ done, done <+: [0, 0, 1, 0] →
        (interleaveAll (Env.still 0).handle done programs world).2.backend.bytesUsed ≤ 300 := by
  intro programs world
  refine ⟨by decide, (quota_kept_iff (Env.still 0) programs [0, 0, 1, 0] world (by decide)
    (exact_emptyBackend 300) (by decide) ?_).mpr ?_⟩
  · intro done front
    rw [← List.mem_inits] at front
    revert done
    decide
  · simp only [forall_snoc_prefix_cons]
    exact ⟨by decide, by decide, by decide, by decide, by simp⟩

/-- **A record of another client that is stored while `FLUSHALL` runs is not refused**: it stays
when the bypass is off again, although the limit has no room for it. -/
theorem quota_exceeded :
    let programs := [loadSnapshot [], storing [107] { value := .ofString [118] }]
    let world : World := { backend := emptyBackend 100 }
    let ran := (interleaveAll (Env.still 0).handle [0, 0, 1, 0] programs world).2
    world.backend.bypassLimit = false ∧ world.backend.Exact ∧
      world.backend.bytesUsed ≤ world.backend.maxStorageBytes ∧
      ran.backend.bypassLimit = false ∧ world.backend.maxStorageBytes < ran.backend.bytesUsed :=
  ⟨rfl, exact_emptyBackend 100, by decide, rfl, by decide⟩

end SunKV.Concurrency
