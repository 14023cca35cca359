/-
**The byte counter of the backend.**

`bytes_used_` is kept by differences: a stored record subtracts what its key held and adds what it
holds now, both recomputed from the records. `Exact` says that it is the sum over what is stored,
`Counted` that it is this sum modulo `2 ^ 64`.

* `Call.change` — what a call does to the backend; `Counted.change` — every call keeps the counter
  right modulo `2 ^ 64`, so it is exact whenever the sum can be counted in 64 bits.
* `Exact.storedFootprint_le` — what a key holds is part of the counter, so no subtraction
  underflows.
* `accounting_exact` — the counter over whole runs, and the limit.
-/

import SunKV.Lib.Finite
import SunKV.Storage.Cell

namespace SunKV.Storage

open SunKV.Lib

/-! ### The sum and the counter -/

namespace InMemoryBackend

variable {backend : InMemoryBackend} {key : Bytes} {record : Record}

/-- The sum of `estimateFootprint` over what is stored. -/
def footprints (backend : InMemoryBackend) : Nat := totalWeight estimateFootprint backend.map

/-- **The counter is the sum.** -/
def Exact (backend : InMemoryBackend) : Prop := backend.bytesUsed.toNat = backend.footprints

theorem storedFootprint_eq_ofNat :
    backend.storedFootprint key = UInt64.ofNat (heldWeight estimateFootprint backend.map key) := by
  unfold storedFootprint heldWeight
  cases backend.map[key]? with
  | none => rfl
  | some record => rfl

theorem Exact.storedFootprint_toNat (exact : backend.Exact) (key : Bytes) :
    (backend.storedFootprint key).toNat = heldWeight estimateFootprint backend.map key := by
  have part : heldWeight estimateFootprint backend.map key ≤ backend.footprints :=
    heldWeight_le _ key
  have bound := backend.bytesUsed.toNat_lt
  rw [storedFootprint_eq_ofNat, UInt64.toNat_ofNat', Nat.mod_eq_of_lt]
  exact part.trans_lt (exact ▸ bound)

/-- **No subtraction underflows.** -/
theorem Exact.storedFootprint_le (exact : backend.Exact) (key : Bytes) :
    backend.storedFootprint key ≤ backend.bytesUsed := by
  rw [UInt64.le_iff_toNat_le, exact.storedFootprint_toNat, exact]
  exact heldWeight_le _ key

theorem Exact.bytesElsewhere_toNat (exact : backend.Exact) (key : Bytes) :
    (backend.bytesElsewhere key).toNat + heldWeight estimateFootprint backend.map key =
      backend.footprints := by
  have part : heldWeight estimateFootprint backend.map key ≤ backend.footprints :=
    heldWeight_le _ key
  rw [bytesElsewhere, UInt64.toNat_sub_of_le _ _ (exact.storedFootprint_le key),
    exact.storedFootprint_toNat, exact, Nat.sub_add_cancel part]

/-- A stored record adds to the sum what it weighs more than what it replaces. -/
theorem footprints_insert (backend : InMemoryBackend) (key : Bytes) (record : Record) :
    totalWeight estimateFootprint (backend.map.insert key record) +
        heldWeight estimateFootprint backend.map key =
      backend.footprints + estimateFootprint key record :=
  totalWeight_insert _ key record

/-! ### One call -/

/-- **The counter is the sum, modulo `2 ^ 64`.** -/
def Counted (backend : InMemoryBackend) : Prop :=
  backend.bytesUsed = UInt64.ofNat backend.footprints

theorem Exact.counted (exact : backend.Exact) : backend.Counted := by
  rw [Counted, ← exact, UInt64.ofNat_toNat]

theorem Counted.exact (counted : backend.Counted) (addressable : backend.footprints < 2 ^ 64) :
    backend.Exact := by
  rw [Exact, counted, UInt64.toNat_ofNat', Nat.mod_eq_of_lt addressable]

theorem Counted.bytesElsewhere_add (counted : backend.Counted) (key : Bytes) :
    backend.bytesElsewhere key +
        UInt64.ofNat (heldWeight estimateFootprint backend.map key) =
      UInt64.ofNat backend.footprints := by
  rw [bytesElsewhere, storedFootprint_eq_ofNat, counted, sub_add_cancel]

theorem Counted.putRecord (counted : backend.Counted) (key : Bytes) (record : Record) :
    (backend.putRecord key record).2.Counted := by
  cases fits : backend.accepts key record with
  | false =>
    rw [putRecord_of_refused fits]
    exact counted
  | true =>
    rw [putRecord_of_accepts fits]
    have sum := congrArg UInt64.ofNat (backend.footprints_insert key record)
    rw [UInt64.ofNat_add, UInt64.ofNat_add, ← counted.bytesElsewhere_add key, add_right_comm] at sum
    exact (add_right_cancel sum).symm

theorem Counted.delKey (counted : backend.Counted) (key : Bytes) :
    (backend.delKey key).2.Counted := by
  unfold InMemoryBackend.delKey
  split
  · have sum : totalWeight estimateFootprint (backend.map.erase key) +
        heldWeight estimateFootprint backend.map key = backend.footprints :=
      totalWeight_erase _ key
    have modular := congrArg UInt64.ofNat sum
    rw [UInt64.ofNat_add, ← counted.bytesElsewhere_add key] at modular
    exact (add_right_cancel modular).symm
  · exact counted

theorem counted_clearAll (backend : InMemoryBackend) : backend.clearAll.Counted :=
  (congrArg UInt64.ofNat (totalWeight_empty estimateFootprint)).symm

end InMemoryBackend

/-- What a call does to the backend. -/
def Call.change : Call → InMemoryBackend → InMemoryBackend
  | .putRecord key record, backend => (backend.putRecord key record).2
  | .delKey key, backend => (backend.delKey key).2
  | .clearAll, backend => backend.clearAll
  | .setBypassStorageLimit on, backend => backend.setBypassStorageLimit on
  | .getRecord _, backend | .size, backend | .keys, backend | .nowEpochUs, backend => backend

theorem handle_backend (env : Env) (request : Call) (world : World) :
    (env.handle request world).2.backend = request.change world.backend := by
  cases request <;> rfl

namespace InMemoryBackend

variable {backend : InMemoryBackend}

theorem maxStorageBytes_change (request : Call) (backend : InMemoryBackend) :
    (request.change backend).maxStorageBytes = backend.maxStorageBytes := by
  cases request with
  | putRecord key record =>
    show (backend.putRecord key record).2.maxStorageBytes = _
    cases fits : backend.accepts key record with
    | true => rw [putRecord_of_accepts fits]
    | false => rw [putRecord_of_refused fits]
  | delKey key =>
    show (backend.delKey key).2.maxStorageBytes = _
    unfold InMemoryBackend.delKey
    split
    · rfl
    · rfl
  | _ => rfl

/-- **Every call keeps the counter right modulo `2 ^ 64`.** -/
theorem Counted.change (counted : backend.Counted) (request : Call) :
    (request.change backend).Counted := by
  cases request with
  | putRecord key record => exact counted.putRecord key record
  | delKey key => exact counted.delKey key
  | clearAll => exact counted_clearAll backend
  | _ => exact counted

/-- With the bypass off, a limit and the counter below it. -/
structure Limited (backend : InMemoryBackend) : Prop where
  positive : 0 < backend.maxStorageBytes
  bypass : backend.bypassLimit = false
  within : backend.bytesUsed ≤ backend.maxStorageBytes

theorem bypassLimit_putRecord (backend : InMemoryBackend) (key : Bytes) (record : Record) :
    (backend.putRecord key record).2.bypassLimit = backend.bypassLimit := by
  cases fits : backend.accepts key record with
  | true => rw [putRecord_of_accepts fits]
  | false => rw [putRecord_of_refused fits]

theorem bypassLimit_delKey (backend : InMemoryBackend) (key : Bytes) :
    (backend.delKey key).2.bypassLimit = backend.bypassLimit := by
  unfold InMemoryBackend.delKey
  split
  · rfl
  · rfl

/-- A deletion does not add to the counter. -/
theorem Exact.bytesUsed_delKey (exact : backend.Exact) (key : Bytes) :
    (backend.delKey key).2.bytesUsed ≤ backend.bytesUsed := by
  have rest := exact.bytesElsewhere_toNat key
  unfold InMemoryBackend.delKey
  split
  · show backend.bytesElsewhere key ≤ backend.bytesUsed
    rw [UInt64.le_iff_toNat_le, exact]
    omega
  · exact UInt64.le_refl _

/-- A record that is let in while the bypass is off leaves the counter below the limit. -/
theorem Limited.putRecord (limited : backend.Limited) (key : Bytes) (record : Record) :
    (backend.putRecord key record).2.bytesUsed ≤ backend.maxStorageBytes := by
  cases fits : backend.accepts key record with
  | false =>
    rw [putRecord_of_refused fits]
    exact limited.within
  | true =>
    rw [putRecord_of_accepts fits]
    have some : backend.maxStorageBytes ≠ 0 := UInt64.pos_iff_ne_zero.mp limited.positive
    simpa [accepts, limited.bypass, some] using fits

theorem Limited.change (limited : backend.Limited) (exact : backend.Exact) {request : Call}
    (never : request ≠ .setBypassStorageLimit true) : (request.change backend).Limited := by
  cases request with
  | putRecord key record =>
    have same := maxStorageBytes_change (.putRecord key record) backend
    refine ⟨same ▸ limited.positive, ?_, same ▸ limited.putRecord key record⟩
    exact (bypassLimit_putRecord backend key record).trans limited.bypass
  | delKey key =>
    have same := maxStorageBytes_change (.delKey key) backend
    refine ⟨same ▸ limited.positive, (bypassLimit_delKey backend key).trans limited.bypass, ?_⟩
    exact same ▸ UInt64.le_trans (exact.bytesUsed_delKey key) limited.within
  | clearAll => exact ⟨limited.positive, limited.bypass, UInt64.zero_le⟩
  | setBypassStorageLimit on =>
    refine ⟨limited.positive, ?_, limited.within⟩
    show on = false
    exact Bool.eq_false_iff.mpr fun same => never (same ▸ rfl)
  | getRecord | size | keys | nowEpochUs => exact limited

/-! ### Runs -/

/-- The calls of a run, one after the other. -/
def after (backend : InMemoryBackend) (calls : List Call) : InMemoryBackend :=
  calls.foldl (fun held request => request.change held) backend

/-- All the sums on the way can be counted in 64 bits. -/
def Addressable (backend : InMemoryBackend) (calls : List Call) : Prop :=
  ∀ done, done <+: calls → (backend.after done).footprints < 2 ^ 64

theorem Addressable.cons {request : Call} {calls : List Call}
    (addressable : backend.Addressable (request :: calls)) :
    (request.change backend).footprints < 2 ^ 64 ∧ (request.change backend).Addressable calls :=
  ⟨addressable [request] ⟨calls, rfl⟩,
    fun done front => addressable (request :: done) (List.cons_prefix_cons.mpr ⟨rfl, front⟩)⟩

theorem Counted.after (counted : backend.Counted) (calls : List Call) :
    (backend.after calls).Counted := by
  induction calls generalizing backend with
  | nil => exact counted
  | cons request calls ih => exact ih (counted.change request)

theorem Limited.after (limited : backend.Limited) (exact : backend.Exact) {calls : List Call}
    (addressable : backend.Addressable calls) (never : .setBypassStorageLimit true ∉ calls) :
    (backend.after calls).Limited := by
  induction calls generalizing backend with
  | nil => exact limited
  | cons request calls ih =>
    obtain ⟨next, later⟩ := addressable.cons
    rw [List.mem_cons, not_or] at never
    exact ih (limited.change exact (Ne.symm never.1))
      ((exact.counted.change request).exact next) later never.2

theorem maxStorageBytes_after (calls : List Call) :
    (backend.after calls).maxStorageBytes = backend.maxStorageBytes := by
  induction calls generalizing backend with
  | nil => rfl
  | cons request calls ih => exact ih.trans (maxStorageBytes_change request backend)

end InMemoryBackend

/-- The backend as its constructor leaves it. -/
def emptyBackend (maxStorageBytes : UInt64) : InMemoryBackend :=
  { maxStorageBytes := maxStorageBytes }

theorem exact_emptyBackend (maxStorageBytes : UInt64) : (emptyBackend maxStorageBytes).Exact :=
  (totalWeight_empty estimateFootprint).symm

/-- **The accounting is exact.** After any calls the counter is the sum of the footprints stored,
no subtraction of the next call underflows, a refused record changes nothing, and unless the bypass
was switched on the counter is within the limit. -/
theorem accounting_exact (maxStorageBytes : UInt64) (calls : List Call)
    (addressable : (emptyBackend maxStorageBytes).Addressable calls) :
    let backend := (emptyBackend maxStorageBytes).after calls
    backend.bytesUsed.toNat =
        (backend.map.toList.map fun entry => estimateFootprint entry.1 entry.2).sum ∧
      (∀ key, backend.storedFootprint key ≤ backend.bytesUsed) ∧
      (∀ key record, (backend.putRecord key record).1 = false →
        (backend.putRecord key record).2 = backend) ∧
      (.setBypassStorageLimit true ∉ calls → 0 < maxStorageBytes →
        backend.bytesUsed ≤ maxStorageBytes) := by
  intro backend
  have exact : backend.Exact := ((exact_emptyBackend maxStorageBytes).counted.after calls).exact
    (addressable calls List.prefix_rfl)
  refine ⟨exact, exact.storedFootprint_le, fun key record refused => ?_, fun never positive => ?_⟩
  · cases fits : backend.accepts key record with
    | true =>
      rw [InMemoryBackend.putRecord_of_accepts fits] at refused
      cases refused
    | false => rw [InMemoryBackend.putRecord_of_refused fits]
  · have limited : backend.Limited :=
      InMemoryBackend.Limited.after ⟨positive, rfl, UInt64.zero_le⟩
        (exact_emptyBackend maxStorageBytes) addressable never
    have same : backend.maxStorageBytes = maxStorageBytes :=
      InMemoryBackend.maxStorageBytes_after calls
    exact same ▸ limited.within

/-- A string that becomes a longer one, a long one and a short one under other keys, and a
deletion. -/
def overwriteCalls : List Call :=
  [.putRecord [107] { value := .ofString [1] }, .putRecord [107] { value := .ofString [1, 2, 3] },
    .putRecord [108] { value := .ofString (List.replicate 40 0) },
    .putRecord [109] { value := .ofString [] }, .delKey [107]]

/-- With a limit of 300 bytes, the long string is refused. -/
theorem accounting_exact_overwrite :
    let backend := (emptyBackend 300).after overwriteCalls
    backend.bytesUsed = 133 ∧ backend.map.keys = [[109]] ∧
      backend.bytesUsed.toNat =
        (backend.map.toList.map fun entry => estimateFootprint entry.1 entry.2).sum ∧
      (∀ key, backend.storedFootprint key ≤ backend.bytesUsed) ∧
      (∀ key record, (backend.putRecord key record).1 = false →
        (backend.putRecord key record).2 = backend) ∧
      (.setBypassStorageLimit true ∉ overwriteCalls → (0 : UInt64) < 300 →
        backend.bytesUsed ≤ 300) := by
  refine ⟨by decide, by decide, accounting_exact 300 _ fun done front => ?_⟩
  rw [← List.mem_inits] at front
  revert done
  decide

end SunKV.Storage
