/-
**The sweep of the TTL thread.**

`cleanupExpiredKeys` asks for all keys, which include those that have expired, and for the remaining
time of each: that deletes what has expired. Time goes on while it does.

* `exec_pttl_expired`, `exec_pttl_live` — the visit of a key;
* `Swept` — what a part of the sweep does, `swept` — by induction on the keys;
* `cleanup_exact` — **a sweep deletes every key that had expired when it began, and no key that has
  not expired when it ends**; it changes nothing else, and counts what it deletes.
-/

import SunKV.Storage.Commands

namespace SunKV.Server

open SunKV.Lib SunKV.Storage

/-! ### The sweep -/

/-- The loop over the keys, with the number of keys that are gone. -/
def sweep : List Bytes → Engine Nat
  | [] => return 0
  | key :: rest => do
    let left ← pttl key
    let cleaned ← sweep rest
    return (if left.status = .ok ∧ left.value = -2 then 1 else 0) + cleaned

/-- **`Server::cleanupExpiredKeys`**: what it adds to `expired_keys_cleaned_`. -/
def cleanupExpiredKeys : Engine Nat := do
  let found ← Storage.keys
  if found.status = .ok then sweep found.value else return 0

/-! ### A visit -/

section Visit

variable {env : Env} {world : World} {key : Bytes}

theorem exec_pttl_expired {record : Record} (held : world.view key = some record)
    (expired : isExpired record (env.now world.readings) = true) :
    env.exec (pttl key) world =
      (.ok (-2) [Mutation.del key (env.now world.readings)], world.tick.drop key) := by
  simp [pttl, remaining, unlessExpired, held, expired]

/-- The remaining time of a record that has not expired is none of the special values. -/
theorem remaining_pos {expireAt now : Int64} (epoch : 0 ≤ now) (later : now < expireAt) :
    ¬ expireAt - now ≤ 0 ∧ ((expireAt - now) / 1000).toInt ≠ -2 := by
  rw [Int64.le_iff_toInt_le] at epoch
  rw [Int64.lt_iff_toInt_lt] at later
  have top := expireAt.toInt_lt
  have difference : (expireAt - now).toInt = expireAt.toInt - now.toInt := by
    rw [Int64.toInt_sub, Int.bmod_eq_of_le] <;> simp at epoch ⊢ <;> omega
  constructor
  · rw [Int64.le_iff_toInt_le, difference]
    simp
    omega
  · rw [Int64.toInt_div_of_ne_right _ _ (by decide), difference]
    have positive : 0 ≤ (expireAt.toInt - now.toInt).tdiv (Int64.toInt 1000) :=
      Int.tdiv_nonneg (by omega) (by decide)
    omega

/-- A record that has not expired stays, after the epoch. -/
theorem exec_pttl_live (epoch : 0 ≤ env.now world.readings) {record : Record}
    (held : world.view key = some record)
    (alive : isExpired record (env.now world.readings) = false) :
    ∃ left, left ≠ -2 ∧ env.exec (pttl key) world = (.ok left, world.tick) := by
  by_cases never : record.expireAtUs < 0
  · exact ⟨-1, by decide, by simp [pttl, remaining, unlessExpired, held, alive, never]⟩
  · have later : env.now world.readings < record.expireAtUs := by
      simpa [isExpired, Int64.not_lt.mp never] using alive
    obtain ⟨due, value⟩ := remaining_pos epoch later
    exact ⟨_, value, by simp [pttl, remaining, unlessExpired, held, alive, never, due]⟩

end Visit

/-! ### The whole sweep -/

/-- **What a part of the sweep does**: from `world` to `after`, with the visited keys. -/
structure Swept (env : Env) (keys : List Bytes) (world after : World) (cleaned : Nat) : Prop where
  held : ∀ key record, after.view key = some record → world.view key = some record
  gone : ∀ key ∈ keys, ∀ record, after.view key = some record →
    isExpired record (env.now world.readings) = false
  kept : ∀ key record, world.view key = some record →
    isExpired record (env.now after.readings) = false → after.view key = some record
  counted : cleaned + after.backend.map.size = world.backend.map.size

theorem size_drop {world : World} {key : Bytes} (held : (world.view key).isSome) :
    1 + (world.tick.drop key).backend.map.size = world.backend.map.size := by
  have present : key ∈ world.backend.map := World.mem_map_iff.mpr held
  have filled : world.backend.map.size ≠ 0 := fun empty =>
    Std.ExtTreeMap.not_mem_empty (Std.ExtTreeMap.eq_empty_iff_size_eq_zero.mpr empty ▸ present)
  rw [World.drop, delKey_map, World.tick, Std.ExtTreeMap.size_erase,
    if_pos (Std.ExtTreeMap.contains_iff_mem.mpr present)]
  change 1 + (world.backend.map.size - 1) = _
  omega

theorem alive_before {env : Env} {record : Record} {first second : Nat} (ordered : first ≤ second)
    (alive : isExpired record (env.now second) = false) :
    isExpired record (env.now first) = false := by
  cases due : isExpired record (env.now first) with
  | false => rfl
  | true => exact (isExpired_mono (env.now_mono ordered) due).symm.trans alive

section Visited

variable {env : Env} {world after : World} {key : Bytes} {rest : List Bytes} {cleaned : Nat}
  {record : Record} (held : world.view key = some record)

include held

theorem Swept.expired (expired : isExpired record (env.now world.readings) = true)
    (rising : world.readings ≤ after.readings)
    (done : Swept env rest (world.tick.drop key) after cleaned) :
    Swept env (key :: rest) world after (1 + cleaned) where
  held other found left := by
    have before := done.held other found left
    rw [World.drop_view, World.tick_view, Event.apply, Function.update_apply] at before
    split at before
    · cases before
    · exact before
  gone other member found left := by
    have before := done.held other found left
    rcases List.mem_cons.mp member with rfl | later
    · simp [Event.apply] at before
    · exact alive_before (Nat.le_succ _) (done.gone other later found left)
  kept other found before alive := by
    refine done.kept other found ?_ alive
    rw [World.drop_view, World.tick_view, Event.apply, Function.update_apply, if_neg]
    · exact before
    · rintro rfl
      cases held.symm.trans before
      simp [isExpired_mono (env.now_mono rising) expired] at alive
  counted := by
    rw [Nat.add_assoc, done.counted]
    exact size_drop (held ▸ rfl)

theorem Swept.alive (alive : isExpired record (env.now world.readings) = false)
    (done : Swept env rest world.tick after cleaned) :
    Swept env (key :: rest) world after cleaned where
  held := done.held
  gone other member found left := by
    rcases List.mem_cons.mp member with rfl | later
    · cases held.symm.trans (done.held other found left)
      exact alive
    · exact alive_before (Nat.le_succ _) (done.gone other later found left)
  kept := done.kept
  counted := done.counted

end Visited

/-- **The loop**, by induction on the keys: they are there, and none comes twice. -/
theorem swept {env : Env} (epoch : ∀ reading, 0 ≤ env.now reading) (keys : List Bytes)
    (once : keys.Nodup) (world : World) (there : ∀ key ∈ keys, (world.view key).isSome) :
    Swept env keys world (env.exec (sweep keys) world).2 (env.exec (sweep keys) world).1 := by
  induction keys generalizing world with
  | nil =>
    exact ⟨fun _ _ => id, by simp, fun _ _ held _ => held, Nat.zero_add _⟩
  | cons key rest ih =>
    have rising := readings_le env world (sweep (key :: rest))
    obtain ⟨fresh, once⟩ := List.nodup_cons.mp once
    have thereRest := fun other member => there other (List.mem_cons_of_mem _ member)
    rcases live_cases env world key with absent | ⟨record, held, expired⟩ | ⟨record, held, alive⟩
    · exact absurd (there key List.mem_cons_self) (by simp [absent])
    · simp only [sweep, Env.exec_bind, exec_pttl_expired held expired, Env.exec_pure] at rising ⊢
      refine Swept.expired held expired rising
        (ih once (world.tick.drop key) fun other member => ?_)
      have apart : other ≠ key := fun same => fresh (same ▸ member)
      simpa [Event.apply, apart] using thereRest other member
    · obtain ⟨left, value, visit⟩ := exec_pttl_live (epoch _) held alive
      simp only [sweep, Env.exec_bind, visit, Env.exec_pure]
      have same := ih once world.tick thereRest
      simpa [StorageResult.ok, value] using Swept.alive held alive same

/-- **A sweep is exact**: of the keys there were, those that had expired when it began are gone and
those that have not expired when it ends are kept, with their records. The counter says how many
are gone. -/
theorem cleanup_exact {env : Env} (epoch : ∀ reading, 0 ≤ env.now reading) (world : World) :
    let cleaned := (env.exec cleanupExpiredKeys world).1
    let after := (env.exec cleanupExpiredKeys world).2
    (∀ key record, after.view key = some record →
      world.view key = some record ∧ isExpired record (env.now world.readings) = false) ∧
    (∀ key record, world.view key = some record →
      isExpired record (env.now after.readings) = false → after.view key = some record) ∧
    cleaned + after.backend.map.size = world.backend.map.size := by
  have order := env.order_perm world.readings world.backend.keys
  have once : (env.order world.readings world.backend.keys).Nodup :=
    order.nodup_iff.mpr Std.ExtTreeMap.nodup_keys
  have listed : ∀ key, key ∈ env.order world.readings world.backend.keys ↔
      (world.view key).isSome := fun key => by
    rw [order.mem_iff, InMemoryBackend.keys, Std.ExtTreeMap.mem_keys, World.mem_map_iff]
  have done := swept epoch _ once world.tick fun key member => (listed key).mp member
  refine ⟨fun key record found => ?_, done.kept, done.counted⟩
  have before := done.held key record found
  exact ⟨before, alive_before (Nat.le_succ _)
    (done.gone key ((listed key).mpr (before ▸ rfl)) record found)⟩

/-- A clock that passes 15 once it has been read. -/
def passing : Env where
  now reading := if reading = 0 then 10 else 20
  now_mono {first second} ordered := by
    rcases first with _ | first <;> rcases second with _ | second <;>
      first | decide | omega | simp
  order := fun _ keys => keys
  order_perm := fun _ _ => List.Perm.refl _

/-- Three records: one has expired, one expires during the sweep, one stays. -/
def threeDeadlines : World :=
  let due (expireAtUs : Int64) : Record := { value := .ofString [118], expireAtUs }
  let map : Dict Record := ((∅ : Dict Record).insert [97] (due 5)).insert [98] (due 15)
  { backend := { map := map.insert [99] (due 25) } }

theorem cleanup_exact_three :
    let cleaned := (passing.exec cleanupExpiredKeys threeDeadlines).1
    let after := (passing.exec cleanupExpiredKeys threeDeadlines).2
    cleaned = 2 ∧ cleaned + after.backend.map.size = threeDeadlines.backend.map.size ∧
      after.view [98] = none ∧
      (∀ key record, after.view key = some record →
        threeDeadlines.view key = some record ∧
          isExpired record (passing.now threeDeadlines.readings) = false) := by
  have epoch : ∀ reading, 0 ≤ passing.now reading := fun reading => by
    rcases reading with _ | reading
    · decide
    · exact (by decide : (0 : Int64) ≤ 20)
  have exact := cleanup_exact epoch threeDeadlines
  exact ⟨by decide +kernel, exact.2.2, by decide +kernel, exact.1⟩

end SunKV.Server
