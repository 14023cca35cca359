/-
**Threads that work on different keys.**

The engine takes no lock for a whole operation; only the calls of the backend are atomic, and two
operations on one key can lose an update. Here every key belongs to one thread, which alone issues
commands about it. The threads run call by call in any order.

* `separate_keys` — the records of its keys are a thread's part of the store, as long as there is no
  storage limit;
* `disjoint_threads_alone` — **every thread gets the results that it would get alone, and leaves its
  keys as it would leave them alone.**
-/

import SunKV.Concurrency.KeyAtomicity
import SunKV.Lib.Separate
import SunKV.Storage.Cell

namespace SunKV.Concurrency

open SunKV.Lib SunKV.Lib.Program SunKV.Storage

/-! ### Threads -/

/-- The commands of a thread, one after the other. -/
def serve : List Command → Engine (List (StorageResult Reply))
  | [] => .pure []
  | command :: commands => do
    let first ← command.program
    let later ← serve commands
    return first :: later

/-- A thread: its commands, and its readings of the clock. -/
structure Worker where
  commands : List Command
  clock : Nat → Int64

/-- The backend calls of a thread. -/
def Worker.program (worker : Worker) : Engine (List (StorageResult Reply)) :=
  atClock worker.clock 0 (serve worker.commands)

/-! ### Parts of the store -/

/-- The calls on keys that a thread owns. -/
def Call.Within (owns : Bytes → Prop) : Call → Prop
  | .getRecord key => owns key
  | .putRecord key _ => owns key
  | .delKey key => owns key
  | _ => False

/-- **The calls on some records**, without a limit. Only calls on keys are made on them. -/
def onRecords : Handler Call.Answer (Store Bytes Record)
  | .getRecord key, records => (records key, records)
  | .putRecord key record, records => (true, Function.update records key (some record))
  | .delKey key, records => ((records key).isSome, Function.update records key none)
  | .clearAll, records => ((), records)
  | .size, records => ((0 : Int), records)
  | .keys, records => ([], records)
  | .setBypassStorageLimit _, records => ((), records)
  | .nowEpochUs, records => ((0 : Int64), records)

/-- The records of the keys that a thread owns. -/
def ownRecords (owner : Bytes → Nat) (index : Nat) (world : World) : Store Bytes Record :=
  fun key => if owner key = index then world.view key else none

section Parts

variable {owner : Bytes → Nat} {index : Nat} {world : World}

theorem ownRecords_self {key : Bytes} (owned : owner key = index) :
    ownRecords owner index world key = world.view key := if_pos owned

/-- A change of one key is a change of the part it belongs to. -/
theorem ownRecords_update {after : World} {key : Bytes} {held : Option Record}
    (changed : after.view = Function.update world.view key held) :
    ownRecords owner (owner key) after =
        Function.update (ownRecords owner (owner key) world) key held ∧
      ∀ index, index ≠ owner key → ownRecords owner index after = ownRecords owner index world := by
  constructor
  · funext other
    by_cases same : other = key
    · rw [same, ownRecords_self rfl, changed, Function.update_self, Function.update_self]
    · rw [Function.update_of_ne same, ownRecords, ownRecords, changed, Function.update_of_ne same]
  · intro index apart
    funext other
    rw [ownRecords, ownRecords]
    split
    case isTrue mine =>
      rw [changed, Function.update_of_ne]
      rintro rfl
      exact apart mine.symm
    case isFalse => rfl

/-- **The keys of a thread are its part of the store.** -/
theorem separate_keys (env : Env) (owner : Bytes → Nat) :
    Separate env.handle onRecords World.Unlimited (ownRecords owner)
      fun index => Call.Within fun key => owner key = index where
  answer {mover request world} unlimited within := by
    cases request with
    | getRecord key => exact (ownRecords_self within).symm
    | putRecord key record =>
      exact (putRecord_of_unlimited unlimited key record).1
    | delKey key =>
      show _ = (ownRecords owner mover world key).isSome
      rw [ownRecords_self within]
      exact (Framed.initial world key).drop.1
    | _ => exact within.elim
  own {mover request world} unlimited within := by
    cases request with
    | getRecord key => rfl
    | putRecord key record =>
      obtain rfl : owner key = mover := within
      exact (ownRecords_update (World.put_view unlimited key record)).1
    | delKey key =>
      obtain rfl : owner key = mover := within
      exact (ownRecords_update (World.drop_view key)).1
    | _ => exact within.elim
  other {mover index request world} unlimited within apart := by
    cases request with
    | getRecord key => rfl
    | putRecord key record =>
      obtain rfl : owner key = mover := within
      exact (ownRecords_update (World.put_view unlimited key record)).2 index apart
    | delKey key =>
      obtain rfl : owner key = mover := within
      exact (ownRecords_update (World.drop_view key)).2 index apart
    | _ => exact within.elim
  keeps {mover request world} unlimited within := by
    cases request with
    | getRecord key => exact unlimited
    | putRecord key record => exact unlimited.put key record
    | delKey key => exact unlimited.drop key
    | _ => exact within.elim

end Parts

/-! ### The calls of a thread -/

section Calls

variable {α : Type} {owns : Bytes → Prop}

/-- The calls on owned keys, and readings of the clock. -/
def Call.Around (owns : Bytes → Prop) (request : Call) : Prop :=
  request = .nowEpochUs ∨ Call.Within owns request

/-- With the clock filled in, only the calls on keys are left. -/
theorem makes_atClock (clock : Nat → Int64) {program : Engine α}
    (makes : program.Makes (Call.Around owns)) (reading : Nat) :
    (atClock clock reading program).Makes (Call.Within owns) := by
  induction program generalizing reading with
  | pure value => trivial
  | query request next ih =>
    obtain ⟨now, later⟩ := makes
    cases request with
    | nowEpochUs => exact ih _ (later _) _
    | getRecord key =>
      exact ⟨now.resolve_left nofun, fun answer => ih answer (later answer) reading⟩
    | putRecord key record =>
      exact ⟨now.resolve_left nofun, fun answer => ih answer (later answer) reading⟩
    | delKey key =>
      exact ⟨now.resolve_left nofun, fun answer => ih answer (later answer) reading⟩
    | _ => exact (now.resolve_left nofun).elim

theorem makes_serve {commands : List Command}
    (about : ∀ command ∈ commands, ∃ key ∈ command.key?, owns key) :
    (serve commands).Makes (Call.Around owns) := by
  induction commands with
  | nil => trivial
  | cons command commands ih =>
    obtain ⟨⟨key, keyed, owned⟩, others⟩ := List.forall_mem_cons.mp about
    have first : command.program.Makes (Call.Around owns) := by
      refine (command.makes keyed).mono fun request on => ?_
      cases request with
      | nowEpochUs => exact .inl rfl
      | getRecord other => exact .inr (show owns other from on ▸ owned)
      | putRecord other record => exact .inr (show owns other from on ▸ owned)
      | delKey other => exact .inr (show owns other from on ▸ owned)
      | _ => exact on.elim
    exact first.bind fun _ => (ih others).bind fun _ => makes_pure _ _

end Calls

/-! ### Any number of threads -/

/-- **Threads on different keys do not notice each other.** Whatever the order of the backend calls
of the threads: a thread that has had as many turns as it has calls has got the results that it gets
alone, and its keys are as it leaves them alone. -/
theorem disjoint_threads_alone (env : Env) (owner : Bytes → Nat) (workers : List Worker)
    (disjoint : ∀ (index : Nat) (worker : Worker), workers[index]? = some worker →
      ∀ command ∈ worker.commands, ∃ key ∈ command.key?, owner key = index)
    (world : World) (unlimited : world.Unlimited) (schedule : List Nat)
    (index : Nat) (worker : Worker) (given : workers[index]? = some worker)
    (turns : worker.program.length env.handle world ≤ schedule.count index) :
    let after := interleaveAll env.handle schedule (workers.map Worker.program) world
    let alone := worker.program.run env.handle world
    after.1[index]? = some (.pure alone.1) ∧
      ∀ key, owner key = index → after.2.view key = alone.2.view key := by
  intro after alone
  have makes : ∀ (index : Nat) (program : Engine (List (StorageResult Reply))),
      (workers.map Worker.program)[index]? = some program →
        program.Makes (Call.Within fun key => owner key = index) := by
    intro index program found
    rw [List.getElem?_map] at found
    obtain ⟨worker, given, rfl⟩ := Option.map_eq_some_iff.mp found
    exact makes_atClock worker.clock (makes_serve (disjoint index worker given)) 0
  have given' : (workers.map Worker.program)[index]? = some worker.program := by
    rw [List.getElem?_map, given]
    rfl
  obtain ⟨returned, part⟩ := interleaveAll_alone (separate_keys env owner) schedule unlimited makes
    given' turns
  refine ⟨returned, fun key owned => ?_⟩
  have same := congrFun part key
  rwa [ownRecords_self owned, ownRecords_self owned] at same

/-- Two threads that push to lists of their own. -/
def twoPushers : List Worker :=
  [⟨[.lpush [107] [[1]]], fun _ => 0⟩, ⟨[.lpush [108] [[2]]], fun _ => 0⟩]

/-- The keys of the two threads. -/
def pusherOf (key : Bytes) : Nat := if key = [107] then 0 else 1

/-- Both read before either writes, and neither loses its element. -/
theorem disjoint_threads_alone_lpush :
    let schedule := [0, 1, 0, 1, 0, 1]
    let after := interleaveAll (Env.still 0).handle schedule (twoPushers.map Worker.program) {}
    ∀ worker ∈ twoPushers[1]?,
      after.1[1]? = some (.pure (worker.program.run (Env.still 0).handle {}).1) := by
  intro schedule after worker given
  have disjoint : ∀ (index : Nat) (worker : Worker), twoPushers[index]? = some worker →
      ∀ command ∈ worker.commands, ∃ key ∈ command.key?, pusherOf key = index := by
    intro index worker given command member
    match index, given with
    | 0, given =>
      cases given
      obtain rfl := List.mem_singleton.mp member
      exact ⟨[107], rfl, by decide⟩
    | 1, given =>
      cases given
      obtain rfl := List.mem_singleton.mp member
      exact ⟨[108], rfl, by decide⟩
  have turns : worker.program.length (Env.still 0).handle {} ≤ schedule.count 1 := by
    cases given
    decide +kernel
  exact (disjoint_threads_alone (Env.still 0) pusherOf twoPushers disjoint {} rfl schedule 1 worker
    given turns).1

end SunKV.Concurrency
