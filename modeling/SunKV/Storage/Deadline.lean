/-
**Deadlines, by the history of a key.**

A `Ledger` says of each key what it holds and until when, by the history alone: an `expire` with a
positive time that returned 1 sets the deadline, `set`, `persist`, deletion and re-creation clear
it, every other command leaves it. `Tallies` relates a record of the engine to an entry of the
ledger; nothing is said of records that have expired.

* `Tallies.step` — one command keeps the tally, at times in range: no arithmetic overflows.
* `timedRun_tallies` — so does every run at non-decreasing times.
* `ttl_by_history` — what `ttl`, `pttl` and every other command see at any later time.
-/

import SunKV.Storage.Refinement

namespace SunKV.Storage

open SunKV.Lib

/-! ### The ledger -/

/-- What a key holds, and until when. -/
structure Entry where
  value : TypedValue Bytes
  deadline : Option Int

/-- The entry as of a time: none once its deadline has come. -/
def current (time : Int) (entry : Option Entry) : Option Entry :=
  entry.filter fun entry => entry.deadline.all fun deadline => decide (time < deadline)

/-- What a command on strings, keys and containers makes of an entry. The deadline stays; a
container that is created has none. -/
def Command.typedEntry (command : Command) (entry : Option Entry) : Option Entry :=
  if command.invalid then entry
  else
    match command.typed with
    | none => entry
    | some act => (act (entry.map Entry.value)).held.map fun value =>
        { value := value, deadline := entry.bind Entry.deadline }

/-- **What a command at a time makes of the entry of its key**, given what it returned. -/
def Command.entry (time : Int) (returned : Reply) (entry : Option Entry) :
    Command → Option Entry
  | .expire _ ttlSeconds =>
      if ttlSeconds = 0 then none
      else if 0 < ttlSeconds ∧ returned = .int 1 then
        entry.map fun entry => { entry with deadline := some (time + ttlSeconds.toInt * 1000000) }
      else entry
  | .persist _ => entry.map fun entry => { entry with deadline := none }
  | .set _ value => some { value := .string value, deadline := none }
  | command => command.typedEntry entry

/-- A ledger. -/
abbrev Ledger := Bytes → Option Entry

/-- A command at a time, and what it returned. -/
structure Event where
  time : Int64
  command : Command
  returned : Reply

/-- The ledger after an event. -/
def Ledger.record (ledger : Ledger) (event : Event) : Ledger :=
  match event.command.key? with
  | none => ledger
  | some key => Function.update ledger key
      (event.command.entry event.time.toInt event.returned (current event.time.toInt (ledger key)))

/-- **The ledger of a history.** -/
def ledgerOf (events : List Event) : Ledger := events.foldl Ledger.record fun _ => none

/-! ### Runs at given times -/

/-- A run of commands, each at its own time: the history, and the world it leaves. -/
def timedRun : List (Int64 × Command) → World → List Event × World
  | [], world => ([], world)
  | (time, command) :: rest, world =>
    let (result, next) := (Env.still time).exec command.program world
    let (events, final) := timedRun rest next
    (⟨time, command, result.value⟩ :: events, final)

/-- A time that the law speaks of. -/
def InRange (time : Int64) : Prop := 0 ≤ time.toInt ∧ time.toInt < 2 ^ 62

instance (time : Int64) : Decidable (InRange time) := inferInstanceAs (Decidable (_ ∧ _))

/-- The bound of the server on the argument of `expire`. -/
def Command.Capped : Command → Prop
  | .expire _ ttlSeconds => ttlSeconds.toInt ≤ 2 ^ 31 - 1
  | _ => True

/-- Commands at non-decreasing times in range. -/
structure Timely (steps : List (Int64 × Command)) : Prop where
  ordered : steps.Pairwise fun first second => first.1 ≤ second.1
  inRange : ∀ step ∈ steps, InRange step.1
  capped : ∀ step ∈ steps, step.2.Capped

/-- A result that fits into 64 bits. -/
def Fits (result : Int) : Prop := -2 ^ 63 ≤ result ∧ result < 2 ^ 63

/-- The arithmetic of a command on times does not overflow. -/
def Command.NoOverflow (time : Int64) (held : Option Record) : Command → Prop
  | .expire _ ttlSeconds =>
      0 < ttlSeconds → Fits (ttlSeconds.toInt * 1000000) ∧
        Fits (time.toInt + ttlSeconds.toInt * 1000000)
  | .ttl _ | .pttl _ =>
      ∀ record, live time held = some record → 0 ≤ record.expireAtUs →
        Fits (record.expireAtUs.toInt - time.toInt)
  | _ => True

/-! ### Arithmetic -/

theorem Fits.bmod_eq {result : Int} (fits : Fits result) : result.bmod (2 ^ 64) = result := by
  obtain ⟨low, high⟩ := fits
  exact Int.bmod_eq_of_le (by norm_num; exact low) (by norm_num; exact high)

/-- `now + ttl * 1000000` in 64 bits is the same number, for arguments in range. -/
theorem toInt_deadline {time ttlSeconds : Int64} (inRange : InRange time)
    (positive : 0 < ttlSeconds) (capped : ttlSeconds.toInt ≤ 2 ^ 31 - 1) :
    Fits (ttlSeconds.toInt * 1000000) ∧ Fits (time.toInt + ttlSeconds.toInt * 1000000) ∧
      (time + ttlSeconds * 1000000).toInt = time.toInt + ttlSeconds.toInt * 1000000 := by
  obtain ⟨low, high⟩ := inRange
  have above : 0 < ttlSeconds.toInt := Int64.lt_iff_toInt_lt.mp positive
  have million : (1000000 : Int64).toInt = 1000000 := by decide
  have product : Fits (ttlSeconds.toInt * 1000000) := ⟨by omega, by omega⟩
  have sum : Fits (time.toInt + ttlSeconds.toInt * 1000000) := ⟨by omega, by omega⟩
  refine ⟨product, sum, ?_⟩
  rw [Int64.toInt_add, Int64.toInt_mul, million, product.bmod_eq, sum.bmod_eq]

/-- The time left, for a deadline that has not come. -/
theorem toInt_left {time deadline : Int64} (inRange : InRange time) (later : time < deadline) :
    Fits (deadline.toInt - time.toInt) ∧
      (deadline - time).toInt = deadline.toInt - time.toInt := by
  obtain ⟨low, high⟩ := inRange
  have below := Int64.lt_iff_toInt_lt.mp later
  have fits : Fits (deadline.toInt - time.toInt) :=
    ⟨by omega, by have := deadline.toInt_lt; omega⟩
  refine ⟨fits, ?_⟩
  rw [Int64.toInt_sub, fits.bmod_eq]

/-! ### Tallies -/

/-- The deadline field of a record, against the deadline of an entry. -/
def Stamp (field : Int64) : Option Int → Prop
  | none => field = -1
  | some deadline => 0 ≤ deadline ∧ field.toInt = deadline

/-- **What the engine holds is what the ledger has.** -/
structure Tallies (held : Option Record) (entry : Option Entry) : Prop where
  depicts : Depicts held (entry.map Entry.value)
  stamp : ∀ record noted, held = some record → entry = some noted →
    Stamp record.expireAtUs noted.deadline

theorem tallies_none : Tallies none none where
  depicts := depicts_none
  stamp := fun _ _ found => (Option.some_ne_none _ found.symm).elim

theorem tallies_some {record : Record} {noted : Entry}
    (stands : record.value.typed = some noted.value)
    (stamp : Stamp record.expireAtUs noted.deadline) : Tallies (some record) (some noted) where
  depicts := depicts_some stands
  stamp := by
    rintro _ _ ⟨⟩ ⟨⟩
    exact stamp

/-- The two cases of `Tallies`. -/
theorem Tallies.cases {held : Option Record} {entry : Option Entry}
    (tallies : Tallies held entry) :
    (held = none ∧ entry = none) ∨
      ∃ record noted, held = some record ∧ entry = some noted ∧
        record.value.typed = some noted.value ∧ Stamp record.expireAtUs noted.deadline := by
  rcases tallies.depicts.cases with ⟨missing, absent⟩ | ⟨record, value, found, present, stands⟩
  · exact .inl ⟨missing, Option.map_eq_none_iff.mp absent⟩
  · obtain ⟨noted, has, rfl⟩ := Option.map_eq_some_iff.mp present
    exact .inr ⟨record, noted, found, has, stands, tallies.stamp record noted found has⟩

section Time

variable {time after : Int64} {held : Option Record} {entry : Option Entry}

/-- A record has expired when the deadline of its entry has come. -/
theorem isExpired_eq {record : Record} {deadline : Option Int}
    (stamp : Stamp record.expireAtUs deadline) (time : Int64) :
    isExpired record time = !deadline.all fun deadline => decide (time.toInt < deadline) := by
  cases deadline with
  | none =>
    have never : record.expireAtUs = -1 := stamp
    rw [isExpired, never]
    rfl
  | some deadline =>
    obtain ⟨low, same⟩ := stamp
    have notNegative : 0 ≤ record.expireAtUs := Int64.le_iff_toInt_le.mpr (by rw [same]; exact low)
    simp [isExpired, notNegative, Int64.le_iff_toInt_le, same, ← decide_not]

theorem current_some (time : Int) (noted : Entry) :
    current time (some noted) =
      if noted.deadline.all fun deadline => decide (time < deadline) then some noted else none :=
  Option.filter_some

/-- The tally as of a time. -/
theorem Tallies.live (tallies : Tallies held entry) (time : Int64) :
    Tallies (live time held) (current time.toInt entry) := by
  rcases tallies.cases with ⟨rfl, rfl⟩ | ⟨record, noted, rfl, rfl, stands, stamp⟩
  · exact tallies_none
  · have expired := isExpired_eq stamp time
    rw [current_some]
    cases kept : noted.deadline.all fun deadline => decide (time.toInt < deadline) with
    | true =>
      rw [kept] at expired
      rw [live_of_not_expired expired, if_pos rfl]
      exact tallies
    | false =>
      rw [kept] at expired
      rw [live_of_expired expired, if_neg Bool.false_ne_true]
      exact tallies_none

theorem live_after (ordered : time ≤ after) : live after (live time held) = live after held := by
  cases held with
  | none => rfl
  | some record =>
    cases expired : isExpired record time with
    | true =>
      rw [live_of_expired expired, live_of_expired (isExpired_mono ordered expired)]
      rfl
    | false => rw [live_of_not_expired expired]

theorem current_after (ordered : time ≤ after) :
    current after.toInt (current time.toInt entry) = current after.toInt entry := by
  have below : time.toInt ≤ after.toInt := Int64.le_iff_toInt_le.mp ordered
  cases entry with
  | none => rfl
  | some noted =>
    rw [current_some time.toInt noted]
    split
    case isTrue => rfl
    case isFalse gone =>
      obtain ⟨value, deadline⟩ := noted
      cases deadline with
      | none => exact absurd rfl gone
      | some deadline =>
        have past : ¬ time.toInt < deadline := by simpa using gone
        rw [current_some, if_neg (by simp only [Option.all_some, decide_eq_true_eq]; omega)]
        rfl

/-- A tally as of a time holds later on. -/
theorem Tallies.passes (tallies : Tallies (Storage.live time held) (current time.toInt entry))
    (ordered : time ≤ after) :
    Tallies (Storage.live after held) (current after.toInt entry) := by
  have passed := tallies.live after
  rwa [live_after ordered, current_after ordered] at passed

end Time

/-! ### One command -/

section Step

variable {time : Int64} {held : Option Record} {entry : Option Entry}

theorem Command.entry_of_invalid {command : Command} (bad : command.invalid = true) (now : Int)
    (returned : Reply) : command.entry now returned entry = entry := by
  have typed : command.typedEntry entry = entry := if_pos bad
  cases command with
  | expire k ttlSeconds =>
    have negative : ttlSeconds < 0 := of_decide_eq_true bad
    have notZero : ttlSeconds ≠ 0 := fun zero => by
      rw [zero] at negative
      exact absurd negative (by decide)
    have notPositive : ¬ (0 < ttlSeconds ∧ returned = .int 1) := fun positive =>
      Int64.lt_asymm negative positive.1
    rw [Command.entry, if_neg notZero, if_neg notPositive]
  | set k value => cases bad
  | persist k => cases bad
  | _ => exact typed

theorem Command.entry_of_typed {command : Command}
    {act : Option (TypedValue Bytes) → TypedStep Bytes} (typed : command.typed = some act)
    (valid : command.invalid = false) (notSet : ∀ key value, command ≠ .set key value) (now : Int)
    (returned : Reply) :
    command.entry now returned entry = (act (entry.map Entry.value)).held.map fun value =>
      { value := value, deadline := entry.bind Entry.deadline } := by
  have left : command.typedEntry entry = (act (entry.map Entry.value)).held.map fun value =>
      { value := value, deadline := entry.bind Entry.deadline } := by
    rw [typedEntry, if_neg (by simp [valid]), typed]
  rw [← left]
  cases command with
  | set k value => exact absurd rfl (notSet k value)
  | expire k ttlSeconds => cases typed
  | persist k => cases typed
  | _ => rfl

theorem Tallies.stamp_deadlineOf (tallies : Tallies held entry) :
    Stamp (deadlineOf held) (entry.bind Entry.deadline) := by
  rcases tallies.cases with ⟨rfl, rfl⟩ | ⟨record, noted, rfl, rfl, -, stamp⟩
  · rfl
  · exact stamp

/-- A command that is not about time, other than `set` and `del`, keeps the tally. -/
theorem Tallies.step_typed (tallies : Tallies (Storage.live time held) entry) {command : Command}
    {key : Bytes} (about : command.key? = some key)
    {act : Option (TypedValue Bytes) → TypedStep Bytes} (typed : command.typed = some act)
    (valid : command.invalid = false) (notSet : ∀ key value, command ≠ .set key value)
    (notDel : command ≠ .del key) (returned : Reply) :
    Tallies (Storage.live time (command.transition time acceptsAll held).held)
      (current time.toInt (command.entry time.toInt returned entry)) := by
  rw [(Command.transition_live about notDel time held).2.2,
    Command.entry_of_typed typed valid notSet]
  have agrees := Command.agrees typed valid tallies.depicts (live_live time held)
  have kept : KeepsDeadline (Storage.live time (Storage.live time held))
      (command.act time acceptsAll (Storage.live time held)) :=
    Command.keepsDeadline (Option.isSome_of_eq_some typed) notSet
  rw [live_live] at kept
  refine Tallies.live ⟨?_, fun record noted left found => ?_⟩ time
  · rw [Option.map_map]
    exact agrees.held.trans (by simp [Function.comp_def])
  · obtain ⟨value, -, rfl⟩ := Option.map_eq_some_iff.mp found
    rw [Command.transition, if_neg (by simp [valid])] at left
    rw [kept record left]
    exact tallies.stamp_deadlineOf

/-- **The time left** before the deadline of an entry, in units of `unit` microseconds, rounded
down; −1 without a deadline, −2 without an entry. -/
def timeLeft (unit time : Int) : Option Entry → Int
  | none => -2
  | some noted =>
    match noted.deadline with
    | none => -1
    | some deadline => (deadline - time) / unit

/-- A tallied live record whose entry has a deadline: it lies ahead. -/
theorem ahead_of_alive {record : Record} {deadline : Int}
    (stamp : Stamp record.expireAtUs (some deadline))
    (alive : Storage.live time (some record) = some record) : time < record.expireAtUs := by
  have notExpired := (live_eq_some alive).2
  rw [isExpired_eq stamp] at notExpired
  rw [Int64.lt_iff_toInt_lt, stamp.2]
  simpa using notExpired

/-- `ttl` and `pttl` answer the time left and leave the record. -/
theorem remaining_eq (inRange : InRange time) (unit : Int64) (tallies : Tallies held entry)
    (alive : Storage.live time held = held) :
    (Transition.remaining unit time held).held = held ∧
      (Transition.remaining unit time held).value = timeLeft unit.toInt time.toInt entry := by
  rcases tallies.cases with ⟨rfl, rfl⟩ | ⟨record, noted, rfl, rfl, -, stamp⟩
  · exact ⟨rfl, rfl⟩
  · unfold Transition.remaining timeLeft
    obtain ⟨value, deadline⟩ := noted
    cases deadline with
    | none =>
      have never : record.expireAtUs = -1 := stamp
      dsimp only
      rw [if_pos (by rw [never]; decide)]
      exact ⟨rfl, rfl⟩
    | some deadline =>
      obtain ⟨-, left⟩ := toInt_left inRange (ahead_of_alive stamp alive)
      have ahead := Int64.lt_iff_toInt_lt.mp (ahead_of_alive stamp alive)
      have notNegative : ¬ record.expireAtUs < 0 := by
        rw [Int64.lt_iff_toInt_lt, stamp.2]
        exact not_lt.mpr stamp.1
      have positive : 0 < (record.expireAtUs - time).toInt := by omega
      have notPast : ¬ record.expireAtUs - time ≤ 0 := fun past =>
        absurd (Int64.le_iff_toInt_le.mp past) (not_le.mpr positive)
      have notLeast : record.expireAtUs - time ≠ Int64.minValue := fun least => by
        rw [least] at positive
        exact absurd positive (by decide)
      dsimp only
      rw [if_neg notNegative, if_neg notPast]
      refine ⟨rfl, ?_⟩
      show ((record.expireAtUs - time) / unit).toInt = _
      rw [Int64.toInt_div_of_ne_left _ _ notLeast, Int.tdiv_eq_ediv_of_nonneg positive.le, left,
        stamp.2]

/-- `expire` with a positive time. -/
theorem Tallies.step_expire (inRange : InRange time) {ttlSeconds : Int64}
    (positive : 0 < ttlSeconds) (capped : ttlSeconds.toInt ≤ 2 ^ 31 - 1)
    (tallies : Tallies held entry) :
    let step := Transition.expire acceptsAll time ttlSeconds held
    Tallies step.held (if step.value = 1 then entry.map fun noted =>
      { noted with deadline := some (time.toInt + ttlSeconds.toInt * 1000000) } else entry) := by
  intro step
  have notZero : ttlSeconds ≠ 0 := fun zero => by
    rw [zero] at positive
    exact absurd positive (by decide)
  rcases tallies.cases with ⟨rfl, rfl⟩ | ⟨record, noted, rfl, rfl, stands, -⟩
  · exact tallies_none
  · have renewed : step = .ok 1
        (some { record with expireAtUs := time + ttlSeconds * 1000000 }) := by
      simp only [step, Transition.expire, Transition.store, acceptsAll, if_true]
      rw [if_neg notZero]
    rw [renewed]
    refine tallies_some stands ⟨?_, (toInt_deadline inRange positive capped).2.2⟩
    have above := Int64.lt_iff_toInt_lt.mp positive
    have low := inRange.1
    have zero : (0 : Int64).toInt = 0 := rfl
    omega

theorem Tallies.step_persist (tallies : Tallies held entry) :
    Tallies (Transition.persist acceptsAll held).held
      (entry.map fun noted => { noted with deadline := none }) := by
  rcases tallies.cases with ⟨rfl, rfl⟩ | ⟨record, noted, rfl, rfl, stands, -⟩
  · exact tallies_none
  · exact tallies_some stands rfl

/-- **One command keeps the tally.** -/
theorem Tallies.step (inRange : InRange time) {command : Command} (capped : command.Capped)
    {key : Bytes} (about : command.key? = some key)
    (tallies : Tallies (Storage.live time held) entry) :
    let step := command.transition time acceptsAll held
    Tallies (Storage.live time step.held)
      (current time.toInt (command.entry time.toInt step.value entry)) := by
  intro step
  by_cases bad : command.invalid = true
  · have same : step = ⟨.invalidArg, command.blankReply, held⟩ := if_pos bad
    rw [same, Command.entry_of_invalid bad, ← live_live]
    exact tallies.live time
  · have valid : command.invalid = false := by simpa using bad
    have acts : step = command.act time acceptsAll held := if_neg bad
    cases command with
    | dbsize => cases about
    | keys => cases about
    | expire k ttlSeconds =>
      have notNegative : ¬ ttlSeconds < 0 := of_decide_eq_false valid
      rw [acts, Command.entry]
      by_cases zero : ttlSeconds = 0
      · have gone : (Transition.expire acceptsAll time ttlSeconds (Storage.live time held)).held =
            none := by
          cases Storage.live time held with
          | none => rfl
          | some record => rw [Transition.expire, if_pos zero]; rfl
        rw [if_pos zero, Command.act, Transition.reply, gone]
        exact tallies_none
      · have positive : 0 < ttlSeconds := by
          have differs : ttlSeconds.toInt ≠ 0 := fun same => zero (Int64.toInt_inj.mp same)
          rw [Int64.lt_iff_toInt_lt] at notNegative ⊢
          have naught : (0 : Int64).toInt = 0 := rfl
          omega
        have returned : (0 < ttlSeconds ∧ (Command.act time acceptsAll held
            (.expire k ttlSeconds)).value = .int 1) ↔
            (Transition.expire acceptsAll time ttlSeconds (Storage.live time held)).value = 1 := by
          simp [Command.act, Transition.reply, positive]
        simp only [if_neg zero, returned]
        exact (tallies.step_expire inRange positive capped).live time
    | persist k =>
      rw [acts]
      exact tallies.step_persist.live time
    | ttl k =>
      have kept : step.held = Storage.live time held := by
        rw [acts]
        exact (remaining_eq inRange 1000000 tallies (live_live time held)).1
      rw [kept]
      exact tallies.live time
    | pttl k =>
      have kept : step.held = Storage.live time held := by
        rw [acts]
        exact (remaining_eq inRange 1000 tallies (live_live time held)).1
      rw [kept]
      exact tallies.live time
    | set k value =>
      rw [acts]
      have stored : Tallies (some { value := .ofString value })
          (some { value := .string value, deadline := none }) := tallies_some rfl rfl
      exact stored.live time
    | del k =>
      rw [acts]
      exact tallies_none.live time
    | _ => exact tallies.step_typed about rfl valid (by simp) (by simp) _

end Step

/-! ### Runs -/

/-- **The engine and the ledger agree as of a time.** -/
structure Ledger.Matches (ledger : Ledger) (time : Int64) (world : World) : Prop where
  unlimited : world.Unlimited
  tallies : ∀ key, Tallies (live time (world.view key)) (current time.toInt (ledger key))

/-- **No arithmetic on times overflows**, whatever the key holds. -/
theorem Command.noOverflow {time : Int64} (inRange : InRange time) {command : Command}
    (capped : command.Capped) (held : Option Record) : command.NoOverflow time held := by
  have left : ∀ record, live time held = some record → 0 ≤ record.expireAtUs →
      Fits (record.expireAtUs.toInt - time.toInt) := by
    intro record found notNegative
    have alive := (live_eq_some found).2
    refine (toInt_left inRange ?_).1
    rw [isExpired, decide_eq_true notNegative, Bool.true_and, decide_eq_false_iff_not] at alive
    exact Int64.not_le.mp alive
  cases command with
  | expire k ttlSeconds =>
    intro positive
    obtain ⟨product, sum, -⟩ := toInt_deadline inRange positive capped
    exact ⟨product, sum⟩
  | ttl k => exact left
  | pttl k => exact left
  | _ => exact trivial

section Runs

variable {ledger : Ledger} {time : Int64} {world : World}

theorem Ledger.Matches.passes (agrees : ledger.Matches time world) {after : Int64}
    (ordered : time ≤ after) : ledger.Matches after world where
  unlimited := agrees.unlimited
  tallies := fun key => (agrees.tallies key).passes ordered

/-- **One command at a time keeps the engine and the ledger together.** -/
theorem Ledger.Matches.step (agrees : ledger.Matches time world) (inRange : InRange time)
    {command : Command} (capped : command.Capped) :
    let ran := (Env.still time).exec command.program world
    (ledger.record ⟨time, command, ran.1.value⟩).Matches time ran.2 := by
  intro ran
  cases about : command.key? with
  | none =>
    have same := (command.exec_of_no_key (Env.still time) world about).2
    have unrecorded : ledger.record ⟨time, command, ran.1.value⟩ = ledger := by
      simp only [Ledger.record, about]
    have view : ran.2.view = world.view := by
      funext key
      exact congrArg (fun backend : InMemoryBackend => backend.map[key]?) same
    rw [unrecorded]
    refine ⟨(congrArg InMemoryBackend.maxStorageBytes same).trans agrees.unlimited, fun key => ?_⟩
    rw [view]
    exact agrees.tallies key
  | some key =>
    obtain ⟨-, value, view, limit⟩ := command.exec_eq (Env.still time) world about
    rw [agrees.unlimited.accepts_eq] at value view
    refine ⟨limit.trans agrees.unlimited, fun other => ?_⟩
    rw [view, Ledger.record]
    simp only [about]
    by_cases here : other = key
    · subst here
      rw [Function.update_self, Function.update_self, value]
      exact Tallies.step inRange capped about (agrees.tallies other)
    · rw [Function.update_of_ne here, Function.update_of_ne here]
      exact agrees.tallies other

/-- **A run at non-decreasing times keeps the engine and the ledger together.** -/
theorem timedRun_matches (steps : List (Int64 × Command)) (timely : Timely steps)
    (agrees : ledger.Matches time world) (started : ∀ step ∈ steps, time ≤ step.1) {after : Int64}
    (ended : ∀ step ∈ steps, step.1 ≤ after) (ordered : time ≤ after) :
    ((timedRun steps world).1.foldl Ledger.record ledger).Matches after
      (timedRun steps world).2 := by
  induction steps generalizing ledger time world with
  | nil => exact agrees.passes ordered
  | cons step steps ih =>
    have first := List.mem_cons_self (a := step) (l := steps)
    have rest : ∀ other ∈ steps, other ∈ step :: steps := fun _ found =>
      List.mem_cons_of_mem step found
    obtain ⟨increasing, later⟩ := List.pairwise_cons.mp timely.ordered
    exact ih
      ⟨later, fun other found => timely.inRange other (rest other found),
        fun other found => timely.capped other (rest other found)⟩
      ((agrees.passes (started step first)).step (timely.inRange step first)
        (timely.capped step first))
      increasing (fun other found => ended other (rest other found)) (ended step first)

end Runs

/-- The empty engine and the empty ledger. -/
theorem matches_empty (time : Int64) : Ledger.Matches (fun _ => none) time {} where
  unlimited := rfl
  tallies := fun _ => tallies_none

/-- What a command about a key answers, as a function of what the ledger has for it. -/
theorem Ledger.Matches.answers {ledger : Ledger} {time : Int64} {world : World}
    (agrees : ledger.Matches time world) (inRange : InRange time) (key : Bytes) :
    ((Env.still time).exec (Command.ttl key).program world).1.value =
        .int (timeLeft 1000000 time.toInt (current time.toInt (ledger key))) ∧
      ((Env.still time).exec (Command.pttl key).program world).1.value =
        .int (timeLeft 1000 time.toInt (current time.toInt (ledger key))) := by
  have tallies := agrees.tallies key
  obtain ⟨-, ttl, -⟩ := (Command.ttl key).exec_eq (Env.still time) world rfl
  obtain ⟨-, pttl, -⟩ := (Command.pttl key).exec_eq (Env.still time) world rfl
  have seconds := (remaining_eq inRange 1000000 tallies (live_live time _)).2
  have millis := (remaining_eq inRange 1000 tallies (live_live time _)).2
  exact ⟨ttl.trans (congrArg Reply.int seconds), pttl.trans (congrArg Reply.int millis)⟩

/-- A key the ledger does not have is not seen. -/
theorem Ledger.Matches.unseen {ledger : Ledger} {time : Int64} {world : World}
    (agrees : ledger.Matches time world) {key : Bytes}
    (absent : current time.toInt (ledger key) = none) {command : Command}
    (about : command.key? = some key) (notDel : command ≠ .del key) :
    let ran := (Env.still time).exec command.program world
    let ranEmpty := (Env.still time).exec command.program {}
    ran.1.status = ranEmpty.1.status ∧ ran.1.value = ranEmpty.1.value := by
  intro ran ranEmpty
  have gone : live time (world.view key) = none := by
    rcases (agrees.tallies key).cases with ⟨missing, -⟩ | ⟨record, noted, -, found, -⟩
    · exact missing
    · rw [absent] at found
      cases found
  obtain ⟨status, value, -⟩ := command.exec_eq (Env.still time) world about
  obtain ⟨statusEmpty, valueEmpty, -⟩ := command.exec_eq (Env.still time) {} about
  rw [agrees.unlimited.accepts_eq] at status value
  have unlimited : World.Unlimited {} := rfl
  rw [unlimited.accepts_eq] at statusEmpty valueEmpty
  obtain ⟨sameStatus, sameValue, -⟩ := Command.transition_live about notDel time
    (world.view key)
  rw [gone] at sameStatus sameValue
  exact ⟨(status.trans sameStatus).trans statusEmpty.symm,
    (value.trans sameValue).trans valueEmpty.symm⟩

/-- **The law of deadlines.** After any run at non-decreasing times in range, at any later time in
range, with the deadlines of the history: no arithmetic has overflowed; a key that is absent or
whose deadline has come is seen by no command, and `ttl` and `pttl` return −2; a key without a
deadline has −1; any other has the time left, rounded down. -/
theorem ttl_by_history (steps : List (Int64 × Command)) (timely : Timely steps) (time : Int64)
    (inRange : InRange time) (ended : ∀ step ∈ steps, step.1 ≤ time) (key : Bytes) :
    let ran := timedRun steps {}
    let entry := ledgerOf ran.1 key
    let answer := fun (world : World) (command : Command) =>
      ((Env.still time).exec command.program world).1
    (∀ before step rest, steps = before ++ step :: rest → ∀ about, step.2.key? = some about →
      step.2.NoOverflow step.1 ((timedRun before {}).2.view about)) ∧
    ((entry = none ∨ ∃ noted deadline, entry = some noted ∧ noted.deadline = some deadline ∧
        deadline ≤ time.toInt) →
      (∀ command, command.key? = some key → command ≠ .del key →
        (answer ran.2 command).status = (answer {} command).status ∧
          (answer ran.2 command).value = (answer {} command).value) ∧
      (answer ran.2 (.ttl key)).value = .int (-2) ∧ (answer ran.2 (.pttl key)).value = .int (-2)) ∧
    (∀ noted, entry = some noted → noted.deadline = none →
      (answer ran.2 (.ttl key)).value = .int (-1) ∧ (answer ran.2 (.pttl key)).value = .int (-1)) ∧
    (∀ noted deadline, entry = some noted → noted.deadline = some deadline →
      time.toInt < deadline →
      (answer ran.2 (.ttl key)).value = .int ((deadline - time.toInt) / 1000000) ∧
        (answer ran.2 (.pttl key)).value = .int ((deadline - time.toInt) / 1000)) := by
  intro ran entry answer
  have agrees : (ledgerOf ran.1).Matches time ran.2 :=
    timedRun_matches steps timely (matches_empty 0)
      (fun step found => Int64.le_iff_toInt_le.mpr (timely.inRange step found).1) ended
      (Int64.le_iff_toInt_le.mpr inRange.1)
  obtain ⟨ttl, pttl⟩ := agrees.answers inRange key
  refine ⟨?_, ?_, ?_, ?_⟩
  · rintro before step rest rfl about -
    have here : step ∈ before ++ step :: rest := by simp
    exact Command.noOverflow (timely.inRange step here) (timely.capped step here) _
  · intro due
    have absent : current time.toInt (ledgerOf ran.1 key) = none := by
      rcases due with missing | ⟨noted, deadline, found, stated, past⟩
      · rw [show ledgerOf ran.1 key = none from missing]
        rfl
      · rw [show ledgerOf ran.1 key = some noted from found, current_some, stated,
          if_neg (by simpa using past)]
    refine ⟨fun command about notDel => agrees.unseen absent about notDel, ?_, ?_⟩
    · rw [absent] at ttl
      exact ttl
    · rw [absent] at pttl
      exact pttl
  · intro noted found never
    have kept : current time.toInt (ledgerOf ran.1 key) = some noted := by
      rw [show ledgerOf ran.1 key = some noted from found, current_some, never]
      rfl
    rw [kept, timeLeft, never] at ttl pttl
    exact ⟨ttl, pttl⟩
  · intro noted deadline found stated ahead
    have kept : current time.toInt (ledgerOf ran.1 key) = some noted := by
      rw [show ledgerOf ran.1 key = some noted from found, current_some, stated,
        if_pos (by simpa using ahead)]
    rw [kept, timeLeft, stated] at ttl pttl
    exact ⟨ttl, pttl⟩

/-- `SET k v` at 0, `EXPIRE k 2` at 1, and one microsecond before the deadline. -/
theorem ttl_by_history_expire :
    let steps : List (Int64 × Command) := [(0, .set [107] [118]), (1, .expire [107] 2)]
    Timely steps ∧
      ∃ noted, ledgerOf (timedRun steps {}).1 [107] = some noted ∧
        noted.deadline = some 2000001 ∧
        ((Env.still 2000000).exec (Command.pttl [107]).program (timedRun steps {}).2).1.value =
          .int 0 := by
  intro steps
  have timely : Timely steps := ⟨by decide, by decide, by simp [steps, Command.Capped]⟩
  obtain ⟨-, -, -, law⟩ := ttl_by_history steps timely 2000000 (by decide) (by decide) [107]
  exact ⟨timely, _, rfl, rfl, (law _ _ rfl rfl (by decide)).2⟩

end SunKV.Storage
