/-
**Storage failures and the replies to them.**

A handler runs on a `Service`: the store, the rest of the server, the replies sent and, for the
statements below, the operations of the storage API that it has called, each with the store it was
called on (`Issued`).

Every operation has at most one failure that its handler answers with an error
(`Command.reported`). `Candid` says of the operations and the replies of a handler that such a
failure is answered with an error, and that no other failure stands beside an error.

* `candid_of_safe` — handlers that call only operations which cannot fail;
* `candid_single` — handlers with one operation;
* `candid_hsetPairs` — the loop of `HSET`: only its first operation can find a wrong type.
* `failure_reported_iff` — a failure is answered with an error exactly when no operation is `Masked`
  in the state it is called in.
-/

import SunKV.Persistence.Durability
import SunKV.Server.Dispatch
import SunKV.Storage.Failure

namespace SunKV.Storage

open SunKV.Lib

/-! ### Failures that are not reported -/

/-- The failure of an operation that its handler answers with an error. -/
def Command.reported : Command → Option StatusCode
  | .set _ _ => some .quotaExceeded
  | .lpush _ _ | .rpush _ _ | .lpop _ | .rpop _ | .llen _ | .lindex _ _ | .sadd _ _ | .srem _ _
  | .scard _ | .sismember _ _ | .smembers _ | .hset _ _ _ | .hget _ _ | .hdel _ _ | .hlen _
  | .hexists _ _ | .hgetall _ => some .wrongType
  | .get _ | .del _ | .keyExists _ | .expire _ _ | .persist _ | .ttl _ | .pttl _ | .dbsize
  | .keys => none

/-- The operation cannot fail. -/
def Command.infallible : Command → Bool
  | .del _ | .keyExists _ | .ttl _ | .pttl _ | .dbsize | .keys => true
  | _ => false

/-- A wrong type is answered as an absent key. -/
def Command.hidesType : Command → Bool
  | .get _ => true
  | _ => false

/-- A refused record is answered as if nothing were wrong. -/
def Command.hidesQuota : Command → Bool
  | .set _ _ => false
  | _ => true

/-- **The failures without an error reply**, by the state before: refused arguments, a `get` of a
key with another type, and a record other than that of `set` which the limit refuses. -/
def Command.Masked (command : Command) (now : Int64) (accepts : Record → Bool)
    (held : Option Record) : Prop :=
  command.invalid = true ∨
    (command.hidesType = true ∧ command.mistyped (live now held) = true) ∨
    (command.hidesQuota = true ∧ command.mistyped (live now held) = false ∧
      (command.writes (live now held) now).all accepts = false)

section Masked

variable {now : Int64} {accepts : Record → Bool} {held : Option Record}

theorem Command.reported_wrongType (command : Command) {found : Option Record}
    (mistyped : command.mistyped found = true) :
    command.reported = some .wrongType ↔ command.hidesType = false := by
  cases command with
  | get k => simp [reported, hidesType]
  | set k value => cases mistyped
  | del k => cases mistyped
  | keyExists k => cases mistyped
  | expire k ttlSeconds => cases mistyped
  | persist k => cases mistyped
  | ttl k => cases mistyped
  | pttl k => cases mistyped
  | dbsize => cases mistyped
  | keys => cases mistyped
  | _ => exact ⟨fun _ => rfl, fun _ => rfl⟩

theorem Command.reported_quotaExceeded (command : Command) :
    command.reported = some .quotaExceeded ↔ command.hidesQuota = false := by
  cases command <;> simp [reported, hidesQuota]

theorem Command.reported_invalidArg (command : Command) :
    command.reported ≠ some .invalidArg := by
  cases command <;> simp [reported]

theorem Command.reported_ok (command : Command) : command.reported ≠ some .ok := by
  cases command <;> simp [reported]

/-- **A failure has no error reply exactly when it is masked.** -/
theorem Command.masked_iff (command : Command) :
    command.Masked now accepts held ↔
      ¬ ((command.transition now accepts held).status = .ok ∨
        command.reported = some (command.transition now accepts held).status) := by
  unfold Command.Masked
  rw [command.status_eq]
  cases invalid : command.invalid with
  | true => simp [command.reported_invalidArg]
  | false =>
    cases mistyped : command.mistyped (live now held) with
    | true => simp [statusOf, command.reported_wrongType mistyped]
    | false =>
      cases fits : (command.writes (live now held) now).all accepts with
      | true => simp [statusOf, fits]
      | false => simp [statusOf, fits, command.reported_quotaExceeded]

theorem Command.status_of_infallible {command : Command} (infallible : command.infallible = true) :
    (command.transition now accepts held).status = .ok := by
  rw [command.status_eq]
  cases command with
  | del k => rfl
  | keyExists k => rfl
  | ttl k => rfl
  | pttl k => rfl
  | dbsize => rfl
  | keys => rfl
  | _ => cases infallible

end Masked

end SunKV.Storage

namespace SunKV.Server

open SunKV.Lib SunKV.Protocol SunKV.Storage

/-! ### Handlers at work -/

/-- An operation of the storage API, and the store it was called on. -/
structure Issued where
  command : Command
  world : World

/-- What a handler works on. -/
structure Service (σ : Type) where
  world : World
  rest : σ
  sent : List Bytes := []
  issued : List Issued := []

/-- **What the calls of a handler do**, on any server. -/
def serving {σ : Type} (env : Env) (host : Handler ServerCall.Answer σ) :
    Handler ServerCall.Answer (Service σ)
  | .api command, service =>
      let ran := env.exec command.operation service.world
      (ran.1, { service with
        world := ran.2, issued := service.issued ++ [⟨command, service.world⟩] })
  | .flushAll, service =>
      ((), { service with
        world := (env.exec Persistence.flushAll service.world).2
        rest := (host .flushAll service.rest).2 })
  | .createSnapshot, service =>
      ((host .createSnapshot service.rest).1, { service with
        world := (env.exec dumpAllLiveRecords service.world).2
        rest := (host .createSnapshot service.rest).2 })
  | .writeResp data, service => ((), { service with sent := service.sent ++ [data] })
  | request, service =>
      ((host request service.rest).1, { service with rest := (host request service.rest).2 })

/-- The status an operation returned. -/
def Issued.status (env : Env) (call : Issued) : StatusCode :=
  (env.exec call.command.operation call.world).1.status

/-- The operation fails without an error reply, in the state it is called in. -/
def Issued.Masked (env : Env) (call : Issued) : Prop :=
  ∃ key, call.command.key? = some key ∧
    call.command.Masked (env.now call.world.readings) (call.world.backend.accepts key)
      (call.world.view key)

/-- The operation succeeded, or failed in the way its handler reports. -/
def Issued.Told (env : Env) (call : Issued) : Prop :=
  call.status env = .ok ∨ call.command.reported = some (call.status env)

section Issued

variable {env : Env} {call : Issued}

theorem Issued.status_program (env : Env) (call : Issued) :
    call.status env = (env.exec call.command.program call.world).1.status := by
  rw [call.command.program_eq, Env.exec_bind]
  rfl

theorem Issued.status_eq {key : Bytes} (about : call.command.key? = some key) :
    call.status env = (call.command.transition (env.now call.world.readings)
      (call.world.backend.accepts key) (call.world.view key)).status := by
  rw [call.status_program]
  exact (call.command.exec_eq env call.world about).1

theorem Issued.status_of_no_key (nowhere : call.command.key? = none) : call.status env = .ok := by
  rw [call.status_program]
  exact (call.command.exec_of_no_key env call.world nowhere).1

theorem Issued.status_of_infallible (infallible : call.command.infallible = true) :
    call.status env = .ok := by
  cases about : call.command.key? with
  | none => exact Issued.status_of_no_key about
  | some key =>
    rw [Issued.status_eq about]
    exact Command.status_of_infallible infallible

theorem Issued.masked_iff : call.Masked env ↔ ¬ call.Told env := by
  unfold Issued.Masked Issued.Told
  cases about : call.command.key? with
  | none => simp [Issued.status_of_no_key about]
  | some key => simp [Issued.status_eq about, call.command.masked_iff]

end Issued

/-! ### Candid handlers -/

/-- **The failures that are reported have an error reply**, and beside an error reply there is no
other failure. -/
structure Candid (env : Env) (issued : List Issued) (sent : List Bytes) : Prop where
  shows : ∀ call ∈ issued, call.command.reported = some (call.status env) → IsError sent
  hides : IsError sent → ∀ call ∈ issued, call.Told env

theorem Candid.reported_iff {env : Env} {issued : List Issued} {sent : List Bytes}
    (candid : Candid env issued sent) :
    ((∃ call ∈ issued, call.status env ≠ .ok) → IsError sent) ↔
      ∀ call ∈ issued, ¬ call.Masked env := by
  constructor
  · intro reports call member masked
    have failed : ¬ call.Told env := Issued.masked_iff.mp masked
    have error := reports ⟨call, member, fun fine => failed (.inl fine)⟩
    exact failed (candid.hides error call member)
  · rintro unmasked ⟨call, member, failed⟩
    have told : call.Told env := by
      by_contra untold
      exact unmasked call member (Issued.masked_iff.mpr untold)
    exact candid.shows call member (told.resolve_left failed)

/-- The handler is candid on every server that has not sent anything yet. -/
def CandidHandler (handler : Handling) : Prop :=
  ∀ (σ : Type) (env : Env) (host : Handler ServerCall.Answer σ) (service : Service σ),
    service.issued = [] → service.sent = [] →
      Candid env (handler.run (serving env host) service).2.issued
        (handler.run (serving env host) service).2.sent

section Handlers

variable {σ α : Type} {env : Env} {host : Handler ServerCall.Answer σ} {service : Service σ}

/-- What all operations of a program satisfy, all issued ones do. -/
theorem issued_of_makes {fine : Command → Prop} {program : Serving α}
    (makes : program.Makes fun request => ∀ command, request = .api command → fine command)
    (before : ∀ call ∈ service.issued, fine call.command) :
    ∀ call ∈ (program.run (serving env host) service).2.issued, fine call.command := by
  induction program generalizing service with
  | pure value => exact before
  | query request next ih =>
    refine ih _ (makes.2 _) ?_
    cases request with
    | api command =>
      intro call member
      rcases List.mem_append.mp member with old | new
      · exact before call old
      · obtain rfl := List.mem_singleton.mp new
        exact makes.1 command rfl
    | _ => exact before

/-- The call is no operation that can fail. -/
def Safe (request : ServerCall) : Prop :=
  ∀ command, request = .api command → command.infallible = true

/-- **Handlers that call only operations which cannot fail.** -/
theorem candid_of_safe {handler : Handling} (safe : handler.Makes Safe) :
    CandidHandler handler := by
  intro σ env host service issued sent
  have fine : ∀ call ∈ (handler.run (serving env host) service).2.issued,
      call.status env = .ok := by
    intro call member
    refine Issued.status_of_infallible (issued_of_makes safe ?_ call member)
    rw [issued]
    exact fun _ member => (List.not_mem_nil member).elim
  refine ⟨fun call member reported => ?_, fun _ call member => .inl (fine call member)⟩
  rw [fine call member] at reported
  exact absurd reported call.command.reported_ok

/-- What an operation returns, and which reply the handler makes of it. -/
theorem run_api_answer (command : Command) {use : StorageResult command.Value → Handling}
    {render : StorageResult command.Value → Bytes}
    (replies : ∀ result, use result = answer (render result)) :
    ((api command >>= use).run (serving env host) service).2 =
      { service with
        world := (env.exec command.operation service.world).2
        sent := service.sent ++ [render (env.exec command.operation service.world).1]
        issued := service.issued ++ [⟨command, service.world⟩] } := by
  rw [Program.run_bind, replies]
  rfl

/-- **Handlers with one operation**: it is enough that the reply is an error for the failure that is
to be reported, and for no other. -/
theorem candid_single (command : Command) (render : StorageResult command.Value → Bytes)
    {use : StorageResult command.Value → Handling}
    (replies : ∀ result, use result = answer (render result))
    (shows : ∀ result : StorageResult command.Value,
      command.reported = some result.status ↔ IsError [render result]) :
    CandidHandler (api command >>= use) := by
  intro σ env host service issued sent
  rw [run_api_answer command replies, issued, sent]
  refine ⟨fun call member reported => ?_, fun error call member => ?_⟩
  · obtain rfl := List.mem_singleton.mp member
    exact (shows _).mp reported
  · obtain rfl := List.mem_singleton.mp member
    exact .inr ((shows _).mpr error)

/-- A question to the server first. -/
theorem candid_maxTtlSeconds {use : Int → Handling}
    (later : ∀ limit, CandidHandler (use limit)) : CandidHandler (maxTtlSeconds >>= use) := by
  intro σ env host service issued sent
  rw [Program.run_bind]
  exact later _ σ env host _ issued sent

end Handlers

/-! ### Arguments and replies -/

section Arguments

variable {cmdArray : List RespValue}

theorem safe_write (data : Bytes) : (answer data).Makes Safe :=
  Program.Makes.bind (Program.makes_ask fun _ same => by cases same) fun _ => trivial

theorem candid_answer (data : Bytes) : CandidHandler (answer data) :=
  candid_of_safe (safe_write data)

theorem candid_pass : CandidHandler (return false) := candid_of_safe trivial

theorem candid_withKey (size : Nat) {use : Bytes → Handling}
    (later : ∀ key, CandidHandler (use key)) : CandidHandler (withKey cmdArray size use) := by
  unfold withKey
  split
  · exact candid_pass
  · split
    · exact candid_pass
    · exact later _

theorem candid_withKeyAnd {use : Bytes → Bytes → Handling}
    (later : ∀ key arg, CandidHandler (use key arg)) :
    CandidHandler (withKeyAnd cmdArray use) := by
  refine candid_withKey 3 fun key => ?_
  split
  · exact candid_pass
  · exact later key _

theorem safe_alone {use : Handling} (later : use.Makes Safe) : (alone cmdArray use).Makes Safe := by
  unfold alone
  split
  · exact trivial
  · exact later

/-- A reply that is an error exactly for a wrong type. -/
theorem isError_unless {status : StatusCode} {reply : Bytes} (typed : ¬ IsError [reply]) :
    some StatusCode.wrongType = some status ↔
      IsError [if status = .wrongType then wrongTypeError else reply] := by
  split
  case isTrue wrong =>
    rw [wrong]
    exact ⟨fun _ => isError_of_error _, fun _ => rfl⟩
  case isFalse fine =>
    exact ⟨fun same => absurd (Option.some.inj same).symm fine, fun error => absurd error typed⟩

theorem isError_countReply (r : StorageResult Int) :
    some StatusCode.wrongType = some r.status ↔ IsError [countReply r] :=
  isError_unless (not_isError_integer _)

theorem not_isError_bulkOrNull (r : StorageResult (Option Bytes)) : ¬ IsError [bulkOrNull r] := by
  unfold bulkOrNull
  split
  · exact not_isError_null
  · split
    · exact not_isError_bulkString _
    · exact not_isError_null

theorem isError_elementReply (r : StorageResult (Option Bytes)) :
    some StatusCode.wrongType = some r.status ↔ IsError [elementReply r] :=
  isError_unless (not_isError_bulkOrNull r)

theorem isError_stringsReply (r : StorageResult (List Bytes)) :
    some StatusCode.wrongType = some r.status ↔ IsError [stringsReply r] :=
  isError_unless (not_isError_strings _)

theorem isError_pairsReply (r : StorageResult (List (Bytes × Bytes))) :
    some StatusCode.wrongType = some r.status ↔ IsError [pairsReply r] :=
  isError_unless (not_isError_strings _)

/-- A reply that is never an error, where nothing is to be reported. -/
theorem isError_never {status : StatusCode} {reply : Bytes} (typed : ¬ IsError [reply]) :
    (none : Option StatusCode) = some status ↔ IsError [reply] :=
  ⟨nofun, fun error => absurd error typed⟩

end Arguments

/-! ### The loop of `HSET` -/

/-- The key holds a hash, or nothing. -/
def HashOrNothing (key : Bytes) (world : World) : Prop :=
  ∀ record, world.view key = some record → record.value.type = .hash

section Hset

variable {env : Env} {world : World} {key : Bytes}

theorem held_grow_type {accepts : Record → Bool} {wantType : DataType}
    {fill : DataValue → DataValue × Int} (keeps : ∀ value, (fill value).1.type = value.type)
    {held : Option Record}
    (right : (Transition.grow accepts wantType fill held).status ≠ .wrongType) :
    ∀ record, (Transition.grow accepts wantType fill held).held = some record →
      record.value.type = wantType := by
  intro record found
  cases held with
  | none =>
    unfold Transition.grow Transition.store at found
    dsimp only at found
    split at found
    · split at found
      · obtain rfl := Option.some.inj found
        exact keeps _
      · obtain rfl := Option.some.inj found
        rfl
    · cases found
  | some before =>
    unfold Transition.grow Transition.store at found right
    dsimp only at found right
    split at found
    case isTrue same =>
      split at found
      · obtain rfl := Option.some.inj found
        exact (keeps _).trans same
      · obtain rfl := Option.some.inj found
        exact same
    case isFalse other =>
      rw [if_neg other] at right
      exact absurd rfl right

/-- An `hset` that finds no wrong type leaves a hash, or nothing. -/
theorem hashOrNothing_of_hset {field value : Bytes}
    (right : (Issued.mk (.hset key field value) world).status env ≠ .wrongType) :
    HashOrNothing key (env.exec (Command.hset key field value).operation world).2 := by
  have about : (Command.hset key field value).key? = some key := rfl
  obtain ⟨-, -, view, -⟩ := (Command.hset key field value).exec_eq env world about
  have same : (env.exec (Command.hset key field value).operation world).2 =
      (env.exec (Command.hset key field value).program world).2 := by
    rw [Command.program_eq, Env.exec_bind]
    rfl
  rw [Issued.status_eq about] at right
  intro record found
  rw [same, view, Function.update_self] at found
  exact held_grow_type (fun _ => rfl) right record found

/-- On a hash or nothing, `hset` finds no wrong type. -/
theorem HashOrNothing.status (hash : HashOrNothing key world) (field value : Bytes) :
    (Issued.mk (.hset key field value) world).status env ≠ .wrongType := by
  have about : (Command.hset key field value).key? = some key := rfl
  have fits : (Command.hset key field value).mistyped
      (live (env.now world.readings) (world.view key)) = false := by
    show mismatch .hash (live (env.now world.readings) (world.view key)) = false
    cases found : live (env.now world.readings) (world.view key) with
    | none => rfl
    | some record => simp [mismatch, hash record (live_eq_some found).1]
  rw [Issued.status_eq about, Command.status_eq, statusOf, fits, if_neg Bool.false_ne_true]
  split
  · decide
  · split
    · decide
    · decide

section Loop

variable {σ : Type} {host : Handler ServerCall.Answer σ} {service : Service σ}
  {field value : RespValue} {args rest : List RespValue} {added : Int} {name item : Bytes}

/-- A turn of the loop with an operation. -/
theorem run_hsetPairs_pair (isField : bulk? field = some name) (isValue : bulk? value = some item) :
    let call : Issued := ⟨.hset key name item, service.world⟩
    let r := (env.exec (hset key name item) service.world).1
    let next : Service σ := { service with
      world := (env.exec (hset key name item) service.world).2, issued := service.issued ++ [call] }
    (hsetPairs key (field :: value :: rest) added).run (serving env host) service =
      if call.status env = .wrongType then (answer wrongTypeError).run (serving env host) next
      else
        (hsetPairs key rest (if r.status = .ok then added + r.value else added)).run
          (serving env host) next := by
  intro call r next
  rw [hsetPairs, isField, isValue]
  dsimp only
  rw [Program.run_bind]
  exact apply_ite (fun handler : Handling => handler.run (serving env host) next) _ _ _

/-- A turn without one. -/
theorem hsetPairs_skip
    (skipped : ∀ name item, bulk? field = some name → bulk? value = some item → False) :
    hsetPairs key (field :: value :: rest) added = hsetPairs key rest added := by
  rw [hsetPairs]
  split
  case h_1 name item isField isValue => exact (skipped _ _ isField isValue).elim
  case h_2 => rfl

/-- The end of the loop. -/
theorem hsetPairs_end (short : ∀ field value rest, args = field :: value :: rest → False) :
    hsetPairs key args added = answer (serializeInteger added) := by
  rw [hsetPairs]
  exact short

/-- **The loop on a hash, or nothing**: it answers with a number, and no operation finds a wrong
type. -/
theorem run_hsetPairs (args : List RespValue) (added : Int)
    (hash : HashOrNothing key service.world)
    (before : ∀ call ∈ service.issued, call.status env ≠ .wrongType ∧
      call.command.reported = some .wrongType) :
    (∃ total, ((hsetPairs key args added).run (serving env host) service).2.sent =
      service.sent ++ [serializeInteger total]) ∧
      ∀ call ∈ ((hsetPairs key args added).run (serving env host) service).2.issued,
        call.status env ≠ .wrongType ∧ call.command.reported = some .wrongType := by
  induction args, added using hsetPairs.induct generalizing service with
  | case1 field value rest added name item isValue isField ih =>
    have right : (Issued.mk (.hset key name item) service.world).status env ≠ .wrongType :=
      hash.status name item
    rw [run_hsetPairs_pair isField isValue, if_neg right]
    refine ih _ (hashOrNothing_of_hset right) fun call member => ?_
    rcases List.mem_append.mp member with old | new
    · exact before call old
    · obtain rfl := List.mem_singleton.mp new
      exact ⟨right, rfl⟩
  | case2 field value rest added skipped ih =>
    rw [hsetPairs_skip skipped]
    exact ih hash before
  | case3 args added short =>
    rw [hsetPairs_end short]
    exact ⟨⟨added, rfl⟩, before⟩

theorem candid_on_hash (args : List RespValue) (added : Int)
    (hash : HashOrNothing key service.world)
    (before : ∀ call ∈ service.issued, call.status env ≠ .wrongType ∧
      call.command.reported = some .wrongType) (silent : service.sent = []) :
    Candid env ((hsetPairs key args added).run (serving env host) service).2.issued
      ((hsetPairs key args added).run (serving env host) service).2.sent := by
  obtain ⟨⟨total, replied⟩, right⟩ :
      (∃ total, ((hsetPairs key args added).run (serving env host) service).2.sent = _) ∧ _ :=
    run_hsetPairs args added hash before
  rw [replied, silent]
  refine ⟨fun call member reported => ?_, fun error => absurd error (not_isError_integer total)⟩
  rw [(right call member).2] at reported
  exact absurd (Option.some.inj reported).symm (right call member).1

end Loop

/-- **The loop of `HSET` is candid**: if an operation finds a wrong type, it is the only one. -/
theorem candid_hsetPairs (key : Bytes) (args : List RespValue) (added : Int) :
    CandidHandler (hsetPairs key args added) := by
  intro σ env host service issued sent
  induction args, added using hsetPairs.induct with
  | case1 field value rest added name item isValue isField ih =>
    have first : service.issued ++ [Issued.mk (.hset key name item) service.world] =
        [⟨.hset key name item, service.world⟩] := by
      rw [issued, List.nil_append]
    rw [run_hsetPairs_pair isField isValue, first]
    by_cases wrong : (Issued.mk (.hset key name item) service.world).status env = .wrongType
    · rw [if_pos wrong]
      have said : service.sent ++ [wrongTypeError] = [wrongTypeError] := by
        rw [sent, List.nil_append]
      show Candid env [⟨.hset key name item, service.world⟩] (service.sent ++ [wrongTypeError])
      rw [said]
      refine ⟨fun _ _ _ => isError_of_error _, fun _ call member => .inr ?_⟩
      obtain rfl := List.mem_singleton.mp member
      exact congrArg some wrong.symm
    · rw [if_neg wrong]
      refine candid_on_hash rest _ (hashOrNothing_of_hset wrong) (fun call member => ?_) sent
      obtain rfl := List.mem_singleton.mp member
      exact ⟨wrong, rfl⟩
  | case2 field value rest added skipped ih =>
    rw [hsetPairs_skip skipped]
    exact ih
  | case3 args added short =>
    rw [hsetPairs_end short]
    exact candid_answer _ σ env host service issued sent

end Hset

/-! ### Every handler -/

section Table

variable (cmdArray : List RespValue)

theorem safe_api {command : Command} (infallible : command.infallible = true) :
    (api command).Makes Safe :=
  Program.makes_ask fun other same => by
    obtain rfl := ServerCall.api.inj same
    exact infallible

theorem safe_buildStatsReport : buildStatsReport.Makes Safe :=
  Program.Makes.bind (safe_api rfl) fun _ => Program.makes_ask nofun

theorem safe_report : Program.Makes Safe (do answer (serializeBulkString (← buildStatsReport))) :=
  Program.Makes.bind safe_buildStatsReport fun _ => safe_write _

theorem safe_eachChannel {call : Bytes → Serving Nat} (quiet : ∀ channel, (call channel).Makes Safe)
    (kind : String) (args : List RespValue) : (eachChannel call kind args).Makes Safe := by
  induction args with
  | nil => exact trivial
  | cons arg rest ih =>
    rw [eachChannel]
    split
    · exact trivial
    · exact (quiet _).bind fun _ => Program.Makes.bind (Program.makes_ask nofun) fun _ => ih

theorem safe_eachUnsubscribed (items : List (Bytes × Nat)) :
    (eachUnsubscribed items).Makes Safe := by
  induction items with
  | nil => exact trivial
  | cons item rest ih => exact Program.Makes.bind (Program.makes_ask nofun) fun _ => ih

theorem safe_countKeys {call : Bytes → Serving (StorageResult Int)}
    (fine : ∀ key, (call key).Makes Safe) (args : List RespValue) (count : Int) :
    (countKeys call args count).Makes Safe := by
  induction args generalizing count with
  | nil => exact safe_write _
  | cons arg rest ih =>
    rw [countKeys]
    split
    · exact ih count
    · exact (fine _).bind fun _ => ih _

theorem safe_cmdUnsubscribe : (cmdUnsubscribe cmdArray).Makes Safe := by
  unfold cmdUnsubscribe
  split
  · refine Program.Makes.bind (Program.makes_ask nofun) fun unsubscribed => ?_
    split
    · exact safe_write _
    · exact safe_eachUnsubscribed _
  · exact safe_eachChannel (fun _ => Program.makes_ask nofun) _ _

theorem safe_cmdSubscribe : (cmdSubscribe cmdArray).Makes Safe := by
  unfold cmdSubscribe
  split
  · exact trivial
  · exact safe_eachChannel (fun _ => Program.makes_ask nofun) _ _

theorem candid_cmdPublish : CandidHandler (cmdPublish cmdArray) := by
  unfold cmdPublish
  split
  · exact candid_pass
  · exact candid_withKeyAnd fun _ _ => candid_of_safe
      (Program.Makes.bind (Program.makes_ask nofun) fun _ => safe_write _)

theorem safe_cmdDebug : (cmdDebug cmdArray).Makes Safe := by
  unfold cmdDebug
  split
  · exact safe_write _
  · split
    · exact safe_report
    · split
      · exact Program.Makes.bind (Program.makes_ask nofun) fun _ => safe_write _
      · exact safe_write _

/-- A yes or no of the server, and one of two replies. -/
theorem safe_branch {request : ServerCall} {use : request.Answer → Handling}
    (quiet : Safe request) (later : ∀ told, (use told).Makes Safe) :
    Program.Makes Safe (Program.ask request >>= use) :=
  Program.Makes.bind (Program.makes_ask quiet) later

theorem candid_cmdHealth : CandidHandler (cmdHealth cmdArray) :=
  candid_of_safe <| safe_alone <| safe_branch nofun fun told => by
    split
    · exact safe_write _
    · exact safe_write _

theorem candid_cmdSnapshot : CandidHandler (cmdSnapshot cmdArray) :=
  candid_of_safe <| safe_alone <| safe_branch nofun fun told => by
    split
    · exact safe_write _
    · exact safe_write _

/-- `DEL` and `EXISTS`. -/
theorem candid_countKeys {call : Bytes → Serving (StorageResult Int)}
    (fine : ∀ key, (call key).Makes Safe) :
    CandidHandler (if cmdArray.length < 2 then return false
      else countKeys call (cmdArray.drop 1) 0) := by
  split
  · exact candid_pass
  · exact candid_of_safe (safe_countKeys fine _ _)

theorem candid_cmdSet : CandidHandler (cmdSet cmdArray) := by
  refine candid_withKeyAnd fun key value => ?_
  refine candid_single (.set key value) (fun r => if r.status = .quotaExceeded then
    serializeError (text "OOM maxmemory") else kSimpleStringOk) (fun r => ?_) fun r => ?_
  · exact (apply_ite answer _ _ _).symm
  · split
    case isTrue refused =>
      rw [refused]
      exact ⟨fun _ => isError_of_error _, fun _ => rfl⟩
    case isFalse fine =>
      exact ⟨fun same => absurd (Option.some.inj same).symm fine,
        fun error => absurd error not_isError_ok⟩

theorem candid_cmdExpire : CandidHandler (cmdExpire cmdArray) := by
  refine candid_withKeyAnd fun key ttl => ?_
  split
  · exact candid_answer _
  · refine candid_maxTtlSeconds fun limit => ?_
    split
    · exact candid_answer _
    · exact candid_single (.expire key _) (countOr 0) (fun _ => rfl) fun _ =>
        isError_never (not_isError_integer _)

theorem candid_cmdLindex : CandidHandler (cmdLindex cmdArray) := by
  refine candid_withKeyAnd fun key index => ?_
  split
  · exact candid_answer _
  · exact candid_single (.lindex key _) elementReply (fun _ => rfl) isError_elementReply

theorem candid_cmdHset : CandidHandler (cmdHset cmdArray) := by
  unfold cmdHset
  split
  · exact candid_pass
  · split
    · exact candid_answer _
    · split
      · exact candid_answer _
      · exact candid_hsetPairs _ _ _

/-- A key, one operation and a reply. -/
theorem candid_keyed (size : Nat) (command : Bytes → Command)
    {render : (key : Bytes) → StorageResult (command key).Value → Bytes}
    (shows : ∀ key result, (command key).reported = some result.status ↔
      IsError [render key result]) :
    CandidHandler (withKey cmdArray size fun key => do
      answer (render key (← api (command key)))) :=
  candid_withKey size fun key =>
    candid_single (command key) (render key) (fun _ => rfl) (shows key)

/-- A key and an argument, one operation and a reply. -/
theorem candid_keyedAnd (command : Bytes → Bytes → Command)
    {render : (key arg : Bytes) → StorageResult (command key arg).Value → Bytes}
    (shows : ∀ key arg result, (command key arg).reported = some result.status ↔
      IsError [render key arg result]) :
    CandidHandler (withKeyAnd cmdArray fun key arg => do
      answer (render key arg (← api (command key arg)))) :=
  candid_withKeyAnd fun key arg =>
    candid_single (command key arg) (render key arg) (fun _ => rfl) (shows key arg)

/-- **Every handler of the table is candid.** -/
theorem candid_of_mem_table :
    ∀ entry ∈ arrayCmdDispatchTable, CandidHandler (entry.2 cmdArray) := by
  have number {failed : Int} (r : StorageResult Int) :
      (none : Option StatusCode) = some r.status ↔ IsError [countOr failed r] :=
    isError_never (not_isError_integer _)
  have ping : CandidHandler (cmdPing cmdArray) := candid_of_safe (safe_alone (safe_write _))
  have dbsize : CandidHandler (cmdDbsize cmdArray) :=
    candid_of_safe (safe_alone ((safe_api rfl).bind fun _ => safe_write _))
  have flushall : CandidHandler (cmdFlushall cmdArray) :=
    candid_of_safe (safe_alone (safe_branch nofun fun _ => safe_write _))
  have report : CandidHandler (cmdStats cmdArray) := candid_of_safe (safe_alone safe_report)
  have get : CandidHandler (cmdGet cmdArray) :=
    candid_keyed _ 2 .get fun _ r => isError_never (not_isError_bulkOrNull r)
  have del : CandidHandler (cmdDel cmdArray) := candid_countKeys _ fun _ => safe_api rfl
  have keyExists : CandidHandler (cmdExists cmdArray) := candid_countKeys _ fun _ => safe_api rfl
  have keys : CandidHandler (cmdKeys cmdArray) :=
    candid_of_safe ((safe_api rfl).bind fun _ => safe_write _)
  have lpush : CandidHandler (cmdLpush cmdArray) :=
    candid_keyed _ 3 (.lpush · _) fun _ => isError_countReply
  have rpush : CandidHandler (cmdRpush cmdArray) :=
    candid_keyed _ 3 (.rpush · _) fun _ => isError_countReply
  have lpop : CandidHandler (cmdLpop cmdArray) :=
    candid_keyed _ 2 .lpop fun _ => isError_elementReply
  have rpop : CandidHandler (cmdRpop cmdArray) :=
    candid_keyed _ 2 .rpop fun _ => isError_elementReply
  have llen : CandidHandler (cmdLlen cmdArray) :=
    candid_keyed _ 2 .llen fun _ => isError_countReply
  have sadd : CandidHandler (cmdSadd cmdArray) :=
    candid_keyed _ 3 (.sadd · _) fun _ => isError_countReply
  have srem : CandidHandler (cmdSrem cmdArray) :=
    candid_keyed _ 3 (.srem · _) fun _ => isError_countReply
  have smembers : CandidHandler (cmdSmembers cmdArray) :=
    candid_keyed _ 2 .smembers fun _ => isError_stringsReply
  have scard : CandidHandler (cmdScard cmdArray) :=
    candid_keyed _ 2 .scard fun _ => isError_countReply
  have sismember : CandidHandler (cmdSismember cmdArray) :=
    candid_keyedAnd _ .sismember fun _ _ => isError_countReply
  have hget : CandidHandler (cmdHget cmdArray) :=
    candid_keyedAnd _ .hget fun _ _ => isError_elementReply
  have hdel : CandidHandler (cmdHdel cmdArray) :=
    candid_keyed _ 3 (.hdel · _) fun _ => isError_countReply
  have hgetall : CandidHandler (cmdHgetall cmdArray) :=
    candid_keyed _ 2 .hgetall fun _ => isError_pairsReply
  have hlen : CandidHandler (cmdHlen cmdArray) :=
    candid_keyed _ 2 .hlen fun _ => isError_countReply
  have hexists : CandidHandler (cmdHexists cmdArray) :=
    candid_keyedAnd _ .hexists fun _ _ => isError_countReply
  have ttl : CandidHandler (cmdTtl cmdArray) := candid_keyed _ 2 .ttl fun _ => number
  have pttl : CandidHandler (cmdPttl cmdArray) := candid_keyed _ 2 .pttl fun _ => number
  have persist : CandidHandler (cmdPersist cmdArray) := candid_keyed _ 2 .persist fun _ => number
  simp only [arrayCmdDispatchTable, List.forall_mem_cons]
  exact ⟨ping, candid_cmdHealth _, candid_cmdSnapshot _, dbsize, flushall, report, report,
    candid_of_safe (safe_cmdSubscribe _), candid_of_safe (safe_cmdUnsubscribe _),
    candid_cmdPublish _, candid_cmdSet _, get, del, keyExists, candid_of_safe (safe_cmdDebug _),
    keys, lpush, rpush, lpop, rpop, llen, candid_cmdLindex _, sadd, srem, smembers, scard,
    sismember, candid_cmdHset _, hget, hdel, hgetall, hlen, hexists, candid_cmdExpire _, ttl, pttl,
    persist, fun _ member => (List.not_mem_nil member).elim⟩

end Table

/-- **A failure of the store is answered with an error, exactly when it is not masked.** For every
command, all its arguments, every state and every storage limit: the failed operations are answered
with an error if and only if no operation that the command calls is masked in the state it is called
in. -/
theorem failure_reported_iff {σ : Type} (env : Env) (host : Handler ServerCall.Answer σ)
    (world : World) (rest : σ) (cmdName : Bytes) (cmdArray : List RespValue) :
    let ran := (dispatchArrayCommandsLookup cmdName cmdArray).run (serving env host)
      { world := world, rest := rest }
    ((∃ call ∈ ran.2.issued, call.status env ≠ .ok) → IsError ran.2.sent) ↔
      ∀ call ∈ ran.2.issued, ¬ call.Masked env := by
  intro ran
  have candid : CandidHandler (dispatchArrayCommandsLookup cmdName cmdArray) := by
    unfold dispatchArrayCommandsLookup
    split
    case h_1 entry found =>
      exact candid_of_mem_table cmdArray entry (List.mem_of_find?_eq_some found)
    case h_2 => exact candid_pass
  exact (candid σ env host _ rfl rfl).reported_iff

/-- A store with the list `[v]` under the key `k`. -/
def listStore : World := ((Env.still 0).exec (lpush [107] [[118]]) {}).2

/-- A server that has nothing to tell. -/
def idleHost : Handler ServerCall.Answer Unit
  | .api command, rest => (((Env.still 0).exec command.operation {}).1, rest)
  | .flushAll, rest => ((), rest)
  | .isHealthy, rest => (true, rest)
  | .createSnapshot, rest => (true, rest)
  | .statsReport _, rest => ([], rest)
  | .resetStats, rest => ((), rest)
  | .maxTtlSeconds, rest => (0, rest)
  | .subscribeChannel _, rest => (0, rest)
  | .unsubscribeChannel _, rest => (0, rest)
  | .unsubscribeAllChannels, rest => ([], rest)
  | .publishMessage _ _, rest => (0, rest)
  | .writeResp _, rest => ((), rest)

/-- `GET k` on a list is refused by the store, and answered with null. -/
theorem get_of_list :
    let ran := (dispatchArrayCommandsLookup (text "GET")
      [.bulkString (text "GET"), .bulkString [107]]).run (serving (Env.still 0) idleHost)
      { world := listStore, rest := () }
    ran.2.issued.map (Issued.status (Env.still 0)) = [.wrongType] ∧
      ran.2.sent = [kNullBulkString] ∧ ¬ IsError ran.2.sent := by
  intro ran
  have told : ran.2.issued.map (Issued.status (Env.still 0)) = [.wrongType] := by decide
  have sent : ran.2.sent = [kNullBulkString] := by decide
  exact ⟨told, sent, by rw [sent]; exact not_isError_null⟩

end SunKV.Server
