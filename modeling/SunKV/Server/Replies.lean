/-
**One reply for one command.**

`Once` says of a handler that it answers with a single reply, written last, or that it refuses the
command and writes nothing. The reply is the encoding of a value that the client can hold
(`IsReply`), as long as the answers of the store and of the server are what their types allow
(`ServerCall.Fits`): integers of 64 bits, strings and vectors of possible lengths.

* `once_of_mem_table` — every handler of the table but those of `SUBSCRIBE` and `UNSUBSCRIBE`.
* `Once.run` — so a run of such a handler sends one reply or none.
-/

import SunKV.Client.Receive
import SunKV.Server.FailureReplies
import SunKV.Server.Sizes

namespace SunKV.Storage

open SunKV.Lib

/-- The operations whose results a handler adds up. -/
def Command.counted : Command → Bool
  | .del _ | .keyExists _ | .hset _ _ _ => true
  | _ => false

end SunKV.Storage

namespace SunKV.Server

open SunKV.Lib SunKV.Protocol SunKV.Storage
open SunKV.Client (Receivable Sendable maxElements)

/-! ### Replies -/

/-- **The bytes are a reply**: the encoding of one value that the client can hold. -/
def IsReply (data : Bytes) : Prop :=
  ∃ value : RespValue, value.Every Receivable ∧ data = value.encode

theorem isReply_simpleString {line : Bytes} (plain : ¬ crlf <:+: line) :
    IsReply ([ascii '+'] ++ line ++ crlf) :=
  ⟨.simpleString line, .leaf nofun ⟨plain, nofun⟩, rfl⟩

theorem isReply_error {message : Bytes} (plain : ¬ crlf <:+: message) :
    IsReply (serializeError message) :=
  ⟨.error message, .leaf nofun ⟨plain, nofun⟩, rfl⟩

theorem isReply_integer {value : Int} (low : -2 ^ 63 ≤ value) (high : value < 2 ^ 63) :
    IsReply (serializeInteger value) :=
  ⟨.integer value, .leaf nofun ⟨⟨low, high⟩, nofun⟩, rfl⟩

theorem receivable_bulkString {bytes : Bytes} (short : bytes.length < 2 ^ 63) :
    (RespValue.bulkString bytes).Every Receivable :=
  .leaf nofun ⟨short, nofun⟩

theorem isReply_bulkString {bytes : Bytes} (short : bytes.length < 2 ^ 63) :
    IsReply (serializeBulkString bytes) :=
  ⟨.bulkString bytes, receivable_bulkString short, rfl⟩

theorem isReply_null : IsReply kNullBulkString :=
  ⟨.nullBulkString, .leaf nofun ⟨trivial, nofun⟩, rfl⟩

theorem isReply_ok : IsReply kSimpleStringOk := isReply_simpleString (by decide)

theorem isReply_pong : IsReply kSimpleStringPong := isReply_simpleString (by decide)

/-- **Replies behind a header make one reply.** -/
theorem isReply_array {replies : List Bytes} (each : ∀ reply ∈ replies, IsReply reply)
    (few : replies.length ≤ maxElements) :
    IsReply (arrayHeader replies.length ++ replies.flatten) := by
  obtain ⟨values, every, length, spelled⟩ : ∃ values : List RespValue,
      (∀ value ∈ values, value.Every Receivable) ∧ values.length = replies.length ∧
        replies.flatten = RespValue.encodeAll values := by
    clear few
    induction replies with
    | nil => exact ⟨[], List.forall_mem_nil _, rfl, rfl⟩
    | cons reply replies ih =>
      obtain ⟨value, receivable, rfl⟩ := each reply List.mem_cons_self
      obtain ⟨values, every, length, spelled⟩ :=
        ih fun other member => each other (List.mem_cons_of_mem _ member)
      refine ⟨value :: values, List.forall_mem_cons.mpr ⟨receivable, every⟩, ?_, ?_⟩
      · rw [List.length_cons, length, List.length_cons]
      · rw [List.flatten_cons, spelled, RespValue.encodeAll]
  refine ⟨.array values, .array ⟨?_, by simp⟩ every, ?_⟩
  · rw [Sendable, length]
    exact few
  · rw [RespValue.encode, spelled, ← length]
    rfl

theorem isReply_strings {strings : List Bytes} (few : strings.length ≤ maxElements)
    (short : ∀ bytes ∈ strings, bytes.length < 2 ^ 63) : IsReply (serializeStrings strings) := by
  have each : ∀ reply ∈ strings.map serializeBulkString, IsReply reply := by
    intro reply member
    obtain ⟨bytes, inside, rfl⟩ := List.mem_map.mp member
    exact isReply_bulkString (short bytes inside)
  have whole := isReply_array each (by rwa [List.length_map])
  rwa [List.length_map, ← List.flatMap_def] at whole

theorem isReply_wrongType : IsReply wrongTypeError := isReply_error (by decide)

theorem isReply_countOr {r : StorageResult Int} {failed : Int} (low : -2 ^ 63 ≤ failed)
    (high : failed < 2 ^ 63) (fits : (Reply.int r.value).Fits) : IsReply (countOr failed r) := by
  unfold countOr
  split
  · exact isReply_integer fits.1 fits.2
  · exact isReply_integer low high

theorem isReply_countReply {r : StorageResult Int} (fits : (Reply.int r.value).Fits) :
    IsReply (countReply r) := by
  unfold countReply
  split
  · exact isReply_wrongType
  · exact isReply_countOr (by decide) (by decide) fits

theorem isReply_bulkOrNull {r : StorageResult (Option Bytes)}
    (fits : (Reply.element r.value).Fits) : IsReply (bulkOrNull r) := by
  unfold bulkOrNull
  split
  case h_1 => exact isReply_null
  case h_2 value found =>
    split
    · exact isReply_bulkString (fits value (by rw [found]; rfl))
    · exact isReply_null

theorem isReply_elementReply {r : StorageResult (Option Bytes)}
    (fits : (Reply.element r.value).Fits) : IsReply (elementReply r) := by
  unfold elementReply
  split
  · exact isReply_wrongType
  · exact isReply_bulkOrNull fits

theorem isReply_okStrings {r : StorageResult (List Bytes)} (fits : (Reply.elements r.value).Fits) :
    IsReply (serializeStrings (if r.status = .ok then r.value else [])) := by
  split
  · exact isReply_strings fits.1 fits.2
  · exact isReply_strings (by decide) nofun

theorem isReply_stringsReply {r : StorageResult (List Bytes)}
    (fits : (Reply.elements r.value).Fits) : IsReply (stringsReply r) := by
  unfold stringsReply
  split
  · exact isReply_wrongType
  · exact isReply_okStrings fits

theorem isReply_pairsReply {r : StorageResult (List (Bytes × Bytes))}
    (fits : (Reply.pairs r.value).Fits) : IsReply (pairsReply r) := by
  unfold pairsReply
  split
  · exact isReply_wrongType
  · split
    · refine isReply_strings ?_ ?_
      · have size : (r.value.flatMap fun pair => [pair.1, pair.2]).length = 2 * r.value.length := by
          simp [List.length_flatMap, Nat.mul_comm]
        rw [size]
        exact_mod_cast fits.1
      · intro bytes member
        obtain ⟨pair, inside, part⟩ := List.mem_flatMap.mp member
        rcases List.mem_pair.mp part with rfl | rfl
        · exact (fits.2 pair inside).1
        · exact (fits.2 pair inside).2
    · exact isReply_strings (by decide) nofun

/-! ### Answers -/

/-- The answer is what its type in the source allows. The operations that are counted find a key or
a field, or do not. -/
def ServerCall.Fits : (request : ServerCall) → request.Answer → Prop
  | .api command, result => (command.wrap result.value).Fits ∧
      (command.counted = true → command.wrap result.value = .int 0 ∨
        command.wrap result.value = .int 1)
  | .statsReport _, report => report.length < 2 ^ 63
  | .publishMessage _ _, count => -2 ^ 63 ≤ count ∧ count < 2 ^ 63
  | _, _ => True

/-- The call does not need the connection. -/
def ServerCall.Detachable : ServerCall → Prop
  | .subscribeChannel _ | .unsubscribeChannel _ | .unsubscribeAllChannels => False
  | _ => True

/-- The call does not need the connection, and is no reply. -/
def ServerCall.Silent : ServerCall → Prop
  | .writeResp _ => False
  | request => request.Detachable

/-- **A handler that replies once, last, or refuses the command without a word.** The reply is valid
under a condition, to which every answer adds that it fits. -/
inductive Once : Prop → Handling → Prop
  | pass {fits : Prop} : Once fits (return false)
  | reply {fits : Prop} {data : Bytes} (valid : fits → IsReply data) : Once fits (answer data)
  | ask {fits : Prop} {request : ServerCall} {next : request.Answer → Handling}
      (silent : request.Silent)
      (later : ∀ told, Once (fits ∧ request.Fits told) (next told)) :
      Once fits (.query request next)

theorem Once.mono {fits less : Prop} {handler : Handling} (once : Once fits handler)
    (implies : less → fits) : Once less handler := by
  induction once generalizing less with
  | pass => exact .pass
  | reply valid => exact .reply fun told => valid (implies told)
  | ask silent _ ih =>
    exact .ask silent fun told => ih told fun both => ⟨implies both.1, both.2⟩

theorem Once.makes {fits : Prop} {handler : Handling} (once : Once fits handler) :
    handler.Makes ServerCall.Detachable := by
  induction once with
  | pass => exact trivial
  | reply _ => exact ⟨trivial, fun _ => trivial⟩
  | @ask _ request next silent _ ih =>
    refine ⟨?_, ih⟩
    cases request with
    | writeResp _ => exact silent.elim
    | _ => exact silent

section Handlers

variable {fits : Prop} {cmdArray : List RespValue}

theorem once_error {message : String} (plain : ¬ crlf <:+: text message) :
    Once fits (answerError message) :=
  .reply fun _ => isReply_error plain

theorem once_ok : Once fits (answer kSimpleStringOk) := .reply fun _ => isReply_ok

theorem once_api (command : Command) {use : StorageResult command.Value → Handling}
    (later : ∀ result, Once (fits ∧ (ServerCall.api command).Fits result) (use result)) :
    Once fits (api command >>= use) :=
  .ask trivial later

/-- One operation and a reply. -/
theorem once_render {command : Command} {render : StorageResult command.Value → Bytes}
    (valid : ∀ result, (command.wrap result.value).Fits → IsReply (render result)) :
    Once fits (do answer (render (← api command))) :=
  once_api _ fun result => .reply fun told => valid result told.2.1

theorem once_withKey (size : Nat) {use : Bytes → Handling} (later : ∀ key, Once fits (use key)) :
    Once fits (withKey cmdArray size use) := by
  unfold withKey
  split
  · exact .pass
  · split
    · exact .pass
    · exact later _

theorem once_withKeyAnd {use : Bytes → Bytes → Handling}
    (later : ∀ key arg, Once fits (use key arg)) : Once fits (withKeyAnd cmdArray use) := by
  refine once_withKey 3 fun key => ?_
  split
  · exact .pass
  · exact later key _

theorem once_alone {use : Handling} (later : Once fits use) : Once fits (alone cmdArray use) := by
  unfold alone
  split
  · exact .pass
  · exact later

/-- A key, one operation and a reply. -/
theorem once_keyed (size : Nat) (command : Bytes → Command)
    {render : (key : Bytes) → StorageResult (command key).Value → Bytes}
    (valid : ∀ key result, ((command key).wrap result.value).Fits → IsReply (render key result)) :
    Once fits (withKey cmdArray size fun key => do
      answer (render key (← api (command key)))) :=
  once_withKey size fun key => once_render (valid key)

/-- A key and an argument, one operation and a reply. -/
theorem once_keyedAnd (command : Bytes → Bytes → Command)
    {render : (key arg : Bytes) → StorageResult (command key arg).Value → Bytes}
    (valid : ∀ key arg result, ((command key arg).wrap result.value).Fits →
      IsReply (render key arg result)) :
    Once fits (withKeyAnd cmdArray fun key arg => do
      answer (render key arg (← api (command key arg)))) :=
  once_withKeyAnd fun key arg => once_render (valid key arg)

theorem once_report : Once fits (do answer (serializeBulkString (← buildStatsReport))) :=
  once_api _ fun _ => .ask trivial fun _ => .reply fun told => isReply_bulkString told.2

/-- A yes or no of the server. -/
theorem once_branch {request : ServerCall} {use : request.Answer → Handling}
    (silent : request.Silent) (later : ∀ told, Once (fits ∧ request.Fits told) (use told)) :
    Once fits (Program.ask request >>= use) :=
  .ask silent later

/-- `OK`, or an error. -/
theorem once_okOr {p : Prop} [Decidable p] {message : String} (plain : ¬ crlf <:+: text message) :
    Once fits (if p then answer kSimpleStringOk else answerError message) := by
  split
  · exact once_ok
  · exact once_error plain

theorem once_cmdHealth : Once fits (cmdHealth cmdArray) :=
  once_alone (once_branch trivial fun _ => once_okOr (by decide))

theorem once_cmdSnapshot : Once fits (cmdSnapshot cmdArray) :=
  once_alone (once_branch trivial fun _ => once_okOr (by decide))

theorem once_cmdDebug : Once fits (cmdDebug cmdArray) := by
  unfold cmdDebug
  split
  · exact once_error (by decide)
  · split
    · exact once_report
    · split
      · exact once_branch trivial fun _ => once_ok
      · exact once_error (by decide)

theorem once_cmdPublish : Once fits (cmdPublish cmdArray) := by
  unfold cmdPublish
  split
  · exact .pass
  · exact once_withKeyAnd fun _ _ => once_branch trivial fun _ =>
      .reply fun told => isReply_integer told.2.1 told.2.2

theorem once_cmdSet : Once fits (cmdSet cmdArray) := by
  refine once_withKeyAnd fun key value => once_api _ fun result => ?_
  split
  · exact once_error (by decide)
  · exact once_ok

theorem once_cmdExpire : Once fits (cmdExpire cmdArray) := by
  refine once_withKeyAnd fun key ttl => ?_
  split
  · exact once_error (by decide)
  · refine once_branch trivial fun limit => ?_
    split
    · exact once_error (by decide)
    · exact once_render fun _ => isReply_countOr (by decide) (by decide)

theorem once_cmdLindex : Once fits (cmdLindex cmdArray) := by
  refine once_withKeyAnd fun key index => ?_
  split
  · exact once_error (by decide)
  · exact once_render fun _ => isReply_elementReply

/-! ### Handlers that count -/

/-- Every call finds something, or does not. -/
def CountsOne (call : Bytes → Serving (StorageResult Int)) : Prop :=
  ∀ (fits : Prop) (key : Bytes) (use : StorageResult Int → Handling),
    (∀ r, Once (fits ∧ (r.value = 0 ∨ r.value = 1)) (use r)) → Once fits (call key >>= use)

theorem countsOne_del : CountsOne fun key => api (.del key) :=
  fun _ _ _ later => once_api _ fun r => (later r).mono fun told =>
    ⟨told.1, (told.2.2 rfl).imp Reply.int.inj Reply.int.inj⟩

theorem countsOne_keyExists : CountsOne fun key => api (.keyExists key) :=
  fun _ _ _ later => once_api _ fun r => (later r).mono fun told =>
    ⟨told.1, (told.2.2 rfl).imp Reply.int.inj Reply.int.inj⟩

/-- **The loop of `DEL` and `EXISTS`**: the count is at most the number of arguments. -/
theorem once_countKeys {call : Bytes → Serving (StorageResult Int)} (counts : CountsOne call)
    (args : List RespValue) (count : Int) (few : fits → 0 ≤ count ∧ count + args.length < 2 ^ 63) :
    Once fits (countKeys call args count) := by
  induction args generalizing count fits with
  | nil =>
    refine .reply fun told => isReply_integer ?_ ?_
    · exact (by decide : (-2 ^ 63 : Int) ≤ 0).trans (few told).1
    · simpa using (few told).2
  | cons arg rest ih =>
    simp only [List.length_cons, Nat.cast_add, Nat.cast_one] at few
    rw [countKeys]
    split
    · refine ih count fun told => ?_
      obtain ⟨low, high⟩ := few told
      exact ⟨low, by omega⟩
    · refine counts fits _ _ fun r => ih _ fun told => ?_
      obtain ⟨low, high⟩ := few told.1
      rcases told.2 with none | one <;> split <;> omega

theorem once_keysCounted {call : Bytes → Serving (StorageResult Int)} (counts : CountsOne call)
    (few : fits → cmdArray.length < 2 ^ 63) :
    Once fits (if cmdArray.length < 2 then return false
      else countKeys call (cmdArray.drop 1) 0) := by
  split
  · exact .pass
  · refine once_countKeys counts _ _ fun told => ⟨le_rfl, ?_⟩
    have short := few told
    rw [List.length_drop]
    omega

/-- **The loop of `HSET`**: at most one new field for every two arguments. -/
theorem once_hsetPairs {key : Bytes} (args : List RespValue) (added : Int)
    (few : fits → 0 ≤ added ∧ added + args.length < 2 ^ 63) :
    Once fits (hsetPairs key args added) := by
  induction args, added using hsetPairs.induct generalizing fits with
  | case1 field value rest added name item isValue isField ih =>
    rw [hsetPairs, isField, isValue]
    refine once_api (.hset key name item) fun r => ?_
    split
    · exact .reply fun _ => isReply_wrongType
    · refine ih r fun told => ?_
      obtain ⟨low, high⟩ := few told.1
      simp only [List.length_cons, Nat.cast_add, Nat.cast_one] at high
      rcases (told.2.2 rfl).imp Reply.int.inj Reply.int.inj with none | one <;> split <;> omega
  | case2 field value rest added skipped ih =>
    rw [hsetPairs_skip skipped]
    refine ih fun told => ?_
    obtain ⟨low, high⟩ := few told
    simp only [List.length_cons, Nat.cast_add, Nat.cast_one] at high
    exact ⟨low, by omega⟩
  | case3 args added short =>
    rw [hsetPairs_end short]
    refine .reply fun told => isReply_integer ?_ ?_
    · exact (by decide : (-2 ^ 63 : Int) ≤ 0).trans (few told).1
    · have high := (few told).2
      omega

theorem once_cmdHset (few : fits → cmdArray.length < 2 ^ 63) : Once fits (cmdHset cmdArray) := by
  unfold cmdHset
  split
  · exact .pass
  · split
    · exact once_error (by decide)
    · split
      · exact once_error (by decide)
      · refine once_hsetPairs _ _ fun told => ⟨le_rfl, ?_⟩
        have short := few told
        rw [List.length_drop]
        omega

end Handlers

/-! ### Every handler -/

/-- **Every handler of the table but two replies once, or refuses.** -/
theorem once_of_mem_table (cmdArray : List RespValue) :
    ∀ entry ∈ arrayCmdDispatchTable, entry.1 ∈ ["SUBSCRIBE", "UNSUBSCRIBE"] ∨
      Once (cmdArray.length < 2 ^ 63) (entry.2 cmdArray) := by
  have ping : Once (cmdArray.length < 2 ^ 63) (cmdPing cmdArray) :=
    once_alone (.reply fun _ => isReply_pong)
  have dbsize : Once (cmdArray.length < 2 ^ 63) (cmdDbsize cmdArray) :=
    once_alone (once_render fun _ => isReply_countOr (by decide) (by decide))
  have flushall : Once (cmdArray.length < 2 ^ 63) (cmdFlushall cmdArray) :=
    once_alone (once_branch trivial fun _ => once_ok)
  have report : Once (cmdArray.length < 2 ^ 63) (cmdStats cmdArray) := once_alone once_report
  have get : Once (cmdArray.length < 2 ^ 63) (cmdGet cmdArray) :=
    once_keyed 2 .get fun _ _ => isReply_bulkOrNull
  have del : Once (cmdArray.length < 2 ^ 63) (cmdDel cmdArray) :=
    once_keysCounted countsOne_del id
  have keyExists : Once (cmdArray.length < 2 ^ 63) (cmdExists cmdArray) :=
    once_keysCounted countsOne_keyExists id
  have keys : Once (cmdArray.length < 2 ^ 63) (cmdKeys cmdArray) :=
    once_render fun _ => isReply_okStrings
  have lpush : Once (cmdArray.length < 2 ^ 63) (cmdLpush cmdArray) :=
    once_keyed 3 (.lpush · _) fun _ _ => isReply_countReply
  have rpush : Once (cmdArray.length < 2 ^ 63) (cmdRpush cmdArray) :=
    once_keyed 3 (.rpush · _) fun _ _ => isReply_countReply
  have lpop : Once (cmdArray.length < 2 ^ 63) (cmdLpop cmdArray) :=
    once_keyed 2 .lpop fun _ _ => isReply_elementReply
  have rpop : Once (cmdArray.length < 2 ^ 63) (cmdRpop cmdArray) :=
    once_keyed 2 .rpop fun _ _ => isReply_elementReply
  have llen : Once (cmdArray.length < 2 ^ 63) (cmdLlen cmdArray) :=
    once_keyed 2 .llen fun _ _ => isReply_countReply
  have sadd : Once (cmdArray.length < 2 ^ 63) (cmdSadd cmdArray) :=
    once_keyed 3 (.sadd · _) fun _ _ => isReply_countReply
  have srem : Once (cmdArray.length < 2 ^ 63) (cmdSrem cmdArray) :=
    once_keyed 3 (.srem · _) fun _ _ => isReply_countReply
  have smembers : Once (cmdArray.length < 2 ^ 63) (cmdSmembers cmdArray) :=
    once_keyed 2 .smembers fun _ _ => isReply_stringsReply
  have scard : Once (cmdArray.length < 2 ^ 63) (cmdScard cmdArray) :=
    once_keyed 2 .scard fun _ _ => isReply_countReply
  have sismember : Once (cmdArray.length < 2 ^ 63) (cmdSismember cmdArray) :=
    once_keyedAnd .sismember fun _ _ _ => isReply_countReply
  have hget : Once (cmdArray.length < 2 ^ 63) (cmdHget cmdArray) :=
    once_keyedAnd .hget fun _ _ _ => isReply_elementReply
  have hdel : Once (cmdArray.length < 2 ^ 63) (cmdHdel cmdArray) :=
    once_keyed 3 (.hdel · _) fun _ _ => isReply_countReply
  have hgetall : Once (cmdArray.length < 2 ^ 63) (cmdHgetall cmdArray) :=
    once_keyed 2 .hgetall fun _ _ => isReply_pairsReply
  have hlen : Once (cmdArray.length < 2 ^ 63) (cmdHlen cmdArray) :=
    once_keyed 2 .hlen fun _ _ => isReply_countReply
  have hexists : Once (cmdArray.length < 2 ^ 63) (cmdHexists cmdArray) :=
    once_keyedAnd .hexists fun _ _ _ => isReply_countReply
  have ttl : Once (cmdArray.length < 2 ^ 63) (cmdTtl cmdArray) :=
    once_keyed 2 .ttl fun _ _ => isReply_countOr (by decide) (by decide)
  have pttl : Once (cmdArray.length < 2 ^ 63) (cmdPttl cmdArray) :=
    once_keyed 2 .pttl fun _ _ => isReply_countOr (by decide) (by decide)
  have persist : Once (cmdArray.length < 2 ^ 63) (cmdPersist cmdArray) :=
    once_keyed 2 .persist fun _ _ => isReply_countOr (by decide) (by decide)
  simp only [arrayCmdDispatchTable, List.forall_mem_cons]
  exact ⟨.inr ping, .inr once_cmdHealth, .inr once_cmdSnapshot, .inr dbsize, .inr flushall,
    .inr report, .inr report, .inl (by decide), .inl (by decide), .inr once_cmdPublish,
    .inr once_cmdSet, .inr get, .inr del, .inr keyExists, .inr once_cmdDebug, .inr keys,
    .inr lpush, .inr rpush, .inr lpop, .inr rpop, .inr llen, .inr once_cmdLindex, .inr sadd,
    .inr srem, .inr smembers, .inr scard, .inr sismember, .inr (once_cmdHset id), .inr hget,
    .inr hdel, .inr hgetall, .inr hlen, .inr hexists, .inr once_cmdExpire, .inr ttl, .inr pttl,
    .inr persist, fun _ member => (List.not_mem_nil member).elim⟩

/-- **A command other than `SUBSCRIBE` and `UNSUBSCRIBE` is answered once, or refused.** -/
theorem once_dispatch {cmdName : Bytes} {cmdArray : List RespValue}
    (other : cmdName ≠ text "SUBSCRIBE") (another : cmdName ≠ text "UNSUBSCRIBE") :
    Once (cmdArray.length < 2 ^ 63) (dispatchArrayCommandsLookup cmdName cmdArray) := by
  unfold dispatchArrayCommandsLookup
  split
  case h_1 entry found =>
    have named : text entry.1 = cmdName := by simpa using List.find?_some found
    rcases once_of_mem_table cmdArray entry (List.mem_of_find?_eq_some found) with excluded | once
    · rcases List.mem_pair.mp excluded with same | same
      · exact absurd (by rw [← named, same]) other
      · exact absurd (by rw [← named, same]) another
    · exact once
  case h_2 => exact .pass

/-! ### Handlers at work -/

section Run

variable {σ α : Type} {env : Env} {host : Handler ServerCall.Answer σ} {service : Service σ}

/-- The store that the operation was called on, and its arguments, are of possible size. -/
structure Issued.Fits (call : Issued) : Prop where
  world : call.world.Fits
  command : call.command.Short

instance (call : Issued) : Decidable call.Fits :=
  decidable_of_iff (call.world.Fits ∧ call.command.Short)
    ⟨fun both => ⟨both.1, both.2⟩, fun fits => ⟨fits.world, fits.command⟩⟩

/-- The answers of the rest of the server are what their types allow. -/
structure HostFits (host : Handler ServerCall.Answer σ) : Prop where
  statsReport : ∀ kvSize rest, (host (.statsReport kvSize) rest).1.length < 2 ^ 63
  publishMessage : ∀ channel payload rest,
    -2 ^ 63 ≤ (host (.publishMessage channel payload) rest).1 ∧
      (host (.publishMessage channel payload) rest).1 < 2 ^ 63

/-- An operation that is counted finds something, or does not. -/
theorem counted_value {command : Command} (counted : command.counted = true) (world : World) :
    command.wrap (env.exec command.operation world).1.value = .int 0 ∨
      command.wrap (env.exec command.operation world).1.value = .int 1 := by
  rw [command.wrap_value]
  cases command with
  | del key =>
    rw [((Command.del key).exec_eq env world rfl).2.1]
    show Reply.int (if _ then 1 else 0) = _ ∨ Reply.int (if _ then 1 else 0) = _
    split
    · exact .inr rfl
    · exact .inl rfl
  | keyExists key =>
    rw [((Command.keyExists key).exec_eq env world rfl).2.1]
    show Reply.int (if _ then 1 else 0) = _ ∨ Reply.int (if _ then 1 else 0) = _
    split
    · exact .inr rfl
    · exact .inl rfl
  | hset key field value =>
    rw [((Command.hset key field value).exec_eq env world rfl).2.1]
    have one (held : DataValue) : Reply.int (setField field value held).2 = .int 0 ∨
        Reply.int (setField field value held).2 = .int 1 := by
      unfold setField
      dsimp only
      split
      · exact .inl rfl
      · exact .inr rfl
    exact Transition.grow_value (q := fun reply => reply = .int 0 ∨ reply = .int 1) (.inl rfl)
      (one _) fun record _ => one record.value
  | _ => cases counted

theorem ServerCall.Silent.quiet {request : ServerCall} (silent : request.Silent) (data : Bytes) :
    request ≠ .writeResp data := by
  rintro rfl
  exact silent

/-- A call other than a reply sends nothing. -/
theorem sent_serving {request : ServerCall} (quiet : ∀ data, request ≠ .writeResp data)
    (service : Service σ) : (serving env host request service).2.sent = service.sent := by
  cases request with
  | writeResp data => exact absurd rfl (quiet data)
  | _ => rfl

theorem mem_issued_run {call : Issued} (program : Serving α) (before : call ∈ service.issued) :
    call ∈ (program.run (serving env host) service).2.issued := by
  induction program generalizing service with
  | pure value => exact before
  | query request next ih =>
    refine ih _ ?_
    cases request with
    | api command => exact List.mem_append_left _ before
    | _ => exact before

/-- The answer of a call fits, if the operation does. -/
theorem serving_fits {request : ServerCall} (silent : request.Silent) (honest : HostFits host)
    (issued : ∀ call ∈ (serving env host request service).2.issued, call.Fits) :
    request.Fits (serving env host request service).1 := by
  cases request with
  | api command =>
    have fits : (Issued.mk command service.world).Fits :=
      issued _ (List.mem_append_right _ (List.mem_singleton.mpr rfl))
    exact ⟨command.result_fits fits.command env fits.world, fun counted => counted_value counted _⟩
  | statsReport kvSize => exact honest.statsReport kvSize _
  | publishMessage channel payload => exact honest.publishMessage channel payload _
  | writeResp data => exact silent.elim
  | _ => exact trivial

variable (env host) in
/-- **A run of such a handler sends one reply, or refuses and sends nothing.** -/
theorem Once.run {fits : Prop} {handler : Handling} (once : Once fits handler)
    (service : Service σ) :
    let ran := handler.run (serving env host) service
    (ran.1 = false ∧ ran.2.sent = service.sent) ∨
      (ran.1 = true ∧ ∃ data, ran.2.sent = service.sent ++ [data] ∧
        (fits → HostFits host → (∀ call ∈ ran.2.issued, call.Fits) → IsReply data)) := by
  intro ran
  induction once generalizing service with
  | pass => exact .inl ⟨rfl, rfl⟩
  | reply valid => exact .inr ⟨rfl, _, rfl, fun told _ _ => valid told⟩
  | @ask _ request next silent _ ih =>
    have unsaid : (serving env host request service).2.sent = service.sent :=
      sent_serving silent.quiet service
    rcases ih (serving env host request service).1 (serving env host request service).2 with
      ⟨refused, sent⟩ | ⟨took, data, sent, valid⟩
    · exact .inl ⟨refused, by rw [← unsaid]; exact sent⟩
    · refine .inr ⟨took, data, by rw [← unsaid]; exact sent, fun told honest issued => ?_⟩
      refine valid ⟨told, serving_fits silent honest fun call member => ?_⟩ honest issued
      exact issued call (mem_issued_run (next _) member)

end Run

end SunKV.Server
