/-
**What a call is for, and how the server serves it.**

`ApiCall.spec` says what a call of the client is for: a step on the typed store, with the answer
that its caller gets. `Serves` says that the server answers the commands of a call with values from
which the client makes this answer, and that the store it leaves stands for the typed one.

* `served_one` — the calls that are one operation;
* `served_count` — `del` and `exists`, one operation per key;
* `served_hset` — `hset`, one operation per pair, of which the first decides about the type;
* `served_mget`, `served_mset` — pipelines;
* `ApiCall.served` — every call.
-/

import SunKV.System.Calls

namespace SunKV.System

open SunKV.Lib SunKV.Protocol SunKV.Storage SunKV.Server
open SunKV.Client hiding RespValue

/-! ### The calls and their purpose -/

/-- **A call of the client** on strings, lists, sets and hashes. -/
inductive ApiCall
  | one (call : KeyCall)
  | del (key : Bytes)
  | keysExist (keys : List Bytes)
  | hset (key : Bytes) (fieldValues : List (Bytes × Bytes))
  | mget (keys : List Bytes)
  | mset (kvs : List (Bytes × Bytes))

/-- What a call returns. -/
inductive Outcome
  | reply (reply : Reply)
  | strings (values : List (Option Bytes))

/-- A call with another result. -/
def apiMap {α β : Type} (api : Api α) (convert : α → β) : Api β where
  requests := api.requests
  call options client reads := (api.call options client reads).map fun done =>
    ⟨done.result.map convert, done.client, done.sent, done.later⟩

/-- The call in the client. -/
def ApiCall.api : ApiCall → Api Outcome
  | .one call => (call.method.map .reply).api
  | .del key => ((Method.del key).map fun count => .reply (.int count)).api
  | .keysExist keys => ((Method.keysExist keys).map fun count => .reply (.int count)).api
  | .hset key fieldValues =>
    ((Method.hset key fieldValues).map fun count => .reply (.int count)).api
  | .mget keys => apiMap (Client.mget keys) .strings
  | .mset kvs => apiMap (Client.mset kvs) fun _ => .reply (.flag true)

/-- What the caller is to get. -/
inductive Expected
  | answer (answer : Answer Bytes)
  | each (values : List (Option Bytes))
  | wrongType
  | refused

/-- A result is what the caller is to get. -/
def Meets : TypedResult Outcome → Expected → Prop
  | .success (.reply reply), .answer answer => reply.Shows answer
  | .success (.strings values), .each expected => values = expected
  | .failure .serverError message, .wrongType => message = wrongTypeMessage
  | .failure .invalidArgument _, .refused => True
  | _, _ => False

/-- The answer of a step; a string is missing where a key holds something else. -/
def TypedStep.expected (hidesType : Bool) (step : TypedStep Bytes) : Expected :=
  if step.status = .wrongType then if hidesType then .answer (.element none) else .wrongType
  else .answer step.answer

theorem KeyCall.isSome_typed (call : KeyCall) : call.command.typed.isSome = true := by
  cases call <;> rfl

theorem KeyCall.isSome_key (call : KeyCall) : call.command.key?.isSome = true := by
  cases call <;> rfl

/-- The key of a call. -/
def KeyCall.about (call : KeyCall) : Bytes := call.command.key?.get call.isSome_key

/-- The meaning of a call. -/
def KeyCall.act (call : KeyCall) : Option (TypedValue Bytes) → TypedStep Bytes :=
  call.command.typed.get call.isSome_typed

/-- The string that a key holds. -/
def stringAt : Option (TypedValue Bytes) → Option Bytes
  | some (.string text) => some text
  | _ => none

/-- The map with the fields set, and how many are new. -/
def withFields (fieldValues : List (Bytes × Bytes)) (fields : Finmap fun _ : Bytes => Bytes) :
    Answer Bytes × Finmap fun _ : Bytes => Bytes :=
  (.int ((fieldValues.map Prod.fst).toFinset \ fields.keys).card,
    fieldValues.foldl (fun fields pair => fields.insert pair.1 pair.2) fields)

/-- The store with strings set, one after the other. -/
def withStrings (kvs : List (Bytes × Bytes)) (store : TypedStore) : TypedStore :=
  kvs.foldl (fun store kv => Function.update store kv.1 (some (.string kv.2))) store

/-- **What a call is for.** -/
def ApiCall.spec : ApiCall → TypedStore → Expected × TypedStore
  | .one call, store =>
    if call.command.invalid then (.refused, store)
    else
      let step := call.act (store call.about)
      (TypedStep.expected call.command.hidesType step,
        Function.update store call.about step.held)
  | .del key, store =>
    (.answer (.int (if (store key).isSome then 1 else 0)), Function.update store key none)
  | .keysExist keys, store =>
    if keys = [] then (.refused, store)
    else (.answer (.int (keys.countP fun key => (store key).isSome)), store)
  | .hset key fieldValues, store =>
    if fieldValues = [] then (.refused, store)
    else
      let step := Container.hashes.on (.int 0) (withFields fieldValues) (store key)
      (TypedStep.expected false step, Function.update store key step.held)
  | .mget keys, store =>
    if keys = [] then (.refused, store)
    else (.each (keys.map fun key => stringAt (store key)), store)
  | .mset kvs, store =>
    if kvs = [] then (.refused, store)
    else (.answer (.flag true), withStrings kvs store)

/-- A run of calls on the typed store. -/
def specRun : List ApiCall → TypedStore → List Expected × TypedStore
  | [], store => ([], store)
  | call :: calls, store =>
    let (expected, next) := call.spec store
    let (others, final) := specRun calls next
    (expected :: others, final)

/-! ### One operation -/

theorem status_ask {γ : Type} (container : Container Bytes γ) (blank : Answer Bytes)
    (answer : γ → Answer Bytes) (held : Option (TypedValue Bytes)) :
    (container.ask blank answer held).status = .ok ∨
      (container.ask blank answer held).status = .wrongType := by
  cases held with
  | none => exact .inl rfl
  | some value =>
    rw [Container.ask]
    split
    · exact .inr rfl
    · exact .inl rfl

theorem status_on {γ : Type} (container : Container Bytes γ) (blank : Answer Bytes)
    (act : γ → Answer Bytes × γ) (held : Option (TypedValue Bytes)) :
    (container.on blank act held).status = .ok ∨
      (container.on blank act held).status = .wrongType := by
  cases held with
  | none => exact .inl rfl
  | some value =>
    rw [Container.on]
    split
    · exact .inr rfl
    · exact .inl rfl

/-- The statuses of the typed store. -/
theorem KeyCall.told (call : KeyCall) (held : Option (TypedValue Bytes)) :
    Told call.command (call.act held).status := by
  cases call with
  | set key value => exact .inl rfl
  | get key =>
    rcases held with _ | ⟨text⟩ | _ | _ | _
    · exact .inl rfl
    · exact .inl rfl
    · exact .inr ⟨rfl, .inr rfl⟩
    · exact .inr ⟨rfl, .inr rfl⟩
    · exact .inr ⟨rfl, .inr rfl⟩
  | lpush | rpush | lpop | rpop | sadd | srem | hdel =>
    exact (status_on _ _ _ held).imp id fun wrong => ⟨wrong, .inl rfl⟩
  | _ => exact (status_ask _ _ _ held).imp id fun wrong => ⟨wrong, .inl rfl⟩

theorem KeyCall.command_typed (call : KeyCall) : call.command.typed = some call.act :=
  (Option.some_get call.isSome_typed).symm

theorem KeyCall.command_key (call : KeyCall) : call.command.key? = some call.about :=
  (Option.some_get call.isSome_key).symm

/-- A call does not come to nothing. -/
theorem KeyCall.not_false (call : KeyCall) {held : Option (TypedValue Bytes)}
    {value : call.command.Value}
    (shows : (call.command.wrap value).Shows (call.act held).answer) :
    call.command.wrap value ≠ .flag false := by
  cases call with
  | set key value =>
    intro same
    rw [same] at shows
    cases shows
  | _ => exact nofun

section Served

variable {σ : Type} {env : Env} {host : Handler ServerCall.Answer σ} {conn : Conn σ}
  {service : Service σ} {store : TypedStore}

/-- An operation on the store, as its handler calls it. -/
theorem mirrors_operation (env : Env) {world : World} (mirrors : Mirrors world store)
    (command : Command) (valid : command.invalid = false) {key : Bytes}
    (about : command.key? = some key)
    {act : Option (TypedValue Bytes) → TypedStep Bytes} (typed : command.typed = some act) :
    let ran := env.exec command.operation world
    ran.1.status = (act (store key)).status ∧
      (command.wrap ran.1.value).Shows (act (store key)).answer ∧
      Mirrors ran.2 (Function.update store key (act (store key)).held) := by
  have step := mirrors.step env ⟨by rw [typed]; rfl, valid⟩ about typed
  rw [command.program_eq, Env.exec_bind] at step
  exact step

/-- A method on a result of the store. -/
theorem outcome_said {method : Method Reply} {reply : Reply}
    (converts : method.convert (Reply.said reply) = .success reply) :
    (method.map Outcome.reply).outcome (Reply.said reply) = .success (.reply reply) := by
  rw [Method.outcome, errorText_said]
  show (method.convert (Reply.said reply)).map Outcome.reply = _
  rw [converts]
  rfl

/-- The one method that does not tell a wrong type from a missing key. -/
theorem KeyCall.convert_hidden {call : KeyCall} (hides : call.command.hidesType = true) :
    call.method.convert (Reply.said (.element none)) = .success (.element none) := by
  cases call with
  | get key => rfl
  | _ => cases hides

/-- **What the caller gets**, given the status and the value of the operation. -/
theorem KeyCall.meets (call : KeyCall) {held : Option (TypedValue Bytes)}
    {value : call.command.Value}
    (shows : (call.command.wrap value).Shows (call.act held).answer) :
    Meets ((call.method.map Outcome.reply).outcome
        (saidReply call.command.hidesType (call.act held).status (call.command.wrap value)))
      (TypedStep.expected call.command.hidesType (call.act held)) := by
  unfold saidReply TypedStep.expected
  by_cases wrong : (call.act held).status = .wrongType
  · rw [if_pos wrong, if_pos wrong]
    cases hides : call.command.hidesType with
    | true =>
      have outcome := outcome_said (call.convert_hidden hides)
      simp only [if_true]
      rw [show Client.RespValue.nullBulkString = Reply.said (.element none) from rfl, outcome]
      rfl
    | false => rfl
  · rw [if_neg wrong, if_neg wrong,
      outcome_said (call.speaks.converts value (call.not_false shows))]
    exact shows

/-- **What the server does for a call**: it answers with values, the store it leaves stands for what
the call is to leave, and the client makes of the answers what the caller is to get. -/
structure Serves (env : Env) (host : Handler ServerCall.Answer σ) (conn : Conn σ)
    (store : TypedStore) (call : ApiCall) (values : List RespValue) (after : Conn σ) : Prop where
  answered : Answered env host conn call.api.requests values after
  mirrors : Mirrors after.service.world (call.spec store).2
  returns : (∀ issued ∈ after.service.issued, issued.Fits) →
    ∀ (options : Options) (client : Impl) (reads : List Read), options.Patient → client.Ready →
      Brings reads (RespValue.encodeAll values) →
        ∃ result later, call.api.call options client reads =
          some ⟨result, {}, call.api.requests.length, later⟩ ∧ arrived later = [] ∧
            Meets result (call.spec store).1

/-- The reply to one command comes to the result of a method. -/
theorem method_returns {method : Method Outcome} {value : RespValue} {reply : Client.RespValue}
    (accepted : method.refusal = none) (filled : method.args ≠ [])
    (sendable : value.Every Sendable) (meant : meaning value = .ok reply) {expected : Expected}
    (meets : Meets (method.outcome reply) expected) (options : Options) (client : Impl)
    (reads : List Read) (patient : options.Patient) (ready : client.Ready)
    (brings : Brings reads (RespValue.encodeAll [value])) :
    ∃ result later, method.api.call options client reads = some ⟨result, {}, 1, later⟩ ∧
      arrived later = [] ∧ Meets result expected := by
  have brings' : Brings reads value.encode := by
    simpa only [RespValue.encodeAll, List.append_nil] using brings
  obtain ⟨later, called, nothing⟩ :=
    Method.call_eq patient ready accepted filled sendable meant brings'
  exact ⟨_, later, called, nothing, meets⟩

/-- **A call about a key.** -/
theorem served_one (mirrors : Mirrors conn.service.world store) (unbound : Unbound conn)
    (call : KeyCall) (valid : call.command.invalid = false) :
    ∃ values after, Serves env host conn store (.one call) values after := by
  obtain ⟨status, shows, mirrors'⟩ :=
    mirrors_operation env mirrors call.command valid call.command_key call.command_typed
  have told : Told call.command (env.exec call.command.operation conn.service.world).1.status := by
    rw [status]
    exact call.told _
  have answered := answered_call env host call valid unbound told
  have accepts : call.method.refusal = none := call.speaks.accepts.mpr valid
  have filled : call.method.args ≠ [] := by
    obtain ⟨name, args, sends, -⟩ := call.speaks.reaches
    simp [sends]
  have spec : (ApiCall.one call).spec store =
      (TypedStep.expected call.command.hidesType (call.act (store call.about)),
        Function.update store call.about (call.act (store call.about)).held) := by
    rw [ApiCall.spec, valid]
    rfl
  refine ⟨_, _, answered, by rw [spec]; exact mirrors', fun fits => ?_⟩
  rw [spec]
  have here : Issued.Fits ⟨call.command, conn.service.world⟩ := fits _ (by simp)
  have small := call.command.result_fits here.command env here.world
  refine method_returns accepts filled (sendable_wireReply _ _ small) (meaning_wireReply _ _ _) ?_
  rw [status]
  exact call.meets shows

/-! ### Keys that are counted -/

/-- The number of keys found, one after the other, and the store that is left. -/
def tally (keep : Option (TypedValue Bytes) → Option (TypedValue Bytes)) :
    List Bytes → TypedStore → Int × TypedStore
  | [], store => (0, store)
  | key :: keys, store =>
    let rest := tally keep keys (Function.update store key (keep (store key)))
    ((if (store key).isSome then 1 else 0) + rest.1, rest.2)

theorem tally_id (keys : List Bytes) (store : TypedStore) :
    tally id keys store = (((keys.countP fun key => (store key).isSome : Nat) : Int), store) := by
  induction keys with
  | nil => rfl
  | cons key keys ih =>
    rw [tally, id, Function.update_eq_self, ih, List.countP_cons]
    cases (store key).isSome
    · simp
    · simp [add_comm]

/-- An operation that says whether it found its key, and what it leaves there. -/
def Counts (env : Env) (host : Handler ServerCall.Answer σ)
    (call : Bytes → Serving (StorageResult Int))
    (keep : Option (TypedValue Bytes) → Option (TypedValue Bytes)) : Prop :=
  ∀ (service : Service σ) (store : TypedStore) (key : Bytes), Mirrors service.world store →
    ∃ result done, (call key).run (serving env host) service = (result, done) ∧
      result.status = .ok ∧ result.value = (if (store key).isSome then 1 else 0) ∧
      done.sent = service.sent ∧ Mirrors done.world (Function.update store key (keep (store key)))

theorem counts_del : Counts env host (fun key => api (.del key)) fun _ => none := by
  intro service store key mirrors
  obtain ⟨status, shows, mirrors'⟩ := mirrors_operation env mirrors (.del key) rfl rfl rfl
  exact ⟨_, _, rfl, status, shows, rfl, mirrors'⟩

theorem counts_keyExists : Counts env host (fun key => api (.keyExists key)) id := by
  intro service store key mirrors
  obtain ⟨status, shows, mirrors'⟩ :=
    mirrors_operation env mirrors (.keyExists key) rfl rfl rfl
  exact ⟨_, _, rfl, status, shows, rfl, mirrors'⟩

/-- **The loop of `DEL` and `EXISTS`** over keys: by induction on the keys to come. -/
theorem run_countKeys {call : Bytes → Serving (StorageResult Int)}
    {keep : Option (TypedValue Bytes) → Option (TypedValue Bytes)}
    (counts : Counts env host call keep) (keys : List Bytes) (count : Int)
    (mirrors : Mirrors service.world store) :
    ∃ done, (countKeys call (keys.map .bulkString) count).run (serving env host) service =
        (true, done) ∧
      done.sent = service.sent ++ [serializeInteger (count + (tally keep keys store).1)] ∧
      Mirrors done.world (tally keep keys store).2 := by
  induction keys generalizing service store count with
  | nil =>
    refine ⟨_, rfl, ?_, mirrors⟩
    rw [tally, add_zero]
    rfl
  | cons key keys ih =>
    obtain ⟨result, next, ran, status, value, quiet, mirrors'⟩ := counts service store key mirrors
    have counted : (if result.status = .ok ∧ 0 < result.value then count + result.value
        else count) = count + (if (store key).isSome then 1 else 0) := by
      rw [status, value]
      cases (store key).isSome
      · simp
      · simp
    obtain ⟨done, finished, sent, final⟩ :=
      ih (count + (if (store key).isSome then 1 else 0)) mirrors'
    refine ⟨done, ?_, ?_, final⟩
    · rw [List.map_cons, countKeys]
      show ((call key) >>= _).run (serving env host) service = _
      rw [Program.run_bind, ran]
      dsimp only
      rw [counted]
      exact finished
    · rw [sent, quiet, tally, add_assoc]

theorem tally_le (keep : Option (TypedValue Bytes) → Option (TypedValue Bytes)) (keys : List Bytes)
    (store : TypedStore) : 0 ≤ (tally keep keys store).1 ∧
      (tally keep keys store).1 ≤ keys.length := by
  induction keys generalizing store with
  | nil => exact ⟨le_rfl, le_rfl⟩
  | cons key keys ih =>
    obtain ⟨low, high⟩ := ih (Function.update store key (keep (store key)))
    rw [tally, List.length_cons]
    split
    · constructor <;> push_cast <;> omega
    · constructor <;> push_cast <;> omega

/-- A call that returns a number. -/
theorem serves_integer {method : Method Int} {call : ApiCall} {message : String}
    (same : call.api = (method.map fun count => Outcome.reply (.int count)).api)
    (accepted : method.refusal = none) (filled : method.args ≠ [])
    (converts : method.convert = asInteger message) {number : Int} (low : 0 ≤ number)
    (high : number < 2 ^ 63) {after : Conn σ}
    (answered : Answered env host conn [method.args] [.integer number] after)
    (spec : call.spec store = (.answer (.int number), (call.spec store).2))
    (mirrors : Mirrors after.service.world (call.spec store).2) :
    Serves env host conn store call [.integer number] after := by
  refine ⟨by rw [same]; exact answered, mirrors, fun _ => ?_⟩
  rw [same, spec]
  refine method_returns accepted filled (sendable_wire (Reply.fits_int low high)) rfl ?_
  show Meets ((method.convert (.integer number)).map _) _
  rw [converts]
  exact rfl

/-- A loop over keys, and the method of the client that starts it. -/
theorem served_count {method : Method Int} {call : ApiCall} {message : String} {name : Bytes}
    {keys : List Bytes} {one : Bytes → Serving (StorageResult Int)}
    {keep : Option (TypedValue Bytes) → Option (TypedValue Bytes)}
    (mirrors : Mirrors conn.service.world store) (unbound : Unbound conn)
    (counts : Counts env host one keep)
    (same : call.api = (method.map fun count => Outcome.reply (.int count)).api)
    (accepted : method.refusal = none) (sends : method.args = name :: keys)
    (few : (name :: keys).length < 2 ^ 59) (converts : method.convert = asInteger message)
    (upper : name.map toUpper = name)
    (plain : name ∉ controlNames ++ [text "SUBSCRIBE", text "UNSUBSCRIBE"])
    (reaches : dispatchArrayCommandsLookup name ((name :: keys).map .bulkString) =
      countKeys one (keys.map .bulkString) 0)
    (spec : call.spec store =
      (.answer (.int (tally keep keys store).1), (tally keep keys store).2)) :
    ∃ values after, Serves env host conn store call values after := by
  obtain ⟨done, ran, sent, mirrors'⟩ := run_countKeys counts keys 0 mirrors
  obtain ⟨low, high⟩ := tally_le keep keys store
  rw [List.length_cons] at few
  have answered : Answered env host conn [method.args] [.integer (tally keep keys store).1]
      { conn with service := done } := by
    rw [sends]
    refine answered_dispatch upper plain unbound (by rw [reaches, ran]) ?_
    rw [sent, zero_add]
    rfl
  refine ⟨_, _, serves_integer same accepted (by simp [sends]) converts low (by omega) answered
    (by rw [spec]) ?_⟩
  rw [spec]
  exact mirrors'

/-- **`del`.** -/
theorem served_del (mirrors : Mirrors conn.service.world store) (unbound : Unbound conn)
    (key : Bytes) :
    ∃ values after, Serves env host conn store (.del key) values after := by
  have spec : (ApiCall.del key).spec store = (.answer (.int (tally (fun _ => none) [key] store).1),
      (tally (fun _ => none) [key] store).2) := by
    rw [tally, tally, add_zero]
    rfl
  exact served_count mirrors unbound counts_del rfl rfl rfl (by simp) rfl (by decide)
    (by decide) rfl spec

/-- **`exists`.** -/
theorem served_keysExist (mirrors : Mirrors conn.service.world store) (unbound : Unbound conn)
    {keys : List Bytes} (some : keys ≠ []) (few : (text "EXISTS" :: keys).length < 2 ^ 59) :
    ∃ values after, Serves env host conn store (.keysExist keys) values after := by
  have accepted : requireSome keys "EXISTS requires at least one key" = none :=
    requireSome_eq_none.mpr (by simpa using some)
  have reaches : dispatchArrayCommandsLookup (text "EXISTS")
      ((text "EXISTS" :: keys).map .bulkString) =
        countKeys (fun key => api (.keyExists key)) (keys.map .bulkString) 0 := by
    show (if _ then _ else _) = _
    rw [if_neg]
    · rfl
    · cases keys with
      | nil => exact absurd rfl some
      | cons key keys => simp
  refine served_count mirrors unbound counts_keyExists rfl accepted rfl few rfl
    (by decide) (by decide) reaches ?_
  rw [tally_id, ApiCall.spec, if_neg some]

/-! ### Hashes -/

theorem pack_hashes {fields : Finmap fun _ : Bytes => Bytes} (filled : fields ≠ ∅) :
    Container.hashes.pack fields = some (.hash fields filled) :=
  dif_neg filled

/-- A container packed acts as its content. -/
theorem hashes_on_pack (act : (Finmap fun _ : Bytes => Bytes) →
      Answer Bytes × Finmap fun _ : Bytes => Bytes) (blank : Answer Bytes)
    (fields : Finmap fun _ : Bytes => Bytes) :
    Container.hashes.on blank act (Container.hashes.pack fields) =
      ⟨.ok, (act fields).1, Container.hashes.pack (act fields).2⟩ := by
  by_cases empty : fields = ∅
  · rw [empty, show Container.hashes.pack ∅ = none from Container.hashes.pack_empty]
    rfl
  · rw [pack_hashes empty]
    rfl

/-- The number of fields that are new. -/
theorem card_new_cons (field value : Bytes) (names : List Bytes)
    (fields : Finmap fun _ : Bytes => Bytes) :
    ((field :: names).toFinset \ fields.keys).card =
      (if field ∈ fields then 0 else 1) +
        (names.toFinset \ (fields.insert field value).keys).card := by
  have keys : (fields.insert field value).keys = insert field fields.keys := by
    ext other
    rw [Finmap.mem_keys, Finmap.mem_insert, Finset.mem_insert, Finmap.mem_keys]
  rw [List.toFinset_cons, keys]
  by_cases known : field ∈ fields
  · have member : field ∈ fields.keys := Finmap.mem_keys.mpr known
    rw [if_pos known, zero_add, Finset.insert_eq_of_mem member, Finset.insert_sdiff_of_mem _ member]
  · have missing : field ∉ fields.keys := fun member => known (Finmap.mem_keys.mp member)
    have apart : insert field names.toFinset \ fields.keys =
        insert field (names.toFinset \ insert field fields.keys) := by
      ext other
      simp only [Finset.mem_sdiff, Finset.mem_insert]
      by_cases here : other = field
      · simp [here, missing]
      · simp [here]
    rw [if_neg known, apart, Finset.card_insert_of_notMem (by simp), add_comm]

theorem card_new_le (names : List Bytes) (fields : Finmap fun _ : Bytes => Bytes) :
    (names.toFinset \ fields.keys).card ≤ names.length :=
  (Finset.card_le_card Finset.sdiff_subset).trans (List.toFinset_card_le names)

/-- **The loop of `HSET`** on a hash: by induction on the pairs to come. -/
theorem run_hsetPairs (key : Bytes) (fieldValues : List (Bytes × Bytes)) (added : Int)
    (mirrors : Mirrors service.world store) {fields : Finmap fun _ : Bytes => Bytes}
    (holds : store key = Container.hashes.pack fields) :
    ∃ done, (hsetPairs key (fieldValues.flatMap fun kv => [.bulkString kv.1, .bulkString kv.2])
        added).run (serving env host) service = (true, done) ∧
      done.sent = service.sent ++ [serializeInteger
        (added + ((fieldValues.map Prod.fst).toFinset \ fields.keys).card)] ∧
      Mirrors done.world (Function.update store key
        (Container.hashes.pack (withFields fieldValues fields).2)) := by
  induction fieldValues generalizing service store added fields with
  | nil =>
    refine ⟨_, rfl, by simp [serving], ?_⟩
    show Mirrors service.world (Function.update store key (Container.hashes.pack fields))
    rw [← holds, Function.update_eq_self]
    exact mirrors
  | cons kv fieldValues ih =>
    obtain ⟨field, value⟩ := kv
    obtain ⟨status, shows, mirrors'⟩ :=
      mirrors_operation env mirrors (.hset key field value) rfl rfl rfl
    rw [holds, hashes_on_pack] at status shows mirrors'
    have counted : (env.exec (hset key field value) service.world).1.value =
        if field ∈ fields then 0 else 1 := shows
    have fine : (env.exec (hset key field value) service.world).1.status = .ok := status
    have right : (Issued.mk (.hset key field value) service.world).status env ≠ .wrongType :=
      fun wrong => StatusCode.noConfusion (status.symm.trans wrong)
    obtain ⟨done, ran, sent, final⟩ :=
      @ih { service with
        world := (env.exec (hset key field value) service.world).2
        issued := service.issued ++ [⟨.hset key field value, service.world⟩] } _
      (added + if field ∈ fields then 0 else 1) mirrors' _ (Function.update_self ..)
    refine ⟨done, ?_, ?_, ?_⟩
    · rw [List.flatMap_cons, List.cons_append, List.singleton_append]
      refine (run_hsetPairs_pair rfl rfl).trans ?_
      dsimp only
      rw [if_neg right, if_pos fine, counted]
      exact ran
    · rw [sent, List.map_cons, card_new_cons field value]
      push_cast
      rw [add_assoc]
      rfl
    · rw [Function.update_idem] at final
      exact final

/-- A key holds a hash, perhaps an empty one, or something else. -/
theorem hash_or_other (held : Option (TypedValue Bytes)) :
    (∃ fields, held = Container.hashes.pack fields) ∨
      ∃ value, held = some value ∧ Container.hashes.unpack value = none := by
  rcases held with _ | _ | _ | _ | ⟨fields, filled⟩
  · exact .inl ⟨∅, Container.hashes.pack_empty.symm⟩
  · exact .inr ⟨_, rfl, rfl⟩
  · exact .inr ⟨_, rfl, rfl⟩
  · exact .inr ⟨_, rfl, rfl⟩
  · exact .inl ⟨fields, (pack_hashes filled).symm⟩

/-- `HSET` with field-value pairs gets to its loop. -/
theorem cmdHset_eq (key : Bytes) {fieldValues : List (Bytes × Bytes)} (some : fieldValues ≠ []) :
    dispatchArrayCommandsLookup (text "HSET") ((text "HSET" :: key ::
        fieldValues.flatMap fun kv => [kv.1, kv.2]).map .bulkString) =
      hsetPairs key (fieldValues.flatMap fun kv => [.bulkString kv.1, .bulkString kv.2]) 0 := by
  have length : (fieldValues.flatMap fun kv => [kv.1, kv.2]).length = fieldValues.length * 2 := by
    simp [List.length_flatMap]
  have positive : 0 < fieldValues.length := List.length_pos_iff.mpr some
  have size : ((text "HSET" :: key :: fieldValues.flatMap fun kv => [kv.1, kv.2]).map
      Protocol.RespValue.bulkString).length = fieldValues.length * 2 + 2 := by
    simp only [List.length_map, List.length_cons, length]
  rw [← map_bulkString_pairs]
  show cmdHset _ = _
  rw [cmdHset, size, if_neg (by omega)]
  show (if _ then _ else _) = _
  rw [if_neg (by simp)]
  rfl

/-- `hset` on a key of another type: the first pair is refused, and the loop ends. -/
theorem served_hset_other (mirrors : Mirrors conn.service.world store) (unbound : Unbound conn)
    {key : Bytes} {fieldValues : List (Bytes × Bytes)} (some : fieldValues ≠ [])
    (accepted : (Method.hset key fieldValues).refusal = none) {value : TypedValue Bytes}
    (holds : store key = Option.some value) (other : Container.hashes.unpack value = none) :
    ∃ values after, Serves env host conn store (.hset key fieldValues) values after := by
  obtain ⟨⟨field, text⟩, rest, rfl⟩ := List.exists_cons_of_ne_nil some
  obtain ⟨status, -, mirrors'⟩ := mirrors_operation env mirrors (.hset key field text) rfl rfl rfl
  rw [holds] at status mirrors'
  have refused (act : _ → Answer Bytes × _) :
      Container.hashes.on (.int 0) act (Option.some value) =
        ⟨.wrongType, .int 0, Option.some value⟩ := by
    rw [Container.on, other]
  rw [refused] at status mirrors'
  rw [← holds, Function.update_eq_self] at mirrors'
  have wrong : (Issued.mk (.hset key field text) conn.service.world).status env = .wrongType :=
    status
  have answered : Answered env host conn [(Method.hset key ((field, text) :: rest)).args]
      [.error wrongTypeMessage] { conn with service := { conn.service with
        world := (env.exec (hset key field text) conn.service.world).2
        sent := conn.service.sent ++ [wrongTypeError]
        issued := conn.service.issued ++ [⟨.hset key field text, conn.service.world⟩] } } := by
    refine answered_dispatch (by decide) (by decide) unbound ?_ rfl
    rw [cmdHset_eq key some, List.flatMap_cons, List.cons_append, List.singleton_append]
    refine (run_hsetPairs_pair rfl rfl).trans ?_
    exact if_pos wrong
  have spec : (ApiCall.hset key ((field, text) :: rest)).spec store = (.wrongType, store) := by
    rw [ApiCall.spec, if_neg some, holds, refused, ← holds]
    dsimp only
    rw [Function.update_eq_self]
    rfl
  refine ⟨_, _, answered, by rw [spec]; exact mirrors', fun _ => ?_⟩
  rw [spec]
  exact method_returns accepted (by simp [Method.hset, Method.map])
    (sendable_wireReply false .wrongType Reply.fits_zero) rfl rfl

/-- **`hset`.** -/
theorem served_hset (mirrors : Mirrors conn.service.world store) (unbound : Unbound conn)
    (key : Bytes) {fieldValues : List (Bytes × Bytes)} (some : fieldValues ≠ [])
    (few : (Method.hset key fieldValues).args.length < 2 ^ 59) :
    ∃ values after, Serves env host conn store (.hset key fieldValues) values after := by
  have accepted : (Method.hset key fieldValues).refusal = none :=
    requireSome_eq_none.mpr (by simpa using some)
  rcases hash_or_other (store key) with ⟨fields, holds⟩ | ⟨value, holds, other⟩
  · obtain ⟨done, ran, sent, final⟩ := run_hsetPairs key fieldValues 0 mirrors holds
    have answered : Answered env host conn [(Method.hset key fieldValues).args]
        [.integer ((fieldValues.map Prod.fst).toFinset \ fields.keys).card]
        { conn with service := done } :=
      answered_dispatch (by decide) (by decide) unbound
        (by rw [cmdHset_eq key some, ran]) (by rw [sent, zero_add]; rfl)
    have spec : (ApiCall.hset key fieldValues).spec store =
        (.answer (withFields fieldValues fields).1, Function.update store key
          (Container.hashes.pack (withFields fieldValues fields).2)) := by
      rw [ApiCall.spec, if_neg some, holds, hashes_on_pack]
      rfl
    have small : ((fieldValues.map Prod.fst).toFinset \ fields.keys).card < 2 ^ 59 := by
      have distinct := card_new_le (fieldValues.map Prod.fst) fields
      have long : fieldValues.length ≤ (Method.hset key fieldValues).args.length := by
        simp [Method.hset, List.length_flatMap]
        omega
      rw [List.length_map] at distinct
      omega
    refine ⟨_, _, serves_integer rfl accepted (by simp [Method.hset]) rfl (Int.natCast_nonneg _)
      (by omega) answered (by rw [spec]; rfl) ?_⟩
    rw [spec]
    exact final
  · exact served_hset_other mirrors unbound some accepted holds other

/-! ### Pipelines -/

theorem readString_held (held : Option (TypedValue Bytes)) : (readString held).held = held := by
  rcases held with _ | _ | _ | _ | _ <;> rfl

/-- The reply to `GET` is the string at the key. -/
theorem wireReply_readString {held : Option (TypedValue Bytes)} {status : StatusCode}
    {value : Option Bytes} (same : status = (readString held).status)
    (shows : (Reply.element value).Shows (readString held).answer) :
    wireReply true status (.element value) = Reply.wire (.element (stringAt held)) ∧
      value = stringAt held := by
  rcases held with _ | _ | _ | _ | _
  all_goals
    cases same
    cases shows
    exact ⟨rfl, rfl⟩

/-- A `GET`: the string at its key. -/
theorem answered_get (env : Env) (host : Handler ServerCall.Answer σ)
    (mirrors : Mirrors conn.service.world store) (unbound : Unbound conn) (key : Bytes) :
    ∃ after, Answered env host conn [[text "GET", key]]
        [Reply.wire (.element (stringAt (store key)))] after ∧
      Mirrors after.service.world store ∧
      ((∀ issued ∈ after.service.issued, issued.Fits) →
        (Reply.element (stringAt (store key))).Fits) := by
  obtain ⟨status, shows, mirrors'⟩ := mirrors_operation env mirrors (.get key) rfl rfl rfl
  have told := (KeyCall.get key).told (store key)
  rw [show (KeyCall.get key).act = readString from rfl, ← status] at told
  obtain ⟨wire, value⟩ := wireReply_readString status shows
  rw [readString_held, Function.update_eq_self] at mirrors'
  have answered : Answered env host conn [[text "GET", key]] [wireReply true _ (.element _)] _ :=
    answered_call env host (.get key) rfl unbound told
  refine ⟨_, wire ▸ answered, mirrors', fun fits => ?_⟩
  have here : Issued.Fits ⟨.get key, conn.service.world⟩ :=
    fits _ (List.mem_append_right _ (List.mem_singleton.mpr rfl))
  rw [← value]
  exact (Command.get key).result_fits here.command env here.world

/-- A `SET`. -/
theorem answered_set (env : Env) (host : Handler ServerCall.Answer σ)
    (mirrors : Mirrors conn.service.world store) (unbound : Unbound conn) (key value : Bytes) :
    ∃ after, Answered env host conn [[text "SET", key, value]] [Reply.wire (.flag true)] after ∧
      Mirrors after.service.world (Function.update store key (some (.string value))) := by
  obtain ⟨status, shows, mirrors'⟩ := mirrors_operation env mirrors (.set key value) rfl rfl rfl
  have fine : (env.exec (Command.set key value).operation conn.service.world).1.status = .ok :=
    status
  have wire (flag : Bool) : wireReply false (env.exec (Command.set key value).operation
      conn.service.world).1.status (.flag flag) = Reply.wire (.flag true) := by
    rw [fine]
    rfl
  have answered : Answered env host conn [[text "SET", key, value]]
      [wireReply false _ (.flag _)] _ :=
    answered_call env host (.set key value) rfl unbound (.inl fine)
  exact ⟨_, wire _ ▸ answered, mirrors'⟩

/-- The commands of `mget`, by induction on the keys. -/
theorem answered_gets (env : Env) (host : Handler ServerCall.Answer σ)
    (mirrors : Mirrors conn.service.world store) (unbound : Unbound conn) (keys : List Bytes) :
    ∃ after, Answered env host conn (keys.map fun key => [text "GET", key])
        (keys.map fun key => Reply.wire (.element (stringAt (store key)))) after ∧
      Mirrors after.service.world store ∧
      ((∀ issued ∈ after.service.issued, issued.Fits) →
        ∀ key ∈ keys, (Reply.element (stringAt (store key))).Fits) := by
  induction keys generalizing conn with
  | nil =>
    exact ⟨conn, ⟨rfl, (List.append_nil _).symm, List.Subset.refl _, unbound⟩, mirrors,
      fun _ => nofun⟩
  | cons key keys ih =>
    obtain ⟨middle, first, mirrors', small⟩ := answered_get env host mirrors unbound key
    obtain ⟨after, later, final, smaller⟩ := ih mirrors' first.unbound
    refine ⟨after, first.append later, final, fun fits => ?_⟩
    refine List.forall_mem_cons.mpr ⟨small fun issued member => ?_, smaller fits⟩
    exact fits issued (later.grows member)

/-- The commands of `mset`, by induction on the pairs. -/
theorem answered_sets (env : Env) (host : Handler ServerCall.Answer σ)
    (mirrors : Mirrors conn.service.world store) (unbound : Unbound conn)
    (kvs : List (Bytes × Bytes)) :
    ∃ after, Answered env host conn (kvs.map fun kv => [text "SET", kv.1, kv.2])
        (kvs.map fun _ => Reply.wire (.flag true)) after ∧
      Mirrors after.service.world (withStrings kvs store) := by
  induction kvs generalizing conn store with
  | nil =>
    exact ⟨conn, ⟨rfl, (List.append_nil _).symm, List.Subset.refl _, unbound⟩, mirrors⟩
  | cons kv kvs ih =>
    obtain ⟨middle, first, mirrors'⟩ := answered_set env host mirrors unbound kv.1 kv.2
    obtain ⟨after, later, final⟩ := ih mirrors' first.unbound
    exact ⟨after, first.append later, final⟩

theorem meanings_wire {ι : Type} (items : List ι) (reply : ι → Reply) :
    meanings (items.map fun item => Reply.wire (reply item)) =
      .ok (items.map fun item => Reply.said (reply item)) := by
  induction items with
  | nil => rfl
  | cons item items ih =>
    rw [List.map_cons, meanings, meaning_wire]
    dsimp only
    rw [ih]
    rfl

theorem optionalStrings_said (values : List (Option Bytes)) :
    optionalStrings (values.map fun value => Reply.said (.element value)) = .success values := by
  induction values with
  | nil => rfl
  | cons value values ih =>
    cases value with
    | none =>
      show (optionalStrings _).map _ = _
      rw [ih]
      rfl
    | some text =>
      show (optionalStrings _).map _ = _
      rw [ih]
      rfl

/-- A pipeline whose replies stand for results of the store. -/
theorem pipeline_returns {ι : Type} {items : List ι} (some : items ≠ []) {request : ι → List Bytes}
    (filled : ∀ item, request item ≠ []) {reply : ι → Reply}
    (small : ∀ item ∈ items, (reply item).Fits) (pipelineOptions : PipelineOptions)
    {options : Options} {client : Impl} {reads : List Read} (patient : options.Patient)
    (ready : client.Ready)
    (brings : Brings reads (RespValue.encodeAll (items.map fun item => Reply.wire (reply item)))) :
    ∃ later, client.pipeline options (items.map request) pipelineOptions reads =
        Option.some ⟨.success (items.map fun item => Reply.said (reply item)), {},
          (items.map request).length, later⟩ ∧ arrived later = [] := by
  refine pipeline_eq patient ready (by simpa using some) ?_ (by simp) ?_ (meanings_wire items reply)
    (fun _ => ?_) brings
  · intro args member
    obtain ⟨item, -, rfl⟩ := List.mem_map.mp member
    exact filled item
  · intro value member
    obtain ⟨item, inside, rfl⟩ := List.mem_map.mp member
    exact sendable_wire (small item inside)
  · intro other member
    obtain ⟨item, -, rfl⟩ := List.mem_map.mp member
    exact errorText_said (reply item)

/-- **`mget`.** -/
theorem served_mget (mirrors : Mirrors conn.service.world store) (unbound : Unbound conn)
    {keys : List Bytes} (some : keys ≠ []) :
    ∃ values after, Serves env host conn store (.mget keys) values after := by
  obtain ⟨after, answered, mirrors', small⟩ := answered_gets env host mirrors unbound keys
  have spec : (ApiCall.mget keys).spec store =
      (.each (keys.map fun key => stringAt (store key)), store) := by
    rw [ApiCall.spec, if_neg some]
  refine ⟨_, after, answered, by rw [spec]; exact mirrors', fun fits options client reads patient
    ready brings => ?_⟩
  obtain ⟨later, called, nothing⟩ := pipeline_returns some
    (fun _ => List.cons_ne_nil _ _) (small fits) {} patient ready brings
  refine ⟨.success (.strings (keys.map fun key => stringAt (store key))), later, ?_, nothing, ?_⟩
  · have said := optionalStrings_said (keys.map fun key => stringAt (store key))
    rw [List.map_map] at said
    show ((if keys.isEmpty then _ else _ : Option (TypedDone (List (Option Bytes)))).map _) = _
    rw [if_neg (by simpa using some), called]
    show Option.some (TypedDone.mk ((optionalStrings _).map _) _ _ _) = _
    rw [show (keys.map fun key => Reply.said (.element (stringAt (store key)))) =
      keys.map ((fun value => Reply.said (.element value)) ∘ fun key => stringAt (store key))
      from rfl, said]
    rfl
  · rw [spec]
    rfl

/-- **`mset`.** -/
theorem served_mset (mirrors : Mirrors conn.service.world store) (unbound : Unbound conn)
    {kvs : List (Bytes × Bytes)} (some : kvs ≠ []) :
    ∃ values after, Serves env host conn store (.mset kvs) values after := by
  obtain ⟨after, answered, mirrors'⟩ := answered_sets env host mirrors unbound kvs
  have spec : (ApiCall.mset kvs).spec store = (.answer (.flag true), withStrings kvs store) := by
    rw [ApiCall.spec, if_neg some]
  refine ⟨_, after, answered, by rw [spec]; exact mirrors', fun fits options client reads patient
    ready brings => ?_⟩
  have small : ∀ kv ∈ kvs, (Reply.flag true).Fits := fun _ _ => trivial
  obtain ⟨later, called, nothing⟩ := pipeline_returns some
    (fun _ => List.cons_ne_nil _ _) small
    { failOnServerError := true, closeOnServerError := true } patient ready brings
  refine ⟨.success (.reply (.flag true)), later, ?_, nothing, ?_⟩
  · have fine : allOk (kvs.map fun _ => Reply.said (.flag true)) = .success () := by
      refine if_pos (List.all_eq_true.mpr fun reply member => ?_)
      obtain ⟨kv, -, rfl⟩ := List.mem_map.mp member
      rfl
    show ((if kvs.isEmpty then _ else _ : Option (TypedDone Unit)).map _) = _
    rw [if_neg (by simpa using some), called]
    show Option.some (TypedDone.mk ((allOk _).map _) _ _ _) = _
    rw [fine]
    rfl
  · rw [spec]
    rfl

/-! ### Every call -/

/-- The call has nothing to send. -/
def ApiCall.refuses : ApiCall → Bool
  | .one call => call.command.invalid
  | .del _ => false
  | .keysExist keys => keys.isEmpty
  | .hset _ fieldValues => fieldValues.isEmpty
  | .mget keys => keys.isEmpty
  | .mset kvs => kvs.isEmpty

/-- A call that has nothing to send is refused, and changes nothing. -/
theorem ApiCall.call_refused {call : ApiCall} (refuses : call.refuses = true) (options : Options)
    (client : Impl) (reads : List Read) (store : TypedStore) :
    (∃ message, call.api.call options client reads =
      some ⟨.failure .invalidArgument message, client, 0, reads⟩) ∧
      call.spec store = (.refused, store) := by
  cases call with
  | one call =>
    obtain ⟨message, refused⟩ : ∃ message, call.method.refusal = some message := by
      refine Option.ne_none_iff_exists'.mp fun accepted => ?_
      exact Bool.false_ne_true ((call.speaks.accepts.mp accepted).symm.trans refuses)
    exact ⟨⟨message, Method.call_refused refused⟩, if_pos refuses⟩
  | del key => cases refuses
  | keysExist keys =>
    obtain rfl : keys = [] := List.isEmpty_iff.mp refuses
    exact ⟨⟨_, Method.call_refused rfl⟩, rfl⟩
  | hset key fieldValues =>
    obtain rfl : fieldValues = [] := List.isEmpty_iff.mp refuses
    exact ⟨⟨_, Method.call_refused rfl⟩, rfl⟩
  | mget keys =>
    obtain rfl : keys = [] := List.isEmpty_iff.mp refuses
    exact ⟨⟨_, rfl⟩, rfl⟩
  | mset kvs =>
    obtain rfl : kvs = [] := List.isEmpty_iff.mp refuses
    exact ⟨⟨_, rfl⟩, rfl⟩

/-- **Every call is served.** -/
theorem ApiCall.served (mirrors : Mirrors conn.service.world store) (unbound : Unbound conn)
    {call : ApiCall} (accepts : call.refuses = false)
    (few : ∀ args ∈ call.api.requests, args.length < 2 ^ 59) :
    ∃ values after, Serves env host conn store call values after := by
  cases call with
  | one call => exact served_one mirrors unbound call accepts
  | del key => exact served_del mirrors unbound key
  | keysExist keys =>
    exact served_keysExist mirrors unbound (List.isEmpty_eq_false_iff.mp accepts)
      (few _ List.mem_cons_self)
  | hset key fieldValues =>
    exact served_hset mirrors unbound key (List.isEmpty_eq_false_iff.mp accepts)
      (few _ List.mem_cons_self)
  | mget keys => exact served_mget mirrors unbound (List.isEmpty_eq_false_iff.mp accepts)
  | mset kvs => exact served_mset mirrors unbound (List.isEmpty_eq_false_iff.mp accepts)

/-- Every command of a call has a name. -/
theorem ApiCall.filled (call : ApiCall) : ∀ args ∈ call.api.requests, args ≠ [] := by
  intro args member
  cases call with
  | one call =>
    obtain ⟨name, others, sends, -⟩ := call.speaks.reaches
    obtain rfl := List.mem_singleton.mp member
    exact sends ▸ List.cons_ne_nil name others
  | mget keys =>
    obtain ⟨key, -, rfl⟩ := List.mem_map.mp member
    exact List.cons_ne_nil _ _
  | mset kvs =>
    obtain ⟨kv, -, rfl⟩ := List.mem_map.mp member
    exact List.cons_ne_nil _ _
  | _ =>
    obtain rfl := List.mem_singleton.mp member
    exact List.cons_ne_nil _ _

/-- A call that is not refused sends all its commands. -/
theorem ApiCall.call_sent {options : Options} {client : Impl} {reads : List Read}
    (patient : options.Patient) (ready : client.Ready) {call : ApiCall}
    (accepts : call.refuses = false) {done : TypedDone Outcome}
    (called : call.api.call options client reads = some done) :
    done.sent = call.api.requests.length := by
  have filled := call.filled
  cases call with
  | one call =>
    have accepted : (call.method.map Outcome.reply).refusal = none :=
      call.speaks.accepts.mpr accepts
    exact Method.call_sent patient ready accepted (filled _ List.mem_cons_self) called
  | del key => exact Method.call_sent patient ready rfl (filled _ List.mem_cons_self) called
  | keysExist keys =>
    exact Method.call_sent patient ready (requireSome_eq_none.mpr accepts)
      (filled _ List.mem_cons_self) called
  | hset key fieldValues =>
    exact Method.call_sent patient ready (requireSome_eq_none.mpr accepts)
      (filled _ List.mem_cons_self) called
  | mget keys =>
    have some : keys ≠ [] := List.isEmpty_eq_false_iff.mp accepts
    obtain ⟨typed, returned, rfl⟩ := Option.map_eq_some_iff.mp called
    have accepted : ¬ keys.isEmpty = true := by simpa using some
    simp only [Client.mget, if_neg accepted] at returned
    obtain ⟨_, piped, rfl⟩ := Option.map_eq_some_iff.mp returned
    exact pipeline_sent patient ready (mt List.map_eq_nil_iff.mp some) filled piped
  | mset kvs =>
    have some : kvs ≠ [] := List.isEmpty_eq_false_iff.mp accepts
    obtain ⟨typed, returned, rfl⟩ := Option.map_eq_some_iff.mp called
    have accepted : ¬ kvs.isEmpty = true := by simpa using some
    simp only [Client.mset, if_neg accepted] at returned
    obtain ⟨_, piped, rfl⟩ := Option.map_eq_some_iff.mp returned
    exact pipeline_sent patient ready (mt List.map_eq_nil_iff.mp some) filled piped

end Served

end SunKV.System
