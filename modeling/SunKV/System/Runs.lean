/-
**The client sees the typed store.**

Between a caller and the store stand the client's encoder, the network, the server's parser, its
dispatch and handlers, the storage engine, the serializer and the client's decoder; none of them
shows.

* `Link.call_refines`, `Link.run_refines` — a call, and a run of calls, that returns follows the
  typed store, however the streams between the two ends are cut;
* `Link.call_returns`, `Link.run_returns` — and it returns with some transport whose chunks and
  reads are small; not with each, for the parser hangs on a chunk that ends inside a header line;
* `calls_refine_typedStore`, `calls_return` — from an empty store.
-/

import SunKV.Server.OneReply
import SunKV.System.Served

namespace SunKV.System

open SunKV.Lib SunKV.Protocol SunKV.Storage SunKV.Server
open SunKV.Client hiding RespValue

/-! ### Runs -/

section Runs

variable {σ : Type} {env : Env} {host : Handler ServerCall.Answer σ} {megabytes : Int32}
  {options : Options} {store : TypedStore} {link next : Link σ}

/-- What a call and its transport have to be: the commands fit into the input buffer, and no read
fails. -/
structure Calm (megabytes : Int32) (call : ApiCall) (transport : Transport) : Prop where
  fits : (call.api.requests.flatMap encodeRespArrayCommand).length ≤ kMaxConnInbufBytes megabytes
  quiet : ∀ read ∈ transport.reads, read.error = none

theorem few_of_fits {call : ApiCall}
    (fits : (call.api.requests.flatMap encodeRespArrayCommand).length ≤
      kMaxConnInbufBytes megabytes) : ∀ args ∈ call.api.requests, args.length < 2 ^ 59 := by
  intro args member
  have limit := kMaxConnInbufBytes_lt megabytes
  have few := (command_fits member).1
  omega

/-- **One call**: its result, the store and the connection it leaves. -/
theorem Link.call_refines (patient : options.Patient) (rest : AtRest link)
    (mirrors : Mirrors link.conn.service.world store) {call : ApiCall} {transport : Transport}
    (calm : Calm megabytes call transport) {result : TypedResult Outcome}
    (called : link.call env host megabytes options call.api transport = some (result, next))
    (issued : ∀ issued ∈ next.conn.service.issued, issued.Fits) :
    Meets result (call.spec store).1 ∧ Mirrors next.conn.service.world (call.spec store).2 ∧
      AtRest next := by
  obtain ⟨later, sent, first, received, stream, brought⟩ := Link.call_some called
  cases refuses : call.refuses with
  | true =>
    obtain ⟨⟨message, refused⟩, spec⟩ :=
      call.call_refused refuses options link.client transport.reads store
    obtain ⟨rfl, client, rfl, -⟩ := TypedDone.mk.inj (Option.some.inj (first.symm.trans refused))
    obtain ⟨processed, idle, fresh⟩ :=
      receive_some rest (List.forall_mem_nil _) stream (by simp [stream]) received
    have same : link.conn = next.conn := Option.some.inj processed
    rw [spec]
    exact ⟨trivial, same ▸ mirrors, client.symm ▸ rest.ready, idle, fresh, same ▸ rest.unbound⟩
  | false =>
    have all : sent = call.api.requests.length := call.call_sent patient rest.ready refuses first
    rw [all, List.take_length] at stream
    obtain ⟨processed, idle, fresh⟩ :=
      receive_some rest call.filled stream (stream ▸ calm.fits) received
    obtain ⟨values, after, serves⟩ : ∃ values after,
        Serves env host link.conn store call values after :=
      ApiCall.served mirrors rest.unbound refuses (few_of_fits calm.fits)
    obtain rfl : next.conn = after :=
      Option.some.inj (processed.symm.trans serves.answered.processed)
    rw [serves.answered.sentSince] at brought
    obtain ⟨result', later', returned, -, meets⟩ :=
      serves.returns issued options link.client transport.reads patient rest.ready
        ⟨calm.quiet, brought⟩
    obtain ⟨rfl, client, -, -⟩ := TypedDone.mk.inj (Option.some.inj (first.symm.trans returned))
    exact ⟨meets, serves.mirrors, client.symm ▸ ⟨rfl, rfl⟩, idle, fresh, serves.answered.unbound⟩

/-- Calls on one connection, one after the other. -/
def Link.run (env : Env) (host : Handler ServerCall.Answer σ) (megabytes : Int32)
    (options : Options) :
    List (ApiCall × Transport) → Link σ → Option (List (TypedResult Outcome) × Link σ)
  | [], link => some ([], link)
  | (call, transport) :: calls, link => do
    let (result, next) ← link.call env host megabytes options call.api transport
    let (results, last) ← Link.run env host megabytes options calls next
    return (result :: results, last)

/-- A run forgets no operation. -/
theorem Link.run_issued {calls : List (ApiCall × Transport)} {results : List (TypedResult Outcome)}
    (ran : Link.run env host megabytes options calls link = some (results, next)) :
    link.conn.service.issued ⊆ next.conn.service.issued := by
  induction calls generalizing link results with
  | nil =>
    cases ran
    exact List.Subset.refl _
  | cons call calls ih =>
    obtain ⟨⟨result, middle⟩, called, onward⟩ := Option.bind_eq_some_iff.mp ran
    obtain ⟨⟨others, last⟩, later, same⟩ := Option.bind_eq_some_iff.mp onward
    cases same
    obtain ⟨-, -, -, received, -⟩ := Link.call_some called
    exact List.Subset.trans (Link.receive_issued received) (ih later)

/-- **A run of calls follows the typed store**: by induction on the calls. -/
theorem Link.run_refines (patient : options.Patient) {calls : List (ApiCall × Transport)}
    (calm : ∀ call ∈ calls, Calm megabytes call.1 call.2) (rest : AtRest link)
    (mirrors : Mirrors link.conn.service.world store) {results : List (TypedResult Outcome)}
    (ran : Link.run env host megabytes options calls link = some (results, next))
    (issued : ∀ issued ∈ next.conn.service.issued, issued.Fits) :
    List.Forall₂ Meets results (specRun (calls.map Prod.fst) store).1 ∧
      Mirrors next.conn.service.world (specRun (calls.map Prod.fst) store).2 ∧ AtRest next := by
  induction calls generalizing link store results with
  | nil =>
    cases ran
    exact ⟨.nil, mirrors, rest⟩
  | cons call calls ih =>
    obtain ⟨⟨result, middle⟩, called, onward⟩ := Option.bind_eq_some_iff.mp ran
    obtain ⟨⟨others, last⟩, later, same⟩ := Option.bind_eq_some_iff.mp onward
    cases same
    obtain ⟨calmFirst, calmLater⟩ := List.forall_mem_cons.mp calm
    have grows := Link.run_issued later
    obtain ⟨meets, mirrors', rest'⟩ := Link.call_refines patient rest mirrors calmFirst called
      fun call member => issued call (grows member)
    obtain ⟨meetsLater, final, atRest⟩ := ih calmLater rest' mirrors' later
    exact ⟨.cons meets meetsLater, final, atRest⟩

/-- The commands that a call sends. -/
def ApiCall.commands (call : ApiCall) : List (List Bytes) :=
  if call.refuses then [] else call.api.requests

/-- Bytes can come one by one. -/
theorem exists_reads (bytes : Bytes) : ∃ reads, Brings reads bytes ∧
    ∀ read ∈ reads, read.bytes ≠ [] ∧ read.bytes.length ≤ kRecvBytes := by
  refine ⟨bytes.map fun byte => .data [byte], ⟨?_, ?_⟩, ?_⟩
  · exact List.forall_mem_map.mpr fun _ _ => rfl
  · simp [arrived, List.flatMap_map, Read.bytes]
  · refine List.forall_mem_map.mpr fun _ _ => ⟨List.cons_ne_nil _ _, ?_⟩
    simp [Read.bytes, kRecvBytes]

/-- A call on a connection at rest returns when its commands are cut outside their header lines; its
replies may come byte by byte. -/
theorem Link.call_returns (patient : options.Patient) (rest : AtRest link)
    (mirrors : Mirrors link.conn.service.world store) {call : ApiCall}
    (fits : (call.api.requests.flatMap encodeRespArrayCommand).length ≤
      kMaxConnInbufBytes megabytes) {after : Conn σ}
    (served : processCommands env host (call.commands.map commandValue) link.conn = some after)
    (issued : ∀ issued ∈ after.service.issued, issued.Fits) :
    ∃ transport result next, Calm megabytes call transport ∧ transport.Bounded ∧
      link.call env host megabytes options call.api transport = some (result, next) ∧
      next.conn = after ∧ AtRest next ∧ Mirrors after.service.world (call.spec store).2 := by
  cases refuses : call.refuses with
  | true =>
    obtain ⟨⟨message, refused⟩, spec⟩ := call.call_refused refuses options link.client [] store
    rw [ApiCall.commands, if_pos refuses] at served
    cases served
    have nothing : sentSince link.conn link.conn = [] := by simp [sentSince]
    refine ⟨⟨[], []⟩, .failure .invalidArgument message, link, ⟨fits, by simp⟩,
      ⟨by simp, by simp⟩, ?_, rfl, rest, ?_⟩
    · rw [Link.call, refused]
      exact if_pos ⟨rfl, nothing.symm, .inl rfl⟩
    · rw [spec]
      exact mirrors
  | false =>
    rw [ApiCall.commands, if_neg (by simp [refuses])] at served
    obtain ⟨values, after', serves⟩ : ∃ values after,
        Serves env host link.conn store call values after :=
      ApiCall.served mirrors rest.unbound refuses (few_of_fits fits)
    obtain rfl : after = after' := Option.some.inj (served.symm.trans serves.answered.processed)
    obtain ⟨reads, brings, short⟩ := exists_reads (RespValue.encodeAll values)
    obtain ⟨result, later, called, nothing, -⟩ :=
      serves.returns issued options link.client reads patient rest.ready brings
    obtain ⟨takes, small⟩ := takes_commands call.filled fits
    obtain ⟨last, events, ran, -, -⟩ := takes link.input rest.idle rest.fresh
    have stream := flatten_pieces call.api.requests
    have delivers : Delivers megabytes link ⟨call.api.requests.flatMap commandPieces, reads⟩
        call.api.requests := ⟨stream, stream ▸ fits, by rw [ran]; rfl⟩
    obtain ⟨next, possible, same, atRest⟩ := Link.call_eq rest call.filled delivers
      serves.answered called brings.whole nothing
    exact ⟨_, result, next, ⟨fits, brings.quiet⟩, ⟨small, short⟩, possible, same, atRest,
      serves.mirrors⟩

/-- **Every run of calls returns, with some transport**: by induction on the calls. -/
theorem Link.run_returns (patient : options.Patient) {calls : List ApiCall}
    (fits : ∀ call ∈ calls, (call.api.requests.flatMap encodeRespArrayCommand).length ≤
      kMaxConnInbufBytes megabytes) (rest : AtRest link)
    (mirrors : Mirrors link.conn.service.world store) {final : Conn σ}
    (served : processCommands env host ((calls.flatMap ApiCall.commands).map commandValue)
      link.conn = some final)
    (issued : ∀ issued ∈ final.service.issued, issued.Fits) :
    ∃ transports results last, transports.length = calls.length ∧
      (∀ transport ∈ transports, transport.Bounded) ∧
      (∀ call ∈ calls.zip transports, Calm megabytes call.1 call.2) ∧
      Link.run env host megabytes options (calls.zip transports) link = some (results, last) ∧
      last.conn = final := by
  induction calls generalizing link store with
  | nil => exact ⟨[], [], link, rfl, nofun, nofun, rfl, Option.some.inj served⟩
  | cons call calls ih =>
    rw [List.flatMap_cons, List.map_append, processCommands_append] at served
    obtain ⟨middle, first, later⟩ := Option.bind_eq_some_iff.mp served
    obtain ⟨fitsFirst, fitsLater⟩ := List.forall_mem_cons.mp fits
    obtain ⟨transport, result, next, calm, bounded, called, rfl, rest', mirrors'⟩ :=
      Link.call_returns patient rest mirrors fitsFirst first
        fun call member => issued call (issued_processCommands later member)
    obtain ⟨transports, results, last, length, boundedLater, calmLater, ran, same⟩ :=
      ih fitsLater rest' mirrors' later
    refine ⟨transport :: transports, result :: results, last, by simp [length], ?_, ?_, ?_, same⟩
    · exact List.forall_mem_cons.mpr ⟨bounded, boundedLater⟩
    · exact List.forall_mem_cons.mpr ⟨calm, calmLater⟩
    · rw [List.zip_cons_cons, Link.run, called]
      simp only [Option.bind_eq_bind, Option.bind_some, ran]
      rfl

/-- The server takes every command of the calls. -/
theorem calls_processed {conn : Conn σ} (mirrors : Mirrors conn.service.world store)
    (unbound : Unbound conn) {calls : List ApiCall}
    (fits : ∀ call ∈ calls, (call.api.requests.flatMap encodeRespArrayCommand).length ≤
      kMaxConnInbufBytes megabytes) :
    ∃ final, processCommands env host ((calls.flatMap ApiCall.commands).map commandValue) conn =
      some final := by
  induction calls generalizing conn store with
  | nil => exact ⟨conn, rfl⟩
  | cons call calls ih =>
    obtain ⟨fitsFirst, fitsLater⟩ := List.forall_mem_cons.mp fits
    rw [List.flatMap_cons, List.map_append, processCommands_append]
    cases refuses : call.refuses with
    | true =>
      rw [ApiCall.commands, if_pos refuses]
      exact ih mirrors unbound fitsLater
    | false =>
      obtain ⟨values, after, serves⟩ : ∃ values after,
          Serves env host conn store call values after :=
        ApiCall.served mirrors unbound refuses (few_of_fits fitsFirst)
      rw [ApiCall.commands, if_neg (by simp [refuses]), serves.answered.processed]
      exact ih serves.mirrors serves.answered.unbound fitsLater

end Runs

/-! ### The whole system -/

/-- A connection to a server that holds nothing yet. -/
def freshLink {σ : Type} (rest : σ) : Link σ where
  conn := { service := { world := {}, rest := rest } }

/-- **Every run of calls that returns gives the answers of the typed store.** -/
theorem calls_refine_typedStore {σ : Type} (env : Env) (host : Handler ServerCall.Answer σ)
    (rest : σ) (megabytes : Int32) (options : Options) (patient : options.Patient)
    (calls : List (ApiCall × Transport)) (calm : ∀ call ∈ calls, Calm megabytes call.1 call.2)
    (results : List (TypedResult Outcome)) (last : Link σ)
    (ran : Link.run env host megabytes options calls (freshLink rest) = some (results, last))
    (issued : ∀ issued ∈ last.conn.service.issued, issued.Fits) :
    let spec := specRun (calls.map Prod.fst) fun _ => none
    List.Forall₂ Meets results spec.1 ∧
      ∀ key, Depicts (last.conn.service.world.view key) (spec.2 key) := by
  intro spec
  obtain ⟨meets, mirrors, -⟩ :=
    Link.run_refines patient calm (atRest_fresh _) mirrors_empty ran issued
  exact ⟨meets, mirrors.depicts⟩

/-- An empty `mget`, which is refused, a `set`, and a `get` that reads the value back; the requests
are cut inside and behind the arguments, the replies anywhere. -/
def readBack : List (ApiCall × Transport) :=
  [(.mget [], ⟨[], []⟩),
    (.one (.set (text "k") (text "vw")),
      ⟨[text "*3\r\n$3\r\nSE", text "T\r\n$1\r\nk", text "\r\n$2\r\nv", text "w", text "\r\n"],
        [.data (text "+O"), .data (text "K\r"), .data (text "\n")]⟩),
    (.one (.get (text "k")),
      ⟨[text "*2\r\n$3\r\nG", text "ET\r\n$1\r\n", text "k\r\n"],
        [.data (text "$"), .data (text "2\r\nv"), .data (text "w\r\n")]⟩)]

theorem ran_readBack :
    (Link.run (Env.still 0) idleHost 1 {} readBack (freshLink ())).map
      (fun out => out.2.conn.service.issued.all fun issued => decide issued.Fits) = some true := by
  decide +kernel

theorem calls_refine_typedStore_readBack :
    ∃ (results : List (TypedResult Outcome)) (last : Link Unit),
      Link.run (Env.still 0) idleHost 1 {} readBack (freshLink ()) = some (results, last) ∧
      List.Forall₂ Meets results
        [.refused, .answer (.flag true), .answer (.element (some (text "vw")))] := by
  have calm : ∀ call ∈ readBack, Calm 1 call.1 call.2 := by
    simp only [readBack, List.forall_mem_cons]
    exact ⟨⟨by decide, by simp⟩, ⟨by decide, by simp [Read.error]⟩,
      ⟨by decide, by simp [Read.error]⟩, nofun⟩
  obtain ⟨⟨results, last⟩, ran, fits⟩ := Option.map_eq_some_iff.mp ran_readBack
  have issued : ∀ issued ∈ last.conn.service.issued, issued.Fits :=
    fun issued member => of_decide_eq_true (List.all_eq_true.mp fits issued member)
  exact ⟨results, last, ran, (calls_refine_typedStore (Env.still 0) idleHost () 1 {}
    ⟨by decide, by decide⟩ readBack calm results last ran issued).1⟩

/-- **Every run of calls can return**: with chunks and reads no larger than one system call brings,
and with these answers. -/
theorem calls_return {σ : Type} (env : Env) (host : Handler ServerCall.Answer σ) (rest : σ)
    (megabytes : Int32) (options : Options) (patient : options.Patient) (calls : List ApiCall)
    (fits : ∀ call ∈ calls, (call.api.requests.flatMap encodeRespArrayCommand).length ≤
      kMaxConnInbufBytes megabytes)
    (sized : ∀ final, processCommands env host
      ((calls.flatMap ApiCall.commands).map commandValue) (freshLink rest).conn = some final →
        ∀ issued ∈ final.service.issued, issued.Fits) :
    ∃ (transports : List Transport) (results : List (TypedResult Outcome)) (last : Link σ),
      transports.length = calls.length ∧ (∀ transport ∈ transports, transport.Bounded) ∧
      Link.run env host megabytes options (calls.zip transports) (freshLink rest) =
        some (results, last) ∧
      List.Forall₂ Meets results (specRun calls fun _ => none).1 := by
  have start : AtRest (freshLink rest) := atRest_fresh _
  obtain ⟨final, served⟩ : ∃ final, processCommands env host
      ((calls.flatMap ApiCall.commands).map commandValue) (freshLink rest).conn = some final :=
    calls_processed mirrors_empty start.unbound fits
  obtain ⟨transports, results, last, length, bounded, calm, ran, rfl⟩ :=
    Link.run_returns patient fits start mirrors_empty served (sized final served)
  have meets := (Link.run_refines patient calm start mirrors_empty ran (sized _ served)).1
  rw [List.map_fst_zip length.ge] at meets
  exact ⟨transports, results, last, length, bounded, ran, meets⟩

theorem calls_return_readBack :
    ∃ (transports : List Transport) (results : List (TypedResult Outcome)) (last : Link Unit),
      transports.length = 3 ∧ (∀ transport ∈ transports, transport.Bounded) ∧
      Link.run (Env.still 0) idleHost 1 {} ((readBack.map Prod.fst).zip transports)
        (freshLink ()) = some (results, last) ∧
      List.Forall₂ Meets results
        [.refused, .answer (.flag true), .answer (.element (some (text "vw")))] := by
  have served : (processCommands (Env.still 0) idleHost
      (((readBack.map Prod.fst).flatMap ApiCall.commands).map commandValue)
      (freshLink ()).conn).map
        (fun final => final.service.issued.all fun issued => decide issued.Fits) = some true := by
    decide +kernel
  refine calls_return (Env.still 0) idleHost () 1 {} ⟨by decide, by decide⟩
    (readBack.map Prod.fst) (by decide) fun final processed issued member => ?_
  rw [processed] at served
  exact of_decide_eq_true (List.all_eq_true.mp (Option.some.inj served) issued member)

end SunKV.System
