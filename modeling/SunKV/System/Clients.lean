/-
**Many clients of one loop.**

Every client has a connection of its own and makes one call at a time; the connections belong to
one loop thread of the server, which reads them in any order and in any pieces. So calls of
different clients overlap.

* `Clients.step` — a client calls, the loop reads a piece of what a client has sent, a call returns
  what the client makes of the replies;
* `Waits` — where the connection of a client is with its call; `receive_chunk` — a piece of a
  command leaves the server as it is, until the piece that completes it;
* `Simulates.step` — a call takes effect on the typed store when its command is complete;
* `calls_linearizable` — **what the clients see can be seen of a typed store that serves one call at
  a time.** Calls that send several commands, `mget` and `mset`, are left out: the commands of other
  clients come between theirs.
-/

import SunKV.Lib.Atomic
import SunKV.System.Runs

namespace SunKV.System

open SunKV.Lib SunKV.Protocol SunKV.Storage SunKV.Server
open SunKV.Client hiding RespValue

/-! ### The clients and their server -/

/-- What an observer of the clients sees. -/
abbrev Seen (κ : Type) := Atomic.Visible κ ApiCall (TypedResult Outcome)

/-- **A client and its connection**: the call that it makes, and what is on its way to the server
and back. -/
structure Seat (σ : Type) where
  link : Link σ
  call : Option ApiCall := none
  outgoing : Bytes := []
  incoming : Bytes := []

/-- **The clients of a loop.** The server is the one they share; `sent` of it is what was sent to
any of them. -/
structure Clients (κ σ : Type) where
  service : Service σ
  seats : κ → Seat σ

/-- The link with the server as it is now. -/
def Link.on {σ : Type} (link : Link σ) (service : Service σ) : Link σ :=
  { link with conn.service := service }

/-- What happens next: a client calls, the loop reads the next bytes that a client has sent, a
client returns from its call. -/
inductive ClientStep (κ : Type)
  | invoke (client : κ) (call : ApiCall)
  | deliver (client : κ) (count : Nat)
  | back (client : κ) (reads : List Read)

section Steps

variable {κ σ : Type} [DecidableEq κ] (env : Env) (host : Handler ServerCall.Answer σ)
  (megabytes : Int32) (options : Options)

/-- **One step** and what is seen of it, `none` if it is not possible, or if the parser does not
return from the piece. A call returns when its commands have been read and their replies have
arrived. -/
def Clients.step (clients : Clients κ σ) : ClientStep κ → Option (Clients κ σ × Option (Seen κ))
  | .invoke client call =>
    let seat := clients.seats client
    if seat.call.isNone then
      some ({ clients with
        seats := Function.update clients.seats client { seat with
          call := some call
          outgoing := call.commands.flatMap encodeRespArrayCommand } },
        some (.called client call))
    else none
  | .deliver client count => do
    let seat := clients.seats client
    let link := seat.link.on clients.service
    let (input, conn) ← link.receive env host megabytes [seat.outgoing.take count]
    return ({
        service := conn.service
        seats := Function.update clients.seats client { seat with
          link := { seat.link with input := input, conn := conn }
          outgoing := seat.outgoing.drop count
          incoming := seat.incoming ++ sentSince link.conn conn } }, none)
  | .back client reads => do
    let seat := clients.seats client
    let call ← seat.call
    let done ← call.api.call options seat.link.client reads
    if seat.outgoing = [] ∧ arrived reads = seat.incoming ∧
        call.api.requests.take done.sent = call.commands ∧
        (arrived done.later = [] ∨ done.client.connected = false) then
      return ({ clients with
        seats := Function.update clients.seats client { seat with
          link := { seat.link with client := done.client }
          call := none
          incoming := [] } },
        some (.returned client done.result))
    else none

end Steps

/-- Calls with one command. -/
def ApiCall.single : ApiCall → Bool
  | .mget _ | .mset _ => false
  | _ => true

/-- What the steps have to be: the calls have one command that fits into the input buffer, and no
read fails. -/
def ClientStep.Calm {κ : Type} (megabytes : Int32) : ClientStep κ → Prop
  | .invoke _ call => call.single = true ∧
      (call.api.requests.flatMap encodeRespArrayCommand).length ≤ kMaxConnInbufBytes megabytes
  | .deliver _ _ => True
  | .back _ reads => ∀ read ∈ reads, read.error = none

/-! ### One connection -/

section Connections

variable {σ : Type} {env : Env} {host : Handler ServerCall.Answer σ} {megabytes : Int32}
  {options : Options}

theorem AtRest.on {link : Link σ} (rest : AtRest link) (service : Service σ) :
    AtRest (link.on service) :=
  ⟨rest.ready, rest.idle, rest.fresh, ⟨rest.unbound.outside, rest.unbound.unsubscribed⟩⟩

/-- **A piece of what a client has sent**: the commands that it completes are processed. -/
theorem receive_chunk {link : Link σ} {chunk future : Bytes} {values : List RespValue}
    {input : Connection} {conn : Conn σ}
    (received : link.receive env host megabytes [chunk] = some (input, conn))
    (idle : Idle link.input) (expects : Expects link.input.parser (chunk ++ future) values)
    (fits : chunk.length ≤ kMaxConnInbufBytes megabytes) :
    ∃ now left, values = now ++ left ∧ processCommands env host now link.conn = some conn ∧
      Expects input.parser future left ∧ Idle input := by
  obtain ⟨⟨last, events⟩, ran, folded⟩ := Option.bind_eq_some_iff.mp received
  obtain ⟨after, processed, same⟩ := Option.bind_eq_some_iff.mp folded
  cases same
  obtain ⟨next, first, later, message, nothing, rfl⟩ := onMessages_cons ran
  cases nothing
  rw [List.append_nil] at processed
  obtain ⟨left, rfl, expects', idle', smooth⟩ := onMessage_expects idle fits message expects
  rw [foldlM_happen smooth] at processed
  exact ⟨_, left, rfl, processed, expects', idle'⟩

/-- A piece without bytes changes nothing. -/
theorem receive_nothing {link : Link σ} (rest : AtRest link) {input : Connection} {conn : Conn σ}
    (received : link.receive env host megabytes [[]] = some (input, conn)) :
    conn = link.conn ∧ AtRest { link with input := input, conn := conn } := by
  have expects : Expects link.input.parser ([] ++ []) [] := ⟨rest.fresh, rfl⟩
  obtain ⟨now, left, nothing, processed, expects', idle⟩ :=
    receive_chunk received rest.idle expects (Nat.zero_le _)
  obtain ⟨rfl, rfl⟩ := List.append_eq_nil_iff.mp nothing.symm
  cases processed
  exact ⟨rfl, rest.ready, idle, expects'.1, rest.unbound⟩

/-- A call that is not refused sends one command. -/
theorem ApiCall.single_commands {call : ApiCall} (single : call.single = true) :
    ∃ args, call.api.requests = [args] := by
  cases call with
  | mget keys => cases single
  | mset kvs => cases single
  | _ => exact ⟨_, rfl⟩

/-- **Where a connection is with the call of its client**: nothing is called; the command is still
being read; or it has been processed, and the client can make an answer of what was sent. -/
inductive Waits (megabytes : Int32) (options : Options) (seat : Seat σ) :
    Atomic.Stage ApiCall Expected → Prop
  | idle (rest : AtRest seat.link) (none : seat.call = none) (out : seat.outgoing = [])
      (inc : seat.incoming = []) : Waits megabytes options seat .idle
  | called {call : ApiCall} (made : seat.call = some call) (accepts : call.refuses = false)
      (fits : (call.api.requests.flatMap encodeRespArrayCommand).length ≤
        kMaxConnInbufBytes megabytes) {args : List Bytes} (sends : call.api.requests = [args])
      (ready : seat.link.client.Ready) (idle : Idle seat.link.input)
      (expects : Expects seat.link.input.parser seat.outgoing [commandValue args])
      (short : seat.outgoing.length ≤ kMaxConnInbufBytes megabytes)
      (unbound : Unbound seat.link.conn) (inc : seat.incoming = []) :
      Waits megabytes options seat (.called call)
  | done {call : ApiCall} {answer : Expected} (made : seat.call = some call)
      (rest : AtRest seat.link) (out : seat.outgoing = [])
      (returns : ∀ reads, Brings reads seat.incoming →
        ∃ done, call.api.call options seat.link.client reads = some done ∧ done.client.Ready ∧
          Meets done.result answer) : Waits megabytes options seat (.done answer)

end Connections

/-! ### The simulation -/

section Simulation

variable {κ σ : Type} [DecidableEq κ] {env : Env} {host : Handler ServerCall.Answer σ}
  {megabytes : Int32} {options : Options}

/-- **The clients and the atomic typed store.** -/
structure Simulates (megabytes : Int32) (options : Options) (clients : Clients κ σ)
    (object : Atomic.Object κ ApiCall Expected TypedStore) : Prop where
  mirrors : Mirrors clients.service.world object.state
  waits : ∀ client, Waits megabytes options (clients.seats client) (object.stage client)

variable {clients next : Clients κ σ} {object : Atomic.Object κ ApiCall Expected TypedStore}

/-- The server and the seat of one client change, and so does its stage. -/
theorem Simulates.update (simulates : Simulates megabytes options clients object) {client : κ}
    {service : Service σ} {store : TypedStore} (mirrors : Mirrors service.world store)
    {seat : Seat σ} {stage : Atomic.Stage ApiCall Expected}
    (waits : Waits megabytes options seat stage) :
    Simulates megabytes options ⟨service, Function.update clients.seats client seat⟩
      ⟨store, Function.update object.stage client stage⟩ := by
  refine ⟨mirrors, fun other => ?_⟩
  by_cases same : other = client
  · subst same
    simp only [Function.update_self]
    exact waits
  · simp only [Function.update_of_ne same]
    exact simulates.waits other

/-- The same, with the stage as it was. -/
theorem Simulates.stay (simulates : Simulates megabytes options clients object) {client : κ}
    {service : Service σ} (mirrors : Mirrors service.world object.state) {seat : Seat σ}
    (waits : Waits megabytes options seat (object.stage client)) :
    Simulates megabytes options ⟨service, Function.update clients.seats client seat⟩ object := by
  have updated := @Simulates.update _ _ _ _ _ _ _ simulates client _ _ mirrors _ _ waits
  rwa [Function.update_eq_self] at updated

/-- A client calls; a call that is refused takes effect at once. -/
theorem Simulates.invoke (simulates : Simulates megabytes options clients object) {client : κ}
    {call : ApiCall} (calm : (ClientStep.invoke client call).Calm megabytes)
    {seen : Option (Seen κ)}
    (taken : clients.step env host megabytes options (.invoke client call) = some (next, seen)) :
    ∃ after, Atomic.Runs ApiCall.spec Meets object seen.toList after ∧
      Simulates megabytes options next after := by
  obtain ⟨single, fits⟩ := calm
  rw [Clients.step] at taken
  split at taken
  case isFalse => cases taken
  case isTrue free =>
  cases taken
  obtain ⟨rest, idle, inc⟩ : AtRest (clients.seats client).link ∧ object.stage client = .idle ∧
      (clients.seats client).incoming = [] := by
    have waits := simulates.waits client
    generalize stage : object.stage client = now at waits
    cases waits with
    | idle rest none out inc => exact ⟨rest, rfl, inc⟩
    | called made => simp [made] at free
    | done made => simp [made] at free
  have called : Atomic.Runs ApiCall.spec Meets object
      (some (.called client call) : Option (Seen κ)).toList
      { object with stage := Function.update object.stage client (.called call) } :=
    .one (.call idle)
  cases refuses : call.refuses with
  | false =>
    obtain ⟨args, sends⟩ := ApiCall.single_commands single
    refine ⟨_, called, simulates.update simulates.mirrors ?_⟩
    have commands : call.commands = [args] := by
      rw [ApiCall.commands, refuses]
      exact sends
    have filled : ∀ some ∈ [args], some ≠ [] := sends ▸ call.filled
    have expects : Expects {} ([args].flatMap encodeRespArrayCommand) ([args].map commandValue) :=
      expects_stream filled (sends ▸ fits)
    refine .called rfl refuses fits sends rest.ready rest.idle ?_ ?_ rest.unbound inc
    · rw [rest.fresh, commands]
      exact expects
    · rw [commands, ← sends]
      exact fits
  | true =>
    -- Nothing is sent, and the client has its answer already.
    have effect : Atomic.Step ApiCall.spec Meets
        { object with stage := Function.update object.stage client (.called call) }
        (none : Option (Seen κ)) _ := .effect (Function.update_self ..)
    refine ⟨_, called.append (.one effect), ?_⟩
    rw [Atomic.Object.effect, Function.update_idem]
    obtain ⟨-, spec⟩ := call.call_refused refuses options {} [] object.state
    rw [spec]
    refine simulates.update simulates.mirrors ?_
    have commands : call.commands = [] := if_pos refuses
    refine .done rfl rest ?_ fun reads _ => ?_
    · rw [commands]
      rfl
    · obtain ⟨⟨message, refused⟩, -⟩ :=
        call.call_refused refuses options (clients.seats client).link.client reads object.state
      exact ⟨_, refused, rest.ready, trivial⟩

/-- **The loop reads a piece**: the call takes effect when the piece completes its command. -/
theorem Simulates.deliver (simulates : Simulates megabytes options clients object)
    (patient : options.Patient) {client : κ} {count : Nat} {seen : Option (Seen κ)}
    (taken : clients.step env host megabytes options (.deliver client count) = some (next, seen))
    (issued : ∀ issued ∈ next.service.issued, issued.Fits) :
    ∃ after, Atomic.Runs ApiCall.spec Meets object seen.toList after ∧
      Simulates megabytes options next after := by
  obtain ⟨⟨input, conn⟩, received, same⟩ := Option.bind_eq_some_iff.mp taken
  cases same
  have waits := simulates.waits client
  generalize stage : object.stage client = now at waits
  cases waits with
  | idle rest none out inc =>
    rw [out, List.take_nil] at received
    obtain ⟨rfl, rest'⟩ := receive_nothing (rest.on clients.service) received
    refine ⟨object, .stop object, simulates.stay simulates.mirrors ?_⟩
    rw [stage]
    exact .idle rest' none (by simp [out]) (by simp [inc, sentSince])
  | done made rest out returns =>
    rw [out, List.take_nil] at received
    obtain ⟨rfl, rest'⟩ := receive_nothing (rest.on clients.service) received
    refine ⟨object, .stop object, simulates.stay simulates.mirrors ?_⟩
    rw [stage]
    refine .done made rest' (by simp [out]) ?_
    simpa only [sentSince, List.drop_length, List.flatten_nil, List.append_nil] using returns
  | @called call made accepts fits args sends ready idle expects short unbound inc =>
    rw [← List.take_append_drop count (clients.seats client).outgoing] at expects
    have within : ((clients.seats client).outgoing.take count).length ≤
        kMaxConnInbufBytes megabytes := (List.take_sublist ..).length_le.trans short
    obtain ⟨now, left, split, processed, expects', idle'⟩ :=
      receive_chunk received idle expects within
    have unbound : Unbound ((clients.seats client).link.on clients.service).conn :=
      ⟨unbound.outside, unbound.unsubscribed⟩
    cases now with
    | nil =>
      -- The command is not complete.
      obtain rfl : [commandValue args] = left := split
      cases processed
      refine ⟨object, .stop object, simulates.stay simulates.mirrors ?_⟩
      rw [stage]
      refine .called made accepts fits sends ready idle' expects' ?_ unbound ?_
      · exact (List.drop_sublist ..).length_le.trans short
      · simp [inc, sentSince]
    | cons value now =>
      obtain ⟨rfl, rfl, rfl⟩ : value = commandValue args ∧ now = [] ∧ left = [] := by
        simpa [eq_comm] using split
      obtain ⟨values, after, serves⟩ : ∃ values after, Serves env host
          ((clients.seats client).link.on clients.service).conn object.state call values after :=
        ApiCall.served simulates.mirrors unbound accepts (few_of_fits fits)
      have answered := serves.answered
      rw [sends] at answered
      obtain rfl : conn = after := Option.some.inj (processed.symm.trans answered.processed)
      refine ⟨_, .one (.effect stage), simulates.update serves.mirrors ?_⟩
      refine .done made ⟨ready, idle', expects'.1, answered.unbound⟩
        expects'.2 fun reads brings => ?_
      rw [inc, List.nil_append, answered.sentSince] at brings
      obtain ⟨result, later, called, -, meets⟩ :=
        serves.returns issued options _ reads patient ready brings
      exact ⟨_, called, ⟨rfl, rfl⟩, meets⟩

/-- A call returns. -/
theorem Simulates.back (simulates : Simulates megabytes options clients object) {client : κ}
    {reads : List Read} (calm : (ClientStep.back client reads).Calm megabytes)
    {seen : Option (Seen κ)}
    (taken : clients.step env host megabytes options (.back client reads) = some (next, seen)) :
    ∃ after, Atomic.Runs ApiCall.spec Meets object seen.toList after ∧
      Simulates megabytes options next after := by
  obtain ⟨call, made, rest⟩ := Option.bind_eq_some_iff.mp taken
  obtain ⟨done, called, rest⟩ := Option.bind_eq_some_iff.mp rest
  split at rest
  case isFalse => cases rest
  case isTrue possible =>
  cases rest
  obtain ⟨out, brought, -, -⟩ := possible
  have waits := simulates.waits client
  generalize stage : object.stage client = now at waits
  cases waits with
  | idle _ none =>
    rw [none] at made
    cases made
  | called _ _ _ _ _ _ expects =>
    rw [out] at expects
    exact absurd expects.finished.1 (List.cons_ne_nil _ _)
  | @done call' answer made' rest out returns =>
    obtain rfl : call = call' := Option.some.inj (made.symm.trans made')
    obtain ⟨done', called', ready, meets⟩ := returns reads ⟨calm, brought⟩
    obtain rfl : done = done' := Option.some.inj (called.symm.trans called')
    refine ⟨_, .one (.back stage meets), simulates.update simulates.mirrors ?_⟩
    exact .idle ⟨ready, rest.idle, rest.fresh, rest.unbound⟩ rfl out rfl

/-- **Every step of the clients is one that an atomic typed store can follow.** -/
theorem Simulates.step (simulates : Simulates megabytes options clients object)
    (patient : options.Patient) {action : ClientStep κ} (calm : action.Calm megabytes)
    {seen : Option (Seen κ)}
    (taken : clients.step env host megabytes options action = some (next, seen))
    (issued : ∀ issued ∈ next.service.issued, issued.Fits) :
    ∃ after, Atomic.Runs ApiCall.spec Meets object seen.toList after ∧
      Simulates megabytes options next after := by
  cases action with
  | invoke client call => exact simulates.invoke calm taken
  | deliver client count => exact simulates.deliver patient taken issued
  | back client reads => exact simulates.back calm taken

/-- A step forgets no operation. -/
theorem Clients.step_issued {action : ClientStep κ} {seen : Option (Seen κ)}
    (taken : clients.step env host megabytes options action = some (next, seen)) :
    clients.service.issued ⊆ next.service.issued := by
  cases action with
  | invoke client call =>
    rw [Clients.step] at taken
    split at taken
    · cases taken
      exact List.Subset.refl _
    · cases taken
  | deliver client count =>
    obtain ⟨⟨input, conn⟩, received, same⟩ := Option.bind_eq_some_iff.mp taken
    cases same
    exact Link.receive_issued received
  | back client reads =>
    obtain ⟨call, made, rest⟩ := Option.bind_eq_some_iff.mp taken
    obtain ⟨done, called, rest⟩ := Option.bind_eq_some_iff.mp rest
    split at rest
    · cases rest
      exact List.Subset.refl _
    · cases rest

end Simulation

/-! ### Linearizability -/

section Linearizability

variable {κ σ : Type} [DecidableEq κ]

/-- Clients that have just connected to a server that holds nothing yet. -/
def freshClients (κ : Type) {σ : Type} (rest : σ) : Clients κ σ where
  service := { world := {}, rest := rest }
  seats _ := { link := freshLink rest }

/-- **The clients of a loop see an atomic typed store.** Whatever they call, however their calls
overlap and however the loop gets to read what they send: there is a run of the typed store in which
every call takes effect in one step, between the moment it is made and the moment it returns, and
returns this result. -/
theorem calls_linearizable (env : Env) (host : Handler ServerCall.Answer σ) (rest : σ)
    (megabytes : Int32) (options : Options) (patient : options.Patient)
    (steps : List (ClientStep κ)) (calm : ∀ step ∈ steps, step.Calm megabytes)
    (last : Clients κ σ) (history : List (Seen κ))
    (ran : Atomic.run (Clients.step env host megabytes options) steps (freshClients κ rest) =
      some (last, history))
    (issued : ∀ issued ∈ last.service.issued, issued.Fits) :
    ∃ object, Atomic.Runs ApiCall.spec Meets { state := fun _ => none } history object ∧
      ∀ key, Depicts (last.service.world.view key) (object.state key) := by
  have start : Simulates megabytes options (freshClients κ rest)
      ({ state := fun _ => none } : Atomic.Object κ ApiCall Expected TypedStore) :=
    ⟨mirrors_empty, fun client => .idle (atRest_fresh _) rfl rfl rfl⟩
  have backward {clients next : Clients κ σ} {action : ClientStep κ} {seen : Option (Seen κ)}
      (taken : clients.step env host megabytes options action = some (next, seen))
      (fits : ∀ issued ∈ next.service.issued, issued.Fits) :
      ∀ issued ∈ clients.service.issued, issued.Fits :=
    fun call member => fits call (Clients.step_issued taken member)
  obtain ⟨object, runs, simulates⟩ := Atomic.Runs.simulate ran backward
    (fun simulates calm taken issued => Simulates.step simulates patient calm taken issued)
    calm start issued
  exact ⟨object, runs, simulates.mirrors.depicts⟩

end Linearizability

/-- A `set` is called first, and its command is read last. -/
def overlapping : List (ClientStep Bool) :=
  [.invoke true (.one (.set [107] [118])), .invoke false (.one (.get [107])), .deliver false 8,
    .deliver false 64, .deliver true 64, .back true [.data (text "+OK\r\n")],
    .back false [.data (text "$-1\r\n")]]

theorem issued_overlapping :
    (Atomic.run (Clients.step (Env.still 0) idleHost 1 {}) overlapping (freshClients Bool ())).map
      (fun out => out.1.service.issued.all fun issued => decide issued.Fits) = some true := by
  decide +kernel

/-- The `get` has returned without the value that was being set. -/
theorem calls_linearizable_overlapping :
    ∃ (last : Clients Bool Unit) (history : List (Seen Bool))
      (object : Atomic.Object Bool ApiCall Expected TypedStore),
      Atomic.run (Clients.step (Env.still 0) idleHost 1 {}) overlapping (freshClients Bool ()) =
        some (last, history) ∧
      Atomic.Runs ApiCall.spec Meets { state := fun _ => none } history object := by
  have calm : ∀ step ∈ overlapping, step.Calm 1 := by
    simp only [overlapping, List.forall_mem_cons]
    refine ⟨⟨rfl, by decide⟩, ⟨rfl, by decide⟩, trivial, trivial, trivial, ?_, ?_, nofun⟩
    · exact List.forall_mem_singleton.mpr rfl
    · exact List.forall_mem_singleton.mpr rfl
  obtain ⟨⟨last, history⟩, ran, fits⟩ := Option.map_eq_some_iff.mp issued_overlapping
  have issued : ∀ issued ∈ last.service.issued, issued.Fits :=
    fun issued member => of_decide_eq_true (List.all_eq_true.mp fits issued member)
  obtain ⟨object, runs, -⟩ := calls_linearizable (Env.still 0) idleHost () 1 {}
    ⟨by decide, by decide⟩ overlapping calm last history ran issued
  exact ⟨last, history, object, ran, runs⟩

end SunKV.System
