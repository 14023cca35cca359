/-
**Programs over a signature of calls, run alone and run in pairs.**

A program is a tree: it stops with a value, or makes one call and goes on with the answer. A
handler gives every call its atomic effect on a shared state.

* `run` — one program alone, from call to call (`run_bind`: running a sequence is running its
  parts in turn).
* `Makes.run_related` — handlers that answer alike on related states and keep them related run a
  program alike.
* `attempt` — a program whose calls may be errors, which end it (`attempt_bind`).
* `interleave` — two programs on one state, one call at a time, in the order a schedule gives.
* `Disciplined` — no call of one program changes the state while the other is in flight (between
  its first call and its end), and no program overlaps one that has already changed it.
* `interleave_serial` — a disciplined interleaving has the results and the final state of running
  the two programs one after the other, in one of the two orders.
* `interleaveAll` — any number of programs. `interleaveAll_good_iff` — when one kind of call alone
  spoils the state, the states on the way are good exactly when no such call is made.
-/

import Mathlib

namespace SunKV.Lib

/-- A program that makes calls `Q`, answered in `A`, and returns an `α`. -/
inductive Program {Q : Type} (A : Q → Type) (α : Type) : Type
  | pure (value : α) : Program A α
  | query (request : Q) (next : A request → Program A α) : Program A α

/-- The atomic effect of every call on a state. -/
abbrev Handler {Q : Type} (A : Q → Type) (σ : Type) := (request : Q) → σ → A request × σ

/-- The effect of every call that is no error. -/
abbrev PartialHandler {Q : Type} (A : Q → Type) (σ : Type) :=
  (request : Q) → σ → Option (A request × σ)

namespace Program

variable {Q : Type} {A : Q → Type} {α β γ σ : Type}

/-- One program after the other. -/
def bind (first : Program A α) (rest : α → Program A β) : Program A β :=
  match first with
  | .pure value => rest value
  | .query request next => .query request fun answer => (next answer).bind rest

instance : Monad (Program A) where
  pure := .pure
  bind := .bind

/-- A single call. -/
def ask (request : Q) : Program A (A request) :=
  .query request .pure

/-- **One program alone.** -/
def run (handler : Handler A σ) : Program A α → σ → α × σ
  | .pure value, state => (value, state)
  | .query request next, state =>
      (next (handler request state).1).run handler (handler request state).2

/-- **Running a sequence is running its parts in turn.** -/
@[simp] theorem run_bind (handler : Handler A σ) (first : Program A α) (rest : α → Program A β)
    (state : σ) :
    (first >>= rest).run handler state =
      (rest (first.run handler state).1).run handler (first.run handler state).2 := by
  induction first generalizing state with
  | pure value => rfl
  | query request next ih => exact ih _ _

/-! ### One program on two states -/

/-- Every call the program can make, whatever the answers, is an allowed one. -/
def Makes (allowed : Q → Prop) : Program A α → Prop
  | .pure _ => True
  | .query request next => allowed request ∧ ∀ answer, (next answer).Makes allowed

theorem makes_pure (allowed : Q → Prop) (value : α) :
    (pure value : Program A α).Makes allowed := trivial

theorem makes_ask {allowed : Q → Prop} {request : Q} (granted : allowed request) :
    (ask request : Program A (A request)).Makes allowed := ⟨granted, fun _ => trivial⟩

theorem Makes.mono {allowed granted : Q → Prop} {program : Program A α}
    (makes : program.Makes allowed) (all : ∀ request, allowed request → granted request) :
    program.Makes granted := by
  induction program with
  | pure value => trivial
  | query request next ih => exact ⟨all request makes.1, fun answer => ih answer (makes.2 answer)⟩

theorem Makes.bind {allowed : Q → Prop} {first : Program A α} {rest : α → Program A β}
    (makes : first.Makes allowed) (later : ∀ value, (rest value).Makes allowed) :
    (first >>= rest).Makes allowed := by
  induction first with
  | pure value => exact later value
  | query request next ih => exact ⟨makes.1, fun answer => ih answer (makes.2 answer)⟩

/-- **Simulation.** If related states give every allowed call the same answer and stay related, a
program that makes no other calls returns the same from both, and leaves them related. -/
theorem Makes.run_related {τ : Type} {allowed : Q → Prop} {handler : Handler A σ}
    {handler' : Handler A τ} {related : σ → τ → Prop}
    (step : ∀ request, allowed request → ∀ state state', related state state' →
      (handler request state).1 = (handler' request state').1 ∧
        related (handler request state).2 (handler' request state').2)
    {program : Program A α} (makes : program.Makes allowed) {state : σ} {state' : τ}
    (start : related state state') :
    (program.run handler state).1 = (program.run handler' state').1 ∧
      related (program.run handler state).2 (program.run handler' state').2 := by
  induction program generalizing state state' with
  | pure value => exact ⟨rfl, start⟩
  | query request next ih =>
    obtain ⟨same, later⟩ := step request makes.1 state state' start
    have rest := ih (handler request state).1 (makes.2 _) later
    rw [run, run, ← same]
    exact rest

/-- **What every allowed call keeps, a program that makes no other calls keeps.** -/
theorem Makes.run_keeps {allowed : Q → Prop} {handler : Handler A σ} {inv : σ → Prop}
    (step : ∀ request, allowed request → ∀ state, inv state → inv (handler request state).2)
    {program : Program A α} (makes : program.Makes allowed) {state : σ} (start : inv state) :
    inv (program.run handler state).2 := by
  induction program generalizing state with
  | pure value => exact start
  | query request next ih => exact ih _ (makes.2 _) (step request makes.1 state start)

/-! ### Calls that may be errors -/

/-- **One program alone, with calls that may be errors**: the first error ends it. -/
def attempt (handler : PartialHandler A σ) : Program A α → σ → Option (α × σ)
  | .pure value, state => some (value, state)
  | .query request next, state =>
      (handler request state).bind fun step => (next step.1).attempt handler step.2

@[simp] theorem attempt_bind (handler : PartialHandler A σ) (first : Program A α)
    (rest : α → Program A β) (state : σ) :
    (first >>= rest).attempt handler state =
      (first.attempt handler state).bind fun step => (rest step.1).attempt handler step.2 := by
  induction first generalizing state with
  | pure value => rfl
  | query request next ih =>
    show (handler request state).bind _ = ((handler request state).bind _).bind _
    rw [Option.bind_assoc]
    congr 1
    funext step
    exact ih step.1 step.2

/-! ### Two programs on one state -/

/-- The program that moves next. -/
inductive Side
  | left
  | right
  deriving DecidableEq, Repr

/-- Whether a program has calls left to make. -/
def calls : Program A α → Prop
  | .pure _ => False
  | .query _ _ => True

/-- One turn of a program: its next call, or nothing once it has stopped. -/
def turn (handler : Handler A σ) : Program A α → σ → Program A α × σ
  | .pure value, state => (.pure value, state)
  | .query request next, state =>
      (next (handler request state).1, (handler request state).2)

/-- **Two programs on one state**, one turn at a time in the order of the schedule. -/
def interleave (handler : Handler A σ) :
    List Side → Program A α → Program A β → σ → Program A α × Program A β × σ
  | [], left, right, state => (left, right, state)
  | .left :: schedule, left, right, state =>
      interleave handler schedule (left.turn handler state).1 right (left.turn handler state).2
  | .right :: schedule, left, right, state =>
      interleave handler schedule left (right.turn handler state).1 (right.turn handler state).2

/-- The left program, then the right one. -/
def serial (handler : Handler A σ) (left : Program A α) (right : Program A β) (state : σ) :
    α × β × σ :=
  ((left.run handler state).1, right.run handler (left.run handler state).2)

/-- The right program, then the left one. -/
def serialRight (handler : Handler A σ) (left : Program A α) (right : Program A β) (state : σ) :
    α × β × σ :=
  ((left.run handler (right.run handler state).2).1, (right.run handler state).1,
    (left.run handler (right.run handler state).2).2)

/-- How far a program has come: whether it made a call, and whether its calls changed the
state. -/
structure Phase where
  started : Prop
  changed : Prop

/-- Before the first call. -/
def Phase.fresh : Phase := ⟨False, False⟩

/-- After one more call, from `before` to `after`. -/
def Phase.next (phase : Phase) (before after : σ) : Phase :=
  ⟨True, phase.changed ∨ after ≠ before⟩

/-- Between its first call and its end. -/
def InFlight (phase : Phase) (program : Program A α) : Prop :=
  phase.started ∧ program.calls

/-- The rule for one turn of `mover`: if the other program is in flight, it has not changed the
state so far and this call does not change it either. -/
def TurnOk (handler : Handler A σ) (mover : Program A α) (phase : Phase) (other : Program A β)
    (state : σ) : Prop :=
  mover.calls → InFlight phase other →
    ¬ phase.changed ∧ (mover.turn handler state).2 = state

open Classical in
/-- The phase of a program after its turn. -/
noncomputable def phaseAfter (handler : Handler A σ) (mover : Program A α) (phase : Phase)
    (state : σ) : Phase :=
  if mover.calls then phase.next state (mover.turn handler state).2 else phase

/-- **A disciplined schedule**: every turn keeps the rule `TurnOk`. -/
def Disciplined (handler : Handler A σ) :
    List Side → Program A α → Phase → Program A β → Phase → σ → Prop
  | [], _, _, _, _, _ => True
  | .left :: schedule, left, leftPhase, right, rightPhase, state =>
      TurnOk handler left rightPhase right state ∧
        Disciplined handler schedule (left.turn handler state).1
          (phaseAfter handler left leftPhase state) right rightPhase (left.turn handler state).2
  | .right :: schedule, left, leftPhase, right, rightPhase, state =>
      TurnOk handler right leftPhase left state ∧
        Disciplined handler schedule left leftPhase (right.turn handler state).1
          (phaseAfter handler right rightPhase state) (right.turn handler state).2

section Serial

variable {handler : Handler A σ}

theorem run_turn (program : Program A α) (state : σ) :
    (program.turn handler state).1.run handler (program.turn handler state).2 =
      program.run handler state := by
  cases program <;> rfl

theorem turn_of_not_calls {program : Program A α} (stopped : ¬ program.calls) (state : σ) :
    program.turn handler state = (program, state) := by
  cases program with
  | pure value => rfl
  | query request next => exact (stopped trivial).elim

theorem run_of_not_calls {program : Program A α} (stopped : ¬ program.calls) (state : σ) :
    (program.run handler state).2 = state := by
  cases program with
  | pure value => rfl
  | query request next => exact (stopped trivial).elim

/-- **Where a disciplined interleaving stands**, seen from the program that leads: it is alone so
far, both overlap without having changed anything, or the leader has stopped. -/
inductive Leads (handler : Handler A σ) (first : Program A α) (second : Program A β) (start : σ) :
    Program A α → Phase → Program A β → Phase → σ → Prop
  | alone {lead : Program A α} {leadPhase followPhase : Phase} {state : σ} :
      first.run handler start = lead.run handler state →
      (¬ leadPhase.started → lead = first ∧ state = start ∧ ¬ leadPhase.changed) →
      (¬ leadPhase.changed → state = start) →
      ¬ followPhase.started → ¬ followPhase.changed →
      Leads handler first second start lead leadPhase second followPhase state
  | overlap {lead : Program A α} {follow : Program A β} {leadPhase followPhase : Phase} :
      first.run handler start = lead.run handler start →
      second.run handler start = follow.run handler start →
      leadPhase.started → followPhase.started → ¬ leadPhase.changed → ¬ followPhase.changed →
      Leads handler first second start lead leadPhase follow followPhase start
  | stopped {lead : Program A α} {follow : Program A β} {leadPhase followPhase : Phase}
      {state : σ} :
      ¬ lead.calls → (first.run handler start).1 = (lead.run handler state).1 →
      second.run handler (first.run handler start).2 = follow.run handler state →
      Leads handler first second start lead leadPhase follow followPhase state

variable {first : Program A α} {second : Program A β} {start state : σ}
  {lead : Program A α} {follow : Program A β} {leadPhase followPhase : Phase}

theorem value_of_not_calls {program : Program A α} (stopped : ¬ program.calls) (before after : σ) :
    (program.run handler before).1 = (program.run handler after).1 := by
  cases program with
  | pure value => rfl
  | query request next => exact (stopped trivial).elim

/-- A turn of the leader. -/
theorem Leads.leadTurn
    (leads : Leads handler first second start lead leadPhase follow followPhase state)
    (rule : TurnOk handler lead followPhase follow state) :
    Leads handler first second start (lead.turn handler state).1
        (phaseAfter handler lead leadPhase state) follow followPhase (lead.turn handler state).2 ∨
      Leads handler second first start follow followPhase (lead.turn handler state).1
        (phaseAfter handler lead leadPhase state) (lead.turn handler state).2 := by
  by_cases moves : lead.calls
  swap
  · rw [turn_of_not_calls moves, phaseAfter, if_neg moves]
    exact Or.inl leads
  rw [phaseAfter, if_pos moves]
  cases leads with
  | alone same fresh clean quiet quiet' =>
    refine Or.inl
      (.alone (by rw [same, run_turn]) (fun idle => (idle trivial).elim) ?_ quiet quiet')
    intro unchanged
    simp only [Phase.next, not_or, not_not] at unchanged
    rw [unchanged.2, clean unchanged.1]
  | overlap same same' started started' clean clean' =>
    by_cases flies : follow.calls
    · obtain ⟨_, silent⟩ := rule moves ⟨started', flies⟩
      rw [silent]
      refine Or.inl (.overlap ?_ same' trivial started' ?_ clean')
      · rw [same, ← run_turn, silent]
      · simp [Phase.next, clean]
    · refine Or.inr (.stopped flies ?_ ?_)
      · rw [same']
        exact value_of_not_calls flies _ _
      · rw [same', run_of_not_calls flies, same, run_turn]
  | stopped done _ _ => exact (done moves).elim

/-- A turn of the other program. -/
theorem Leads.followTurn
    (leads : Leads handler first second start lead leadPhase follow followPhase state)
    (rule : TurnOk handler follow leadPhase lead state) :
    Leads handler first second start lead leadPhase (follow.turn handler state).1
        (phaseAfter handler follow followPhase state) (follow.turn handler state).2 ∨
      Leads handler second first start (follow.turn handler state).1
        (phaseAfter handler follow followPhase state) lead leadPhase
        (follow.turn handler state).2 := by
  by_cases moves : follow.calls
  swap
  · rw [turn_of_not_calls moves, phaseAfter, if_neg moves]
    exact Or.inl leads
  rw [phaseAfter, if_pos moves]
  cases leads with
  | alone same fresh clean quiet quiet' =>
    by_cases started : leadPhase.started
    · by_cases flies : lead.calls
      · obtain ⟨unchanged, silent⟩ := rule moves ⟨started, flies⟩
        obtain rfl := clean unchanged
        rw [silent]
        refine Or.inl (.overlap same ?_ started trivial unchanged ?_)
        · rw [← run_turn, silent]
        · simp [Phase.next, quiet']
      · refine Or.inl (.stopped flies ?_ ?_)
        · rw [same]
          exact value_of_not_calls flies _ _
        · rw [same, run_of_not_calls flies, run_turn]
    · obtain ⟨rfl, rfl, unchanged⟩ := fresh started
      refine Or.inr
        (.alone (run_turn _ _).symm (fun idle => (idle trivial).elim) ?_ started unchanged)
      intro unchanged
      simp only [Phase.next, not_or, not_not] at unchanged
      exact unchanged.2
  | overlap same same' started started' clean clean' =>
    by_cases flies : lead.calls
    · obtain ⟨_, silent⟩ := rule moves ⟨started, flies⟩
      rw [silent]
      refine Or.inl (.overlap same ?_ started trivial clean ?_)
      · rw [same', ← run_turn, silent]
      · simp [Phase.next, clean']
    · refine Or.inl (.stopped flies ?_ ?_)
      · rw [same]
        exact value_of_not_calls flies _ _
      · rw [same, run_of_not_calls flies, same', run_turn]
  | stopped done value same =>
    refine Or.inl (.stopped done ?_ ?_)
    · rw [value]
      exact value_of_not_calls done _ _
    · rw [same, run_turn]

/-- **The whole schedule.** -/
theorem interleave_leads (schedule : List Side) :
    ∀ {left : Program A α} {right : Program A β} {leftPhase rightPhase : Phase} {now : σ},
      (Leads handler first second start left leftPhase right rightPhase now ∨
        Leads handler second first start right rightPhase left leftPhase now) →
      Disciplined handler schedule left leftPhase right rightPhase now →
      ∃ leftPhase' rightPhase',
        Leads handler first second start (interleave handler schedule left right now).1 leftPhase'
            (interleave handler schedule left right now).2.1 rightPhase'
            (interleave handler schedule left right now).2.2 ∨
          Leads handler second first start (interleave handler schedule left right now).2.1
            rightPhase' (interleave handler schedule left right now).1 leftPhase'
            (interleave handler schedule left right now).2.2 := by
  induction schedule with
  | nil => exact fun leads _ => ⟨_, _, leads⟩
  | cons side schedule ih =>
    intro left right leftPhase rightPhase now leads disciplined
    cases side with
    | left =>
      obtain ⟨rule, rest⟩ := disciplined
      refine ih ?_ rest
      rcases leads with leads | leads
      · exact leads.leadTurn rule
      · exact (leads.followTurn rule).symm
    | right =>
      obtain ⟨rule, rest⟩ := disciplined
      refine ih ?_ rest
      rcases leads with leads | leads
      · exact leads.followTurn rule
      · exact (leads.leadTurn rule).symm

/-- What the leader's view says once both programs have stopped: the leader ran first, or neither
changed anything. -/
theorem Leads.finished {firstValue : α} {secondValue : β}
    (leads : Leads handler first second start (.pure firstValue) leadPhase (.pure secondValue)
      followPhase state) :
    first.run handler start = (firstValue, (first.run handler start).2) ∧
      second.run handler (first.run handler start).2 = (secondValue, state) := by
  cases leads with
  | alone same _ _ _ _ =>
    rw [same]
    exact ⟨rfl, rfl⟩
  | overlap same same' _ _ _ _ =>
    rw [same]
    exact ⟨rfl, by rw [run, same']; rfl⟩
  | stopped _ value same => exact ⟨Prod.ext value rfl, same⟩

/-- **A disciplined interleaving is serial.** -/
theorem interleave_serial (schedule : List Side) (left : Program A α) (right : Program A β)
    (start : σ) (disciplined : Disciplined handler schedule left .fresh right .fresh start)
    {leftValue : α} {rightValue : β} {final : σ}
    (finished : interleave handler schedule left right start =
      (.pure leftValue, .pure rightValue, final)) :
    (leftValue, rightValue, final) = serial handler left right start ∨
      (leftValue, rightValue, final) = serialRight handler left right start := by
  have begins : Leads handler left right start left .fresh right .fresh start :=
    .alone rfl (fun _ => ⟨rfl, rfl, id⟩) (fun _ => rfl) id id
  obtain ⟨leftPhase, rightPhase, leads⟩ :=
    interleave_leads schedule (Or.inl begins) disciplined
  rw [finished] at leads
  rcases leads with leads | leads
  · obtain ⟨one, two⟩ := leads.finished
    refine Or.inl ?_
    rw [serial, one, two]
  · obtain ⟨one, two⟩ := leads.finished
    refine Or.inr ?_
    rw [serialRight, two, one]

end Serial

/-! ### Any number of programs on one state -/

section All

variable {Q σ α : Type} {A : Q → Type}

/-- The call a program makes next. -/
def next? : Program A α → Option Q
  | .pure _ => none
  | .query request _ => some request

/-- A turn of the program with this number. -/
def turnOf (handler : Handler A σ) (mover : Nat) (programs : List (Program A α)) (state : σ) :
    List (Program A α) × σ :=
  match programs[mover]? with
  | none => (programs, state)
  | some program =>
      (programs.set mover (program.turn handler state).1, (program.turn handler state).2)

/-- **Programs on one state**, one turn at a time in the order of the schedule. -/
def interleaveAll (handler : Handler A σ) :
    List Nat → List (Program A α) → σ → List (Program A α) × σ
  | [], programs, state => (programs, state)
  | mover :: schedule, programs, state =>
      interleaveAll handler schedule (turnOf handler mover programs state).1
        (turnOf handler mover programs state).2

/-- The call that is made when it is this program's turn. -/
def nextOf (programs : List (Program A α)) (mover : Nat) : Option Q :=
  programs[mover]?.bind next?

/-- A turn makes the next call, or nothing. -/
theorem turnOf_state (handler : Handler A σ) (mover : Nat) (programs : List (Program A α))
    (state : σ) :
    (turnOf handler mover programs state).2 =
      (nextOf programs mover).elim state fun request => (handler request state).2 := by
  unfold turnOf nextOf
  cases programs[mover]? with
  | none => rfl
  | some program => cases program <;> rfl

theorem forall_prefix_cons {β : Type} {first : β} {rest : List β} {p : List β → Prop} :
    (∀ done, done <+: first :: rest → p done) ↔
      p [] ∧ ∀ done, done <+: rest → p (first :: done) := by
  constructor
  · intro all
    exact ⟨all [] List.nil_prefix,
      fun done front => all _ (List.cons_prefix_cons.mpr ⟨rfl, front⟩)⟩
  · rintro ⟨now, later⟩ done front
    cases done with
    | nil => exact now
    | cons other done =>
      obtain ⟨rfl, behind⟩ := List.cons_prefix_cons.mp front
      exact later done behind

theorem forall_snoc_prefix_cons {β : Type} {first : β} {rest : List β} {p : List β → β → Prop} :
    (∀ done last, done ++ [last] <+: first :: rest → p done last) ↔
      p [] first ∧ ∀ done last, done ++ [last] <+: rest → p (first :: done) last := by
  constructor
  · intro all
    exact ⟨all [] first (List.cons_prefix_cons.mpr ⟨rfl, List.nil_prefix⟩),
      fun done last front => all _ last (List.cons_prefix_cons.mpr ⟨rfl, front⟩)⟩
  · rintro ⟨now, later⟩ done last front
    cases done with
    | nil =>
      obtain ⟨rfl, -⟩ := List.cons_prefix_cons.mp front
      exact now
    | cons other done =>
      obtain ⟨rfl, behind⟩ := List.cons_prefix_cons.mp front
      exact later done last behind

variable {handler : Handler A σ} (inv side good : σ → Prop) (bad : Q → σ → Prop)

/-- **Where one kind of call alone spoils the state, the states on the way are good exactly when no
such call is made.** -/
theorem interleaveAll_good_iff
    (step : ∀ request state, inv state → good state → side (handler request state).2 →
      inv (handler request state).2 ∧ (good (handler request state).2 ↔ ¬ bad request state))
    (schedule : List Nat) {programs : List (Program A α)} {state : σ} (starts : inv state)
    (fine : good state)
    (beside : ∀ done, done <+: schedule → side (interleaveAll handler done programs state).2) :
    (∀ done, done <+: schedule → good (interleaveAll handler done programs state).2) ↔
      ∀ done mover, done ++ [mover] <+: schedule →
        ∀ request ∈ nextOf (interleaveAll handler done programs state).1 mover,
          ¬ bad request (interleaveAll handler done programs state).2 := by
  induction schedule generalizing programs state with
  | nil =>
    constructor
    · intro _ done mover front
      exact absurd (List.prefix_nil.mp front) (List.append_ne_nil_of_right_ne_nil _ (by simp))
    · intro _ done front
      rw [List.prefix_nil.mp front]
      exact fine
  | cons mover schedule ih =>
    rw [forall_prefix_cons] at beside ⊢
    rw [forall_snoc_prefix_cons]
    simp only [interleaveAll] at beside ⊢
    have now := turnOf_state handler mover programs state
    generalize turnOf handler mover programs state = after at now beside ⊢
    obtain ⟨programs', state'⟩ := after
    have onward : side state' := beside.2 [] List.nil_prefix
    cases made : nextOf programs mover with
    | none =>
      rw [made] at now
      obtain rfl : state' = state := now
      rw [ih starts fine beside.2]
      simp [fine]
    | some request =>
      rw [made] at now
      obtain rfl : state' = (handler request state).2 := now
      obtain ⟨kept, still⟩ := step request state starts fine onward
      by_cases spoils : bad request state
      · constructor
        · rintro ⟨-, all⟩
          exact absurd spoils (still.mp (all [] List.nil_prefix))
        · rintro ⟨never, -⟩
          exact absurd spoils (never request rfl)
      · rw [ih kept (still.mpr spoils) beside.2]
        simp [fine, spoils]

end All

end Program

end SunKV.Lib
