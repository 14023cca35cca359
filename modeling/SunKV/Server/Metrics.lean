/-
**Peak values that many threads report.**

`updateMaxInputBufferBytes_` and the latency of `recordCommandMetrics_` keep a maximum in an atomic
variable: a thread loads it, and exchanges it for its own value as long as that is larger. Any
number of threads does so at the same time.

* `Peak.Honest` — the invariant: the variable holds something that was reported, and at least what
  every finished report reported;
* `peak_exact` — **when all reports have returned, the variable is the maximum of what was
  reported**; none is lost.
-/

import Mathlib.Order.Nat
import SunKV.Lib.CasLoop
import SunKV.Lib.Machine

namespace SunKV.Server

open SunKV.Lib

/-- `while (candidate > current && !peak.compare_exchange_weak(current, candidate))`. -/
def raiseTo (candidate : Nat) : CasLoop Nat where
  wants current := current < candidate
  next _ := candidate

/-- A report under way: its value, and what its thread has seen of the variable. -/
structure Report where
  candidate : Nat
  current : Option Nat := none

/-- **The variable and the threads that report to it.** `reported` are the values of all reports,
`returned` those of the finished ones. -/
structure Peak (κ : Type) where
  value : Nat := 0
  reports : κ → Option Report := fun _ => none
  reported : List Nat := []
  returned : List Nat := []

/-- What a thread does next: it begins a report, loads the variable, or makes a pass of the loop,
in which the exchange may fail without a reason. -/
inductive PeakStep (κ : Type)
  | report (thread : κ) (candidate : Nat)
  | load (thread : κ)
  | exchange (thread : κ) (spurious : Bool)

section Peaks

variable {κ : Type} [DecidableEq κ]

/-- One step, `none` where the thread cannot take it. -/
def Peak.step (peak : Peak κ) : PeakStep κ → Option (Peak κ)
  | .report thread candidate =>
    match peak.reports thread with
    | some _ => none
    | none => some { peak with
        reports := Function.update peak.reports thread (some { candidate := candidate })
        reported := peak.reported ++ [candidate] }
  | .load thread =>
    match peak.reports thread with
    | some ⟨candidate, none⟩ => some { peak with
        reports := Function.update peak.reports thread (some ⟨candidate, some peak.value⟩) }
    | _ => none
  | .exchange thread spurious =>
    match peak.reports thread with
    | some ⟨candidate, some current⟩ =>
      match (raiseTo candidate).attempt peak.value current spurious with
      | (value, some current) => some { peak with
          value := value
          reports := Function.update peak.reports thread (some ⟨candidate, some current⟩) }
      | (value, none) => some { peak with
          value := value
          reports := Function.update peak.reports thread none
          returned := peak.returned ++ [candidate] }
    | _ => none

/-- A report is one of those made, and its thread has seen at most what the variable holds. -/
structure Report.Fair (report : Report) (peak : Peak κ) : Prop where
  known : report.candidate ∈ peak.reported
  seen : ∀ current ∈ report.current, current ≤ peak.value

/-- **The variable is honest.** -/
structure Peak.Honest (peak : Peak κ) : Prop where
  source : peak.value = 0 ∨ peak.value ∈ peak.reported
  covers : ∀ candidate ∈ peak.returned, candidate ≤ peak.value
  fair : ∀ thread, ∀ report ∈ peak.reports thread, report.Fair peak
  counts : ∀ candidate ∈ peak.reported,
    candidate ∈ peak.returned ∨ ∃ thread, ∃ report ∈ peak.reports thread,
      report.candidate = candidate

omit [DecidableEq κ] in
theorem honest_new : ({} : Peak κ).Honest :=
  ⟨.inl rfl, nofun, nofun, nofun⟩

variable {peak next : Peak κ} {thread : κ}

omit [DecidableEq κ] in
theorem Report.Fair.mono {report : Report} (fair : report.Fair peak)
    (up : peak.value ≤ next.value) (more : peak.reported ⊆ next.reported) : report.Fair next :=
  ⟨more fair.known, fun current seen => (fair.seen current seen).trans up⟩

/-- A thread goes on with its report, or begins one. -/
theorem Peak.Honest.goOn (honest : peak.Honest) {report : Report} {value : Nat}
    {reported : List Nat} (up : peak.value ≤ value)
    (source : value = 0 ∨ value ∈ reported) (more : peak.reported ⊆ reported)
    (fresh : ∀ candidate ∈ reported, candidate ∈ peak.reported ∨ candidate = report.candidate)
    (known : report.candidate ∈ reported) (seen : ∀ current ∈ report.current, current ≤ value)
    (same : ∀ old ∈ peak.reports thread, old.candidate = report.candidate) :
    Peak.Honest { peak with
      value := value
      reports := Function.update peak.reports thread (some report)
      reported := reported } where
  source := source
  covers candidate member := (honest.covers candidate member).trans up
  fair := by
    refine (Function.forall_update_iff _ fun _ (held : Option Report) =>
      ∀ report' ∈ held, report'.Fair _).mpr ⟨?_, fun other _ report' found => ?_⟩
    · rintro report' ⟨⟩
      exact ⟨known, seen⟩
    · exact (honest.fair other report' found).mono up more
  counts candidate member := by
    have mine : ∃ owner, ∃ report' ∈ Function.update peak.reports thread (some report) owner,
        report'.candidate = report.candidate :=
      ⟨thread, report, Function.update_self .., rfl⟩
    rcases fresh candidate member with old | rfl
    · rcases honest.counts candidate old with done | ⟨owner, report', found, rfl⟩
      · exact .inl done
      · by_cases here : owner = thread
        · subst here
          rw [same report' found]
          exact .inr mine
        · exact .inr ⟨owner, report', (Function.update_of_ne here ..).trans found, rfl⟩
    · exact .inr mine

/-- A thread has finished its report. -/
theorem Peak.Honest.finish (honest : peak.Honest) {report : Report}
    (found : peak.reports thread = some report) (covered : report.candidate ≤ peak.value) :
    Peak.Honest { peak with
      reports := Function.update peak.reports thread none
      returned := peak.returned ++ [report.candidate] } where
  source := honest.source
  covers candidate member := by
    rcases List.mem_append.mp member with before | now
    · exact honest.covers candidate before
    · obtain rfl := List.mem_singleton.mp now
      exact covered
  fair := by
    refine (Function.forall_update_iff _ fun _ (held : Option Report) =>
      ∀ report' ∈ held, report'.Fair _).mpr ⟨nofun, fun other _ report' found => ?_⟩
    exact (honest.fair other report' found).mono le_rfl (List.Subset.refl _)
  counts candidate member := by
    rcases honest.counts candidate member with done | ⟨owner, report', found', rfl⟩
    · exact .inl (List.mem_append_left _ done)
    · by_cases here : owner = thread
      · subst here
        cases found.symm.trans found'
        exact .inl (List.mem_append_right _ (List.mem_singleton.mpr rfl))
      · exact .inr ⟨owner, report', (Function.update_of_ne here ..).trans found', rfl⟩

/-- **Every step keeps the variable honest.** -/
theorem Peak.Honest.step (honest : peak.Honest) {action : PeakStep κ}
    (taken : peak.step action = some next) : next.Honest := by
  cases action with
  | report thread candidate =>
    rw [Peak.step] at taken
    split at taken
    · cases taken
    case h_2 free =>
      cases taken
      refine honest.goOn le_rfl ?_ (List.subset_append_left _ _) ?_ ?_ nofun ?_
      · exact honest.source.imp id (List.mem_append_left _)
      · intro other member
        exact (List.mem_append.mp member).imp id List.mem_singleton.mp
      · exact List.mem_append_right _ (List.mem_singleton.mpr rfl)
      · intro old found
        rw [free] at found
        cases found
  | load thread =>
    rw [Peak.step] at taken
    split at taken
    case h_1 candidate found =>
      cases taken
      refine honest.goOn le_rfl honest.source (List.Subset.refl _) (fun _ => .inl) ?_ ?_ ?_
      · exact (honest.fair thread _ found).known
      · rintro current ⟨⟩
        exact le_rfl
      · intro old found'
        cases found.symm.trans found'
        rfl
    · cases taken
  | exchange thread spurious =>
    rw [Peak.step] at taken
    split at taken
    case h_1 candidate current found =>
      have fair := honest.fair thread _ found
      have attempted := (raiseTo candidate).attempted peak.value current spurious
      split at taken
      case h_1 value now passed =>
        rw [passed] at attempted
        cases taken
        have up := attempted.le fun wants => (of_decide_eq_true wants).le
        refine honest.goOn up ?_ (List.Subset.refl _) (fun _ => .inl) fair.known
          attempted.seen_le ?_
        · cases attempted with
          | exchanged => exact .inr fair.known
          | failed => exact honest.source
        · intro old found'
          cases found.symm.trans found'
          rfl
      case h_2 value passed =>
        rw [passed] at attempted
        cases taken
        obtain ⟨enough, below⟩ := attempted.reaches (fair.seen current rfl)
        cases attempted
        exact honest.finish found ((Nat.not_lt.mp (of_decide_eq_false enough)).trans below)
    · cases taken

theorem foldr_max_le_iff {values : List Nat} {bound : Nat} :
    values.foldr max 0 ≤ bound ↔ ∀ value ∈ values, value ≤ bound := by
  induction values with
  | nil => simp
  | cons first values ih => rw [List.foldr_cons, Nat.max_le, ih, List.forall_mem_cons]

/-- **No peak is lost and none is invented.** After every run: what the variable holds was reported,
or nothing was; no finished report has a larger value; and once no report is under way the variable
is the maximum of all that was reported. -/
theorem peak_exact (steps : List (PeakStep κ)) (peak : Peak κ)
    (ran : Machine.run Peak.step steps {} = some peak) :
    (peak.value = 0 ∨ peak.value ∈ peak.reported) ∧
      (∀ candidate ∈ peak.returned, candidate ≤ peak.value) ∧
      ((∀ thread, peak.reports thread = none) → peak.value = peak.reported.foldr max 0) := by
  have honest : peak.Honest := Machine.run_keeps (fun honest taken => honest.step taken)
    honest_new ran
  refine ⟨honest.source, honest.covers, fun quiet => ?_⟩
  have all : ∀ candidate ∈ peak.reported, candidate ≤ peak.value := by
    intro candidate member
    rcases honest.counts candidate member with done | ⟨thread, report, found, -⟩
    · exact honest.covers candidate done
    · rw [quiet thread] at found
      cases found
  refine le_antisymm ?_ (foldr_max_le_iff.mpr all)
  rcases honest.source with zero | member
  · rw [zero]
    exact Nat.zero_le _
  · exact foldr_max_le_iff.mp le_rfl peak.value member

end Peaks

/-- Two threads have both seen zero when the larger value is written, and the smaller one fails. -/
def twoReports : List (PeakStep Bool) :=
  [.report true 5, .report false 3, .load true, .load false, .exchange true false,
    .exchange false false, .exchange false false, .exchange true false]

theorem peak_exact_two :
    ∃ peak, Machine.run Peak.step twoReports {} = some peak ∧ peak.value = 5 := by
  have ran : ∃ peak, Machine.run Peak.step twoReports {} = some peak ∧
      peak.reported = [5, 3] ∧ peak.reports true = none ∧ peak.reports false = none :=
    ⟨_, rfl, rfl, rfl, rfl⟩
  obtain ⟨peak, ran, reported, quiet, quiet'⟩ := ran
  have exact := (peak_exact twoReports peak ran).2.2 fun thread => by
    cases thread
    · exact quiet'
    · exact quiet
  rw [reported] at exact
  exact ⟨peak, ran, exact⟩

end SunKV.Server
