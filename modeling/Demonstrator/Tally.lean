/-
What the summary at the end of a simulation adds up.

SystemC counts the reports of each severity, the handler counts the warnings it has
relabelled, and four counters of `report` hold what the program says it expected.
`summary` combines them in 64-bit arithmetic.  A history is the list of the reports and
of the calls that adjust a counter; a fatal report ends the process from within its
handler, after the summary, so it can only be the last of one.

`Accounted` is what the figures should be, and `accounted_iff` says for which histories
they are.  The counters for unexpected reports are never written: `adjust_unexpected_*`
adds to the expected ones, so each of its calls moves a total twice the wrong way.
-/
import Demonstrator.ReportText
import Mathlib.Data.List.Induction

namespace Demonstrator

/-- What `summary` reads. -/
structure Tally where
  /-- `sc_report_handler::get_count` -/
  getCount : Severity → Nat
  /-- `nonwarnings` -/
  table : List Counter
  unexpectedWarningCount : UInt64
  expectedWarningCount : UInt64
  unexpectedErrorCount : UInt64
  expectedErrorCount : UInt64
  /-- `executed_once` of `summary`. -/
  executedOnce : Bool

namespace Tally

/-- The counters as the program starts. -/
def start : Tally where
  getCount _ := 0
  table := nonwarnings
  unexpectedWarningCount := 0
  expectedWarningCount := 0
  unexpectedErrorCount := 0
  expectedErrorCount := 0
  executedOnce := false

/-- A report is counted and then handled. -/
def report (t : Tally) (r : ScReport) : Tally :=
  { t with
    getCount := fun sev => if r.severity = sev then t.getCount sev + 1 else t.getCount sev
    table := (handleReport r t.table).2 }

/-- `adjust_unexpected_errors` -/
def adjustUnexpectedErrors (t : Tally) (amount : Int) : Tally :=
  { t with expectedErrorCount := t.expectedErrorCount + UInt64.ofInt amount }

/-- `adjust_unexpected_warnings` -/
def adjustUnexpectedWarnings (t : Tally) (amount : Int) : Tally :=
  { t with expectedWarningCount := t.expectedWarningCount + UInt64.ofInt amount }

/-- `adjust_expected_errors` -/
def adjustExpectedErrors (t : Tally) (amount : Int) : Tally :=
  { t with expectedErrorCount := t.expectedErrorCount + UInt64.ofInt amount }

/-- `adjust_expected_warnings` -/
def adjustExpectedWarnings (t : Tally) (amount : Int) : Tally :=
  { t with expectedWarningCount := t.expectedWarningCount + UInt64.ofInt amount }

end Tally

/-- The figures that `summary` prints. -/
structure Summary where
  infoCount : UInt64
  /-- The rows of the names that were counted at all. -/
  names : List Counter
  warningCount : UInt64
  errorCount : UInt64
  fatalCount : UInt64
  deriving DecidableEq, Repr

/-- `success` of `summary`. -/
def Summary.success (s : Summary) : Bool := s.fatalCount + s.errorCount = 0

/-- What `summary` returns; it prints PASSED where this is 0, and FAILED otherwise. -/
def Summary.returned (s : Summary) : Int := if s.success then 0 else 1

/-- The arithmetic of `summary`. -/
def Tally.figures (t : Tally) : Summary where
  infoCount := .ofNat (t.getCount .info)
  names := t.table.filter fun c => c.count ≠ 0
  warningCount := .ofNat (t.getCount .warning) - debugCount t.table
    + (t.unexpectedWarningCount - t.expectedWarningCount)
  errorCount := .ofNat (t.getCount .error) + (t.unexpectedErrorCount - t.expectedErrorCount)
  fatalCount := .ofNat (t.getCount .fatal)

/-- `summary`: the counters after it and the figures it prints.  Called again, it first
makes the report `again`, "Attempt to call report summary more than once!?". -/
def Tally.summary (t : Tally) (again : ScReport) : Tally × Summary :=
  let t' := if t.executedOnce then t.report again else t
  ({ t' with executedOnce := true }, t'.figures)

/-- `util::errors` -/
def Tally.errors (t : Tally) : UInt32 := .ofNat (t.getCount .error + t.getCount .fatal)

/-! ### Histories -/

/-- A report, or a call that adjusts a counter by an amount that is not negative. -/
inductive TallyEvent where
  | report (r : ScReport)
  | adjustUnexpectedErrors (amount : Nat)
  | adjustUnexpectedWarnings (amount : Nat)
  | adjustExpectedErrors (amount : Nat)
  | adjustExpectedWarnings (amount : Nat)

/-- The counters after an event. -/
def Tally.step (t : Tally) : TallyEvent → Tally
  | .report r => t.report r
  | .adjustUnexpectedErrors amount => t.adjustUnexpectedErrors amount
  | .adjustUnexpectedWarnings amount => t.adjustUnexpectedWarnings amount
  | .adjustExpectedErrors amount => t.adjustExpectedErrors amount
  | .adjustExpectedWarnings amount => t.adjustExpectedWarnings amount

/-- The counters after a history, the oldest event first. -/
def tally (history : List TallyEvent) : Tally := history.foldl Tally.step .start

namespace TallyEvent

/-- One for a report of the severity. -/
def reports (sev : Severity) : TallyEvent → Nat
  | report r => if r.severity = sev then 1 else 0
  | _ => 0

/-- One for a warning that is shown as a DEBUG, NOTE or ALERT message. -/
def relabels : TallyEvent → Nat
  | report r => if Relabelled (nonwarnings.map Counter.name) r then 1 else 0
  | _ => 0

def unexpectedErrors : TallyEvent → Nat
  | adjustUnexpectedErrors amount => amount
  | _ => 0

def unexpectedWarnings : TallyEvent → Nat
  | adjustUnexpectedWarnings amount => amount
  | _ => 0

def expectedErrors : TallyEvent → Nat
  | adjustExpectedErrors amount => amount
  | _ => 0

def expectedWarnings : TallyEvent → Nat
  | adjustExpectedWarnings amount => amount
  | _ => 0

end TallyEvent

open TallyEvent

/-- What the events of a history come to. -/
def total (amount : TallyEvent → Nat) (history : List TallyEvent) : Nat :=
  (history.map amount).sum

theorem total_concat (amount : TallyEvent → Nat) (history : List TallyEvent) (e : TallyEvent) :
    total amount (history ++ [e]) = total amount history + amount e := by
  unfold total
  rw [List.map_append, List.sum_append, List.map_singleton, List.sum_singleton]

theorem total_le {amount amount' : TallyEvent → Nat} (h : ∀ e, amount e ≤ amount' e)
    (history : List TallyEvent) : total amount history ≤ total amount' history := by
  induction history with
  | nil => exact Nat.le_refl 0
  | cons e rest ih => exact Nat.add_le_add (h e) ih

/-- Only warnings are relabelled. -/
theorem relabels_le_warnings (history : List TallyEvent) :
    total relabels history ≤ total (reports .warning) history := by
  refine total_le ?_ history
  intro e
  cases e with
  | report r =>
      show (if Relabelled (nonwarnings.map Counter.name) r then 1 else 0)
        ≤ if r.severity = .warning then 1 else 0
      by_cases h : Relabelled (nonwarnings.map Counter.name) r
      · refine Nat.le_of_eq ?_
        rw [if_pos h, if_pos h.1]
      · rw [if_neg h]
        exact Nat.zero_le _
  | _ => exact Nat.le_refl 0

/-! ### What the counters hold -/

/-- The counters are the totals of the history, as far as 64 bits go; the amounts that
were said to be unexpected are among the expected ones. -/
structure Totals (history : List TallyEvent) (t : Tally) : Prop where
  getCount : ∀ sev, t.getCount sev = total (reports sev) history
  names : t.table.map Counter.name = nonwarnings.map Counter.name
  debug : debugCount t.table = .ofNat (total relabels history)
  unexpected : t.unexpectedWarningCount = 0 ∧ t.unexpectedErrorCount = 0
  warnings : t.expectedWarningCount =
    .ofNat (total expectedWarnings history + total unexpectedWarnings history)
  errors : t.expectedErrorCount =
    .ofNat (total expectedErrors history + total unexpectedErrors history)
  once : t.executedOnce = false

theorem ofNat_add_ofInt {c : UInt64} {n : Nat} (h : c = .ofNat n) (amount : Nat) :
    c + UInt64.ofInt (amount : Int) = .ofNat (n + amount) := by
  have hcast : UInt64.ofInt (amount : Int) = .ofNat amount := by
    rw [← UInt64.toNat_inj]
    simp [UInt64.ofInt]
    omega
  rw [h, hcast, UInt64.ofNat_add]

theorem totals_start : Totals [] Tally.start where
  getCount _ := rfl
  names := rfl
  debug := rfl
  unexpected := ⟨rfl, rfl⟩
  warnings := rfl
  errors := rfl
  once := rfl

/-- An event that is no report moves the two counters by its amounts. -/
theorem Totals.adjusted {history : List TallyEvent} {t : Tally} (h : Totals history t)
    {e : TallyEvent} (hreports : ∀ sev, reports sev e = 0) (hrelabels : relabels e = 0)
    {warnings errors : UInt64}
    (hw : warnings = .ofNat (total expectedWarnings history + total unexpectedWarnings history
      + (expectedWarnings e + unexpectedWarnings e)))
    (he : errors = .ofNat (total expectedErrors history + total unexpectedErrors history
      + (expectedErrors e + unexpectedErrors e))) :
    Totals (history ++ [e])
      { t with expectedWarningCount := warnings, expectedErrorCount := errors } where
  getCount sev := by
    rw [total_concat, hreports sev]
    exact h.getCount sev
  names := h.names
  debug := by
    rw [total_concat, hrelabels]
    exact h.debug
  unexpected := h.unexpected
  warnings := by
    rw [total_concat, total_concat, Nat.add_add_add_comm]
    exact hw
  errors := by
    rw [total_concat, total_concat, Nat.add_add_add_comm]
    exact he
  once := h.once

theorem Totals.step {history : List TallyEvent} {t : Tally} (h : Totals history t)
    (e : TallyEvent) : Totals (history ++ [e]) (t.step e) := by
  cases e with
  | report r =>
      obtain ⟨hnames, hdebug⟩ := handleReport_table r t.table
      rw [h.names] at hdebug
      refine ⟨?_, hnames.trans h.names, ?_, h.unexpected, ?_, ?_, h.once⟩
      · intro sev
        show (if r.severity = sev then t.getCount sev + 1 else t.getCount sev) = _
        rw [total_concat, h.getCount sev]
        show _ = _ + if r.severity = sev then 1 else 0
        split <;> rfl
      · show debugCount (handleReport r t.table).2 = _
        rw [hdebug, h.debug, total_concat]
        show _ = UInt64.ofNat (_ + if Relabelled (nonwarnings.map Counter.name) r then 1 else 0)
        rw [UInt64.ofNat_add]
        split <;> rfl
      · rw [total_concat, total_concat]
        exact h.warnings
      · rw [total_concat, total_concat]
        exact h.errors
  | adjustUnexpectedErrors amount =>
      refine h.adjusted (fun _ => rfl) rfl h.warnings ?_
      have hamount : expectedErrors (.adjustUnexpectedErrors amount)
          + unexpectedErrors (.adjustUnexpectedErrors amount) = amount := Nat.zero_add amount
      rw [hamount]
      exact ofNat_add_ofInt h.errors amount
  | adjustUnexpectedWarnings amount =>
      refine h.adjusted (fun _ => rfl) rfl ?_ h.errors
      have hamount : expectedWarnings (.adjustUnexpectedWarnings amount)
          + unexpectedWarnings (.adjustUnexpectedWarnings amount) = amount := Nat.zero_add amount
      rw [hamount]
      exact ofNat_add_ofInt h.warnings amount
  | adjustExpectedErrors amount =>
      exact h.adjusted (fun _ => rfl) rfl h.warnings (ofNat_add_ofInt h.errors amount)
  | adjustExpectedWarnings amount =>
      exact h.adjusted (fun _ => rfl) rfl (ofNat_add_ofInt h.warnings amount) h.errors

theorem totals_tally (history : List TallyEvent) : Totals history (tally history) := by
  induction history using List.reverseRecOn with
  | nil => exact totals_start
  | append_singleton history e ih =>
      rw [tally, List.foldl_append]
      exact ih.step e

/-! ### What the summary shows -/

theorem toNat_less (a b : Nat) :
    (UInt64.ofNat a + (0 - UInt64.ofNat b)).toNat = (a + (2 ^ 64 - b % 2 ^ 64)) % 2 ^ 64 := by
  rw [UInt64.toNat_add, UInt64.toNat_sub, UInt64.toNat_ofNat', UInt64.toNat_ofNat']
  simp

theorem ofNat_sub_ofNat {a b : Nat} (h : b ≤ a) :
    UInt64.ofNat a - UInt64.ofNat b = .ofNat (a - b) := by
  rw [← UInt64.toNat_inj, UInt64.toNat_sub, UInt64.toNat_ofNat', UInt64.toNat_ofNat',
    UInt64.toNat_ofNat']
  omega

/-- A total that counts the unexpected reports the wrong way is right, as far as 64 bits go,
only where twice their number is a multiple of the word. -/
theorem less_eq_iff (a x u : Nat) :
    UInt64.ofNat a + (0 - UInt64.ofNat (x + u)) = .ofNat (a + u) - .ofNat x ↔ 2 ^ 63 ∣ u := by
  rw [← UInt64.toNat_inj, toNat_less, UInt64.toNat_sub, UInt64.toNat_ofNat', UInt64.toNat_ofNat']
  omega

/-- Such a difference is the number itself where it does not go below zero and fits. -/
theorem toNat_ofNat_sub_iff {a x : Nat} (h : x ≤ a) :
    (UInt64.ofNat a - .ofNat x).toNat = a - x ↔ a - x < 2 ^ 64 := by
  rw [ofNat_sub_ofNat h, UInt64.toNat_ofNat']
  omega

section Figures

variable (history : List TallyEvent)

/-- The warnings of the history that are not shown as something else. -/
def plainWarnings : Nat := total (reports .warning) history - total relabels history

theorem warningCount_figures :
    (tally history).figures.warningCount = .ofNat (plainWarnings history)
      + (0 - .ofNat (total expectedWarnings history + total unexpectedWarnings history)) := by
  have h := totals_tally history
  show UInt64.ofNat ((tally history).getCount .warning) - debugCount (tally history).table + _ = _
  rw [h.getCount, h.debug, h.unexpected.1, h.warnings,
    ofNat_sub_ofNat (relabels_le_warnings history)]
  rfl

theorem errorCount_figures :
    (tally history).figures.errorCount = .ofNat (total (reports .error) history)
      + (0 - .ofNat (total expectedErrors history + total unexpectedErrors history)) := by
  have h := totals_tally history
  show UInt64.ofNat ((tally history).getCount .error) + _ = _
  rw [h.getCount, h.unexpected.2, h.errors]

theorem fatalCount_figures :
    (tally history).figures.fatalCount = .ofNat (total (reports .fatal) history) := by
  show UInt64.ofNat ((tally history).getCount .fatal) = _
  rw [(totals_tally history).getCount]

theorem returned_eq_zero_iff (s : Summary) : s.returned = 0 ↔ s.fatalCount + s.errorCount = 0 := by
  unfold Summary.returned Summary.success
  by_cases h : s.fatalCount + s.errorCount = 0
  · simp [h]
  · simp [h]

/-- The verdict is that of the sum, as far as 64 bits go. -/
theorem returned_figures_iff :
    (tally history).figures.returned = 0 ↔
      (total (reports .fatal) history + total (reports .error) history) % 2 ^ 64 =
        (total expectedErrors history + total unexpectedErrors history) % 2 ^ 64 := by
  rw [returned_eq_zero_iff, ← UInt64.toNat_inj, UInt64.toNat_add, fatalCount_figures,
    errorCount_figures, toNat_less, UInt64.toNat_ofNat']
  show _ = 0 ↔ _
  omega

end Figures

/-- What the summary of a history should say. -/
structure Accounted (history : List TallyEvent) : Prop where
  /-- The relabelled warnings are warnings. -/
  debug : (debugCount (tally history).table).toNat ≤ (tally history).getCount .warning
  /-- The warnings not relabelled, the unexpected ones added and the expected ones taken off,
  in the arithmetic of 64 bits. -/
  warnings : (tally history).figures.warningCount =
    .ofNat (plainWarnings history + total unexpectedWarnings history)
      - .ofNat (total expectedWarnings history)
  warningsUnwrapped : total expectedWarnings history
      ≤ plainWarnings history + total unexpectedWarnings history →
    (tally history).figures.warningCount.toNat =
      plainWarnings history + total unexpectedWarnings history - total expectedWarnings history
  errors : (tally history).figures.errorCount =
    .ofNat (total (reports .error) history + total unexpectedErrors history)
      - .ofNat (total expectedErrors history)
  errorsUnwrapped : total expectedErrors history
      ≤ total (reports .error) history + total unexpectedErrors history →
    (tally history).figures.errorCount.toNat =
      total (reports .error) history + total unexpectedErrors history - total expectedErrors history
  verdict : (tally history).figures.returned = 0 ↔
    total (reports .fatal) history + (tally history).figures.errorCount.toNat = 0

/-- A history whose figures come out right: nothing was said to be unexpected (as far as
64 bits can tell), the totals that should not wrap fit, and a fatal report is not made up
for by errors that were expected and did not come. -/
structure Balanced (history : List TallyEvent) : Prop where
  warnings : 2 ^ 63 ∣ total unexpectedWarnings history
  warningsFit : total expectedWarnings history
      ≤ plainWarnings history + total unexpectedWarnings history →
    plainWarnings history + total unexpectedWarnings history - total expectedWarnings history
      < 2 ^ 64
  errors : 2 ^ 63 ∣ total unexpectedErrors history
  errorsFit : total expectedErrors history
      ≤ total (reports .error) history + total unexpectedErrors history →
    total (reports .error) history + total unexpectedErrors history
      - total expectedErrors history < 2 ^ 64
  fatal : total (reports .fatal) history = 0 ∨
    (total (reports .fatal) history + total (reports .error) history) % 2 ^ 64 ≠
      (total expectedErrors history + total unexpectedErrors history) % 2 ^ 64

theorem debugCount_le (history : List TallyEvent) :
    (debugCount (tally history).table).toNat ≤ (tally history).getCount .warning := by
  have h := totals_tally history
  rw [h.debug, h.getCount, UInt64.toNat_ofNat']
  exact Nat.le_trans (Nat.mod_le _ _) (relabels_le_warnings history)

theorem verdict_iff (history : List TallyEvent) :
    ((tally history).figures.returned = 0 ↔
        total (reports .fatal) history + (tally history).figures.errorCount.toNat = 0) ↔
      (total (reports .fatal) history = 0 ∨
        (total (reports .fatal) history + total (reports .error) history) % 2 ^ 64 ≠
          (total expectedErrors history + total unexpectedErrors history) % 2 ^ 64) := by
  rw [returned_figures_iff, errorCount_figures, toNat_less]
  omega

/-- The summary of a history is right exactly when the history is balanced. -/
theorem accounted_iff (history : List TallyEvent) : Accounted history ↔ Balanced history := by
  have hwarnings := less_eq_iff (plainWarnings history) (total expectedWarnings history)
    (total unexpectedWarnings history)
  rw [← warningCount_figures history] at hwarnings
  have herrors := less_eq_iff (total (reports .error) history) (total expectedErrors history)
    (total unexpectedErrors history)
  rw [← errorCount_figures history] at herrors
  refine ⟨?_, ?_⟩
  · intro h
    refine ⟨hwarnings.mp h.warnings, ?_, herrors.mp h.errors, ?_,
      (verdict_iff history).mp h.verdict⟩
    · intro hle
      have hshown := h.warningsUnwrapped hle
      rw [h.warnings] at hshown
      exact (toNat_ofNat_sub_iff hle).mp hshown
    · intro hle
      have hshown := h.errorsUnwrapped hle
      rw [h.errors] at hshown
      exact (toNat_ofNat_sub_iff hle).mp hshown
  · intro h
    refine ⟨debugCount_le history, hwarnings.mpr h.warnings, ?_, herrors.mpr h.errors, ?_,
      (verdict_iff history).mpr h.fatal⟩
    · intro hle
      rw [hwarnings.mpr h.warnings]
      exact (toNat_ofNat_sub_iff hle).mpr (h.warningsFit hle)
    · intro hle
      rw [herrors.mpr h.errors]
      exact (toNat_ofNat_sub_iff hle).mpr (h.errorsFit hle)

/-- An error report. -/
def anError : ScReport where
  severity := .error
  id := -1
  msgType := "top".toList
  msg := "Payload error".toList
  fileName := "top.cpp".toList
  lineNumber := 1
  processName := none
  phase := .notStarted
  isRunning := false

/-- An error that was not expected, and is said to be so, passes. -/
theorem unexpected_error_passes : ¬ ∀ history : List TallyEvent, Accounted history := by
  intro hclaim
  have herrors := (hclaim [.report anError, .adjustUnexpectedErrors 1]).errors
  exact absurd herrors (by decide)

end Demonstrator
