/-
Where the reports of a run end up.

Every report goes to the console, unless its line asks for the log only, and to the log
file while the kernel has a name for it.  The handler opens the file when it first has
something to write, and keeps it: a name that is set later changes nothing.  Where the
file cannot be opened one in `/tmp` takes its place, and where that fails too the program
ends.

`ReportRun` is the handler's state over a run, with the summary that a fatal report prints
and with the end of the program: the destructor of `auto_close` deletes the stream.  A
fatal report deletes it as well and does not say so, and `abort` does not keep the
destructors from running, because `pause_on_exit` has put a handler in its way that calls
`exit`.

Which reports a run makes is read off its events (`reportsMade`), and `reports_routed` says of
every run that these are the reports the console and the log have; so a stream is deleted
twice in exactly the runs that a fatal report ends with the log open.
-/
import Demonstrator.Lib.Transition
import Demonstrator.Relabel
import Mathlib.Data.List.DropRight

namespace Demonstrator

open Transition

/-- `basename`; it may cut the slashes off the end of its argument, which nobody reads again. -/
def basename (path : Text) : Text :=
  let trimmed := path.rdropWhile (· = '/')
  if path = [] then ".".toList
  else if trimmed = [] then "/".toList
  else trimmed.rtakeWhile (· ≠ '/')

/-- What the console shows. -/
inductive Printed where
  | line (text : Text)
  /-- What `summary` prints. -/
  | summary
  deriving DecidableEq, Repr

/-- How the program ends. -/
inductive RunEnd where
  /-- It returns from `main`. -/
  | exited
  /-- A fatal report ends it. -/
  | aborted
  /-- The handler ends it, because it could not open a log file. -/
  | noLog
  deriving DecidableEq, Repr

/-- What the handler works on. -/
structure ReportRun where
  /-- `nonwarnings` -/
  table : List Counter
  /-- `sc_report_handler::get_log_file_name()` -/
  logFileName : Option Text
  /-- The file of the stream that `clog` points to. -/
  clog : Option Text
  files : Text → Option (List Text)
  stdout : List Printed
  /-- `executed_once` of `summary`. -/
  executedOnce : Bool
  /-- How often the stream has been deleted. -/
  deletes : Nat
  ended : Option RunEnd
  /-- The reports so far, each with the name that there was for a log file. -/
  handled : List (ScReport × Option Text)

def ReportRun.initial (files : Text → Option (List Text)) : ReportRun where
  table := nonwarnings
  logFileName := none
  clog := none
  files := files
  stdout := []
  executedOnce := false
  deletes := 0
  ended := none
  handled := []

/-- What can happen next. -/
inductive ReportEvent where
  /-- A report, and the one that `summary` makes when it is called again. -/
  | report (r again : ScReport)
  /-- The name in force becomes this one, or there is none any more. -/
  | setLogFileName (name : Option Text)
  /-- The destructor of `report`. -/
  | summary (again : ScReport)
  /-- `main` returns. -/
  | exit

namespace ReportRun

-- `opens` says which files can be opened for writing
variable (opens : Text → Bool)

/-- The destructor of `auto_close`, which runs when the program exits. -/
def autoClose (s : ReportRun) : ReportRun :=
  { s with deletes := s.deletes + if s.clog.isSome then 1 else 0 }

/-- `abort`: the handler of SIGABRT calls `exit`. -/
def abortProgram (s : ReportRun) (how : RunEnd) : ReportRun := { s.autoClose with ended := some how }

/-- The file that takes the place of the log file where that cannot be opened. -/
def badlog (name : Text) : Text := "/tmp/".toList ++ basename name

/-- `clog` is null, and is opened. -/
def openLog (s : ReportRun) (name : Text) : ReportRun :=
  if opens name then { s with clog := some name, files := Function.update s.files name (some []) }
  else if opens (badlog name) then
    { s with clog := some (badlog name), files := Function.update s.files (badlog name) (some []) }
  else { s with clog := some (badlog name) }.abortProgram .noLog

/-- `*clog << the_msg << endl` -/
def writeLog (s : ReportRun) (line : Text) : ReportRun :=
  match s.clog with
  | some path =>
      { s with files := Function.update s.files path ((s.files path).map (· ++ [line])) }
  | none => s

/-- The branch of `SC_LOG`. -/
def log (s : ReportRun) (line : Text) : ReportRun :=
  match s.logFileName with
  | none => s
  | some name =>
      let s := if s.clog.isSome then s else s.openLog opens name
      if s.ended.isSome then s else s.writeLog line

/-- `report_handler`, up to the log. -/
def display (s : ReportRun) (r : ScReport) : ReportRun :=
  let shown := displayReport r s.table
  { s with
    table := shown.2
    stdout := s.stdout ++ (shown.1.map Printed.line).toList
    handled := s.handled ++ [(r, s.logFileName)] }

/-- `report_handler`, up to the actions that come after the log. -/
def emit (s : ReportRun) (r : ScReport) : ReportRun :=
  let line := (handleReport r s.table).1
  if .log ∈ setActions r.severity then (s.display r).log opens line else s.display r

/-- `summary` -/
def summary (s : ReportRun) (again : ScReport) : ReportRun :=
  let s := if s.executedOnce then s.emit opens again else s
  if s.ended.isSome then s
  else { s with stdout := s.stdout ++ [.summary], executedOnce := true }

/-- `report_handler`; what it throws its caller catches. -/
def handle (s : ReportRun) (r again : ScReport) : ReportRun :=
  let s := s.emit opens r
  if s.ended.isSome then s
  else if .abort ∈ setActions r.severity then
    let s := s.summary opens again
    if s.ended.isSome then s
    -- `delete clog`, and the pointer stays what it is
    else { s with deletes := s.deletes + if s.clog.isSome then 1 else 0 }.abortProgram .aborted
  else s

def step (s : ReportRun) (e : ReportEvent) : Option ReportRun :=
  match s.ended, e with
  | some _, _ => none
  | none, .report r again => some (s.handle opens r again)
  | none, .setLogFileName name => some { s with logFileName := name }
  | none, .summary again => some (s.summary opens again)
  | none, .exit => some { s.autoClose with ended := some .exited }

end ReportRun

/-- A run of the program. -/
def reportMachine (opens : Text → Bool) (files : Text → Option (List Text)) :
    Machine ReportRun ReportEvent where
  init := .initial files
  step := ReportRun.step opens

/-! ### Which reports a run makes -/

/-- The name of a log file that there was when it was first needed. -/
def firstName (reports : List (ScReport × Option Text)) : Option Text :=
  reports.findSome? Prod.snd

/-- There is a report to log, and no file can be opened for it. -/
def logFails (opens : Text → Bool) (reports : List (ScReport × Option Text)) : Bool :=
  match firstName reports with
  | some name => !opens name && !opens (ReportRun.badlog name)
  | none => false

/-- What the events of a run say: the name of the log file in force, whether there has been a
summary, the reports, each with the name in force, and what has ended the program, as long as
the log could be opened. -/
structure Making where
  name : Option Text
  summarized : Bool
  reports : List (ScReport × Option Text)
  ended : Option RunEnd

namespace Making

variable (opens : Text → Bool)

def start : Making := { name := none, summarized := false, reports := [], ended := none }

/-- A report is made, unless one before it has ended the program for want of a log file. -/
def report (m : Making) (r : ScReport) : Making :=
  if logFails opens m.reports then m else { m with reports := m.reports ++ [(r, m.name)] }

/-- A summary that is not the first makes a report. -/
def summary (m : Making) (again : ScReport) : Making :=
  { (if m.summarized then m.report opens again else m) with summarized := true }

/-- A fatal report comes with a summary, and ends the program. -/
def event (m : Making) : ReportEvent → Making
  | .report r again =>
      if r.severity = .fatal then
        { (m.report opens r).summary opens again with ended := some .aborted }
      else m.report opens r
  | .setLogFileName name => { m with name := name }
  | .summary again => m.summary opens again
  | .exit => { m with ended := some .exited }

/-- How the program has ended. -/
def ending (m : Making) : Option RunEnd :=
  if logFails opens m.reports then some .noLog else m.ended

end Making

/-- The reports that a run with these events makes, each with the name of the log file in
force. -/
def reportsMade (opens : Text → Bool) (events : List ReportEvent) : List (ScReport × Option Text) :=
  (events.foldl (Making.event opens) .start).reports

/-- How a run with these events has ended, if it has. -/
def endMade (opens : Text → Bool) (events : List ReportEvent) : Option RunEnd :=
  (events.foldl (Making.event opens) .start).ending opens

/-! ### What a run has written -/

/-- The line that a report is printed as. -/
def printedLine (r : ScReport) : Text := (handleReport r nonwarnings).1

/-- The lines of the reports for which there was a log file. -/
def logged (handled : List (ScReport × Option Text)) : List Text :=
  handled.filterMap fun h => h.2.map fun _ => printedLine h.1

def Printed.line? : Printed → Option Text
  | .line text => some text
  | .summary => none

/-- The file that the log goes to, where the first name for it is `name`. -/
def logPath (opens : Text → Bool) (name : Text) : Text :=
  if opens name then name else ReportRun.badlog name

/-- What has become of the log. -/
inductive Logs (opens : Text → Bool) (files : Text → Option (List Text)) (s : ReportRun) : Prop
  /-- Nothing had to be logged. -/
  | unused (hlogged : logged s.handled = []) (hclog : s.clog = none) (hfiles : s.files = files)
      (hended : s.ended ≠ some .noLog)
  /-- One file has been opened, and has all that had to be logged. -/
  | opened (name : Text) (hfirst : firstName s.handled = some name)
      (hopens : opens (logPath opens name) = true) (hclog : s.clog = some (logPath opens name))
      (hfiles : s.files = Function.update files (logPath opens name) (some (logged s.handled)))
      (hended : s.ended ≠ some .noLog)
  /-- No file could be opened. -/
  | failed (name : Text) (hfirst : firstName s.handled = some name)
      (hopens : opens name = false ∧ opens (ReportRun.badlog name) = false)
      (hclog : s.clog.isSome = true) (hfiles : s.files = files) (hended : s.ended = some .noLog)

/-- How often the stream has been deleted. -/
def ReportRun.deletions (s : ReportRun) : Nat :=
  match s.ended with
  | none => 0
  | some .exited => if s.clog.isSome then 1 else 0
  | some .aborted => if s.clog.isSome then 2 else 0
  | some .noLog => 1

/-- The console, the log, and the stream. -/
structure Routed (opens : Text → Bool) (files : Text → Option (List Text)) (s : ReportRun) :
    Prop where
  names : s.table.map Counter.name = nonwarnings.map Counter.name
  console : s.stdout.filterMap Printed.line? =
    (s.handled.map fun h => printedLine h.1).filter fun line => !logonly line
  logs : Logs opens files s
  deletes : s.deletes = s.deletions

theorem Routed.initial (opens : Text → Bool) (files : Text → Option (List Text)) :
    Routed opens files (.initial files) where
  names := rfl
  console := rfl
  logs := .unused rfl rfl rfl nofun
  deletes := rfl

/-! ### One report -/

/-- What a report is printed as does not depend on how many there were before. -/
theorem handleReport_fst (r : ScReport) {table : List Counter}
    (hnames : table.map Counter.name = nonwarnings.map Counter.name) :
    (handleReport r table).1 = printedLine r := by
  unfold printedLine handleReport
  cases r.severity with
  | warning =>
      dsimp only
      rw [relabelWarning_fst, relabelWarning_fst, hnames]
  | info | error | fatal => rfl

theorem logged_concat (handled : List (ScReport × Option Text)) (r : ScReport)
    (name : Option Text) :
    logged (handled ++ [(r, name)]) =
      logged handled ++ (name.map fun _ => printedLine r).toList := by
  unfold logged
  rw [List.filterMap_append]
  cases name <;> rfl

theorem firstName_concat {handled : List (ScReport × Option Text)} {name : Text}
    (h : firstName handled = some name) (last : ScReport × Option Text) :
    firstName (handled ++ [last]) = some name := by
  unfold firstName at h ⊢
  rw [List.findSome?_append, h]
  rfl

theorem firstName_of_unused {handled : List (ScReport × Option Text)} (h : logged handled = [])
    (r : ScReport) (name : Text) : firstName (handled ++ [(r, some name)]) = some name := by
  have hnone : firstName handled = none := by
    refine List.findSome?_eq_none_iff.mpr fun last hlast => ?_
    have hno := List.filterMap_eq_nil_iff.mp h last hlast
    exact Option.map_eq_none_iff.mp hno
  unfold firstName at hnone ⊢
  rw [List.findSome?_append, hnone]
  rfl

section Steps

variable {opens : Text → Bool} {files : Text → Option (List Text)} {s : ReportRun}

/-- What the branch of `SC_LOG` does. -/
inductive Logging (opens : Text → Bool) (s : ReportRun) (line : Text) : ReportRun → Prop
  | noName (hname : s.logFileName = none) : Logging opens s line s
  | append {name path : Text} (hname : s.logFileName = some name) (hclog : s.clog = some path) :
      Logging opens s line
        { s with files := Function.update s.files path ((s.files path).map (· ++ [line])) }
  | opening {name : Text} (hname : s.logFileName = some name) (hclog : s.clog = none)
      (hopens : opens (logPath opens name) = true) :
      Logging opens s line { s with
        clog := some (logPath opens name)
        files := Function.update s.files (logPath opens name) (some [line]) }
  | failing {name : Text} (hname : s.logFileName = some name) (hclog : s.clog = none)
      (hopens : opens name = false ∧ opens (ReportRun.badlog name) = false) :
      Logging opens s line { s with
        clog := some (ReportRun.badlog name)
        deletes := s.deletes + 1
        ended := some .noLog }

theorem openLog_cases (s : ReportRun) (name : Text) :
    (opens (logPath opens name) = true ∧ s.openLog opens name = { s with
        clog := some (logPath opens name)
        files := Function.update s.files (logPath opens name) (some []) }) ∨
      ((opens name = false ∧ opens (ReportRun.badlog name) = false) ∧
        s.openLog opens name = { s with
          clog := some (ReportRun.badlog name)
          deletes := s.deletes + 1
          ended := some .noLog }) := by
  unfold ReportRun.openLog logPath
  by_cases hname : opens name = true
  · rw [if_pos hname, if_pos hname]
    exact Or.inl ⟨hname, rfl⟩
  · rw [if_neg hname, if_neg hname]
    by_cases hbad : opens (ReportRun.badlog name) = true
    · rw [if_pos hbad]
      exact Or.inl ⟨hbad, rfl⟩
    · rw [if_neg hbad]
      exact Or.inr ⟨⟨by simpa using hname, by simpa using hbad⟩, rfl⟩

theorem writeLog_eq {path : Text} (hclog : s.clog = some path) (line : Text) :
    s.writeLog line =
      { s with files := Function.update s.files path ((s.files path).map (· ++ [line])) } := by
  unfold ReportRun.writeLog
  split
  · obtain rfl := Option.some.inj (hclog.symm.trans ‹_›)
    rfl
  · exact absurd (hclog.symm.trans ‹_›) (by simp)

theorem logging (hended : s.ended = none) (line : Text) :
    Logging opens s line (s.log opens line) := by
  have hrunning : ¬ s.ended.isSome = true := by
    rw [hended]
    exact Bool.false_ne_true
  unfold ReportRun.log
  cases hname : s.logFileName with
  | none => exact .noName hname
  | some name =>
      obtain hclog | ⟨path, hclog⟩ := Option.eq_none_or_eq_some s.clog
      · have hopening : opens (logPath opens name) = true → Logging opens s line { s with
            clog := some (logPath opens name)
            files := Function.update s.files (logPath opens name) (some [line]) } :=
          .opening hname hclog
        have hnull : ¬ s.clog.isSome = true := by
          rw [hclog]
          exact Bool.false_ne_true
        simp only [if_neg hnull]
        have hcases : (_ ∧ s.openLog opens name = _) ∨ _ := openLog_cases s name
        rcases hcases with ⟨hopens, hopen⟩ | ⟨hopens, hfail⟩
        · rw [hopen, if_neg hrunning, writeLog_eq rfl]
          simpa only [Function.update_self, Function.update_idem, Option.map_some,
            List.nil_append] using hopening hopens
        · rw [hfail]
          exact .failing hname hclog hopens
      · have hopen : s.clog.isSome = true := by
          rw [hclog]
          rfl
        simp only [if_pos hopen]
        rw [if_neg hrunning, writeLog_eq hclog]
        exact .append hname hclog

/-- The log after the branch of `SC_LOG`, which begins with the report already among those
that have been handled. -/
theorem Logs.log (h : Logs opens files s) (hended : s.ended = none) (r : ScReport)
    {s' after : ReportRun} (hclog : s'.clog = s.clog) (hfiles : s'.files = s.files)
    (hended' : s'.ended = none) (hname' : s'.logFileName = s.logFileName)
    (hhandled : s'.handled = s.handled ++ [(r, s.logFileName)])
    (hlog : Logging opens s' (printedLine r) after) : Logs opens files after := by
  have hlogged := logged_concat s.handled r s.logFileName
  rw [← hhandled] at hlogged
  have hgoes : s'.ended ≠ some .noLog := by
    rw [hended']
    nofun
  have hstays : ∀ {name : Text}, firstName s.handled = some name →
      firstName s'.handled = some name := by
    intro name hfirst
    rw [hhandled]
    exact firstName_concat hfirst _
  have hunused : s'.clog = none → logged s.handled = [] ∧ s.files = files := by
    intro hnull
    rw [hclog] at hnull
    cases h with
    | unused hnone _ hf _ => exact ⟨hnone, hf⟩
    | opened _ _ _ hc _ _ => exact absurd (hnull.symm.trans hc) (by simp)
    | failed _ _ _ _ _ hend => exact absurd (hended.symm.trans hend) (by simp)
  cases hlog with
  | noName hname =>
      rw [← hname', hname, Option.map_none, Option.toList_none, List.append_nil] at hlogged
      cases h with
      | unused hnone hc hf _ =>
          exact .unused (hlogged.trans hnone) (hclog.trans hc) (hfiles.trans hf) hgoes
      | opened name hfirst hopens hc hf _ =>
          exact .opened name (hstays hfirst) hopens (hclog.trans hc) (by rw [hfiles, hf, hlogged])
            hgoes
      | failed _ _ _ _ _ hend => exact absurd (hended.symm.trans hend) (by simp)
  | append hname hopen =>
      rw [← hname', hname, Option.map_some, Option.toList_some] at hlogged
      cases h with
      | unused _ hc _ _ => exact absurd ((hopen.symm.trans hclog).trans hc) (by simp)
      | opened name hfirst hopens hc hf _ =>
          obtain rfl := Option.some.inj ((hopen.symm.trans hclog).trans hc)
          refine .opened name (hstays hfirst) hopens (hclog.trans hc) ?_ hgoes
          simp only [hfiles, hf, hlogged, Function.update_self, Function.update_idem,
            Option.map_some]
      | failed _ _ _ _ _ hend => exact absurd (hended.symm.trans hend) (by simp)
  | opening hname hnull hopens =>
      rename_i name
      obtain ⟨hnone, hf⟩ := hunused hnull
      rw [← hname', hname, Option.map_some, Option.toList_some, hnone] at hlogged
      refine .opened name ?_ hopens rfl ?_ hgoes
      · rw [hhandled, ← hname', hname]
        exact firstName_of_unused hnone r name
      · rw [hfiles, hf, hlogged]
        rfl
  | failing hname hnull hopens =>
      rename_i name
      obtain ⟨hnone, hf⟩ := hunused hnull
      refine .failed name ?_ hopens rfl (hfiles.trans hf) rfl
      rw [hhandled, ← hname', hname]
      exact firstName_of_unused hnone r name

theorem Logging.spec {line : Text} {after : ReportRun} (h : Logging opens s line after)
    (hended : s.ended = none) :
    after.table = s.table ∧ after.stdout = s.stdout ∧ after.handled = s.handled ∧
      (after.logFileName = s.logFileName ∧ after.executedOnce = s.executedOnce) ∧
      (after.ended = none ∧ after.deletes = s.deletes ∨
        after.ended = some .noLog ∧ after.deletes = s.deletes + 1) := by
  cases h with
  | noName | append | opening => exact ⟨rfl, rfl, rfl, ⟨rfl, rfl⟩, Or.inl ⟨hended, rfl⟩⟩
  | failing => exact ⟨rfl, rfl, rfl, ⟨rfl, rfl⟩, Or.inr ⟨rfl, rfl⟩⟩

theorem setActions_log (severity : Severity) : .log ∈ setActions severity := by
  cases severity <;> decide

theorem logging_emit (hnames : s.table.map Counter.name = nonwarnings.map Counter.name)
    (hended : s.ended = none) (r : ScReport) :
    Logging opens (s.display r) (printedLine r) (s.emit opens r) := by
  have hemit : s.emit opens r = (s.display r).log opens (printedLine r) := by
    unfold ReportRun.emit
    rw [handleReport_fst r hnames]
    exact if_pos (setActions_log r.severity)
  rw [hemit]
  exact logging (s := s.display r) hended (printedLine r)

theorem Routed.emit (h : Routed opens files s) (hended : s.ended = none) (r : ScReport) :
    Routed opens files (s.emit opens r) ∧
      ((s.emit opens r).ended = none ∨ (s.emit opens r).ended = some .noLog) := by
  have hline := handleReport_fst r h.names
  have hlog : Logging opens _ _ _ := logging_emit h.names hended r
  obtain ⟨htable, hstdout, hhandled, -, hend⟩ := hlog.spec hended
  have hlogs : Logs opens files (s.emit opens r) :=
    h.logs.log hended r (rfl : (s.display r).clog = s.clog) rfl hended rfl rfl hlog
  refine ⟨⟨?_, ?_, hlogs, ?_⟩, hend.imp And.left And.left⟩
  · rw [htable]
    exact (handleReport_table r s.table).1.trans h.names
  · rw [hstdout, hhandled]
    unfold ReportRun.display displayReport
    simp only [hline, setActions_display, true_and, List.map_append, List.filter_append,
      ← h.console]
    cases hl : logonly (printedLine r) <;> simp [hl, Printed.line?]
  · have hdeletes := h.deletes
    unfold ReportRun.deletions at hdeletes ⊢
    rw [hended] at hdeletes
    rcases hend with ⟨hnone, hsame⟩ | ⟨hnoLog, hone⟩
    · rw [hnone, hsame]
      exact hdeletes
    · rw [hnoLog, hone]
      exact congrArg (· + 1) hdeletes

/-- The end of the program does not touch the log. -/
theorem Logs.of_end (h : Logs opens files s) (hended : s.ended = none) {s' : ReportRun}
    (hhandled : s'.handled = s.handled) (hclog : s'.clog = s.clog) (hfiles : s'.files = s.files)
    (hend : s'.ended ≠ some .noLog) : Logs opens files s' := by
  cases h with
  | unused hnone hc hf _ =>
      exact .unused (by rw [hhandled, hnone]) (hclog.trans hc) (hfiles.trans hf) hend
  | opened name hfirst hopens hc hf _ =>
      exact .opened name (by rw [hhandled, hfirst]) hopens (hclog.trans hc)
        (by rw [hfiles, hhandled, hf]) hend
  | failed _ _ _ _ _ hno => exact absurd (hended.symm.trans hno) (by simp)

theorem Routed.deletes_eq_zero (h : Routed opens files s) (hended : s.ended = none) :
    s.deletes = 0 := by
  rw [h.deletes, ReportRun.deletions, hended]

theorem Routed.summary (h : Routed opens files s) (hended : s.ended = none) (again : ScReport) :
    Routed opens files (s.summary opens again) ∧
      ((s.summary opens again).ended = none ∨ (s.summary opens again).ended = some .noLog) := by
  have hprinted : ∀ t : ReportRun, Routed opens files t → t.ended = none →
      Routed opens files { t with stdout := t.stdout ++ [.summary], executedOnce := true } := by
    intro t ht hrunning
    refine ⟨ht.names, ?_, ht.logs.of_end hrunning rfl rfl rfl ?_, ht.deletes⟩
    · rw [← ht.console, List.filterMap_append]
      exact List.append_nil _
    · rw [hrunning]
      nofun
  -- the state in which the summary itself is printed
  have hbefore : ∃ t, s.summary opens again = (if t.ended.isSome then t
        else { t with stdout := t.stdout ++ [.summary], executedOnce := true }) ∧
      Routed opens files t ∧ (t.ended = none ∨ t.ended = some .noLog) := by
    unfold ReportRun.summary
    cases s.executedOnce with
    | true => exact ⟨s.emit opens again, rfl, h.emit hended again⟩
    | false => exact ⟨s, rfl, h, Or.inl hended⟩
  obtain ⟨t, heq, ht, hrunning | hnoLog⟩ := hbefore
  · rw [heq, if_neg (by rw [hrunning]; exact Bool.false_ne_true)]
    exact ⟨hprinted t ht hrunning, Or.inl hrunning⟩
  · rw [heq, if_pos (by rw [hnoLog]; rfl)]
    exact ⟨ht, Or.inr hnoLog⟩

theorem Routed.abort (h : Routed opens files s) (hended : s.ended = none) :
    Routed opens files
      ({ s with deletes := s.deletes + if s.clog.isSome then 1 else 0 }.abortProgram .aborted) := by
  refine ⟨h.names, h.console, h.logs.of_end hended rfl rfl rfl ?_, ?_⟩
  · simp [ReportRun.abortProgram]
  have hzero := h.deletes_eq_zero hended
  unfold ReportRun.abortProgram ReportRun.autoClose ReportRun.deletions
  dsimp only
  rw [hzero]
  cases s.clog <;> rfl

theorem Routed.exit (h : Routed opens files s) (hended : s.ended = none) :
    Routed opens files { s.autoClose with ended := some .exited } := by
  refine ⟨h.names, h.console, h.logs.of_end hended rfl rfl rfl (by simp), ?_⟩
  have hzero := h.deletes_eq_zero hended
  unfold ReportRun.autoClose ReportRun.deletions
  dsimp only
  rw [hzero, Nat.zero_add]

theorem Routed.handle (h : Routed opens files s) (hended : s.ended = none) (r again : ScReport) :
    Routed opens files (s.handle opens r again) := by
  obtain ⟨hemit, hrunning | hnoLog⟩ := h.emit hended r
  · unfold ReportRun.handle
    simp only [hrunning, Option.isSome_none, Bool.false_eq_true, if_false]
    split
    · obtain ⟨hsummary, hrunning' | hnoLog⟩ := hemit.summary hrunning again
      · simp only [hrunning', Option.isSome_none, Bool.false_eq_true, if_false]
        exact hsummary.abort hrunning'
      · simp only [hnoLog, Option.isSome_some, if_true]
        exact hsummary
    · exact hemit
  · unfold ReportRun.handle
    simp only [hnoLog, Option.isSome_some, if_true]
    exact hemit

theorem Routed.step (h : Routed opens files s) {e : ReportEvent} {s' : ReportRun}
    (hs : s.step opens e = some s') : Routed opens files s' := by
  unfold ReportRun.step at hs
  split at hs
  · exact absurd hs (by simp)
  all_goals obtain rfl := Option.some.inj hs
  · rename_i r again hended
    exact h.handle hended r again
  · rename_i name hended
    exact ⟨h.names, h.console, h.logs.of_end hended rfl rfl rfl (by simp [hended]), h.deletes⟩
  · rename_i again hended
    exact (h.summary hended again).1
  · rename_i hended
    exact h.exit hended

end Steps

theorem logged_ne_nil {handled : List (ScReport × Option Text)} {name : Text}
    (h : firstName handled = some name) : logged handled ≠ [] := by
  intro hnil
  obtain ⟨last, hlast, hname⟩ := List.exists_of_findSome?_eq_some h
  have hno := List.filterMap_eq_nil_iff.mp hnil last hlast
  rw [hname] at hno
  exact absurd hno (by simp)

/-- The stream is deleted twice where a fatal report ends a program that has logged something. -/
theorem Routed.twice_iff {opens : Text → Bool} {files : Text → Option (List Text)} {s : ReportRun}
    (h : Routed opens files s) :
    1 < s.deletes ↔ s.ended = some .aborted ∧ logged s.handled ≠ [] := by
  rw [h.deletes]
  unfold ReportRun.deletions
  cases h.logs with
  | unused hnone hc _ _ =>
      refine iff_of_false ?_ fun hc => hc.2 hnone
      rw [hc]
      cases s.ended with
      | none => exact Nat.not_lt_zero 1
      | some how => cases how <;> decide
  | opened name hfirst _ hc _ hgoes =>
      rw [and_iff_left (logged_ne_nil hfirst), hc]
      cases hended : s.ended with
      | none => exact iff_of_false (Nat.not_lt_zero 1) nofun
      | some how =>
          cases how with
          | exited => exact iff_of_false (Nat.lt_irrefl 1) nofun
          | aborted => exact iff_of_true (Nat.lt_succ_self 1) rfl
          | noLog => exact absurd hended hgoes
  | failed _ _ _ _ _ hno =>
      rw [hno]
      exact iff_of_false (Nat.lt_irrefl 1) nofun

/-! ### The reports are those of the events -/

/-- The handler has had the reports that the events made, and knows what they say. -/
structure Matches (opens : Text → Bool) (m : Making) (s : ReportRun) : Prop where
  reports : s.handled = m.reports
  ended : s.ended = m.ending opens
  running : s.ended = none → m.name = s.logFileName ∧ m.summarized = s.executedOnce

section Made

variable {opens : Text → Bool} {files : Text → Option (List Text)} {m : Making} {s : ReportRun}

/-- The program has ended for want of a log file where the reports say so. -/
theorem Routed.logFails (h : Routed opens files s) :
    (s.ended = none → logFails opens s.handled = false) ∧
      (s.ended = some .noLog → logFails opens s.handled = true) := by
  unfold Demonstrator.logFails
  cases h.logs with
  | unused hnone _ _ hgoes =>
      have hfirst : firstName s.handled = none := by
        refine List.findSome?_eq_none_iff.mpr fun last hlast => ?_
        exact Option.map_eq_none_iff.mp (List.filterMap_eq_nil_iff.mp hnone last hlast)
      rw [hfirst]
      exact ⟨fun _ => rfl, fun hnoLog => absurd hnoLog hgoes⟩
  | opened name hfirst hopens _ _ hgoes =>
      rw [hfirst]
      refine ⟨fun _ => ?_, fun hnoLog => absurd hnoLog hgoes⟩
      unfold logPath at hopens
      by_cases hname : opens name = true
      · simp [hname]
      · rw [if_neg hname] at hopens
        simp [hopens]
  | failed name hfirst hopens _ _ hended =>
      rw [hfirst]
      refine ⟨fun hrunning => ?_, fun _ => ?_⟩
      · rw [hrunning] at hended
        cases hended
      · simp [hopens]

/-- While the program goes on nothing has ended it. -/
theorem Matches.open (h : Matches opens m s) (hended : s.ended = none) :
    Demonstrator.logFails opens m.reports = false ∧ m.ended = none := by
  have hending := h.ended
  unfold Making.ending at hending
  split at hending
  · rw [hended] at hending
    cases hending
  · rename_i hopen
    exact ⟨by simpa using hopen, hending.symm.trans hended⟩

theorem Matches.emit (h : Matches opens m s) (hrouted : Routed opens files s)
    (hended : s.ended = none) (r : ScReport) :
    Matches opens (m.report opens r) (s.emit opens r) := by
  have hlog : Logging opens _ _ _ := logging_emit hrouted.names hended r
  obtain ⟨-, -, hhandled, ⟨hname, honce⟩, -⟩ := hlog.spec hended
  obtain ⟨hmname, hmonce⟩ := h.running hended
  obtain ⟨hopen, hnone⟩ := h.open hended
  have hmade : m.report opens r = { m with reports := m.reports ++ [(r, m.name)] } := by
    unfold Making.report
    rw [hopen]
    rfl
  have hreports : (s.emit opens r).handled = (m.report opens r).reports := by
    rw [hhandled, hmade]
    show s.handled ++ [(r, s.logFileName)] = m.reports ++ [(r, m.name)]
    rw [h.reports, hmname]
  refine ⟨hreports, ?_, ?_⟩
  · unfold Making.ending
    rw [← hreports, hmade]
    obtain ⟨hafter, hrunning | hnoLog⟩ := hrouted.emit hended r
    · rw [hrunning, hafter.logFails.1 hrunning]
      exact hnone.symm
    · rw [hnoLog, hafter.logFails.2 hnoLog]
      rfl
  · intro _
    rw [hmade]
    exact ⟨hmname.trans hname.symm, hmonce.trans honce.symm⟩

/-- For want of a log file the program has ended, whatever else would have ended it. -/
theorem Matches.of_noLog (h : Matches opens m s) (hrouted : Routed opens files s)
    (hended : s.ended = some .noLog) {summarized : Bool} {how : Option RunEnd} :
    Matches opens { m with summarized := summarized, ended := how } s := by
  refine ⟨h.reports, ?_, fun hrunning => absurd (hended.symm.trans hrunning) nofun⟩
  unfold Making.ending
  simp only [← h.reports, hrouted.logFails.2 hended]
  exact hended

/-- Nothing is reported any more once no log file could be opened. -/
theorem Matches.report_of_noLog (h : Matches opens m s) (hrouted : Routed opens files s)
    (hended : s.ended = some .noLog) (r : ScReport) : m.report opens r = m := by
  unfold Making.report
  rw [← h.reports, hrouted.logFails.2 hended]
  rfl

theorem Matches.summary (h : Matches opens m s) (hrouted : Routed opens files s)
    (hended : s.ended = none) (again : ScReport) :
    Matches opens (m.summary opens again) (s.summary opens again) := by
  obtain ⟨hname, honce⟩ := h.running hended
  unfold Making.summary ReportRun.summary
  rw [honce]
  cases s.executedOnce with
  | false =>
      simp only [hended, Bool.false_eq_true, if_false, Option.isSome_none]
      exact ⟨h.reports, hended.symm.trans h.ended, fun _ => ⟨hname, rfl⟩⟩
  | true =>
      have hagain : Matches opens (m.report opens again) (s.emit opens again) :=
        h.emit hrouted hended again
      simp only [if_true]
      cases hafter : (s.emit opens again).ended with
      | none =>
          simp only [Option.isSome_none, Bool.false_eq_true, if_false]
          exact ⟨hagain.reports, hafter.symm.trans hagain.ended,
            fun _ => ⟨(hagain.running hafter).1, rfl⟩⟩
      | some how =>
          simp only [Option.isSome_some, if_true]
          exact ⟨hagain.reports, hagain.ended,
            fun hrunning => absurd (hafter.symm.trans hrunning) nofun⟩

theorem abort_mem_iff (severity : Severity) :
    .abort ∈ setActions severity ↔ severity = .fatal := by
  cases severity <;> decide

/-- A fatal report ends the program, unless the log that it is for cannot be opened. -/
theorem Matches.abort (h : Matches opens m s) (hended : s.ended = none) :
    Matches opens { m with ended := some .aborted }
      ({ s with deletes := s.deletes + if s.clog.isSome then 1 else 0 }.abortProgram .aborted) := by
  refine ⟨h.reports, ?_, nofun⟩
  unfold Making.ending
  simp only [(h.open hended).1]
  rfl

theorem Matches.handle (h : Matches opens m s) (hrouted : Routed opens files s)
    (hended : s.ended = none) (r again : ScReport) :
    Matches opens (m.event opens (.report r again)) (s.handle opens r again) := by
  have hmade : Matches opens (m.report opens r) (s.emit opens r) := h.emit hrouted hended r
  obtain ⟨hemit, hrunning | hnoLog⟩ := hrouted.emit hended r
  · unfold Making.event ReportRun.handle
    simp only [hrunning, Option.isSome_none, Bool.false_eq_true, if_false, abort_mem_iff]
    by_cases hfatal : r.severity = .fatal
    · rw [if_pos hfatal, if_pos hfatal]
      have hsummary : Matches opens ((m.report opens r).summary opens again)
          ((s.emit opens r).summary opens again) := hmade.summary hemit hrunning again
      obtain ⟨hafter, hrunning' | hnoLog⟩ := hemit.summary hrunning again
      · simp only [hrunning', Option.isSome_none, Bool.false_eq_true, if_false]
        exact hsummary.abort hrunning'
      · simp only [hnoLog, Option.isSome_some, if_true]
        exact hsummary.of_noLog hafter hnoLog
    · rw [if_neg hfatal, if_neg hfatal]
      exact hmade
  · -- the program has ended, and the summary is not called
    unfold Making.event ReportRun.handle
    simp only [hnoLog, Option.isSome_some, if_true]
    have hnone : (m.report opens r).report opens again = m.report opens r :=
      hmade.report_of_noLog hemit hnoLog again
    split
    · unfold Making.summary
      rw [hnone, ite_self]
      exact hmade.of_noLog hemit hnoLog
    · exact hmade

theorem Matches.step (h : Matches opens m s) (hrouted : Routed opens files s) {e : ReportEvent}
    {s' : ReportRun} (hs : s.step opens e = some s') : Matches opens (m.event opens e) s' := by
  unfold ReportRun.step at hs
  split at hs
  · exact absurd hs (by simp)
  all_goals obtain rfl := Option.some.inj hs
  · rename_i r again hended
    exact h.handle hrouted hended r again
  · rename_i name hended
    exact ⟨h.reports, h.ended, fun _ => ⟨rfl, (h.running hended).2⟩⟩
  · rename_i again hended
    exact h.summary hrouted hended again
  · rename_i hended
    refine ⟨h.reports, ?_, nofun⟩
    simp only [Making.ending, Making.event, (h.open hended).1]
    rfl

/-- A run of the handler is one of the events. -/
theorem Matches.run {events : List ReportEvent} {s' : ReportRun} (h : Matches opens m s)
    (hrouted : Routed opens files s)
    (hrun : (reportMachine opens files).run s events = some s') :
    Matches opens (events.foldl (Making.event opens) m) s' ∧ Routed opens files s' := by
  induction events generalizing m s with
  | nil =>
      obtain rfl := Option.some.inj hrun
      exact ⟨h, hrouted⟩
  | cons e rest ih =>
      obtain ⟨s₁, hs, hrest⟩ := Option.bind_eq_some_iff.mp hrun
      exact ih (h.step hrouted hs) (hrouted.step hs) hrest

end Made

/-- In every run the reports that its events make are handled, and it ends as they say: the
console has those lines that are not for the log only, one file has all lines for which there
was a name, or none could be opened; and the stream is deleted once at most unless a fatal
report ends the program with the log open. -/
theorem reports_routed (opens : Text → Bool) (files : Text → Option (List Text))
    {events : List ReportEvent} {s : ReportRun}
    (h : (reportMachine opens files).run (.initial files) events = some s) :
    s.handled = reportsMade opens events ∧ s.ended = endMade opens events ∧
      Routed opens files s ∧
      (1 < s.deletes ↔
        endMade opens events = some .aborted ∧ logged (reportsMade opens events) ≠ []) := by
  have hstart : Matches opens .start (ReportRun.initial files) := ⟨rfl, rfl, fun _ => ⟨rfl, rfl⟩⟩
  obtain ⟨hmatches, hrouted⟩ := hstart.run (.initial opens files) h
  have hreports : s.handled = reportsMade opens events := hmatches.reports
  have hended : s.ended = endMade opens events := hmatches.ended
  refine ⟨hreports, hended, hrouted, ?_⟩
  rw [← hreports, ← hended]
  exact hrouted.twice_iff

/-- A packet that is too short, with a log. -/
def shortPacket : ScReport where
  severity := .fatal
  id := -1
  msgType := "adaptor".toList
  msg := "Incomplete packet received".toList
  fileName := "async_adaptor.cpp".toList
  lineNumber := 257
  processName := none
  phase := .notStarted
  isRunning := false

/-- The adaptor's thread ends a program that has a log. -/
theorem reports_routed_shortPacket :
    ∃ s, Reachable (reportMachine (fun _ => true) fun _ => none) s ∧
      s.handled = [(shortPacket, some "run.log".toList)] ∧
      Routed (fun _ => true) (fun _ => none) s ∧ s.ended = some .aborted ∧ 1 < s.deletes := by
  let events : List ReportEvent :=
    [.setLogFileName (some "run.log".toList), .report shortPacket shortPacket]
  have hrun : ((reportMachine (fun _ => true) fun _ => none).run
      (.initial fun _ => none) events).map (fun s => s.ended) = some (some .aborted) := by decide
  obtain ⟨s, hs, hended⟩ := Option.map_eq_some_iff.mp hrun
  obtain ⟨hhandled, hend, hrouted, htwice⟩ := reports_routed (fun _ => true) (fun _ => none) hs
  have hmade : reportsMade (fun _ => true) events = [(shortPacket, some "run.log".toList)] := by
    decide
  have hlogged : logged (reportsMade (fun _ => true) events) ≠ [] := by
    rw [hmade]
    decide
  exact ⟨s, Machine.reachable_of_run _ .init hs, hhandled.trans hmade, hrouted, hended,
    htwice.mpr ⟨hend.symm.trans hended, hlogged⟩⟩

end Demonstrator
