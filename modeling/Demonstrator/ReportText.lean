/-
What a report reads like once the handler is through with it.

`report_handler` composes a line from the report, and then looks for a keyword that the
author of the message put in front of it: `": NOTE: "` in a warning makes the line a note,
and counts it as one in the table `nonwarnings`.  Texts are lists of characters, and
`find` and `replace` are those of `std::string` at the arguments the source gives them.

The table travels through the handler, so what a later model needs is how the handler
changes it: `handleReport_table` says that all a report ever does to the table is to
raise one of its counts by one.
-/
import Mathlib.Data.List.Basic
import Mathlib.Data.UInt
import Demonstrator.Report

namespace Demonstrator

/-- `std::string` -/
abbrev Text := List Char

/-- `std::string::find`: where `pattern` first occurs; none is `npos`. -/
def find (text pattern : Text) : Option Nat :=
  (List.range (text.length + 1)).find? fun pos => pattern.isPrefixOf (text.drop pos)

/-- `std::string::replace` -/
def replace (text : Text) (pos len : Nat) (new : Text) : Text :=
  text.take pos ++ new ++ text.drop (pos + len)

/-- Where the simulation is, which decides what a line starts with. -/
inductive ReportPhase where
  | notStarted
  /-- After `start_of_simulation`, with the time a report carries as it is printed. -/
  | started (time : Text)
  | ended
  deriving DecidableEq, Repr

/-- `sc_report`, and what the composer asks the kernel. -/
structure ScReport where
  severity : Severity
  id : Int
  msgType : Text
  msg : Text
  fileName : Text
  lineNumber : Nat
  processName : Option Text
  phase : ReportPhase
  /-- `sc_is_running()` -/
  isRunning : Bool
  deriving DecidableEq, Repr

/-- `severity_names` -/
def severityName : Severity → Text
  | .info => "INFO".toList
  | .warning => "WARNING".toList
  | .error => "ERROR".toList
  | .fatal => "FATAL".toList

/-- The letter that an identified report has before its id. -/
def severityLetter : Severity → Char
  | .info => 'I'
  | .warning => 'W'
  | .error => 'E'
  | .fatal => 'F'

/-- `guard` of `report_handler`. -/
def guardText : Text := ": ".toList

/-- What a line starts with. -/
def ReportPhase.text : ReportPhase → Text
  | .notStarted => "- s: ".toList
  | .started time => time ++ guardText
  | .ended => "! s: ".toList

/-- `report_compose_message` -/
def reportComposeMessage (r : ScReport) (theMsg : Text) : Text :=
  let start := r.phase.text
  let indent := List.replicate start.length ' '
  start ++ severityName r.severity ++ guardText
    ++ (if 0 ≤ r.id then severityLetter r.severity :: (toString r.id).toList ++ [' '] else [])
    ++ r.msgType
    ++ (if theMsg ≠ [] then guardText ++ theMsg else [])
    ++ (if r.severity ≠ .info ∨ (find theMsg "DEBUG:".toList).isSome then
          '\n' :: indent ++ "In file: ".toList ++ r.fileName ++ ":".toList
            ++ (toString r.lineNumber).toList
            ++ match r.isRunning, r.processName with
              | true, some name => ", process: ".toList ++ name
              | _, _ => []
        else [])

/-- `counter` -/
structure Counter where
  name : Text
  count : UInt64
  deriving DecidableEq, Repr

/-- `info_names` -/
def infoNames : List Text :=
  ["DATA".toList, "WARNING".toList, "ERROR".toList, "LOGONLY".toList, "DEBUG".toList,
    "OPTION".toList, "HELP".toList, "NOTE".toList, "ALERT".toList, "ENTER".toList, "LEAVE".toList]

/-- `nonwarnings`, as the program starts. -/
def nonwarnings : List Counter :=
  [⟨"DEBUG".toList, 0⟩, ⟨"NOTE".toList, 0⟩, ⟨"ALERT".toList, 0⟩]

/-- The body of the two loops over keywords: the line with the label replaced by `name`
and the keyword taken out, or none where the loop goes on to the next name. -/
def relabel (label line name : Text) : Option Text :=
  let extd := guardText ++ name ++ guardText
  match find line extd, find line (label ++ guardText) with
  | some pos, some labelPos =>
      if pos < labelPos then none
      else some (replace (replace line pos extd.length guardText) labelPos label.length name)
  | _, _ => none

/-- The loop over `info_names`. -/
def relabelInfo (line : Text) : Text :=
  (infoNames.findSome? (relabel (severityName .info) line)).getD line

/-- "Fix so-called runt MSGID" -/
def fixRunt (line : Text) : Text :=
  let runt := ": -: ".toList
  match find line runt with
  | some pos => replace line pos runt.length ":".toList
  | none => line

/-- The loop over `nonwarnings`: the line and the table after it. -/
def relabelWarning (line : Text) : List Counter → Text × List Counter
  | [] => (line, [])
  | c :: rest =>
      match relabel (severityName .warning) line c.name with
      | some line' => (line', { c with count := c.count + 1 } :: rest)
      | none =>
          let r := relabelWarning line rest
          (r.1, c :: r.2)

/-- What `report_handler` makes of a report and of the table, up to displaying it. -/
def handleReport (r : ScReport) (table : List Counter) : Text × List Counter :=
  let line := reportComposeMessage r r.msg
  match r.severity with
  | .info => (fixRunt (relabelInfo line), table)
  | .warning => relabelWarning line table
  | .error | .fatal => (line, table)

/-- The line is for the log only. -/
def logonly (line : Text) : Bool := (find line "LOGONLY:".toList).isSome

/-- `report_handler`, up to the log: what it prints, and the table after it. -/
def displayReport (r : ScReport) (table : List Counter) : Option Text × List Counter :=
  let handled := handleReport r table
  (if .display ∈ setActions r.severity ∧ logonly handled.1 = false then some handled.1 else none,
    handled.2)

/-- `debug_count` of `summary`: the sum over the table. -/
def debugCount (table : List Counter) : UInt64 := (table.map Counter.count).sum

/-! ### What a report does to the table -/

/-- A warning that is counted under one of the names. -/
def Relabelled (names : List Text) (r : ScReport) : Prop :=
  r.severity = .warning ∧ ∃ name ∈ names,
    (relabel (severityName .warning) (reportComposeMessage r r.msg) name).isSome = true

instance (names : List Text) (r : ScReport) : Decidable (Relabelled names r) :=
  inferInstanceAs (Decidable (_ ∧ _))

theorem names_relabelWarning (line : Text) : ∀ table : List Counter,
    (relabelWarning line table).2.map Counter.name = table.map Counter.name := by
  intro table
  induction table with
  | nil => rfl
  | cons c rest ih =>
      unfold relabelWarning
      split
      · rfl
      · rw [List.map_cons, List.map_cons, ih]

/-- One count goes up by one where one of the names matches. -/
theorem debugCount_relabelWarning (line : Text) : ∀ table : List Counter,
    debugCount (relabelWarning line table).2 = debugCount table +
      if ∃ name ∈ table.map Counter.name,
          (relabel (severityName .warning) line name).isSome = true then 1 else 0 := by
  intro table
  induction table with
  | nil => rfl
  | cons c rest ih =>
      unfold relabelWarning
      cases hc : relabel (severityName .warning) line c.name with
      | some line' =>
          have hfound : ∃ name ∈ (c :: rest).map Counter.name,
              (relabel (severityName .warning) line name).isSome = true :=
            ⟨c.name, List.mem_cons_self, by rw [hc]; rfl⟩
          rw [if_pos hfound]
          simp only [debugCount, List.map_cons, List.sum_cons]
          ac_rfl
      | none =>
          have hsame : (∃ name ∈ (c :: rest).map Counter.name,
                (relabel (severityName .warning) line name).isSome = true) ↔
              ∃ name ∈ rest.map Counter.name,
                (relabel (severityName .warning) line name).isSome = true := by
            simp [hc]
          simp only [debugCount, List.map_cons, List.sum_cons] at ih ⊢
          rw [ih, UInt64.add_assoc]
          exact congrArg _ (congrArg _ (if_congr hsame.symm rfl rfl))

/-- All that a report does to the table is to raise the count of one name by one, where
it is relabelled. -/
theorem handleReport_table (r : ScReport) (table : List Counter) :
    (handleReport r table).2.map Counter.name = table.map Counter.name ∧
      debugCount (handleReport r table).2 = debugCount table +
        if Relabelled (table.map Counter.name) r then 1 else 0 := by
  have hother : r.severity ≠ .warning → (handleReport r table).2 = table ∧
      ¬ Relabelled (table.map Counter.name) r := by
    intro hsev
    refine ⟨?_, fun h => hsev h.1⟩
    unfold handleReport
    cases hs : r.severity with
    | warning => exact absurd hs hsev
    | info => rfl
    | error | fatal => rfl
  by_cases hsev : r.severity = .warning
  · have htable : (handleReport r table).2 =
        (relabelWarning (reportComposeMessage r r.msg) table).2 := by
      unfold handleReport
      rw [hsev]
    rw [htable]
    refine ⟨names_relabelWarning _ table, (debugCount_relabelWarning _ table).trans ?_⟩
    exact congrArg _ (if_congr ⟨fun h => ⟨hsev, h⟩, fun h => h.2⟩ rfl rfl)
  · obtain ⟨htable, hno⟩ := hother hsev
    rw [htable, if_neg hno]
    exact ⟨rfl, (UInt64.add_zero _).symm⟩

end Demonstrator
