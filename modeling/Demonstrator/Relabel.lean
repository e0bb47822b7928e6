/-
Keywords in front of messages.

The author of a message may begin it with a keyword, and the report is then to carry the
keyword for a label in place of `INFO` or `WARNING`, and the message to lose it.  What
`report_handler` does is to search the composed line for `": NOTE: "`, and so on through its
names, so a keyword counts wherever it stands behind the label: in the message type, further
on in the message, in the name of a file.  Of an information it also shortens the first
`": -: "` there is, which is meant for messages without a type; and a line with `"LOGONLY:"`
anywhere in it is not printed at all.

`relabel_line` says what the body of the loops does to a line, and `relabel_loop` what comes
of them: the label is the one the message begins with, or none, exactly when no earlier name
of the table is found.
-/
import Demonstrator.StdString

namespace Demonstrator

open ListSearch Numeral

/-! ### The line that is meant -/

/-- The names that are tried for a severity. -/
def keywords : Severity → List Text
  | .info => infoNames
  | .warning => nonwarnings.map Counter.name
  | .error | .fatal => []

/-- A name as it is searched for. -/
def keyed (name : Text) : Text := guardText ++ name ++ guardText

/-- What a line starts with, up to the guard. -/
def ReportPhase.stamp : ReportPhase → Text
  | .notStarted => "- s".toList
  | .started time => time
  | .ended => "! s".toList

namespace ScReport

/-- The id of a report, where it has one. -/
def idText (r : ScReport) : Text :=
  if 0 ≤ r.id then severityLetter r.severity :: (toString r.id).toList ++ [' '] else []

/-- What a line ends with. -/
def location (r : ScReport) : Text :=
  if r.severity ≠ .info ∨ (find r.msg "DEBUG:".toList).isSome then
    '\n' :: List.replicate r.phase.text.length ' ' ++ "In file: ".toList ++ r.fileName
      ++ ":".toList ++ (toString r.lineNumber).toList
      ++ match r.isRunning, r.processName with
        | true, some name => ", process: ".toList ++ name
        | _, _ => []
  else []

/-- What stands behind the label, with a text in place of the message. -/
def behind (r : ScReport) (msg : Text) : Text :=
  guardText ++ ((r.idText ++ r.msgType) ++
    ((if r.msg ≠ [] then guardText ++ msg else []) ++ r.location))

/-- The line of a report with a label, and with a text in place of the message. -/
def line (r : ScReport) (label msg : Text) : Text :=
  r.phase.stamp ++ guardText ++ (label ++ r.behind msg)

/-- The keyword that the message begins with. -/
def keyword (r : ScReport) : Option Text :=
  (keywords r.severity).find? fun name => (name ++ guardText).isPrefixOf r.msg

/-- The line that is meant: with the keyword for a label and without it in the message, or
as it was composed. -/
def meantLine (r : ScReport) : Text :=
  match r.keyword with
  | some name => r.line name (r.msg.drop (name ++ guardText).length)
  | none => r.line (severityName r.severity) r.msg

end ScReport

/-- The count of one name is raised. -/
def countName (name : Text) (table : List Counter) : List Counter :=
  table.map fun c => if c.name = name then { c with count := c.count + 1 } else c

/-- The table that is meant: a warning with a keyword is counted under it. -/
def ScReport.meantTable (r : ScReport) (table : List Counter) : List Counter :=
  match r.severity, r.keyword with
  | .warning, some name => countName name table
  | _, _ => table

/-- The handler prints the report, and touches the leading keyword and nothing else. -/
def RelabelsLeading (r : ScReport) (table : List Counter) : Prop :=
  displayReport r table = (some r.meantLine, r.meantTable table)

/-- No name that is tried before the leading keyword stands anywhere behind the label, and no
name at all where there is no leading keyword. -/
def ScReport.NoNameBefore (r : ScReport) : Prop :=
  ∀ name ∈ (keywords r.severity).takeWhile fun name => !(name ++ guardText).isPrefixOf r.msg,
    ¬ keyed name <:+: r.behind r.msg

/-- No other name is found; in an information that is to be printed there is nothing like a
message type that is missing; and nothing in the line keeps it for the log. -/
structure NothingStray (r : ScReport) : Prop where
  names : r.NoNameBefore
  runt : r.severity = .info → ¬ ": -: ".toList <:+: r.meantLine
  shown : ¬ "LOGONLY:".toList <:+: r.meantLine

/-- What `sc_time` prints: a number, and the name of a unit. -/
def IsTimeText (time : Text) : Prop :=
  ∃ number unit, time = number ++ ' ' :: unit ∧ (∀ c ∈ number, c ∈ "0123456789.e+-".toList) ∧
    unit ∈ ["s".toList, "ms".toList, "us".toList, "ns".toList, "ps".toList, "fs".toList]

/-- The time of a report, if it has one, is one that `sc_time` prints. -/
def ReportPhase.Printed (phase : ReportPhase) : Prop :=
  ∀ time, phase = .started time → IsTimeText time

/-! ### What the handler composes -/

theorem phase_text (phase : ReportPhase) : phase.text = phase.stamp ++ guardText := by
  cases phase <;> rfl

theorem compose_eq (r : ScReport) :
    reportComposeMessage r r.msg = r.line (severityName r.severity) r.msg := by
  have hparts : reportComposeMessage r r.msg =
      r.phase.text ++ severityName r.severity ++ guardText ++ r.idText ++ r.msgType
        ++ (if r.msg ≠ [] then guardText ++ r.msg else []) ++ r.location := rfl
  rw [hparts, phase_text]
  simp only [ScReport.line, ScReport.behind, List.append_assoc]

/-! ### Lines with a label

A line is a stamp, a guard, a label and what stands behind the label, which begins with a
colon; neither the stamp nor the label has one.
-/

section
variable {stamp label name behind : Text}

/-- A name is searched for behind the label, unless it is the label. -/
theorem find_keyed (hstamp : ':' ∉ stamp) (hlabel : ':' ∉ label) (hname : ':' ∉ name)
    (hne : name ≠ label) :
    find (stamp ++ guardText ++ (label ++ ':' :: behind)) (keyed name) =
      (find (':' :: behind) (keyed name)).map ((stamp ++ guardText ++ label).length + ·) := by
  rw [← List.append_assoc]
  refine find_append ?_
  intro q hq hoccurs
  simp only [List.append_assoc] at hoccurs hq
  have hle := le_of_occurs hstamp hoccurs
  rw [occurs_append hle] at hoccurs
  cases hk : q - stamp.length with
  | zero =>
      -- at the guard before the label the label would be the name
      rw [hk, List.drop_zero] at hoccurs
      obtain ⟨back, hback⟩ := hoccurs
      have hguard : guardText ++ (name ++ (guardText ++ back)) =
          guardText ++ (label ++ ':' :: behind) := by
        rw [← hback, keyed]
        simp only [List.append_assoc]
      have hsplit : name ++ ':' :: (' ' :: back) = label ++ ':' :: behind :=
        List.append_cancel_left hguard
      exact hne (before_unique hname hlabel hsplit).1
  | succ k =>
      rw [hk] at hoccurs
      have hno : ':' ∉ ' ' :: label := by
        rw [List.mem_cons, not_or]
        exact ⟨by decide, hlabel⟩
      have hbehind : keyed name <+: ((' ' :: label) ++ ':' :: behind).drop k := hoccurs
      have hlater := le_of_occurs hno hbehind
      simp only [List.length_append, List.length_cons, guardText] at hq hlater
      have htwo : ": ".toList.length = 2 := by decide
      omega

theorem find_label {c : Char} {tail rest : Text} (hlabel : label = c :: tail) (hstamp : c ∉ stamp)
    (hguard : c ∉ guardText) :
    find (stamp ++ guardText ++ (label ++ (guardText ++ rest))) (label ++ guardText) =
      some (stamp ++ guardText).length := by
  subst hlabel
  refine find_eq_some_iff.mpr (firstAt_of_notMem ?_ ?_)
  · rw [List.mem_append, not_or]
    exact ⟨hstamp, hguard⟩
  · exact ⟨rest, List.append_assoc (c :: tail) guardText rest⟩

/-- The body of the loops: the first occurrence of the name behind the label becomes a
guard, and the label becomes the name. -/
theorem relabel_line {rest : Text} (hstamp : ':' ∉ stamp) (hlabel : ':' ∉ label)
    (hname : ':' ∉ name) (hne : name ≠ label)
    (hfound : find (stamp ++ guardText ++ (label ++ (guardText ++ rest)))
      (label ++ guardText) = some (stamp ++ guardText).length) :
    relabel label (stamp ++ guardText ++ (label ++ (guardText ++ rest))) name =
      (find (guardText ++ rest) (keyed name)).map fun pos =>
        stamp ++ guardText ++
          (name ++ replace (guardText ++ rest) pos (keyed name).length guardText) := by
  have hkeyed : find (stamp ++ guardText ++ (label ++ (guardText ++ rest))) (keyed name) =
      (find (guardText ++ rest) (keyed name)).map ((stamp ++ guardText ++ label).length + ·) :=
    find_keyed hstamp hlabel hname hne
  unfold keyed at hkeyed ⊢
  simp only [relabel, hfound, hkeyed]
  cases find (guardText ++ rest) (guardText ++ name ++ guardText) with
  | none => rfl
  | some pos =>
      simp only [Option.map_some]
      have hbehind :
          ¬ (stamp ++ guardText ++ label).length + pos < (stamp ++ guardText).length := by
        rw [List.length_append]
        omega
      rw [if_neg hbehind]
      refine congrArg some ?_
      show replace (replace _ _ (keyed name).length guardText) _ _ _ = _
      rw [← List.append_assoc (stamp ++ guardText) label, replace_append, List.append_assoc]
      exact replace_middle _ _ _ _

/-- What is left behind the label begins with a colon, as it did. -/
theorem replace_head {rest new : Text} (hnew : ∃ tail, new = ':' :: tail) (pos len : Nat) :
    ∃ tail, replace (':' :: rest) pos len new = ':' :: tail := by
  obtain ⟨tail, rfl⟩ := hnew
  cases pos with
  | zero => exact ⟨_, rfl⟩
  | succ pos => exact ⟨_, rfl⟩

theorem label_unique {label' behind' : Text} (hlabel : ':' ∉ label) (hlabel' : ':' ∉ label')
    (h : stamp ++ guardText ++ (label ++ ':' :: behind) =
      stamp ++ guardText ++ (label' ++ ':' :: behind')) : label = label' ∧ behind = behind' :=
  before_unique hlabel hlabel' (List.append_cancel_left h)

/-- The repair of a missing message type leaves the label, and leaves all of the line only
if there is nothing to repair. -/
theorem fixRunt_line (hstamp : ':' ∉ stamp) (hlabel : ':' ∉ label) (hne : ['-'] ≠ label) :
    ∃ behind', fixRunt (stamp ++ guardText ++ (label ++ ':' :: behind)) =
        stamp ++ guardText ++ (label ++ ':' :: behind') ∧
      (behind' = behind ↔
        ¬ ": -: ".toList <:+: stamp ++ guardText ++ (label ++ ':' :: behind)) := by
  have hfind : find (stamp ++ guardText ++ (label ++ ':' :: behind)) (keyed ['-']) = _ :=
    find_keyed hstamp hlabel (by decide) hne
  have hrunt : ": -: ".toList = keyed ['-'] := by decide
  unfold fixRunt
  simp only [hrunt]
  rw [← find_eq_none_iff, hfind]
  cases hpos : find (':' :: behind) (keyed ['-']) with
  | none => exact ⟨behind, rfl, iff_of_true rfl rfl⟩
  | some pos =>
      obtain ⟨behind', hbehind'⟩ : ∃ tail,
          replace (':' :: behind) pos (keyed ['-']).length ":".toList = ':' :: tail :=
        replace_head ⟨[], rfl⟩ pos _
      refine ⟨behind', ?_, iff_of_false ?_ nofun⟩
      · show replace _ _ _ _ = _
        rw [← List.append_assoc, replace_append, hbehind', List.append_assoc]
      · -- the line has become shorter
        rintro rfl
        have hsplit := split_of_occurs (find_eq_some_iff.mp hpos).occurs
        have hlength := congrArg List.length hsplit
        have hlength' := congrArg List.length hbehind'
        simp only [replace, List.length_append] at hlength hlength'
        have hfive : (keyed ['-']).length = 5 := by decide
        have hone : ":".toList.length = 1 := by decide
        omega

end

/-! ### The keyword in the message -/

/-- In front of a guard there is none in a text without one. -/
theorem not_guard_before {text rest : Text} (htext : ¬ guardText <:+: text) (hne : text ≠ []) :
    ¬ guardText <+: text ++ (guardText ++ rest) := by
  rintro ⟨back, hback⟩
  cases text with
  | nil => exact hne rfl
  | cons c text =>
      obtain ⟨rfl, htail⟩ := List.cons.inj hback
      cases text with
      | nil => exact absurd (List.cons.inj htail).1 (by decide)
      | cons d text =>
          obtain ⟨rfl, -⟩ := List.cons.inj htail
          exact htext ⟨[], text, rfl⟩

/-- What stands before the first guard is settled. -/
theorem before_guard_unique {msgType name rest back : Text} (htype : ¬ guardText <:+: msgType)
    (hname : ':' ∉ name) (h : name ++ (guardText ++ back) = msgType ++ (guardText ++ rest)) :
    msgType = name := by
  obtain ⟨more, rfl, hmore⟩ | ⟨more, rfl, hmore⟩ := List.append_eq_append_iff.mp h
  · -- the message type is longer, and there would be a guard in it
    by_cases hnil : more = []
    · rw [hnil, List.append_nil]
    · have hno : ¬ guardText <:+: more :=
        fun hfound => htype (hfound.trans (List.suffix_append name more).isInfix)
      exact absurd ⟨back, hmore⟩ (not_guard_before hno hnil)
  · -- the name is longer, and there would be a colon in it
    cases more with
    | nil => rw [List.append_nil]
    | cons c more =>
        obtain ⟨rfl, -⟩ := List.cons.inj hmore
        exact absurd (List.mem_append_right _ (List.mem_cons_self ..)) hname

/-- Before its place behind a message type a name occurs in the place of the type only, where
the type reads the same. -/
theorem occurs_before {msgType name rest : Text} {pos : Nat} (htype : ¬ guardText <:+: msgType)
    (hname : ':' ∉ name) (hlt : pos < (guardText ++ msgType).length)
    (hoccurs : keyed name <+:
      (guardText ++ (msgType ++ (guardText ++ (name ++ (guardText ++ rest))))).drop pos) :
    pos = 0 ∧ msgType = name := by
  have hguard : guardText <+: keyed name := ⟨name ++ guardText, (List.append_assoc _ _ _).symm⟩
  match pos, hlt with
  | 0, _ =>
      obtain ⟨back, hback⟩ := hoccurs
      have hguarded : guardText ++ (name ++ (guardText ++ back)) =
          guardText ++ (msgType ++ (guardText ++ (name ++ (guardText ++ rest)))) := by
        rw [List.drop_zero] at hback
        rw [← hback, keyed]
        simp only [List.append_assoc]
      exact ⟨rfl, before_guard_unique htype hname (List.append_cancel_left hguarded)⟩
  | 1, _ =>
      obtain ⟨back, hback⟩ := hguard.trans hoccurs
      exact absurd (List.cons.inj hback).1 (by decide)
  | k + 2, hlt =>
      have hk : k < msgType.length := by
        rw [List.length_append, show guardText.length = 2 by decide] at hlt
        omega
      have hrest : guardText <+:
          (msgType ++ (guardText ++ (name ++ (guardText ++ rest)))).drop k :=
        hguard.trans hoccurs
      rw [List.drop_append_of_le_length (Nat.le_of_lt hk)] at hrest
      have hno : ¬ guardText <:+: msgType.drop k :=
        fun hfound => htype (hfound.trans (List.drop_suffix k msgType).isInfix)
      have hne : msgType.drop k ≠ [] :=
        fun hnil => Nat.not_le_of_lt hk (List.drop_eq_nil_iff.mp hnil)
      exact absurd hrest (not_guard_before hno hne)

/-- The name behind a message type is found where it is, or in the place of the type where
the type reads the same; what is left is the same then. -/
theorem remove_keyword {msgType name rest : Text} (htype : ¬ guardText <:+: msgType)
    (hname : ':' ∉ name) :
    ∃ pos,
      find (guardText ++ (msgType ++ (guardText ++ (name ++ (guardText ++ rest))))) (keyed name) =
        some pos ∧
      replace (guardText ++ (msgType ++ (guardText ++ (name ++ (guardText ++ rest))))) pos
        (keyed name).length guardText = guardText ++ (msgType ++ (guardText ++ rest)) := by
  have hsplit : guardText ++ (msgType ++ (guardText ++ (name ++ (guardText ++ rest)))) =
      (guardText ++ msgType) ++ (keyed name ++ rest) := by
    simp only [keyed, List.append_assoc]
  have hfound : keyed name <:+:
      guardText ++ (msgType ++ (guardText ++ (name ++ (guardText ++ rest)))) :=
    ⟨guardText ++ msgType, rest, by rw [hsplit, List.append_assoc]⟩
  obtain ⟨pos, hpos⟩ := Option.isSome_iff_exists.mp (find_isSome_iff.mpr hfound)
  refine ⟨pos, hpos, ?_⟩
  have hfirst := find_eq_some_iff.mp hpos
  have hle : pos ≤ (guardText ++ msgType).length := by
    by_contra hlt
    refine hfirst.first _ (Nat.lt_of_not_le hlt) ?_
    rw [hsplit, List.drop_left]
    exact List.prefix_append _ _
  obtain heq | hlt := Nat.eq_or_lt_of_le hle
  · subst heq
    rw [hsplit, replace_middle, List.append_assoc]
  · obtain ⟨rfl, rfl⟩ := occurs_before htype hname hlt hfirst.occurs
    have hfront : guardText ++ (msgType ++ (guardText ++ (msgType ++ (guardText ++ rest)))) =
        [] ++ (keyed msgType ++ (msgType ++ (guardText ++ rest))) := by
      simp only [keyed, List.append_assoc, List.nil_append]
    rw [hfront]
    exact replace_middle [] _ _ _

/-! ### What the texts of a report are made of -/

theorem keyword_chars {severity : Severity} {name : Text} (h : name ∈ keywords severity) :
    ':' ∉ name ∧ name ≠ severityName severity ∧ name ≠ ['-'] := by
  have hall : ∀ n ∈ keywords severity, ':' ∉ n ∧ n ≠ severityName severity ∧ n ≠ ['-'] := by
    cases severity <;> decide
  exact hall name h

theorem severityName_chars (severity : Severity) :
    ':' ∉ severityName severity ∧ ['-'] ≠ severityName severity := by
  cases severity <;> decide

theorem time_chars {time : Text} (h : IsTimeText time) :
    ∀ c ∈ time, c ∈ "0123456789.e+- smunpf".toList := by
  obtain ⟨number, unit, rfl, hnumber, hunit⟩ := h
  intro c hc
  obtain hc | hc := List.mem_append.mp hc
  · have hsub : ∀ d ∈ "0123456789.e+-".toList, d ∈ "0123456789.e+- smunpf".toList := by decide
    exact hsub c (hnumber c hc)
  · obtain rfl | hc := List.mem_cons.mp hc
    · decide
    · have hunits : ∀ u ∈
          ["s".toList, "ms".toList, "us".toList, "ns".toList, "ps".toList, "fs".toList],
          ∀ d ∈ u, d ∈ "0123456789.e+- smunpf".toList := by decide
      exact hunits unit hunit c hc

theorem stamp_chars {phase : ReportPhase} (h : phase.Printed) :
    ∀ c ∈ [':', 'I', 'W', 'E', 'F'], c ∉ phase.stamp := by
  intro c hc
  cases phase with
  | notStarted =>
      have hall : ∀ d ∈ [':', 'I', 'W', 'E', 'F'], d ∉ "- s".toList := by decide
      exact hall c hc
  | ended =>
      have hall : ∀ d ∈ [':', 'I', 'W', 'E', 'F'], d ∉ "! s".toList := by decide
      exact hall c hc
  | started time =>
      intro hmem
      have hall : ∀ d ∈ [':', 'I', 'W', 'E', 'F'], d ∉ "0123456789.e+- smunpf".toList := by decide
      exact hall c hc (time_chars (h time rfl) c hmem)

theorem colon_notMem_idText (r : ScReport) : ':' ∉ r.idText := by
  unfold ScReport.idText
  split
  · next hid =>
    obtain ⟨n, hn⟩ := Int.eq_ofNat_of_zero_le hid
    have hdigits : ':' ∉ (toString r.id).toList := by
      rw [hn]
      show ':' ∉ (Nat.repr n).toList
      rw [Nat.toList_repr]
      intro hmem
      exact absurd (Nat.isDigit_of_mem_toDigits (by decide) (by decide) hmem) (by decide)
    have hletter : severityLetter r.severity ≠ ':' := by
      cases r.severity <;> decide
    simp only [List.mem_append, List.mem_cons, not_or]
    exact ⟨⟨hletter.symm, hdigits⟩, by decide, List.not_mem_nil⟩
  · exact List.not_mem_nil

/-! ### What the loops make of a line -/

section
variable {r : ScReport}

theorem behind_eq (r : ScReport) (msg : Text) : ∃ rest, r.behind msg = guardText ++ rest := ⟨_, rfl⟩

/-- The body of the loops, on the line that was composed. -/
theorem relabel_composed (htime : r.phase.Printed) {name : Text}
    (hname : name ∈ keywords r.severity) :
    relabel (severityName r.severity) (r.line (severityName r.severity) r.msg) name =
      (find (r.behind r.msg) (keyed name)).map fun pos =>
        r.phase.stamp ++ guardText ++
          (name ++ replace (r.behind r.msg) pos (keyed name).length guardText) := by
  obtain ⟨rest, hrest⟩ := behind_eq r r.msg
  obtain ⟨hcolon, hne, -⟩ := keyword_chars hname
  have hstamp := stamp_chars htime
  unfold ScReport.line
  rw [hrest]
  refine relabel_line (hstamp ':' (by decide)) (severityName_chars _).1 hcolon hne ?_
  cases r.severity with
  | info => exact find_label (c := 'I') rfl (hstamp 'I' (by decide)) (by decide)
  | warning => exact find_label (c := 'W') rfl (hstamp 'W' (by decide)) (by decide)
  | error => exact find_label (c := 'E') rfl (hstamp 'E' (by decide)) (by decide)
  | fatal => exact find_label (c := 'F') rfl (hstamp 'F' (by decide)) (by decide)

theorem relabel_none (htime : r.phase.Printed) {names : List Text}
    (hsub : ∀ name ∈ names, name ∈ keywords r.severity)
    (h : ∀ name ∈ names, ¬ keyed name <:+: r.behind r.msg) :
    names.findSome? (relabel (severityName r.severity) (r.line (severityName r.severity) r.msg)) =
      none := by
  refine List.findSome?_eq_none_iff.mpr ?_
  intro name hname
  rw [relabel_composed htime (hsub name hname), find_eq_none_iff.mpr (h name hname)]
  rfl

/-- Where one of the names is found, one of them is the label. -/
theorem relabel_some (htime : r.phase.Printed) {names : List Text}
    (hsub : ∀ name ∈ names, name ∈ keywords r.severity)
    (h : ¬ ∀ name ∈ names, ¬ keyed name <:+: r.behind r.msg) :
    ∃ name ∈ names, ∃ behind,
      names.findSome? (relabel (severityName r.severity) (r.line (severityName r.severity) r.msg)) =
        some (r.phase.stamp ++ guardText ++ (name ++ ':' :: behind)) := by
  cases hfound : names.findSome?
      (relabel (severityName r.severity) (r.line (severityName r.severity) r.msg)) with
  | none =>
      refine absurd ?_ h
      intro name hname
      have hnone := List.findSome?_eq_none_iff.mp hfound name hname
      rw [relabel_composed htime (hsub name hname), Option.map_eq_none_iff] at hnone
      exact find_eq_none_iff.mp hnone
  | some line =>
      obtain ⟨name, hname, hline⟩ := List.exists_of_findSome?_eq_some hfound
      rw [relabel_composed htime (hsub name hname)] at hline
      obtain ⟨pos, -, rfl⟩ := Option.map_eq_some_iff.mp hline
      obtain ⟨rest, hrest⟩ := behind_eq r r.msg
      obtain ⟨behind, hbehind⟩ : ∃ tail,
          replace (':' :: (' ' :: rest)) pos (keyed name).length guardText = ':' :: tail :=
        replace_head ⟨_, rfl⟩ pos _
      refine ⟨name, hname, behind, ?_⟩
      rw [hrest, ← hbehind]
      rfl

/-- The leading keyword becomes the label, and is taken out of the message. -/
theorem relabel_leading (htype : ¬ guardText <:+: r.msgType)
    (htime : r.phase.Printed) {name rest : Text}
    (hname : name ∈ keywords r.severity) (hmsg : r.msg = name ++ guardText ++ rest) :
    relabel (severityName r.severity) (r.line (severityName r.severity) r.msg) name =
      some (r.line name rest) := by
  have hno : ¬ guardText <:+: r.idText ++ r.msgType := by
    intro hfound
    exact htype ((infix_append_iff (colon_notMem_idText r)).mp hfound)
  have hne : r.msg ≠ [] := by
    rw [hmsg]
    intro hnil
    exact absurd (List.append_eq_nil_iff.mp (List.append_eq_nil_iff.mp hnil).1).2 (by decide)
  have hbehind : ∀ msg, r.behind msg =
      guardText ++ ((r.idText ++ r.msgType) ++ (guardText ++ (msg ++ r.location))) := by
    intro msg
    unfold ScReport.behind
    rw [if_pos hne, List.append_assoc guardText]
  obtain ⟨pos, hpos, hremoved⟩ : ∃ pos, find (guardText ++ ((r.idText ++ r.msgType) ++
      (guardText ++ (name ++ (guardText ++ (rest ++ r.location)))))) (keyed name) = some pos ∧ _ :=
    remove_keyword hno (keyword_chars hname).1
  have hwhole : r.behind r.msg = guardText ++ ((r.idText ++ r.msgType) ++
      (guardText ++ (name ++ (guardText ++ (rest ++ r.location))))) := by
    rw [hbehind, hmsg]
    simp only [List.append_assoc]
  rw [relabel_composed htime hname, hwhole, hpos, Option.map_some, hremoved, ← hbehind]
  rfl

/-- The line after the loop over the names. -/
def ScReport.looped (r : ScReport) : Text :=
  ((keywords r.severity).findSome?
    (relabel (severityName r.severity) (r.line (severityName r.severity) r.msg))).getD
      (r.line (severityName r.severity) r.msg)

/-- The label that is meant. -/
def ScReport.meantLabel (r : ScReport) : Text := r.keyword.getD (severityName r.severity)

theorem meantLine_eq (r : ScReport) :
    ∃ behind, r.meantLine = r.phase.stamp ++ guardText ++ (r.meantLabel ++ ':' :: behind) := by
  unfold ScReport.meantLine ScReport.meantLabel
  cases r.keyword <;> exact ⟨_, rfl⟩

theorem keyword_cases (r : ScReport) :
    (r.keyword = none ∧ ((keywords r.severity).takeWhile fun name =>
      !(name ++ guardText).isPrefixOf r.msg) = keywords r.severity) ∨
    ∃ before name after rest, r.keyword = some name ∧
      ((keywords r.severity).takeWhile fun name => !(name ++ guardText).isPrefixOf r.msg) = before ∧
      keywords r.severity = before ++ name :: after ∧ (∀ n ∈ before, n ∈ keywords r.severity) ∧
      name ∈ keywords r.severity ∧ name ∉ before ∧ r.msg = name ++ guardText ++ rest := by
  cases hkeyword : r.keyword with
  | none =>
      refine .inl ⟨rfl, List.takeWhile_eq_self_iff.mpr ?_⟩
      intro name hname
      rw [Bool.not_eq_true']
      exact Bool.eq_false_iff.mpr (List.find?_eq_none.mp hkeyword name hname)
  | some name =>
      obtain ⟨hlead, before, after, hsplit, hbefore⟩ := List.find?_eq_some_iff_append.mp hkeyword
      obtain ⟨rest, hmsg⟩ := List.isPrefixOf_iff_prefix.mp hlead
      refine .inr ⟨before, name, after, rest, rfl, ?_, hsplit, ?_,
        List.mem_of_find?_eq_some hkeyword,
        ?_, hmsg.symm⟩
      · rw [hsplit]
        exact takeWhile_run hbefore (stops_cons (by rw [hlead]; rfl))
      · intro n hn
        rw [hsplit]
        exact List.mem_append_left _ hn
      · intro hmem
        have hnot := hbefore name hmem
        rw [hlead] at hnot
        cases hnot

theorem looped_of_none (htype : ¬ guardText <:+: r.msgType)
    (htime : r.phase.Printed) (h : r.NoNameBefore) :
    r.looped = r.meantLine := by
  unfold ScReport.NoNameBefore at h
  unfold ScReport.looped ScReport.meantLine
  obtain ⟨hkeyword, hall⟩ |
    ⟨before, name, after, rest, hkeyword, hbefore, hsplit, hsub, hmem, -, hmsg⟩ := keyword_cases r
  · rw [hall] at h
    rw [hkeyword, relabel_none htime (fun _ hname => hname) h]
    rfl
  · rw [hbefore] at h
    rw [hkeyword, hsplit, List.findSome?_append, relabel_none htime hsub h, List.findSome?_cons,
      relabel_leading htype htime hmem hmsg]
    simp only [Option.none_or, Option.getD_some]
    rw [hmsg, List.drop_left]

/-- Where an earlier name is found the label is not the one that is meant. -/
theorem looped_of_some (htime : r.phase.Printed)
    (h : ¬ r.NoNameBefore) : ∃ label ∈ keywords r.severity, label ≠ r.meantLabel ∧
      ∃ behind, r.looped = r.phase.stamp ++ guardText ++ (label ++ ':' :: behind) := by
  unfold ScReport.NoNameBefore at h
  unfold ScReport.looped ScReport.meantLabel
  obtain ⟨hkeyword, hall⟩ |
    ⟨before, name, after, rest, hkeyword, hbefore, hsplit, hsub, -, hnot, -⟩ := keyword_cases r
  · rw [hall] at h
    obtain ⟨label, hmem, behind, hfound⟩ := relabel_some htime (fun _ hname => hname) h
    refine ⟨label, hmem, ?_, behind, ?_⟩
    · rw [hkeyword]
      exact (keyword_chars hmem).2.1
    · rw [hfound]
      rfl
  · rw [hbefore] at h
    obtain ⟨label, hmem, behind, hfound⟩ := relabel_some htime hsub h
    refine ⟨label, hsub label hmem, ?_, behind, ?_⟩
    · rw [hkeyword]
      rintro rfl
      exact hnot hmem
    · rw [hsplit, List.findSome?_append, hfound]
      rfl

theorem find_relabel_eq_keyword (htype : ¬ guardText <:+: r.msgType)
    (htime : r.phase.Printed) (h : r.NoNameBefore) :
    (keywords r.severity).find? (fun name => (relabel (severityName r.severity)
      (r.line (severityName r.severity) r.msg) name).isSome) = r.keyword := by
  have hnone : ∀ {name : Text}, name ∈ keywords r.severity → ¬ keyed name <:+: r.behind r.msg →
      (relabel (severityName r.severity) (r.line (severityName r.severity) r.msg) name).isSome =
        false := by
    intro name hname hno
    rw [relabel_composed htime hname, find_eq_none_iff.mpr hno]
    rfl
  unfold ScReport.NoNameBefore at h
  obtain ⟨hkeyword, hall⟩ |
    ⟨before, name, after, rest, hkeyword, hbefore, hsplit, hsub, hmem, -, hmsg⟩ := keyword_cases r
  · rw [hall] at h
    rw [hkeyword]
    refine List.find?_eq_none.mpr ?_
    intro name hname
    rw [hnone hname (h name hname)]
    exact Bool.false_ne_true
  · rw [hbefore] at h
    rw [hkeyword]
    refine List.find?_eq_some_iff_append.mpr ⟨?_, before, after, hsplit, ?_⟩
    · rw [relabel_leading htype htime hmem hmsg]
      rfl
    · intro n hn
      rw [hnone (hsub n hn) (h n hn)]
      rfl

theorem meantLabel_chars (r : ScReport) : ':' ∉ r.meantLabel ∧ ['-'] ≠ r.meantLabel := by
  unfold ScReport.meantLabel
  cases hkeyword : r.keyword with
  | none => exact severityName_chars _
  | some name =>
      have hchars := keyword_chars (List.mem_of_find?_eq_some hkeyword)
      exact ⟨hchars.1, hchars.2.2.symm⟩

/-- The loop makes the line that is meant exactly where no earlier name is found. -/
theorem looped_eq_iff (htype : ¬ guardText <:+: r.msgType)
    (htime : r.phase.Printed) :
    r.looped = r.meantLine ↔ r.NoNameBefore := by
  refine ⟨?_, looped_of_none htype htime⟩
  intro heq
  by_contra hstray
  obtain ⟨label, hmem, hne, behind, hlooped⟩ := looped_of_some htime hstray
  obtain ⟨behind', hmeant⟩ := meantLine_eq r
  rw [hlooped, hmeant] at heq
  exact hne (label_unique (keyword_chars hmem).1 (meantLabel_chars r).1 heq).1

/-- The repair of a missing message type keeps that line exactly where there is none. -/
theorem fixRunt_looped_eq_iff (htype : ¬ guardText <:+: r.msgType)
    (htime : r.phase.Printed) :
    fixRunt r.looped = r.meantLine ↔ r.NoNameBefore ∧ ¬ ": -: ".toList <:+: r.meantLine := by
  have hstamp := stamp_chars htime ':' (by decide)
  obtain ⟨behind, hmeant⟩ := meantLine_eq r
  by_cases hclear : r.NoNameBefore
  · rw [looped_of_none htype htime hclear, and_iff_right hclear, hmeant]
    obtain ⟨behind', hfixed, hsame⟩ : ∃ behind',
        fixRunt (r.phase.stamp ++ guardText ++ (r.meantLabel ++ ':' :: behind)) = _ ∧ _ :=
      fixRunt_line hstamp (meantLabel_chars r).1 (meantLabel_chars r).2
    rw [hfixed, ← hsame]
    refine ⟨?_, ?_⟩
    · intro heq
      exact (label_unique (meantLabel_chars r).1 (meantLabel_chars r).1 heq).2
    · rintro rfl
      rfl
  · refine iff_of_false ?_ fun h => hclear h.1
    obtain ⟨label, hmem, hne, behind', hlooped⟩ := looped_of_some htime hclear
    have hchars := keyword_chars hmem
    obtain ⟨behind'', hfixed, -⟩ : ∃ behind'',
        fixRunt (r.phase.stamp ++ guardText ++ (label ++ ':' :: behind')) = _ ∧ _ :=
      fixRunt_line hstamp hchars.1 hchars.2.2.symm
    rw [hlooped, hfixed, hmeant]
    intro heq
    exact hne (label_unique hchars.1 (meantLabel_chars r).1 heq).1

end

/-! ### The table -/

/-- The loop over the table makes of the line what the loop over its names does. -/
theorem relabelWarning_fst (line : Text) : ∀ table : List Counter,
    (relabelWarning line table).1 =
      ((table.map Counter.name).findSome? (relabel (severityName .warning) line)).getD line := by
  intro table
  induction table with
  | nil => rfl
  | cons c rest ih =>
      unfold relabelWarning
      rw [List.map_cons, List.findSome?_cons]
      cases relabel (severityName .warning) line c.name with
      | some line' => rfl
      | none => exact ih

/-- And it raises the count of the name that was found. -/
theorem relabelWarning_snd (line : Text) : ∀ table : List Counter,
    (table.map Counter.name).Nodup → (relabelWarning line table).2 =
      match (table.map Counter.name).find? fun name =>
          (relabel (severityName .warning) line name).isSome with
      | some name => countName name table
      | none => table := by
  intro table
  induction table with
  | nil => exact fun _ => rfl
  | cons c rest ih =>
      intro hnodup
      rw [List.map_cons, List.nodup_cons] at hnodup
      unfold relabelWarning
      rw [List.map_cons]
      cases hc : relabel (severityName .warning) line c.name with
      | some line' =>
          rw [List.find?_cons_of_pos (by rw [hc]; rfl)]
          have hrest : countName c.name rest = rest := by
            have hsame : ∀ d ∈ rest,
                (if d.name = c.name then { d with count := d.count + 1 } else d) = id d := by
              intro d hd
              refine if_neg ?_
              intro heq
              exact hnodup.1 (List.mem_map.mpr ⟨d, hd, heq⟩)
            exact (List.map_congr_left hsame).trans (List.map_id rest)
          show _ = countName c.name (c :: rest)
          unfold countName at hrest ⊢
          rw [List.map_cons, hrest, if_pos rfl]
      | none =>
          rw [List.find?_cons_of_neg (by rw [hc]; exact Bool.false_ne_true)]
          simp only
          rw [ih hnodup.2]
          cases hfound : (rest.map Counter.name).find? fun name =>
              (relabel (severityName .warning) line name).isSome with
          | none => rfl
          | some name =>
              have hne : c.name ≠ name := by
                rintro rfl
                exact hnodup.1 (List.mem_of_find?_eq_some hfound)
              show _ = countName name (c :: rest)
              unfold countName
              rw [List.map_cons, if_neg hne]

/-! ### What the handler makes of a report -/

section
variable {r : ScReport}

theorem handleReport_info (h : r.severity = .info) (table : List Counter) :
    handleReport r table = (fixRunt r.looped, table) := by
  unfold handleReport ScReport.looped
  rw [compose_eq, h]
  rfl

theorem handleReport_warning (h : r.severity = .warning) (table : List Counter) :
    handleReport r table = relabelWarning (r.line (severityName .warning) r.msg) table := by
  unfold handleReport
  rw [compose_eq, h]

/-- A report that is neither stays as it was composed. -/
theorem handleReport_other (h : keywords r.severity = []) (table : List Counter) :
    handleReport r table = (r.meantLine, r.meantTable table) := by
  have hkeyword : r.keyword = none := by
    unfold ScReport.keyword
    rw [h]
    rfl
  unfold ScReport.meantLine ScReport.meantTable handleReport
  rw [hkeyword, compose_eq]
  cases hs : r.severity with
  | info =>
      rw [hs] at h
      cases h
  | warning =>
      rw [hs] at h
      cases h
  | error | fatal => rfl

/-- The table is the one that is meant where the line is. -/
theorem relabelWarning_table (h : r.severity = .warning) (htype : ¬ guardText <:+: r.msgType)
    (htime : r.phase.Printed) {table : List Counter}
    (htable : table.map Counter.name = nonwarnings.map Counter.name) (hclear : r.NoNameBefore) :
    (relabelWarning (r.line (severityName .warning) r.msg) table).2 = r.meantTable table := by
  have hnodup : (table.map Counter.name).Nodup := by
    rw [htable]
    decide
  have hnames : keywords .warning = table.map Counter.name := htable.symm
  have hfound := find_relabel_eq_keyword htype htime hclear
  rw [h, hnames] at hfound
  unfold ScReport.meantTable
  rw [relabelWarning_snd _ _ hnodup, hfound, h]
  cases r.keyword <;> rfl

/-- The line and the table are those that are meant exactly where no other name is found, and
no message type is repaired. -/
theorem handleReport_eq_iff (table : List Counter) (htype : ¬ guardText <:+: r.msgType)
    (htime : r.phase.Printed)
    (htable : table.map Counter.name = nonwarnings.map Counter.name) :
    handleReport r table = (r.meantLine, r.meantTable table) ↔
      r.NoNameBefore ∧ (r.severity = .info → ¬ ": -: ".toList <:+: r.meantLine) := by
  cases hs : r.severity with
  | info =>
      unfold ScReport.meantTable
      rw [handleReport_info hs, hs, Prod.mk.injEq, and_iff_left rfl,
        fixRunt_looped_eq_iff htype htime]
      simp only [forall_const]
  | warning =>
      have hline : (relabelWarning (r.line (severityName .warning) r.msg) table).1 = r.looped := by
        rw [relabelWarning_fst, htable]
        unfold ScReport.looped
        rw [hs]
        rfl
      rw [handleReport_warning hs, Prod.ext_iff, hline, looped_eq_iff htype htime]
      refine ⟨fun h => ⟨h.1, nofun⟩, fun h => ⟨h.1, ?_⟩⟩
      exact relabelWarning_table hs htype htime htable h.1
  | error | fatal =>
      have hnames : keywords r.severity = [] := by
        rw [hs]
        rfl
      refine iff_of_true (handleReport_other hnames table) ⟨?_, nofun⟩
      unfold ScReport.NoNameBefore
      rw [hnames]
      exact nofun

theorem setActions_display (severity : Severity) : .display ∈ setActions severity := by
  cases severity <;> decide

theorem logonly_eq_false_iff (line : Text) :
    logonly line = false ↔ ¬ "LOGONLY:".toList <:+: line := by
  rw [← find_eq_none_iff, logonly, Option.isSome_eq_false_iff, Option.isNone_iff_eq_none]

/-- A line is printed where nothing keeps it for the log. -/
theorem displayReport_eq_iff (table : List Counter) (line : Text) (after : List Counter) :
    displayReport r table = (some line, after) ↔
      handleReport r table = (line, after) ∧ ¬ "LOGONLY:".toList <:+: line := by
  unfold displayReport
  simp only [setActions_display, true_and, Prod.ext_iff, Option.ite_none_right_eq_some,
    Option.some.injEq, logonly_eq_false_iff]
  refine ⟨?_, ?_⟩
  · rintro ⟨⟨hshown, rfl⟩, hafter⟩
    exact ⟨⟨rfl, hafter⟩, hshown⟩
  · rintro ⟨⟨rfl, hafter⟩, hshown⟩
    exact ⟨⟨hshown, rfl⟩, hafter⟩

/-- The handler prints the report, and touches the leading keyword and nothing else, exactly
where nothing stray is found. -/
theorem relabelsLeading_iff (r : ScReport) (table : List Counter)
    (htype : ¬ guardText <:+: r.msgType)
    (htime : r.phase.Printed)
    (htable : table.map Counter.name = nonwarnings.map Counter.name) :
    RelabelsLeading r table ↔ NothingStray r := by
  unfold RelabelsLeading
  rw [displayReport_eq_iff, handleReport_eq_iff table htype htime htable]
  exact ⟨fun h => ⟨h.1.1, h.1.2, h.2⟩, fun h => ⟨⟨h.names, h.runt⟩, h.shown⟩⟩

/-- A note that a warning of a device begins with. -/
def notedWarning : ScReport where
  severity := .warning
  id := -1
  msgType := "/Doulos/example/dev".toList
  msg := "NOTE: no interrupt".toList
  fileName := "dev.cpp".toList
  lineNumber := 12
  processName := none
  phase := .started "10 ns".toList
  isRunning := false

theorem relabelsLeading_notedWarning : RelabelsLeading notedWarning nonwarnings := by
  have hnames : ∀ name ∈ (keywords notedWarning.severity).takeWhile
        (fun name => !(name ++ guardText).isPrefixOf notedWarning.msg),
      find (notedWarning.behind notedWarning.msg) (keyed name) = none := by decide
  refine (relabelsLeading_iff notedWarning nonwarnings ?_ ?_ rfl).mpr ⟨?_, nofun, ?_⟩
  · rw [← find_eq_none_iff]
    decide
  · intro time htime
    obtain rfl := ReportPhase.started.inj htime
    exact ⟨"10".toList, "ns".toList, rfl, by decide, by decide⟩
  · exact fun name hname => find_eq_none_iff.mp (hnames name hname)
  · rw [← find_eq_none_iff]
    decide

/-- A warning that quotes a note: it is printed as a note, and counted as one. -/
def quotingWarning : ScReport := { notedWarning with msg := "seen: NOTE: no interrupt".toList }

theorem quoted_note_relabels :
    ¬ ∀ r table, ¬ guardText <:+: r.msgType → r.msgType ≠ ['-'] →
      r.phase.Printed →
      table.map Counter.name = nonwarnings.map Counter.name → RelabelsLeading r table := by
  intro hclaim
  have hleading :=
    hclaim quotingWarning nonwarnings (by rw [← find_eq_none_iff]; decide) (by decide)
    (by
      intro time htime
      obtain rfl := ReportPhase.started.inj htime
      exact ⟨"10".toList, "ns".toList, rfl, by decide, by decide⟩) rfl
  have htable := congrArg Prod.snd hleading
  exact absurd htable (by decide)

end

end Demonstrator
