/-
The listing of the design.

`netlist` goes through the hierarchy of objects and reports a line for each.  How deep an
object is can be seen from the indentation alone, and a port has a line for every object it
is bound to instead of one for itself.  A port's interface may be nothing that
`dynamic_cast` knows, and then there is no line; what is below a port is not scanned.

`visible` is what is left of the hierarchy with that taken away.  `netlist_reads_back` is
that a reader of the listing gets it back, however deep and wide the hierarchy is.
-/
import Demonstrator.Lib.Outline
import Demonstrator.ReportText

namespace Demonstrator

open Outline

/-- What the four casts make of the object behind an interface: its name, where they succeed. -/
structure ScInterface where
  /-- `sc_channel*` -/
  channel : Option Text
  /-- `sc_prim_channel*` -/
  primChannel : Option Text
  /-- `sc_port_base*` -/
  portBase : Option Text
  /-- `sc_export_base*` -/
  exportBase : Option Text

/-- What the scan asks of an object. -/
structure ObjectInfo where
  name : Text
  basename : Text
  kind : Text
  /-- The interfaces it is bound to, of an `sc_port_base`; none of another object. -/
  interfaces : Option (List ScInterface)

/-- `sc_object`, with its child objects -/
abbrev ScObject := RoseTree ObjectInfo

/-! ### The scan -/

/-- An object in its line, `basename:kind`. -/
def ObjectInfo.entry (o : ObjectInfo) : Text := o.basename ++ ':' :: o.kind

/-- The objects that a port's line for an interface names, in the order of the casts. -/
def ScInterface.targets (i : ScInterface) : List Text :=
  [i.channel, i.primChannel, i.portBase, i.exportBase].filterMap id

/-- The entries of a port. -/
def ObjectInfo.bindings (o : ObjectInfo) (interfaces : List ScInterface) : List Text :=
  (interfaces.flatMap ScInterface.targets).map fun target => o.entry ++ " -> ".toList ++ target

mutual

/-- `scan_hierarchy` -/
def scanHierarchy (indent : Text) : ScObject → List Text
  | .node _ children => scanChildren indent children

/-- The loop of `scan_hierarchy`. -/
def scanChildren (indent : Text) : List ScObject → List Text
  | [] => []
  | child :: rest =>
      (match child.label.interfaces with
      | some interfaces => (child.label.bindings interfaces).map fun entry => indent ++ ' ' :: entry
      | none =>
          (indent ++ ' ' :: child.label.entry) :: scanHierarchy ("| ".toList ++ indent) child)
        ++ scanChildren indent rest

end

/-- A top-level object in its line, `name:kind`. -/
def ObjectInfo.topEntry (o : ObjectInfo) : Text := o.name ++ ':' :: o.kind

/-- `netlist` -/
def netlist (tops : List ScObject) : List Text :=
  "Netlist:".toList
    :: (tops.flatMap fun top => top.label.topEntry :: scanHierarchy "+-".toList top)
    ++ ["End netlist".toList]

/-! ### What it shows -/

mutual

/-- The trees that an object's children are in the listing. -/
def visibleBelow : ScObject → List (RoseTree Text)
  | .node _ children => visibleChildren children

def visibleChildren : List ScObject → List (RoseTree Text)
  | [] => []
  | child :: rest =>
      (match child.label.interfaces with
      | some interfaces => (child.label.bindings interfaces).map (RoseTree.node · [])
      | none => [.node child.label.entry (visibleBelow child)])
        ++ visibleChildren rest

end

/-- A top-level object as the listing shows it. -/
def visible (top : ScObject) : RoseTree Text := .node top.label.topEntry (visibleBelow top)

/-- `indent` of the objects so many levels below the children of a top-level object. -/
def indentText : Nat → Text
  | 0 => "+-".toList
  | depth + 1 => "| ".toList ++ indentText depth

/-- A line of the listing. -/
def lineText : Nat × Text → Text
  | (0, entry) => entry
  | (depth + 1, entry) => indentText depth ++ ' ' :: entry

mutual

theorem scanHierarchy_eq (depth : Nat) : ∀ top : ScObject,
    scanHierarchy (indentText depth) top = (outline (depth + 1) (visibleBelow top)).map lineText
  | .node _ children => scanChildren_eq depth children

theorem scanChildren_eq (depth : Nat) : ∀ children : List ScObject,
    scanChildren (indentText depth) children =
      (outline (depth + 1) (visibleChildren children)).map lineText
  | [] => rfl
  | child :: rest => by
      rw [scanChildren, visibleChildren, outline_append, List.map_append,
        scanChildren_eq depth rest]
      refine congrArg (· ++ _) ?_
      cases child.label.interfaces with
      | some interfaces =>
          simp only [outline_leaves, List.map_map]
          rfl
      | none =>
          have hbelow := scanHierarchy_eq (depth + 1) child
          simp only [outline, RoseTree.outline, List.append_nil, List.map_cons]
          exact congrArg _ hbelow

end

theorem netlist_eq (tops : List ScObject) :
    netlist tops = "Netlist:".toList :: (outline 0 (tops.map visible)).map lineText
      ++ ["End netlist".toList] := by
  have hlines : (tops.flatMap fun top => top.label.topEntry :: scanHierarchy "+-".toList top) =
      (outline 0 (tops.map visible)).map lineText := by
    induction tops with
    | nil => rfl
    | cons top rest ih =>
        rw [List.flatMap_cons, ih, List.map_cons, outline, List.map_append]
        exact congrArg (top.label.topEntry :: · ++ _) (scanHierarchy_eq 0 top)
  unfold netlist
  rw [hlines]

/-! ### Reading it -/

/-- The indentation of a line and what follows it; none where the line has no indentation. -/
def readIndent : Text → Option (Nat × Text)
  | '|' :: ' ' :: rest => (readIndent rest).map fun r => (r.1 + 1, r.2)
  | '+' :: '-' :: ' ' :: rest => some (1, rest)
  | _ => none

def readLine (line : Text) : Nat × Text := (readIndent line).getD (0, line)

/-- A reader of the listing: the first and the last line are not of it. -/
def readNetlist (lines : List Text) : List (RoseTree Text) :=
  (readBack ((lines.drop 1).dropLast.map readLine)).map Prod.snd

theorem readIndent_indentText (entry : Text) : ∀ depth : Nat,
    readIndent (indentText depth ++ ' ' :: entry) = some (depth + 1, entry) := by
  intro depth
  induction depth with
  | zero => rfl
  | succ depth ih =>
      have hinner : readIndent (indentText (depth + 1) ++ ' ' :: entry) =
          (readIndent (indentText depth ++ ' ' :: entry)).map fun r => (r.1 + 1, r.2) := rfl
      rw [hinner, ih]
      rfl

/-- What a line is indented with has a blank in it, and that comes before any colon. -/
theorem blank_of_readIndent {line : Text} (h : readIndent line ≠ none) :
    ∃ front back, line = front ++ ' ' :: back ∧ ':' ∉ front := by
  unfold readIndent at h
  split at h
  · rename_i rest
    exact ⟨"|".toList, rest, rfl, by decide⟩
  · rename_i rest
    exact ⟨"+-".toList, rest, rfl, by decide⟩
  · exact absurd rfl h

theorem readIndent_name {name : Text} (hblank : ' ' ∉ name) (kind : Text) :
    readIndent (name ++ ':' :: kind) = none := by
  by_contra h
  obtain ⟨front, back, heq, hcolon⟩ := blank_of_readIndent h
  rcases List.append_eq_append_iff.mp heq with ⟨mid, hfront, hmid⟩ | ⟨mid, hname, hmid⟩
  · cases mid with
    | nil => simp at hmid
    | cons c mid =>
        obtain rfl := (List.cons.inj hmid).1
        exact hcolon (by simp [hfront])
  · cases mid with
    | nil => simp at hmid
    | cons c mid =>
        obtain rfl := (List.cons.inj hmid).1
        exact hblank (by simp [hname])

theorem readLine_lineText {line : Nat × Text}
    (h : line.1 = 0 → readIndent line.2 = none) : readLine (lineText line) = line := by
  obtain ⟨depth, entry⟩ := line
  cases depth with
  | zero =>
      have hnone : readIndent (lineText (0, entry)) = none := h rfl
      rw [readLine, hnone]
      rfl
  | succ depth =>
      rw [readLine, lineText, readIndent_indentText]
      rfl

/-- The listing says what the visible hierarchy is, if no name of a top-level object has a
blank in it. -/
theorem netlist_reads_back (tops : List ScObject)
    (hnames : ∀ top ∈ tops, ' ' ∉ top.label.name) :
    readNetlist (netlist tops) = tops.map visible := by
  have hlines : ∀ line ∈ outline 0 (tops.map visible), readLine (lineText line) = line := by
    intro line hline
    refine readLine_lineText fun hdepth => ?_
    obtain ⟨t, ht, hlabel⟩ := root_of_mem_outline hline hdepth
    obtain ⟨top, htop, rfl⟩ := List.mem_map.mp ht
    rw [← hlabel]
    exact readIndent_name (hnames top htop) top.label.kind
  have hread : ((netlist tops).drop 1).dropLast.map readLine = outline 0 (tops.map visible) := by
    rw [netlist_eq, List.cons_append, List.drop_one, List.tail_cons, List.dropLast_concat,
      List.map_map]
    exact (List.map_congr_left hlines).trans (List.map_id _)
  rw [readNetlist, hread, readBack_outline]

/-- A process, a module and a signal in it.  The module's port is bound to three objects and
to one that no cast knows; what is below the port is not listed. -/
def smallDesign : ScObject :=
  .node ⟨"top".toList, "top".toList, "sc_module".toList, none⟩
    [.node ⟨"top.adaptor".toList, "adaptor".toList, "sc_module".toList, none⟩
      [.node ⟨"top.adaptor.alive".toList, "alive".toList, "sc_signal".toList, none⟩ [],
        .node ⟨"top.adaptor.port".toList, "port".toList, "sc_port".toList,
          some [⟨none, some "top.adaptor.alive".toList, none, none⟩, ⟨none, none, none, none⟩,
            ⟨some "top.channel".toList, none, none, some "top.export".toList⟩]⟩
          [.node ⟨"top.adaptor.port.x".toList, "x".toList, "sc_object".toList, none⟩ []]],
      .node ⟨"top.top_thread".toList, "top_thread".toList, "sc_thread_process".toList, none⟩ []]

theorem netlist_reads_back_smallDesign :
    readNetlist (netlist [smallDesign]) = [visible smallDesign] ∧
      (netlist [smallDesign]).length = 9 :=
  ⟨netlist_reads_back [smallDesign] (by decide), by decide⟩

end Demonstrator
