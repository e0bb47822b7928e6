/-
The functions of the standard library that the sources read and change texts with.

`find` is the one the report handler is modelled with; here it is told by what it finds,
so that no proof has to open it.  A position is none where the functions of `std::string`
return `npos`.  Blanks and signs are those of the functions that read a number.
-/
import Demonstrator.ReportText
import Demonstrator.Lib.Numeral
import Demonstrator.Lib.Search

namespace Demonstrator

open ListSearch Numeral

variable {text pattern : Text} {pos : Nat}

/-! ### Finding -/

theorem find_eq_some_iff : find text pattern = some pos ↔ FirstAt pattern text pos := by
  unfold find
  rw [List.find?_range_eq_some]
  refine ⟨?_, ?_⟩
  · intro h
    obtain ⟨hoccurs, hinside, hfirst⟩ := h
    refine ⟨List.isPrefixOf_iff_prefix.mp hoccurs, ?_, ?_⟩
    · exact Nat.lt_succ_iff.mp (List.mem_range.mp hinside)
    · intro q hq hbefore
      have hno := hfirst q hq
      rw [List.isPrefixOf_iff_prefix.mpr hbefore] at hno
      exact absurd hno (by decide)
  · intro h
    refine ⟨List.isPrefixOf_iff_prefix.mpr h.occurs,
      List.mem_range.mpr (Nat.lt_succ_of_le h.inside), ?_⟩
    intro q hq
    rw [Bool.not_eq_true']
    exact Bool.eq_false_iff.mpr fun hbefore => h.first q hq (List.isPrefixOf_iff_prefix.mp hbefore)

theorem find_eq_none_iff : find text pattern = none ↔ ¬ pattern <:+: text := by
  refine ⟨?_, ?_⟩
  · intro h hpart
    obtain ⟨pos, hpos⟩ := exists_firstAt hpart
    exact absurd (h.symm.trans (find_eq_some_iff.mpr hpos)) (by simp)
  · intro h
    cases hfound : find text pattern with
    | none => rfl
    | some pos => exact absurd (find_eq_some_iff.mp hfound).isInfix h

theorem find_eq_zero_iff {text pattern : Text} : find text pattern = some 0 ↔ pattern <+: text := by
  rw [find_eq_some_iff]
  exact ⟨fun h => h.occurs, fun h => ⟨h, Nat.zero_le _, fun q hq => absurd hq (Nat.not_lt_zero q)⟩⟩

theorem find_isSome_iff : (find text pattern).isSome = true ↔ pattern <:+: text := by
  rw [Option.isSome_iff_ne_none, Ne, find_eq_none_iff, not_not]

/-- Where no occurrence begins in the first part, `find` finds that of the rest. -/
theorem find_append {front back : Text}
    (h : ∀ q < front.length, ¬ pattern <+: (front ++ back).drop q) :
    find (front ++ back) pattern = (find back pattern).map (front.length + ·) := by
  cases hfound : find back pattern with
  | none =>
      refine find_eq_none_iff.mpr ?_
      intro hpart
      obtain ⟨pos, hpos⟩ := exists_firstAt hpart
      have hback := ((firstAt_append_iff h).mp hpos).2
      exact find_eq_none_iff.mp hfound hback.isInfix
  | some pos =>
      refine find_eq_some_iff.mpr ((firstAt_append_iff h).mpr ⟨Nat.le_add_right _ _, ?_⟩)
      rw [Nat.add_sub_cancel_left]
      exact find_eq_some_iff.mp hfound

theorem find_singleton {front back : Text} {c : Char} (hc : c ∉ front) :
    find (front ++ c :: back) [c] = some front.length :=
  find_eq_some_iff.mpr (firstAt_of_notMem hc (List.prefix_append [c] back))

theorem find_singleton_none {c : Char} (hc : c ∉ text) : find text [c] = none := by
  refine find_eq_none_iff.mpr ?_
  intro hpart
  exact hc (hpart.subset (List.mem_singleton.mpr rfl))

/-- What `find` has found of a single character. -/
theorem split_of_find_singleton {c : Char} (h : find text [c] = some pos) :
    ∃ front back, text = front ++ c :: back ∧ c ∉ front ∧ pos = front.length := by
  have hfirst := find_eq_some_iff.mp h
  have hmem : c ∈ text := hfirst.isInfix.subset (List.mem_singleton.mpr rfl)
  obtain ⟨front, back, rfl, hc⟩ := List.eq_append_cons_of_mem hmem
  exact ⟨front, back, rfl, hc, Option.some.inj (h.symm.trans (find_singleton hc))⟩

/-- `find_first_not_of`: the first position from `pos` on with a character that is none of
`set`. -/
def findFirstNotOf (text set : Text) (pos : Nat) : Option Nat :=
  ((text.drop pos).findIdx? fun c => decide (c ∉ set)).map (pos + ·)

theorem findFirstNotOf_eq_none_iff {set : Text} :
    findFirstNotOf text set pos = none ↔ ∀ c ∈ text.drop pos, c ∈ set := by
  rw [findFirstNotOf, Option.map_eq_none_iff, List.findIdx?_eq_none_iff]
  simp

/-! ### Changing -/

theorem replace_append (front back : Text) (pos len : Nat) (new : Text) :
    replace (front ++ back) (front.length + pos) len new = front ++ replace back pos len new := by
  unfold replace
  rw [Nat.add_assoc, List.take_length_add_append, List.drop_length_add_append]
  simp only [List.append_assoc]

theorem replace_middle (front middle back new : Text) :
    replace (front ++ (middle ++ back)) front.length middle.length new =
      front ++ (new ++ back) := by
  have happend := replace_append front (middle ++ back) 0 middle.length new
  rw [Nat.add_zero] at happend
  rw [happend, replace, List.take_zero, List.nil_append, Nat.zero_add, List.drop_left]

/-- `std::string::erase` -/
def erase (text : Text) (pos len : Nat) : Text := text.take pos ++ text.drop (pos + len)

theorem erase_front {front back : Text} {c : Char} :
    erase (front ++ c :: back) front.length 1 = front ++ back := by
  rw [erase, List.take_left, ← List.drop_drop, List.drop_left, List.drop_one, List.tail_cons]

/-! ### What may precede digits -/

/-- `isspace` -/
def isSpace (c : Char) : Bool := decide (c ∈ [' ', '\t', '\n', '\x0b', '\x0c', '\r'])

/-- A text behind its sign, and whether the sign is a minus. -/
def signed : Text → Bool × Text
  | '-' :: rest => (true, rest)
  | '+' :: rest => (false, rest)
  | text => (false, text)

theorem signed_digit {c : Char} {rest : Text} (h : isDigit 16 c = true) :
    signed (c :: rest) = (false, c :: rest) := by
  unfold signed
  split
  · next heq =>
    obtain ⟨rfl, -⟩ := List.cons.inj heq
    exact absurd h (by decide)
  · next heq =>
    obtain ⟨rfl, -⟩ := List.cons.inj heq
    exact absurd h (by decide)
  · rfl

theorem isSpace_digit {c : Char} (h : isDigit 16 c = true) : isSpace c = false := by
  refine decide_eq_false ?_
  intro hmem
  have hnone : ∀ d ∈ [' ', '\t', '\n', '\x0b', '\x0c', '\r'], isDigit 16 d = false := by decide
  rw [hnone c hmem] at h
  cases h

end Demonstrator
