/-
Where a list first occurs in another.

An occurrence of `pattern` in `text` is a position at which `pattern` is a prefix of the
rest of `text`, and `FirstAt` says that there is none before it.  The rules tell where an
occurrence can begin: behind a part that does not have the pattern's first element.
-/
import Mathlib.Data.List.Basic
import Mathlib.Data.List.Infix
import Mathlib.Data.Nat.Find

namespace ListSearch

variable {α : Type} {pattern text : List α} {pos : Nat}

/-- The pattern occurs at the position, and nowhere before it. -/
structure FirstAt (pattern text : List α) (pos : Nat) : Prop where
  occurs : pattern <+: text.drop pos
  inside : pos ≤ text.length
  first : ∀ q < pos, ¬ pattern <+: text.drop q

theorem infix_iff_occurs : pattern <:+: text ↔ ∃ pos ≤ text.length, pattern <+: text.drop pos := by
  refine ⟨?_, ?_⟩
  · intro h
    obtain ⟨front, back, rfl⟩ := h
    refine ⟨front.length, by simp, back, ?_⟩
    rw [List.append_assoc, List.drop_left]
  · intro h
    obtain ⟨pos, -, hoccurs⟩ := h
    exact hoccurs.isInfix.trans (List.drop_suffix pos text).isInfix

theorem exists_firstAt (h : pattern <:+: text) : ∃ pos, FirstAt pattern text pos := by
  classical
  have hoccurs := infix_iff_occurs.mp h
  obtain ⟨hinside, hhere⟩ := Nat.find_spec hoccurs
  refine ⟨Nat.find hoccurs, hhere, hinside, ?_⟩
  intro q hq hbefore
  exact Nat.find_min hoccurs hq ⟨Nat.le_trans (Nat.le_of_lt hq) hinside, hbefore⟩

theorem FirstAt.isInfix (h : FirstAt pattern text pos) : pattern <:+: text :=
  infix_iff_occurs.mpr ⟨pos, h.inside, h.occurs⟩

/-- The text before an occurrence, the occurrence, and the text behind it. -/
theorem split_of_occurs (h : pattern <+: text.drop pos) :
    text = text.take pos ++ (pattern ++ text.drop (pos + pattern.length)) := by
  obtain ⟨back, hback⟩ := h
  have hdrop : text.drop (pos + pattern.length) = back := by
    rw [← List.drop_drop, ← hback, List.drop_left]
  rw [hdrop, hback, List.take_append_drop]

/-- An occurrence does not begin in a part without the first element of the pattern. -/
theorem le_of_occurs {c : α} {front back : List α} (hc : c ∉ front)
    (h : c :: pattern <+: (front ++ back).drop pos) : front.length ≤ pos := by
  by_contra hlt
  have hlt := Nat.lt_of_not_le hlt
  rw [List.drop_append_of_le_length (Nat.le_of_lt hlt), List.drop_eq_getElem_cons hlt,
    List.cons_append] at h
  have hhead := (List.cons_prefix_cons.mp h).1
  exact hc (hhead ▸ List.getElem_mem hlt)

theorem occurs_append {front back : List α} (h : front.length ≤ pos) :
    pattern <+: (front ++ back).drop pos ↔ pattern <+: back.drop (pos - front.length) := by
  rw [List.drop_append, List.drop_eq_nil_of_le h, List.nil_append]

/-- A pattern that follows a part without its first element occurs there first. -/
theorem firstAt_of_notMem {c : α} {front back : List α} (hc : c ∉ front)
    (hpattern : c :: pattern <+: back) : FirstAt (c :: pattern) (front ++ back) front.length where
  occurs := by
    rw [List.drop_left]
    exact hpattern
  inside := by
    rw [List.length_append]
    exact Nat.le_add_right _ _
  first := by
    intro q hq hoccurs
    exact Nat.not_le_of_lt hq (le_of_occurs hc hoccurs)

/-- What does not begin with the first part is an infix of the rest or of nothing. -/
theorem infix_append_iff {c : α} {front back : List α} (hc : c ∉ front) :
    c :: pattern <:+: front ++ back ↔ c :: pattern <:+: back := by
  refine ⟨?_, ?_⟩
  · intro h
    obtain ⟨pos, -, hoccurs⟩ := infix_iff_occurs.mp h
    rw [occurs_append (le_of_occurs hc hoccurs)] at hoccurs
    exact hoccurs.isInfix.trans (List.drop_suffix _ _).isInfix
  · intro h
    exact h.trans (List.suffix_append front back).isInfix

/-- Where no occurrence begins in the first part, the first one is that of the rest. -/
theorem firstAt_append_iff {front back : List α}
    (h : ∀ q < front.length, ¬ pattern <+: (front ++ back).drop q) :
    FirstAt pattern (front ++ back) pos ↔
      front.length ≤ pos ∧ FirstAt pattern back (pos - front.length) := by
  refine ⟨?_, ?_⟩
  · intro hfirst
    have hle : front.length ≤ pos := by
      by_contra hlt
      exact h pos (Nat.lt_of_not_le hlt) hfirst.occurs
    refine ⟨hle, (occurs_append hle).mp hfirst.occurs, ?_, ?_⟩
    · have hinside := hfirst.inside
      rw [List.length_append] at hinside
      omega
    · intro q hq hoccurs
      refine hfirst.first (front.length + q) (by omega) ?_
      rw [occurs_append (Nat.le_add_right _ _), Nat.add_sub_cancel_left]
      exact hoccurs
  · intro hback
    obtain ⟨hle, hfirst⟩ := hback
    refine ⟨(occurs_append hle).mpr hfirst.occurs, ?_, ?_⟩
    · have hinside := hfirst.inside
      rw [List.length_append]
      omega
    · intro q hq hoccurs
      by_cases hin : q < front.length
      · exact h q hin hoccurs
      · rw [occurs_append (Nat.le_of_not_lt hin)] at hoccurs
        exact hfirst.first _ (by omega) hoccurs

end ListSearch
