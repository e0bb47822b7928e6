/-
A variable with a current and a next value.

Everybody reads the current value.  A write sets the next one and asks for an update;
the update makes it the current one, and tells of a change if there is one.  So of
several writes before an update the last one counts, and writing a value and taking it
back is no change at all.

A signal is `Coherent` when a next value that differs from the current one has an
update coming.  A write makes a signal coherent and an update keeps it so, and after the
update the two values are equal.
-/
import Mathlib.Tactic.Common

namespace EvaluateUpdate

/-- A variable with a current and a next value. -/
structure Signal (β : Type) where
  current : β
  next : β
  updateRequested : Bool
  /-- A change has been told of and has not been heard. -/
  changed : Bool
  deriving DecidableEq, Repr

variable {β : Type}

/-- A signal nobody has written to. -/
def Signal.new (v : β) : Signal β :=
  { current := v, next := v, updateRequested := false, changed := false }

/-- The change has been heard. -/
def Signal.heard (s : Signal β) : Signal β := { s with changed := false }

/-- A next value that differs from the current one has an update coming. -/
def Signal.Coherent (s : Signal β) : Prop := s.updateRequested = true ∨ s.next = s.current

variable [DecidableEq β]

/-- Somebody writes a value. -/
def Signal.write (s : Signal β) (v : β) : Signal β :=
  { s with next := v, updateRequested := s.updateRequested || v != s.current }

/-- The next value becomes the current one. -/
def Signal.update (s : Signal β) : Signal β :=
  if s.updateRequested then
    { current := s.next, next := s.next, updateRequested := false,
      changed := s.changed || s.next != s.current }
  else s

@[simp] theorem next_update (s : Signal β) : s.update.next = s.next := by
  unfold Signal.update
  split <;> rfl

theorem coherent_write (s : Signal β) (v : β) : (s.write v).Coherent := by
  by_cases hv : v = s.current
  · exact Or.inr hv
  · refine Or.inl ?_
    show (s.updateRequested || v != s.current) = true
    rw [bne_iff_ne.mpr hv, Bool.or_true]

theorem current_update {s : Signal β} (h : s.Coherent) : s.update.current = s.next := by
  unfold Signal.update
  split
  · rfl
  · rcases h with hreq | hsame
    · contradiction
    · exact hsame.symm

theorem coherent_update {s : Signal β} (h : s.Coherent) : s.update.Coherent := by
  refine Or.inr ?_
  rw [next_update, current_update h]

/-- The update tells of a change when there is one, and forgets none. -/
theorem changed_update {s : Signal β} (h : s.Coherent) :
    s.update.changed = (s.changed || s.next != s.current) := by
  unfold Signal.update
  split
  · rfl
  · rcases h with hreq | hsame
    · contradiction
    · rw [hsame, bne_self_eq_false, Bool.or_false]

end EvaluateUpdate
