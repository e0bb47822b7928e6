/-
Queues that are lists, and flags that are raised until somebody has looked.

A list is used as a queue by putting in at its head and serving from its end, so the
order of service is the list reversed.  `Conserves` says of such a queue what a queue is
for: what has entered is what has been served, followed by what still waits.  It names
no operation, so a program's own put and serve are compared with it by the two rules
`Conserves.enter` and `Conserves.serve`.

`pendingSince` is the other half of a mailbox: whether something of one kind has
happened since the last event of another kind, read off a log whose newest event comes
first.
-/
import Mathlib.Tactic.Common

namespace Fifo

variable {α ε : Type}

/-! ### Order of service -/

/-- What waits in a queue, in the order in which it will be served. -/
def waiting (q : List α) : List α := q.reverse

/-- What has entered is what has been served and what waits, in this order. -/
def Conserves (entered served q : List α) : Prop := entered = served ++ waiting q

theorem conserves_nil : Conserves ([] : List α) [] [] := rfl

theorem Conserves.enter {entered served q : List α} (h : Conserves entered served q) (a : α) :
    Conserves (entered ++ [a]) served (a :: q) := by
  unfold Conserves waiting at h ⊢
  rw [h, List.reverse_cons, List.append_assoc]

theorem Conserves.serve {entered served q : List α} {a : α} (h : Conserves entered served q)
    (hlast : q.getLast? = some a) : Conserves entered (served ++ [a]) q.dropLast := by
  obtain ⟨front, rfl⟩ := List.getLast?_eq_some_iff.mp hlast
  unfold Conserves waiting at h ⊢
  rw [List.dropLast_concat, h, List.reverse_append, List.append_assoc]
  rfl

/-! ### What has happened since -/

/-- Something that `raises` has happened since the last event that `clears`; the newest
event of the log comes first. -/
def pendingSince (raises clears : ε → Bool) : List ε → Bool
  | [] => false
  | e :: older => raises e || (!clears e && pendingSince raises clears older)

variable {raises clears : ε → Bool} {e : ε} {older : List ε}

theorem pendingSince_raise (h : raises e = true) : pendingSince raises clears (e :: older) = true := by
  rw [pendingSince, h, Bool.true_or]

theorem pendingSince_clear (hr : raises e = false) (hc : clears e = true) :
    pendingSince raises clears (e :: older) = false := by
  rw [pendingSince, hr, hc, Bool.not_true, Bool.false_and, Bool.false_or]

theorem pendingSince_other (hr : raises e = false) (hc : clears e = false) :
    pendingSince raises clears (e :: older) = pendingSince raises clears older := by
  rw [pendingSince, hr, hc, Bool.not_false, Bool.true_and, Bool.false_or]

end Fifo
