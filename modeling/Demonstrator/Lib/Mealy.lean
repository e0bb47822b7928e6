/-
Machines that answer every input.

`next` is the state after an input and `out` the answer to it.  `outputs` is what a list
of inputs is answered with, one after the other, and the lemmas say how it grows at the
end, where a run grows, while the definition takes it apart at the front.
-/
import Mathlib.Tactic.Common

namespace Mealy

variable {σ ι ο : Type} (next : σ → ι → σ) (out : σ → ι → ο)

/-- The state after a list of inputs. -/
def after (s : σ) (inputs : List ι) : σ := inputs.foldl next s

/-- The answers to a list of inputs. -/
def outputs : σ → List ι → List ο
  | _, [] => []
  | s, i :: rest => out s i :: outputs (next s i) rest

theorem after_concat (s : σ) (inputs : List ι) (i : ι) :
    after next s (inputs ++ [i]) = next (after next s inputs) i := by
  rw [after, List.foldl_append]
  rfl

theorem outputs_concat : ∀ (inputs : List ι) (s : σ) (i : ι),
    outputs next out s (inputs ++ [i])
      = outputs next out s inputs ++ [out (after next s inputs) i] := by
  intro inputs
  induction inputs with
  | nil => intro s i; rfl
  | cons j rest ih =>
      intro s i
      show out s j :: outputs next out (next s j) (rest ++ [i]) = _
      rw [ih]
      rfl

end Mealy
