/-
Literals of logic digits.

`operator "" _logic` takes the separators out of a literal, drops a leading 0, which is
there only because a literal has to begin with a digit, and constructs a vector from the
digits that are left and from a length.  The length is that of the literal as written,
less one: it counts the separators, and a leading 0 whether there is one or not.

The loop that takes the separators out is given a number of rounds; it ends when there is
no separator left, so one round for each and one more are enough.
-/
import Demonstrator.StdString

namespace Demonstrator

/-- What `sc_lv_base` is constructed from. -/
structure LogicVector where
  digits : Text
  /-- An `int`. -/
  length : Int32
  deriving DecidableEq, Repr

/-- The loop that erases underscores; none where it has not ended after so many rounds. -/
def stripSeparators : Nat → Text → Option Text
  | 0, _ => none
  | rounds + 1, tempstr =>
      match find tempstr ['_'] with
      | none => some tempstr
      | some pos => stripSeparators rounds (erase tempstr pos 1)

/-- `if (tempstr[0] == '0') tempstr.erase(0,1)` -/
def dropLeadingZero (tempstr : Text) : Text :=
  if tempstr.head? = some '0' then erase tempstr 0 1 else tempstr

/-- `operator "" _logic`.  The length is `int(strlen(literal_string)-1)`. -/
def logicLiteral (rounds : Nat) (literal : Text) : Option LogicVector :=
  (stripSeparators rounds literal).map fun tempstr =>
    { digits := dropLeadingZero tempstr, length := .ofInt ((literal.length : Int) - 1) }

/-! ### What a literal says -/

/-- A literal as the operator's documentation has it: logic digits and underscores. -/
def IsLogicLiteral (literal : Text) : Prop := ∀ c ∈ literal, c ∈ ['0', '1', 'X', 'Z', '_']

/-- The characters of a literal that are no separators. -/
def unseparated (literal : Text) : Text := literal.filter (· ≠ '_')

/-- The digits of a literal: what is no separator, less one leading 0. -/
def logicDigits (literal : Text) : Text :=
  if (unseparated literal).head? = some '0' then (unseparated literal).tail
  else unseparated literal

/-- The operator ends, and passes on the digits of the literal and their number. -/
def KeepsDigits (literal : Text) : Prop :=
  ∃ rounds vector, (∀ n, rounds ≤ n → logicLiteral n literal = some vector) ∧
    vector.digits = logicDigits literal ∧ vector.length.toInt = vector.digits.length

/-- How many characters of the literal are not passed on. -/
def droppedCount (literal : Text) : Nat :=
  literal.count '_' + if (unseparated literal).head? = some '0' then 1 else 0

/-! ### What the operator passes on -/

theorem stripSeparators_eq {rounds : Nat} : ∀ {text : Text}, text.count '_' < rounds →
    stripSeparators rounds text = some (unseparated text) := by
  induction rounds with
  | zero => exact fun h => absurd h (Nat.not_lt_zero _)
  | succ rounds ih =>
      intro text h
      unfold stripSeparators
      cases hfound : find text ['_'] with
      | none =>
          have hno : '_' ∉ text := by
            intro hmem
            obtain ⟨front, back, rfl, hc⟩ := List.eq_append_cons_of_mem hmem
            exact absurd (hfound.symm.trans (find_singleton hc)) (by simp)
          have hkeep : unseparated text = text := by
            refine List.filter_eq_self.mpr fun c hc => decide_eq_true ?_
            intro heq
            exact hno (heq ▸ hc)
          rw [hkeep]
      | some pos =>
          obtain ⟨front, back, rfl, hc, rfl⟩ := split_of_find_singleton hfound
          have hcount : (front ++ back).count '_' < rounds := by
            rw [List.count_append, List.count_cons_self] at h
            rw [List.count_append]
            omega
          show stripSeparators rounds (erase _ _ _) = _
          rw [erase_front, ih hcount]
          simp [unseparated]

theorem dropLeadingZero_eq (literal : Text) :
    dropLeadingZero (unseparated literal) = logicDigits literal := by
  unfold dropLeadingZero logicDigits
  rw [erase, List.take_zero, List.nil_append, Nat.zero_add, List.drop_one]

/-- With a round for each underscore and one more the operator ends. -/
theorem logicLiteral_eq {rounds : Nat} {literal : Text} (h : literal.count '_' < rounds) :
    logicLiteral rounds literal = some
      { digits := logicDigits literal, length := .ofInt ((literal.length : Int) - 1) } := by
  rw [logicLiteral, stripSeparators_eq h, Option.map_some, dropLeadingZero_eq]

theorem length_eq (literal : Text) :
    literal.length = (logicDigits literal).length + droppedCount literal := by
  have hsplit : literal.length = literal.count '_' + (unseparated literal).length := by
    rw [unseparated, ← List.countP_eq_length_filter, List.count,
      List.length_eq_countP_add_countP (· == '_')]
    simp
  unfold logicDigits droppedCount
  split
  · next hhead =>
    obtain ⟨digits, heq⟩ := List.head?_eq_some_iff.mp hhead
    rw [heq, List.length_cons] at hsplit
    rw [heq, List.tail_cons]
    omega
  · omega

/-- An `int` that is computed from one less than a sum is the first part of it exactly
when the other part is 1, up to what an `int` leaves out. -/
theorem bmod_eq_iff (digits dropped : Nat) :
    ((digits + dropped : Nat) - 1 : Int).bmod (2 ^ 32) = digits ↔
      dropped % 2 ^ 32 = 1 ∧ digits < 2 ^ 31 := by
  rw [Int.bmod_def]
  split <;> omega

/-- A literal keeps its digits and width exactly when one character is dropped from it:
the leading 0, or an underscore.  (Only literals of 2^31 digits and more are different.) -/
theorem keepsDigits_iff (literal : Text) :
    KeepsDigits literal ↔
      droppedCount literal % 2 ^ 32 = 1 ∧ (logicDigits literal).length < 2 ^ 31 := by
  rw [← bmod_eq_iff, ← length_eq]
  have hresult := fun n (h : literal.count '_' < n) => logicLiteral_eq h
  refine ⟨?_, ?_⟩
  · intro h
    obtain ⟨rounds, vector, hends, hdigits, hlength⟩ := h
    have heq := (hends _ (Nat.le_add_right _ _)).symm.trans
      (hresult (rounds + (literal.count '_' + 1)) (by omega))
    obtain rfl := Option.some.inj heq
    rw [Int32.toInt_ofInt] at hlength
    exact hlength
  · intro h
    refine ⟨literal.count '_' + 1, _, fun n hn => hresult n hn, rfl, ?_⟩
    rw [Int32.toInt_ofInt]
    exact h

/-- The literal of the file's description: `0_XX00_ZZ11_logic`. -/
theorem documented_literal_padded :
    ¬ ∀ literal : Text, IsLogicLiteral literal → KeepsDigits literal := by
  intro hclaim
  obtain ⟨rounds, vector, hends, hdigits, hlength⟩ :=
    hclaim "0_XX00_ZZ11".toList (by unfold IsLogicLiteral; decide)
  have hcount : "0_XX00_ZZ11".toList.count '_' < rounds + 3 := by
    rw [show "0_XX00_ZZ11".toList.count '_' = 2 by decide]
    omega
  have heq := (hends (rounds + 3) (Nat.le_add_right _ _)).symm.trans (logicLiteral_eq hcount)
  obtain rfl := Option.some.inj heq
  exact absurd hlength (by decide)

end Demonstrator
