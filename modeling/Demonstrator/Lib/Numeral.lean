/-
Runs of digits, and what they are worth.

A text is read by taking the longest run of characters of one kind from its front.  Where
such a run ends is settled by what follows it: `takeWhile_run` and `dropWhile_run` read a
text that has been put together from a run and a rest that does not go on with it, so a
reader is told by one decomposition, and `run_unique` says that there is only one.

Digits are those of any base up to sixteen, and a run of them is worth what it is in that
base.
-/
import Mathlib.Data.List.TakeWhile

namespace Numeral

variable {α : Type} {p : α → Bool} {run rest run' rest' : List α}

/-! ### Runs -/

/-- What follows does not go on with the kind. -/
def Stops (p : α → Bool) (rest : List α) : Prop := ∀ c ∈ rest.head?, p c = false

theorem stops_nil : Stops p [] := nofun

theorem stops_cons {c : α} (h : p c = false) : Stops p (c :: rest) := by
  intro d hd
  obtain rfl := Option.some.inj hd
  exact h

theorem takeWhile_of_stops (h : Stops p rest) : rest.takeWhile p = [] := by
  cases rest with
  | nil => rfl
  | cons c rest =>
      refine List.takeWhile_cons_of_neg ?_
      rw [h c rfl]
      exact Bool.false_ne_true

theorem dropWhile_of_stops (h : Stops p rest) : rest.dropWhile p = rest := by
  have hsplit : rest.takeWhile p ++ rest.dropWhile p = rest := List.takeWhile_append_dropWhile
  rw [takeWhile_of_stops h] at hsplit
  exact hsplit

theorem takeWhile_run (hrun : ∀ c ∈ run, p c = true) (hrest : Stops p rest) :
    (run ++ rest).takeWhile p = run := by
  rw [List.takeWhile_append_of_pos hrun, takeWhile_of_stops hrest, List.append_nil]

theorem dropWhile_run (hrun : ∀ c ∈ run, p c = true) (hrest : Stops p rest) :
    (run ++ rest).dropWhile p = rest := by
  rw [List.dropWhile_append_of_pos hrun, dropWhile_of_stops hrest]

theorem stops_dropWhile (p : α → Bool) (text : List α) : Stops p (text.dropWhile p) := by
  have hhead := List.head?_dropWhile_not p text
  intro c hc
  rw [Option.mem_def.mp hc] at hhead
  exact hhead

/-- A text has one longest run at its front. -/
theorem run_unique (hrun : ∀ c ∈ run, p c = true) (hrest : Stops p rest)
    (hrun' : ∀ c ∈ run', p c = true) (hrest' : Stops p rest')
    (h : run ++ rest = run' ++ rest') : run = run' ∧ rest = rest' := by
  refine ⟨?_, ?_⟩
  · rw [← takeWhile_run hrun hrest, h, takeWhile_run hrun' hrest']
  · rw [← dropWhile_run hrun hrest, h, dropWhile_run hrun' hrest']

/-- What stands before the first occurrence of an element is settled. -/
theorem before_unique [BEq α] [LawfulBEq α] {c : α} (hrun : c ∉ run) (hrun' : c ∉ run')
    (h : run ++ c :: rest = run' ++ c :: rest') : run = run' ∧ rest = rest' := by
  have hother : ∀ {r : List α}, c ∉ r → ∀ d ∈ r, (d != c) = true := by
    intro r hr d hd
    rw [bne_iff_ne]
    rintro rfl
    exact hr hd
  have hstops : ∀ r : List α, Stops (· != c) (c :: r) := fun r => stops_cons (bne_self_eq_false c)
  obtain ⟨heq, hrest⟩ := run_unique (hother hrun) (hstops rest) (hother hrun') (hstops rest') h
  exact ⟨heq, (List.cons.inj hrest).2⟩

/-- No run at the front is longer than the one that ends where the kind does. -/
theorem length_le_of_run (hrun : ∀ c ∈ run, p c = true) (hrest : Stops p rest)
    (hrun' : ∀ c ∈ run', p c = true) (h : run ++ rest = run' ++ rest') :
    run'.length ≤ run.length := by
  rw [← takeWhile_run hrun hrest, h, List.takeWhile_append_of_pos hrun', List.length_append]
  exact Nat.le_add_right _ _

/-! ### Digits -/

/-- A property of the characters of a text is decided on the text, not on all characters. -/
instance decidableForallMem (p : Char → Prop) [DecidablePred p] (text : List Char) :
    Decidable (∀ c ∈ text, p c) :=
  List.decidableBAll p text

/-- What a digit is worth; 16 for what is no digit of any base. -/
def digitValue (c : Char) : Nat :=
  if '0' ≤ c ∧ c ≤ '9' then c.toNat - '0'.toNat
  else if 'A' ≤ c ∧ c ≤ 'F' then c.toNat - 'A'.toNat + 10
  else if 'a' ≤ c ∧ c ≤ 'f' then c.toNat - 'a'.toNat + 10
  else 16

def isDigit (base : Nat) (c : Char) : Bool := decide (digitValue c < base)

/-- What digits are worth. -/
def value (base : Nat) (digits : List Char) : Nat :=
  digits.foldl (fun n c => n * base + digitValue c) 0

@[simp] theorem value_nil (base : Nat) : value base [] = 0 := rfl

/-- At least one digit, and nothing but digits. -/
structure IsNumeral (base : Nat) (text : List Char) : Prop where
  nonempty : text ≠ []
  digits : ∀ c ∈ text, isDigit base c = true

instance (base : Nat) (text : List Char) : Decidable (IsNumeral base text) :=
  decidable_of_iff (text ≠ [] ∧ ∀ c ∈ text, isDigit base c = true)
    ⟨fun h => ⟨h.1, h.2⟩, fun h => ⟨h.nonempty, h.digits⟩⟩

theorem isDigit_mono {base base' : Nat} (hle : base ≤ base') {c : Char}
    (h : isDigit base c = true) : isDigit base' c = true :=
  decide_eq_true (Nat.lt_of_lt_of_le (of_decide_eq_true h) hle)

end Numeral
