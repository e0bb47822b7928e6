/-
Input streams.

`std::istream` as the standard describes it, as far as `geti` uses it: `peek`, `get`,
`unget`, and the extraction of an integer with a base.  Every one of them first looks at
the state of the stream, and does nothing but fail where it is not good.  Extraction skips
spaces, and then takes a sign, in base sixteen a prefix, and all digits there are; it fails
where there are none, and where the number is none of `intmax_t`.

`extract_run` says what is read of a number, and `length_extract_le` that nothing is ever
put back.
-/
import Demonstrator.StdString

namespace Demonstrator

open Numeral

/-- `std::istream` -/
structure IStream where
  /-- What is still to be extracted. -/
  rest : Text
  /-- What has been extracted, the last first. -/
  taken : Text
  eofbit : Bool
  failbit : Bool
  badbit : Bool
  deriving DecidableEq, Repr

/-- The largest `intmax_t`. -/
def intmaxMax : Nat := 2 ^ 63 - 1

/-- What follows the prefix that a number of base sixteen may have. -/
def hexPrefix (base : Nat) : Text → Text
  | '0' :: x :: rest => if base = 16 ∧ (x = 'x' ∨ x = 'X') then rest else '0' :: x :: rest
  | text => text

namespace IStream

/-- A stream of which nothing has been read. -/
def of (text : Text) : IStream where
  rest := text
  taken := []
  eofbit := false
  failbit := false
  badbit := false

/-- `good()` -/
def good (s : IStream) : Bool := !s.eofbit && !s.failbit && !s.badbit

/-- `fail()` -/
def fail (s : IStream) : Bool := s.failbit || s.badbit

/-- The characters up to a rest are extracted. -/
def advance (s : IStream) (rest : Text) : IStream :=
  { s with rest := rest, taken := (s.rest.take (s.rest.length - rest.length)).reverse ++ s.taken }

/-- `peek()`; none at the end. -/
def peek (s : IStream) : Option Char × IStream :=
  if s.good then
    match s.rest with
    | [] => (none, { s with eofbit := true })
    | c :: _ => (some c, s)
  else (none, { s with failbit := true })

/-- `get()`, which is not asked for the character. -/
def get (s : IStream) : IStream :=
  if s.good then
    match s.rest with
    | [] => { s with eofbit := true, failbit := true }
    | c :: rest => { s with rest := rest, taken := c :: s.taken }
  else { s with failbit := true }

/-- `unget()`, which begins by forgetting an end that has been seen. -/
def unget (s : IStream) : IStream :=
  let s := { s with eofbit := false }
  if s.good then
    match s.taken with
    | [] => { s with badbit := true }
    | c :: taken => { s with rest := c :: s.rest, taken := taken }
  else { s with failbit := true }

/-- What a formatted extraction does first: it skips spaces, and tells whether there is
anything behind them. -/
def sentry (s : IStream) : Bool × IStream :=
  if s.good then
    let s := s.advance (s.rest.dropWhile isSpace)
    if s.rest = [] then (false, { s with eofbit := true, failbit := true }) else (true, s)
  else (false, { s with failbit := true })

/-- The field of a number is taken from the stream, which may end with it. -/
def takeField (s : IStream) (rest : Text) : IStream :=
  if rest = [] then { s.advance rest with eofbit := true } else s.advance rest

/-- The last stage of an extraction: the number of a field, or a failure with what is
nearest to it. -/
def deliver (s : IStream) (digits : Text) (number : Int) : IStream × Int :=
  if digits = [] then ({ s with failbit := true }, 0)
  else if (intmaxMax : Int) < number then ({ s with failbit := true }, intmaxMax)
  else if number < -intmaxMax - 1 then ({ s with failbit := true }, -intmaxMax - 1)
  else (s, number)

/-- `>>` in a base, of an `intmax_t` that holds `old`: the stream and what it holds then. -/
def extract (base : Nat) (s : IStream) (old : Int) : IStream × Int :=
  let ready := s.sentry
  if ready.1 then
    let body := signed ready.2.rest
    let digits := (hexPrefix base body.2).takeWhile (isDigit base)
    let number : Int := if body.1 then -value base digits else value base digits
    (ready.2.takeField ((hexPrefix base body.2).dropWhile (isDigit base))).deliver digits number
  else (ready.2, old)

/-! ### What is read -/

variable {s : IStream} {base : Nat}

theorem peek_cons {c : Char} {rest : Text} (hgood : s.good = true) (hrest : s.rest = c :: rest) :
    s.peek = (some c, s) := by
  unfold peek
  rw [if_pos hgood, hrest]

theorem peek_nil (hgood : s.good = true) (hrest : s.rest = []) :
    s.peek = (none, { s with eofbit := true }) := by
  unfold peek
  rw [if_pos hgood, hrest]

theorem get_cons {c : Char} {rest : Text} (hgood : s.good = true) (hrest : s.rest = c :: rest) :
    s.get = { s with rest := rest, taken := c :: s.taken } := by
  unfold get
  rw [if_pos hgood, hrest]

/-- A character that has been extracted is put back, though the end may have been seen
after it. -/
theorem unget_get {c : Char} {rest : Text} (hgood : s.good = true) (hrest : s.rest = c :: rest) :
    s.get.peek.2.unget = s := by
  have hbits : s.eofbit = false ∧ s.failbit = false ∧ s.badbit = false := by
    simpa [good, and_assoc] using hgood
  obtain ⟨heof, hfail, hbad⟩ := hbits
  rw [get_cons hgood hrest]
  cases s
  cases hrest
  cases heof
  cases hfail
  cases hbad
  cases rest <;> rfl

@[simp] theorem fail_takeField (s : IStream) (rest : Text) :
    (s.takeField rest).fail = s.fail := by
  unfold takeField
  split <;> rfl

@[simp] theorem rest_takeField (s : IStream) (rest : Text) : (s.takeField rest).rest = rest := by
  unfold takeField
  split <;> rfl

theorem fail_of_good (hgood : s.good = true) : s.fail = false := by
  have hbits : s.eofbit = false ∧ s.failbit = false ∧ s.badbit = false := by
    simpa [good, and_assoc] using hgood
  rw [fail, hbits.2.1, hbits.2.2]
  rfl

/-- A number is read as far as it goes, and the stream fails exactly when the number is too
large. -/
theorem extract_run {digits rest : Text} (hgood : s.good = true) (hbase : base ≤ 16)
    (hs : s.rest = digits ++ rest) (hdigits : IsNumeral base digits) (hrest : Stops (isDigit base) rest)
    (hsame : hexPrefix base (digits ++ rest) = digits ++ rest) (old : Int) :
    (s.extract base old).1.rest = rest ∧
      ((s.extract base old).1.fail = false ↔ value base digits ≤ intmaxMax) ∧
      (value base digits ≤ intmaxMax → (s.extract base old).2 = value base digits) := by
  obtain ⟨c, tail, rfl⟩ := List.exists_cons_of_ne_nil hdigits.nonempty
  have hc := isDigit_mono hbase (hdigits.digits c (List.mem_cons_self ..))
  have hready : s.sentry = (true, s.advance (c :: tail ++ rest)) := by
    unfold sentry
    rw [if_pos hgood, hs, List.cons_append, dropWhile_of_stops (stops_cons (isSpace_digit hc))]
    exact if_neg (List.cons_ne_nil _ _)
  have hsigned : signed (s.advance (c :: tail ++ rest)).rest = (false, c :: tail ++ rest) :=
    signed_digit hc
  have hfail : (s.advance (c :: tail ++ rest)).fail = false := fail_of_good hgood
  unfold extract
  rw [hready]
  simp only [if_true, hsigned, hsame, takeWhile_run hdigits.digits hrest,
    dropWhile_run hdigits.digits hrest, Bool.false_eq_true, if_false]
  unfold deliver
  rw [if_neg (List.cons_ne_nil _ _)]
  by_cases hfits : value base (c :: tail) ≤ intmaxMax
  · have hhigh : ¬ (intmaxMax : Int) < value base (c :: tail) := by omega
    have hlow : ¬ (value base (c :: tail) : Int) < -intmaxMax - 1 := by omega
    rw [if_neg hhigh, if_neg hlow]
    refine ⟨rest_takeField _ _, iff_of_true ?_ hfits, fun _ => rfl⟩
    rw [fail_takeField, hfail]
  · have hhigh : (intmaxMax : Int) < value base (c :: tail) := by omega
    rw [if_pos hhigh]
    exact ⟨rest_takeField _ _, iff_of_false Bool.true_eq_false.mp hfits, fun h => absurd h hfits⟩

theorem length_signed_le (text : Text) : (signed text).2.length ≤ text.length := by
  unfold signed
  split
  · exact Nat.le_succ _
  · exact Nat.le_succ _
  · exact Nat.le_refl _

theorem length_hexPrefix_le (base : Nat) (text : Text) :
    (hexPrefix base text).length ≤ text.length := by
  unfold hexPrefix
  split
  · split
    · exact Nat.le_add_right _ 2
    · exact Nat.le_refl _
  · exact Nat.le_refl _

@[simp] theorem rest_deliver (s : IStream) (digits : Text) (number : Int) :
    (s.deliver digits number).1.rest = s.rest := by
  unfold deliver
  split
  · rfl
  · split
    · rfl
    · split <;> rfl

theorem length_sentry_le (s : IStream) : s.sentry.2.rest.length ≤ s.rest.length := by
  unfold sentry
  split
  · dsimp only
    split
    · exact (List.dropWhile_suffix _).length_le
    · exact (List.dropWhile_suffix _).length_le
  · exact Nat.le_refl _

theorem length_extract_le (s : IStream) (old : Int) :
    (s.extract base old).1.rest.length ≤ s.rest.length := by
  refine Nat.le_trans ?_ s.length_sentry_le
  unfold extract
  by_cases hready : s.sentry.1 = true
  · simp only [hready, if_true, rest_deliver, rest_takeField]
    exact Nat.le_trans (List.dropWhile_suffix _).length_le
      (Nat.le_trans (length_hexPrefix_le _ _) (length_signed_le _))
  · simp only [hready, if_false, Bool.false_eq_true]
    exact Nat.le_refl _

/-- A prefix that stands where digits are to be read is taken with them. -/
theorem length_extract_hex {x : Char} {tail : Text} (hgood : s.good = true)
    (hs : s.rest = '0' :: x :: tail) (hx : x = 'x' ∨ x = 'X') (old : Int) :
    (s.extract 16 old).1.rest.length ≤ tail.length := by
  have hready : s.sentry = (true, s.advance ('0' :: x :: tail)) := by
    unfold sentry
    rw [if_pos hgood, hs, dropWhile_of_stops (stops_cons (by decide))]
    exact if_neg (List.cons_ne_nil _ _)
  have hsame : hexPrefix 16 ('0' :: x :: tail) = tail := if_pos ⟨rfl, hx⟩
  have hsigned : signed (s.advance ('0' :: x :: tail)).rest = (false, '0' :: x :: tail) :=
    signed_digit (by decide)
  unfold extract
  rw [hready]
  simp only [if_true, hsigned, hsame, rest_deliver, rest_takeField]
  exact (List.dropWhile_suffix _).length_le

end IStream

end Demonstrator
