/-
Reading an integer from a stream.

`geti` looks ahead to see in which base the integer is written, and lets the stream extract
it.  What it returns is what it has seen ahead, not what the extraction made of it, and of a
prefix `0x` it keeps nothing but the base.

What stands in a stream is told apart from how it is read: `Spelled` are the integers as C
writes them, and `LongestNumeral` is the one a text begins with.  The loop over blanks is
given a number of rounds, and one more than there are blanks is enough.
-/
import Demonstrator.Stream

namespace Demonstrator

open Numeral

/-- `isblank` -/
def isBlank (c : Char) : Bool := decide (c ∈ [' ', '\t'])

/-- What `geti` returns, and what it leaves. -/
structure GetiResult where
  ok : Bool
  value : Int
  stream : IStream
  deriving DecidableEq, Repr

/-- The loop over blanks; none where it has not ended after so many rounds. -/
def skipBlanks : Nat → IStream → Option IStream
  | 0, _ => none
  | rounds + 1, s =>
      let peeked := s.peek
      if peeked.1.any isBlank then skipBlanks rounds peeked.2.get else some peeked.2

/-- The letter of a prefix. -/
def IsX (c : Char) : Prop := c = 'x' ∨ c = 'X'

instance (c : Char) : Decidable (IsX c) := inferInstanceAs (Decidable (_ ∨ _))

/-- `geti` behind the blanks. -/
def getiNumber (s : IStream) (old : Int) : GetiResult :=
  let peeked := s.peek
  if peeked.1 = some '0' then
    let second := peeked.2.get.peek
    if second.1.any (IsX ·) then
      let result := second.2.get.extract 16 old
      { ok := true, value := result.2, stream := result.1 }
    else
      let result := second.2.unget.extract 8 old
      { ok := true, value := result.2, stream := result.1 }
  else if peeked.1.any (isDigit 10) then
    let result := peeked.2.extract 10 old
    { ok := true, value := result.2, stream := result.1 }
  else { ok := false, value := old, stream := peeked.2 }

/-- `geti`, with what `value` holds before. -/
def geti (rounds : Nat) (s : IStream) (old : Int) : Option GetiResult :=
  (skipBlanks rounds s).map fun s => getiNumber s old

/-! ### What stands in a stream -/

/-- An integer as C writes it, and its value. -/
inductive Spelled : Text → Nat → Prop
  | decimal {c : Char} {digits : Text} (hc : c ≠ '0') (h : IsNumeral 10 (c :: digits)) :
      Spelled (c :: digits) (value 10 (c :: digits))
  | octal {digits : Text} (h : ∀ c ∈ digits, isDigit 8 c = true) :
      Spelled ('0' :: digits) (value 8 ('0' :: digits))
  | hex {x : Char} {digits : Text} (hx : IsX x) (h : IsNumeral 16 digits) :
      Spelled ('0' :: x :: digits) (value 16 digits)

/-- The longest integer that a text begins with, what follows it, and its value. -/
structure LongestNumeral (text spelling rest : Text) (n : Nat) : Prop where
  split : text = spelling ++ rest
  spelled : Spelled spelling n
  longest : ∀ spelling' rest' n', text = spelling' ++ rest' → Spelled spelling' n' →
    spelling'.length ≤ spelling.length

/-- Behind blanks the text begins with this integer. -/
def Holds (text rest : Text) (n : Nat) : Prop :=
  ∃ blanks body spelling, text = blanks ++ body ∧ (∀ c ∈ blanks, isBlank c = true) ∧
    LongestNumeral body spelling rest n

/-- `geti` ends, returns true exactly where there is an integer and it is one of
`intmax_t`, and has then read it and no more. -/
def ReadsInteger (text : Text) (old : Int) : Prop :=
  ∃ rounds r, (∀ n, rounds ≤ n → geti n (.of text) old = some r) ∧
    (r.ok = true ↔ ∃ rest n, Holds text rest n ∧ n ≤ intmaxMax) ∧
    ∀ rest n, Holds text rest n → n ≤ intmaxMax →
      r.value = n ∧ r.stream.rest = rest ∧ r.stream.fail = false

/-- What may follow a prefix: a digit, and not the prefix once more. -/
def HexAhead (text : Text) : Prop := ¬ Stops (isDigit 16) text ∧ hexPrefix 16 text = text

/-- Behind blanks there is no integer, or one of `intmax_t`; and a prefix `0x` is followed
by a digit and not by another prefix. -/
structure WellSpelled (text : Text) : Prop where
  decimal : ∀ c rest, text.dropWhile isBlank = c :: rest → c ≠ '0' →
    value 10 ((c :: rest).takeWhile (isDigit 10)) ≤ intmaxMax
  octal : ∀ rest, text.dropWhile isBlank = '0' :: rest → (∀ x ∈ rest.head?, ¬ IsX x) →
    value 8 (('0' :: rest).takeWhile (isDigit 8)) ≤ intmaxMax
  hex : ∀ x rest, text.dropWhile isBlank = '0' :: x :: rest → IsX x →
    HexAhead rest ∧ value 16 (rest.takeWhile (isDigit 16)) ≤ intmaxMax

/-! ### The longest integer -/

theorem not_isDigit_of_isX {x : Char} (hx : IsX x) : isDigit 8 x = false := by
  obtain rfl | rfl := hx <;> decide

theorem not_isBlank_of_isDigit {c : Char} (h : isDigit 10 c = true) : isBlank c = false := by
  refine decide_eq_false ?_
  intro hmem
  have hnone : ∀ d ∈ [' ', '\t'], isDigit 10 d = false := by decide
  rw [hnone c hmem] at h
  cases h

theorem Spelled.unique {spelling : Text} {n n' : Nat} (h : Spelled spelling n)
    (h' : Spelled spelling n') : n = n' := by
  cases h with
  | decimal hc _ =>
      cases h' with
      | decimal => rfl
      | octal => exact absurd rfl hc
      | hex => exact absurd rfl hc
  | octal hdigits =>
      cases h' with
      | decimal hc _ => exact absurd rfl hc
      | octal => rfl
      | hex hx _ => exact absurd ((hdigits _ (List.mem_cons_self ..)).symm.trans
          (not_isDigit_of_isX hx)) Bool.noConfusion
  | hex hx _ =>
      cases h' with
      | decimal hc _ => exact absurd rfl hc
      | octal hdigits => exact absurd ((hdigits _ (List.mem_cons_self ..)).symm.trans
          (not_isDigit_of_isX hx)) Bool.noConfusion
      | hex => rfl

theorem Spelled.head {spelling : Text} {n : Nat} (h : Spelled spelling n) :
    ∃ c rest, spelling = c :: rest ∧ isDigit 10 c = true := by
  cases h with
  | decimal _ h => exact ⟨_, _, rfl, h.digits _ (List.mem_cons_self ..)⟩
  | octal => exact ⟨_, _, rfl, by decide⟩
  | hex => exact ⟨_, _, rfl, by decide⟩

theorem LongestNumeral.unique {text spelling rest spelling' rest' : Text} {n n' : Nat}
    (h : LongestNumeral text spelling rest n) (h' : LongestNumeral text spelling' rest' n') :
    rest = rest' ∧ n = n' := by
  have hlength : spelling.length = spelling'.length :=
    Nat.le_antisymm (h'.longest _ _ _ h.split h.spelled) (h.longest _ _ _ h'.split h'.spelled)
  obtain ⟨rfl, rfl⟩ := List.append_inj (h.split.symm.trans h'.split) hlength
  exact ⟨rfl, h.spelled.unique h'.spelled⟩

/-- An integer that begins with a digit other than 0 is all digits there are. -/
theorem longest_decimal {c : Char} {digits rest : Text} (hc : c ≠ '0')
    (h : IsNumeral 10 (c :: digits)) (hrest : Stops (isDigit 10) rest) :
    LongestNumeral (c :: digits ++ rest) (c :: digits) rest (value 10 (c :: digits)) := by
  refine ⟨rfl, .decimal hc h, ?_⟩
  intro spelling' rest' n' heq hspelled
  cases hspelled with
  | decimal _ h' => exact length_le_of_run h.digits hrest h'.digits heq
  | octal => exact absurd (List.cons.inj heq).1 hc
  | hex => exact absurd (List.cons.inj heq).1 hc

/-- An integer that begins with 0 and no prefix is all octal digits there are. -/
theorem longest_octal {digits rest : Text} (h : ∀ c ∈ digits, isDigit 8 c = true)
    (hrest : Stops (isDigit 8) rest)
    (hno : ∀ x digits' rest', IsX x → IsNumeral 16 digits' →
      digits ++ rest ≠ x :: digits' ++ rest') :
    LongestNumeral ('0' :: digits ++ rest) ('0' :: digits) rest (value 8 ('0' :: digits)) := by
  refine ⟨rfl, .octal h, ?_⟩
  intro spelling' rest' n' heq hspelled
  cases hspelled with
  | decimal hc _ => exact absurd (List.cons.inj heq).1.symm hc
  | octal h' =>
      have hle := length_le_of_run h hrest h' (List.cons.inj heq).2
      exact Nat.succ_le_succ hle
  | hex hx h' => exact absurd (List.cons.inj heq).2 (hno _ _ _ hx h')

/-- An integer with a prefix and a digit is all digits there are behind it. -/
theorem longest_hex {x : Char} {digits rest : Text} (hx : IsX x) (h : IsNumeral 16 digits)
    (hrest : Stops (isDigit 16) rest) :
    LongestNumeral ('0' :: x :: digits ++ rest) ('0' :: x :: digits) rest (value 16 digits) := by
  refine ⟨rfl, .hex hx h, ?_⟩
  intro spelling' rest' n' heq hspelled
  cases hspelled with
  | decimal hc _ => exact absurd (List.cons.inj heq).1.symm hc
  | @octal digits' h' =>
      cases digits' with
      | nil => exact Nat.succ_le_succ (Nat.zero_le _)
      | cons d digits' =>
          have hd := h' d (List.mem_cons_self ..)
          rw [← (List.cons.inj (List.cons.inj heq).2).1, not_isDigit_of_isX hx] at hd
          cases hd
  | hex _ h' =>
      have hle := length_le_of_run h.digits hrest h'.digits (List.cons.inj (List.cons.inj heq).2).2
      exact Nat.succ_le_succ (Nat.succ_le_succ hle)

/-! ### What `geti` does -/

/-- The loop over blanks ends at what follows them, with the stream still good unless that
is its end. -/
theorem skipBlanks_eq (text : Text) : ∀ s : IStream, s.good = true → s.rest = text →
    ∃ s', (∀ n, text.length < n → skipBlanks n s = some s') ∧
      s'.rest = text.dropWhile isBlank ∧ (s'.good = true ∨ s'.rest = []) := by
  induction text with
  | nil =>
      intro s hgood hs
      refine ⟨{ s with eofbit := true }, ?_, hs, .inr hs⟩
      intro n hn
      obtain ⟨n, rfl⟩ := Nat.exists_eq_succ_of_ne_zero (Nat.ne_of_gt hn)
      unfold skipBlanks
      rw [IStream.peek_nil hgood hs]
      rfl
  | cons c rest ih =>
      intro s hgood hs
      by_cases hc : isBlank c = true
      · rw [List.dropWhile_cons_of_pos hc]
        have hget := IStream.get_cons hgood hs
        obtain ⟨s', hskip, hrest, hend⟩ := ih s.get (by rw [hget]; exact hgood) (by rw [hget])
        refine ⟨s', ?_, hrest, hend⟩
        intro n hn
        obtain ⟨n, rfl⟩ := Nat.exists_eq_succ_of_ne_zero (Nat.ne_of_gt (Nat.zero_lt_of_lt hn))
        unfold skipBlanks
        rw [IStream.peek_cons hgood hs]
        simp only [Option.any_some, hc, if_true]
        exact hskip n (Nat.lt_of_succ_lt_succ hn)
      · rw [List.dropWhile_cons_of_neg hc]
        refine ⟨s, ?_, hs, .inl hgood⟩
        intro n hn
        obtain ⟨n, rfl⟩ := Nat.exists_eq_succ_of_ne_zero (Nat.ne_of_gt (Nat.zero_lt_of_lt hn))
        unfold skipBlanks
        rw [IStream.peek_cons hgood hs]
        simp only [Option.any_some, hc, if_false, Bool.false_eq_true]

section
variable {s : IStream} {rest : Text} {c x : Char} (old : Int)

theorem getiNumber_unknown (hs : Stops (isDigit 10) s.rest) :
    (getiNumber s old).ok = false := by
  have hpeek : s.peek.1 ≠ some '0' ∧ s.peek.1.any (isDigit 10) = false := by
    unfold IStream.peek
    split
    · split
      · exact ⟨nofun, rfl⟩
      · next c rest hrest =>
        have hc := hs c (by rw [hrest]; rfl)
        refine ⟨?_, hc⟩
        intro heq
        obtain rfl := Option.some.inj heq
        exact absurd hc (by decide)
    · exact ⟨nofun, rfl⟩
  unfold getiNumber
  simp only [hpeek.1, hpeek.2, if_false, Bool.false_eq_true]

theorem getiNumber_decimal (hgood : s.good = true) (hs : s.rest = c :: rest) (hc : c ≠ '0')
    (hdigit : isDigit 10 c = true) :
    getiNumber s old = ⟨true, (s.extract 10 old).2, (s.extract 10 old).1⟩ := by
  unfold getiNumber
  rw [IStream.peek_cons hgood hs]
  simp only [Option.some.injEq, hc, if_false, Option.any_some, hdigit, if_true]

/-- Without a prefix the 0 is put back, though the stream may end behind it. -/
theorem getiNumber_octal (hgood : s.good = true) (hs : s.rest = '0' :: rest)
    (hx : ∀ x ∈ rest.head?, ¬ IsX x) :
    getiNumber s old = ⟨true, (s.extract 8 old).2, (s.extract 8 old).1⟩ := by
  have hget := IStream.get_cons hgood hs
  have hsecond : s.get.peek.1.any (IsX ·) = false := by
    cases rest with
    | nil =>
        rw [IStream.peek_nil (by rw [hget]; exact hgood) (by rw [hget])]
        rfl
    | cons x rest =>
        rw [IStream.peek_cons (by rw [hget]; exact hgood) (by rw [hget])]
        exact decide_eq_false (hx x rfl)
  unfold getiNumber
  rw [IStream.peek_cons hgood hs]
  simp only [if_true, hsecond, Bool.false_eq_true, if_false, IStream.unget_get hgood hs]

/-- A prefix is passed over, and what follows it extracted. -/
theorem getiNumber_hex (hgood : s.good = true) (hs : s.rest = '0' :: x :: rest) (hx : IsX x) :
    ∃ s' : IStream, s'.good = true ∧ s'.rest = rest ∧
      getiNumber s old = ⟨true, (s'.extract 16 old).2, (s'.extract 16 old).1⟩ := by
  have hget := IStream.get_cons hgood hs
  have hgood' : s.get.good = true := by rw [hget]; exact hgood
  have hs' : s.get.rest = x :: rest := by rw [hget]
  have hget' := IStream.get_cons hgood' hs'
  refine ⟨s.get.get, by rw [hget']; exact hgood', by rw [hget'], ?_⟩
  unfold getiNumber
  rw [IStream.peek_cons hgood hs]
  simp only [if_true]
  rw [IStream.peek_cons hgood' hs']
  simp only [Option.any_some, decide_eq_true hx, if_true]

end

/-! ### When `geti` is right -/

/-- What `geti` has to make of what follows the blanks. -/
structure Right (body : Text) (r : GetiResult) : Prop where
  ok_iff : r.ok = true ↔ ∃ spelling rest n, LongestNumeral body spelling rest n ∧ n ≤ intmaxMax
  read : ∀ spelling rest n, LongestNumeral body spelling rest n → n ≤ intmaxMax →
    r.value = n ∧ r.stream.rest = rest ∧ r.stream.fail = false

/-- The blanks before an integer are all that there are. -/
theorem holds_iff {text rest : Text} {n : Nat} :
    Holds text rest n ↔ ∃ spelling, LongestNumeral (text.dropWhile isBlank) spelling rest n := by
  refine ⟨?_, ?_⟩
  · intro h
    obtain ⟨blanks, body, spelling, rfl, hblanks, hlongest⟩ := h
    obtain ⟨c, tail, hhead, hdigit⟩ := hlongest.spelled.head
    have hstops : Stops isBlank body := by
      rw [hlongest.split, hhead]
      exact stops_cons (not_isBlank_of_isDigit hdigit)
    rw [dropWhile_run hblanks hstops]
    exact ⟨spelling, hlongest⟩
  · intro h
    obtain ⟨spelling, hlongest⟩ := h
    exact ⟨text.takeWhile isBlank, _, spelling, List.takeWhile_append_dropWhile.symm,
      fun c hc => List.mem_takeWhile_imp hc, hlongest⟩

/-- The loop ends, so `geti` is right when it is right behind the blanks. -/
theorem readsInteger_iff (text : Text) (old : Int) :
    ∃ s : IStream, s.rest = text.dropWhile isBlank ∧ (s.good = true ∨ s.rest = []) ∧
      (ReadsInteger text old ↔ Right (text.dropWhile isBlank) (getiNumber s old)) := by
  obtain ⟨s, hskip, hrest, hend⟩ := skipBlanks_eq text (.of text) rfl rfl
  refine ⟨s, hrest, hend, ?_⟩
  have hgeti : ∀ n, text.length < n → geti n (.of text) old = some (getiNumber s old) := by
    intro n hn
    rw [geti, hskip n hn]
    rfl
  unfold ReadsInteger
  simp only [holds_iff]
  refine ⟨?_, ?_⟩
  · intro h
    obtain ⟨rounds, r, hends, hok, hread⟩ := h
    have heq := (hends (rounds + (text.length + 1)) (by omega)).symm.trans (hgeti _ (by omega))
    obtain rfl := Option.some.inj heq
    refine ⟨hok.trans ⟨?_, ?_⟩, fun spelling rest n h hn => hread rest n ⟨spelling, h⟩ hn⟩
    · intro h
      obtain ⟨rest, n, ⟨spelling, hlongest⟩, hn⟩ := h
      exact ⟨spelling, rest, n, hlongest, hn⟩
    · intro h
      obtain ⟨spelling, rest, n, hlongest, hn⟩ := h
      exact ⟨rest, n, ⟨spelling, hlongest⟩, hn⟩
  · intro h
    refine ⟨text.length + 1, _, fun n hn => hgeti n hn, h.ok_iff.trans ⟨?_, ?_⟩, ?_⟩
    · intro h
      obtain ⟨spelling, rest, n, hlongest, hn⟩ := h
      exact ⟨rest, n, ⟨spelling, hlongest⟩, hn⟩
    · intro h
      obtain ⟨rest, n, ⟨spelling, hlongest⟩, hn⟩ := h
      exact ⟨spelling, rest, n, hlongest, hn⟩
    · intro rest n h hn
      obtain ⟨spelling, hlongest⟩ := h
      exact h.read spelling rest n hlongest hn

/-- A result of true is right when the integer is one of `intmax_t` and has been read. -/
theorem right_iff {body spelling rest : Text} {n : Nat} {r : GetiResult}
    (h : LongestNumeral body spelling rest n) (hok : r.ok = true) :
    Right body r ↔
      n ≤ intmaxMax ∧ r.value = n ∧ r.stream.rest = rest ∧ r.stream.fail = false := by
  refine ⟨?_, ?_⟩
  · intro hright
    obtain ⟨spelling', rest', n', h', hn'⟩ := hright.ok_iff.mp hok
    obtain ⟨rfl, rfl⟩ := h.unique h'
    exact ⟨hn', hright.read _ _ _ h hn'⟩
  · intro hread
    obtain ⟨hn, hread⟩ := hread
    refine ⟨iff_of_true hok ⟨_, _, _, h, hn⟩, ?_⟩
    intro spelling' rest' n' h' _
    obtain ⟨rfl, rfl⟩ := h.unique h'
    exact hread

theorem right_extract {body spelling digits rest : Text} {base n : Nat} {s : IStream} (old : Int)
    (hgood : s.good = true) (hbase : base ≤ 16) (hs : s.rest = digits ++ rest)
    (hdigits : IsNumeral base digits) (hrest : Stops (isDigit base) rest)
    (hsame : hexPrefix base (digits ++ rest) = digits ++ rest)
    (h : LongestNumeral body spelling rest n) (hn : value base digits = n) :
    Right body ⟨true, (s.extract base old).2, (s.extract base old).1⟩ ↔ n ≤ intmaxMax := by
  obtain ⟨hleft, hfail, hvalue⟩ := IStream.extract_run hgood hbase hs hdigits hrest hsame old
  rw [right_iff h rfl, ← hn]
  refine and_iff_left_of_imp ?_
  intro hfits
  exact ⟨hvalue hfits, hleft, hfail.mpr hfits⟩

theorem hexPrefix_of_ne {base : Nat} (hbase : base ≠ 16) (text : Text) :
    hexPrefix base text = text := by
  unfold hexPrefix
  split
  · exact if_neg fun h => hbase h.1
  · rfl

theorem begins_of_hexPrefix_ne {text : Text} (h : hexPrefix 16 text ≠ text) :
    ∃ x tail, text = '0' :: x :: tail ∧ IsX x := by
  unfold hexPrefix at h
  split at h
  · next x tail =>
    by_cases hx : IsX x
    · exact ⟨x, tail, rfl, hx⟩
    · exact absurd (if_neg fun hc => hx hc.2) h
  · exact absurd rfl h

theorem right_unknown {s : IStream} (old : Int) (hs : Stops (isDigit 10) s.rest) :
    Right s.rest (getiNumber s old) := by
  have hnone : ∀ spelling rest n, ¬ LongestNumeral s.rest spelling rest n := by
    intro spelling rest n h
    obtain ⟨c, tail, hhead, hdigit⟩ := h.spelled.head
    have hstop := hs c (by rw [h.split, hhead]; rfl)
    rw [hdigit] at hstop
    cases hstop
  refine ⟨?_, fun spelling rest n h => absurd h (hnone _ _ _)⟩
  rw [getiNumber_unknown old hs]
  refine iff_of_false Bool.false_ne_true ?_
  intro h
  obtain ⟨spelling, rest, n, h, -⟩ := h
  exact hnone _ _ _ h

theorem right_decimal_iff {s : IStream} {c : Char} {rest : Text} (old : Int)
    (hgood : s.good = true) (hs : s.rest = c :: rest) (hc : c ≠ '0')
    (hdigit : isDigit 10 c = true) :
    Right s.rest (getiNumber s old) ↔
      value 10 ((c :: rest).takeWhile (isDigit 10)) ≤ intmaxMax := by
  have hrun : (c :: rest).takeWhile (isDigit 10) = c :: rest.takeWhile (isDigit 10) :=
    List.takeWhile_cons_of_pos hdigit
  have hnumeral : IsNumeral 10 (c :: rest.takeWhile (isDigit 10)) :=
    ⟨List.cons_ne_nil _ _, fun d hd => List.mem_takeWhile_imp (hrun ▸ hd)⟩
  have hsplit : s.rest = c :: rest.takeWhile (isDigit 10) ++ rest.dropWhile (isDigit 10) := by
    rw [hs, List.cons_append, List.takeWhile_append_dropWhile]
  have hlongest := longest_decimal hc hnumeral (stops_dropWhile (isDigit 10) rest)
  rw [← hsplit] at hlongest
  rw [getiNumber_decimal old hgood hs hc hdigit, hrun]
  exact right_extract old hgood (by decide) hsplit hnumeral (stops_dropWhile _ _)
    (hexPrefix_of_ne (by decide) _) hlongest rfl

theorem right_octal_iff {s : IStream} {rest : Text} (old : Int) (hgood : s.good = true)
    (hs : s.rest = '0' :: rest) (hx : ∀ x ∈ rest.head?, ¬ IsX x) :
    Right s.rest (getiNumber s old) ↔
      value 8 (('0' :: rest).takeWhile (isDigit 8)) ≤ intmaxMax := by
  have hrun : ('0' :: rest).takeWhile (isDigit 8) = '0' :: rest.takeWhile (isDigit 8) :=
    List.takeWhile_cons_of_pos (by decide)
  have hdigits : ∀ d ∈ rest.takeWhile (isDigit 8), isDigit 8 d = true :=
    fun d hd => List.mem_takeWhile_imp hd
  have hnumeral : IsNumeral 8 ('0' :: rest.takeWhile (isDigit 8)) :=
    ⟨List.cons_ne_nil _ _, List.forall_mem_cons.mpr ⟨by decide, hdigits⟩⟩
  have hsplit : s.rest = '0' :: rest.takeWhile (isDigit 8) ++ rest.dropWhile (isDigit 8) := by
    rw [hs, List.cons_append, List.takeWhile_append_dropWhile]
  have hlongest := longest_octal hdigits (stops_dropWhile (isDigit 8) rest) (by
    intro x digits' rest' hisx _ heq
    rw [List.takeWhile_append_dropWhile] at heq
    exact hx x (by rw [heq]; rfl) hisx)
  rw [← hsplit] at hlongest
  rw [getiNumber_octal old hgood hs hx, hrun]
  exact right_extract old hgood (by decide) hsplit hnumeral (stops_dropWhile _ _)
    (hexPrefix_of_ne (by decide) _) hlongest rfl

section
variable {s s' : IStream} {x : Char} {rest : Text}

/-- Behind a prefix without a digit the integer is the 0, and the prefix is extracted. -/
theorem not_right_bare (old : Int) (hs : s.rest = '0' :: x :: rest) (hx : IsX x)
    (hs' : s'.rest = rest) (hstops : Stops (isDigit 16) rest) :
    ¬ Right s.rest ⟨true, (s'.extract 16 old).2, (s'.extract 16 old).1⟩ := by
  have hlongest : LongestNumeral s.rest ['0'] (x :: rest) (value 8 ['0']) := by
    rw [hs]
    show LongestNumeral ('0' :: [] ++ x :: rest) ('0' :: []) (x :: rest) _
    refine longest_octal (by simp) (stops_cons (not_isDigit_of_isX hx)) ?_
    intro y digits' rest' _ h' heq
    obtain ⟨d, tail, rfl⟩ := List.exists_cons_of_ne_nil h'.nonempty
    have hd := hstops d (by rw [(List.cons.inj heq).2]; rfl)
    rw [h'.digits d (List.mem_cons_self ..)] at hd
    cases hd
  intro hright
  have hread := ((right_iff hlongest rfl).mp hright).2.2.1
  have hle : (s'.extract 16 old).1.rest.length ≤ s'.rest.length := s'.length_extract_le old
  rw [hread, hs', List.length_cons] at hle
  exact Nat.not_succ_le_self _ hle

/-- Behind a second prefix the integer is the 0 of it, and the rest of it is extracted too. -/
theorem not_right_twice (old : Int) (hgood : s'.good = true) (hs : s.rest = '0' :: x :: rest)
    (hx : IsX x) (hs' : s'.rest = rest) (hne : hexPrefix 16 rest ≠ rest) :
    ¬ Right s.rest ⟨true, (s'.extract 16 old).2, (s'.extract 16 old).1⟩ := by
  obtain ⟨y, tail, rfl, hy⟩ := begins_of_hexPrefix_ne hne
  have hnot : isDigit 16 y = false := by
    obtain rfl | rfl := hy <;> decide
  have hlongest : LongestNumeral s.rest ['0', x, '0'] (y :: tail) (value 16 ['0']) := by
    rw [hs]
    show LongestNumeral ('0' :: x :: ['0'] ++ y :: tail) ('0' :: x :: ['0']) (y :: tail) _
    have hzero : IsNumeral 16 ['0'] := by decide
    exact longest_hex hx hzero (stops_cons hnot)
  intro hright
  have hread := ((right_iff hlongest rfl).mp hright).2.2.1
  have hle := IStream.length_extract_hex hgood hs' hy old
  rw [hread, List.length_cons] at hle
  exact Nat.not_succ_le_self _ hle

theorem right_hexAhead_iff (old : Int) (hgood : s'.good = true) (hs : s.rest = '0' :: x :: rest)
    (hx : IsX x) (hs' : s'.rest = rest) (hahead : HexAhead rest) :
    Right s.rest ⟨true, (s'.extract 16 old).2, (s'.extract 16 old).1⟩ ↔
      value 16 (rest.takeWhile (isDigit 16)) ≤ intmaxMax := by
  obtain ⟨hdigit, hsame⟩ := hahead
  have hrest := stops_dropWhile (isDigit 16) rest
  have hsplit := List.takeWhile_append_dropWhile (p := isDigit 16) (l := rest)
  have hnumeral : IsNumeral 16 (rest.takeWhile (isDigit 16)) := by
    refine ⟨?_, fun d hd => List.mem_takeWhile_imp hd⟩
    intro hnil
    refine hdigit ?_
    rw [← hsplit, hnil]
    exact hrest
  have hlongest := longest_hex hx hnumeral hrest
  rw [List.cons_append, List.cons_append, hsplit, ← hs] at hlongest
  exact right_extract old hgood (Nat.le_refl _) (hs'.trans hsplit.symm) hnumeral hrest
    (by rw [hsplit]; exact hsame) hlongest rfl

/-- Behind a prefix the stream is read too far, unless there is a digit and no further
prefix. -/
theorem right_hex_iff (old : Int) (hgood : s.good = true) (hs : s.rest = '0' :: x :: rest)
    (hx : IsX x) :
    Right s.rest (getiNumber s old) ↔
      HexAhead rest ∧ value 16 (rest.takeWhile (isDigit 16)) ≤ intmaxMax := by
  obtain ⟨s', hgood', hs', hgeti⟩ := getiNumber_hex old hgood hs hx
  rw [hgeti]
  by_cases hstops : Stops (isDigit 16) rest
  · exact iff_of_false (not_right_bare old hs hx hs' hstops) fun h => h.1.1 hstops
  · by_cases hsame : hexPrefix 16 rest = rest
    · rw [and_iff_right ⟨hstops, hsame⟩]
      exact right_hexAhead_iff old hgood' hs hx hs' ⟨hstops, hsame⟩
    · exact iff_of_false (not_right_twice old hgood' hs hx hs' hsame) fun h => hsame h.1.2

end

section
variable {text rest : Text} {c x : Char}

theorem wellSpelled_decimal_iff (h : text.dropWhile isBlank = c :: rest) (hc : c ≠ '0') :
    WellSpelled text ↔ value 10 ((c :: rest).takeWhile (isDigit 10)) ≤ intmaxMax := by
  refine ⟨fun hwell => hwell.decimal c rest h hc, fun hfits => ⟨?_, ?_, ?_⟩⟩
  · intro d rest' heq _
    obtain ⟨rfl, rfl⟩ := List.cons.inj (h.symm.trans heq)
    exact hfits
  · intro rest' heq
    exact absurd (List.cons.inj (h.symm.trans heq)).1 hc
  · intro x' rest' heq
    exact absurd (List.cons.inj (h.symm.trans heq)).1 hc

theorem wellSpelled_octal_iff (h : text.dropWhile isBlank = '0' :: rest)
    (hno : ∀ x ∈ rest.head?, ¬ IsX x) :
    WellSpelled text ↔ value 8 (('0' :: rest).takeWhile (isDigit 8)) ≤ intmaxMax := by
  refine ⟨fun hwell => hwell.octal rest h hno, fun hfits => ⟨?_, ?_, ?_⟩⟩
  · intro d rest' heq hd
    exact absurd (List.cons.inj (h.symm.trans heq)).1.symm hd
  · intro rest' heq _
    obtain rfl := (List.cons.inj (h.symm.trans heq)).2
    exact hfits
  · intro x' rest' heq hisx
    obtain rfl := (List.cons.inj (h.symm.trans heq)).2
    exact absurd hisx (hno x' rfl)

theorem wellSpelled_hex_iff (h : text.dropWhile isBlank = '0' :: x :: rest) (hx : IsX x) :
    WellSpelled text ↔
      HexAhead rest ∧ value 16 (rest.takeWhile (isDigit 16)) ≤ intmaxMax := by
  refine ⟨fun hwell => hwell.hex x rest h hx, fun hfits => ⟨?_, ?_, ?_⟩⟩
  · intro d rest' heq hd
    exact absurd (List.cons.inj (h.symm.trans heq)).1.symm hd
  · intro rest' heq hno
    obtain rfl := (List.cons.inj (h.symm.trans heq)).2
    exact absurd hx (hno x rfl)
  · intro x' rest' heq _
    obtain rfl := (List.cons.inj (List.cons.inj (h.symm.trans heq)).2).2
    exact hfits

theorem wellSpelled_unknown (h : Stops (isDigit 10) (text.dropWhile isBlank)) :
    WellSpelled text := by
  have hzero : ∀ rest', text.dropWhile isBlank ≠ '0' :: rest' := by
    intro rest' heq
    exact absurd (h '0' (by rw [heq]; rfl)) (by decide)
  refine ⟨?_, fun rest' heq => absurd heq (hzero _), fun x' rest' heq => absurd heq (hzero _)⟩
  intro d rest' heq _
  rw [← heq, takeWhile_of_stops h]
  exact Nat.zero_le _

end

/-- `geti` reads an integer exactly when the text is well spelled. -/
theorem readsInteger_iff_wellSpelled (text : Text) (old : Int) :
    ReadsInteger text old ↔ WellSpelled text := by
  obtain ⟨s, hs, hend, hreads⟩ := readsInteger_iff text old
  rw [hreads, ← hs]
  cases hrest : s.rest with
  | nil =>
      have hstops : Stops (isDigit 10) s.rest := by
        rw [hrest]
        exact stops_nil
      rw [← hrest]
      exact iff_of_true (right_unknown old hstops) (wellSpelled_unknown (hs ▸ hstops))
  | cons c rest =>
      have hbody := hs.symm.trans hrest
      have hgood : s.good = true := hend.resolve_right (by rw [hrest]; exact List.cons_ne_nil _ _)
      rw [← hrest]
      by_cases hdigit : isDigit 10 c = true
      · by_cases hc : c = '0'
        · subst hc
          by_cases hx : ∃ x ∈ rest.head?, IsX x
          · obtain ⟨x, hhead, hx⟩ := hx
            obtain ⟨tail, rfl⟩ := List.head?_eq_some_iff.mp hhead
            rw [right_hex_iff old hgood hrest hx, wellSpelled_hex_iff hbody hx]
          · have hno : ∀ x ∈ rest.head?, ¬ IsX x := fun x hhead hisx => hx ⟨x, hhead, hisx⟩
            rw [right_octal_iff old hgood hrest hno, wellSpelled_octal_iff hbody hno]
        · rw [right_decimal_iff old hgood hrest hc hdigit, wellSpelled_decimal_iff hbody hc]
      · have hstops : Stops (isDigit 10) s.rest := by
          rw [hrest]
          exact stops_cons (Bool.eq_false_iff.mpr hdigit)
        exact iff_of_true (right_unknown old hstops) (wellSpelled_unknown (hs ▸ hstops))

/-- One more than the largest `intmax_t`: `geti` returns true. -/
theorem geti_accepts_overflow : ¬ ∀ text old, ReadsInteger text old := by
  intro hclaim
  obtain ⟨s, hs, hend, hreads⟩ := readsInteger_iff "9223372036854775808".toList 0
  have hrest : s.rest = '9' :: "223372036854775808".toList := hs.trans (by decide)
  have hright := hreads.mp (hclaim _ 0)
  rw [← hs] at hright
  have hgood : s.good = true := hend.resolve_right (by rw [hrest]; exact List.cons_ne_nil _ _)
  have hfits := (right_decimal_iff 0 hgood hrest (by decide) (by decide)).mp hright
  exact absurd hfits (by decide)

end Demonstrator
