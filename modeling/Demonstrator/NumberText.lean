/-
Numbers and times in texts.

`is_number` and `get_time` read what stands on a command line.  The first asks
`find_first_not_of` which character is none of some digits; for a text with a point in it it
means to ask that of the part before the point, but the third argument of the function
counts the characters of the digits, not those of the text.  With more than the literal has,
its terminator included, the language says nothing of what happens; `isNumber` is none there.

`get_time` looks for the names of the units one after the other, and takes the first that has
a number before its first occurrence; what follows the name it does not look at.  Times are
rational numbers here, not `double`.
-/
import Demonstrator.StdString

namespace Demonstrator

open ListSearch Numeral

/-- `"0123456789"` -/
def decimalDigits : Text := "0123456789".toList

/-- `"0123456789ABCDEF"` -/
def hexDigits : Text := "0123456789ABCDEF".toList

/-- The first `count` characters of a literal with its terminator; none where it has not so
many. -/
def literalFront (literal : Text) (count : Nat) : Option Text :=
  if count ≤ literal.length + 1 then some ((literal ++ ['\x00']).take count) else none

/-- `pos-1` of a `size_t`. -/
def sizePred (pos : Nat) : Nat := if pos = 0 then 2 ^ 64 - 1 else pos - 1

/-- `is_number`; none where its behaviour is undefined. -/
def isNumber (val : Text) : Option Bool :=
  if val = [] then some false
  else if find val "0x".toList = some 0 then some (findFirstNotOf val hexDigits 2 = none)
  else
    match find val ['.'] with
    | some pos =>
        (literalFront decimalDigits (sizePred pos)).map fun digits =>
          findFirstNotOf val digits 0 = none ∧ findFirstNotOf val decimalDigits (pos + 1) = none
    | none => some (findFirstNotOf val decimalDigits 0 = none)

/-- `sc_time_unit` -/
inductive ScTimeUnit where
  | ms
  | us
  | ns
  | ps
  | fs
  | sec
  deriving DecidableEq, Repr

/-- The name that a unit has behind a number. -/
def ScTimeUnit.text : ScTimeUnit → Text
  | .ms => "_ms".toList
  | .us => "_us".toList
  | .ns => "_ns".toList
  | .ps => "_ps".toList
  | .fs => "_fs".toList
  | .sec => "_sec".toList

/-- The units in the order in which `get_time` looks for them. -/
def timeUnits : List ScTimeUnit := [.ms, .us, .ns, .ps, .fs, .sec]

/-- `sc_time` -/
inductive ScTime where
  | units (v : Rat) (u : ScTimeUnit)
  /-- `sc_max_time()` -/
  | maxTime
  deriving DecidableEq, Repr

/-- What a decimal numeral is worth, with a point in it or without. -/
def decimalValue (text : Text) : Rat :=
  match find text ['.'] with
  | none => value 10 text
  | some pos => value 10 (erase text pos 1) / 10 ^ (text.length - (pos + 1))

/-- What a stream reads of a number that `is_number` has accepted.  A numeral with `0x` is read as
the standard words it; libstdc++ reads the 0 and stops. -/
def readDouble (text : Text) : Rat :=
  if find text "0x".toList = some 0 then value 16 (text.drop 2) else decimalValue text

/-- The chain of conditions in `get_time`: the unit and its position; none inside where there
is none, none outside where the behaviour is undefined. -/
def findUnit (val : Text) : List ScTimeUnit → Option (Option (ScTimeUnit × Nat))
  | [] => some none
  | u :: us =>
      match find val u.text with
      | none => findUnit val us
      | some pos =>
          match isNumber (val.take pos) with
          | none => none
          | some true => some (some (u, pos))
          | some false => findUnit val us

/-- `get_time`; none where its behaviour is undefined. -/
def getTime (val : Text) : Option ScTime :=
  (findUnit val timeUnits).map fun
    | some (u, pos) => .units (readDouble (val.take pos)) u
    | none => .maxTime

/-! ### The grammar -/

/-- Digits with a point among them. -/
def IsFraction (val : Text) : Prop :=
  ∃ whole part, val = whole ++ '.' :: part ∧ (∀ c ∈ whole, isDigit 10 c = true) ∧
    (∀ c ∈ part, isDigit 10 c = true) ∧ (whole ≠ [] ∨ part ≠ [])

/-- A decimal numeral. -/
def IsDecimal (val : Text) : Prop := IsNumeral 10 val ∨ IsFraction val

/-- A numeral. -/
def IsNumberText (val : Text) : Prop :=
  IsDecimal val ∨ ∃ digits, val = '0' :: 'x' :: digits ∧ IsNumeral 16 digits

/-- `is_number` is true of the numerals and false of all else. -/
def RecognisesNumber (val : Text) : Prop :=
  ∃ answer, isNumber val = some answer ∧ (answer = true ↔ IsNumberText val)

/-- `get_time` returns the time for a decimal numeral with a unit, and `sc_max_time()` for
all else. -/
def RecognisesTime (val : Text) : Prop :=
  ∃ t, getTime val = some t ∧
    ∀ v (u : ScTimeUnit), t = .units v u ↔
      ∃ numeral, val = numeral ++ u.text ∧ IsDecimal numeral ∧ v = decimalValue numeral

/-- The first point of a text without a prefix has from one to twelve characters before it. -/
def PointPlaced (val : Text) : Prop :=
  ∀ front back, val = front ++ '.' :: back → '.' ∉ front → ¬ "0x".toList <+: val →
    1 ≤ front.length ∧ front.length ≤ 12

/-- There are digits behind a prefix, capitals only where they make a numeral; and a point
makes no numeral, and has some characters before it, but not many. -/
structure PlainNumber (val : Text) : Prop where
  digits : val ≠ "0x".toList
  capital : ∀ digits, val = '0' :: 'x' :: digits → IsNumeral 16 digits → ∀ c ∈ digits, c ∈ hexDigits
  whole : ¬ IsFraction val
  point : PointPlaced val

/-- A unit behind a number ends the text; no unit stands behind a prefix and capitals, or,
where it ends the text, behind a numeral with a point; and where a unit is found, the point of
what stands before it has some characters before it, but not many. -/
structure PlainTime (val : Text) : Prop where
  exact : ∀ numeral (u : ScTimeUnit) rest, val = numeral ++ (u.text ++ rest) →
    IsNumeral 10 numeral → rest = []
  decimal : ∀ digits (u : ScTimeUnit) rest, val = '0' :: 'x' :: digits ++ (u.text ++ rest) →
    ¬ ∀ c ∈ digits, c ∈ hexDigits
  whole : ∀ numeral (u : ScTimeUnit), val = numeral ++ u.text → ¬ IsFraction numeral
  point : ∀ (u : ScTimeUnit) pos, find val u.text = some pos → PointPlaced (val.take pos)

/-! ### What `is_number` answers -/

theorem mem_decimalDigits_iff {c : Char} : c ∈ decimalDigits ↔ isDigit 10 c = true := by
  refine ⟨?_, ?_⟩
  · intro h
    have hall : ∀ d ∈ decimalDigits, isDigit 10 d = true := by decide
    exact hall c h
  · intro h
    have hlt := of_decide_eq_true h
    unfold digitValue at hlt
    have hrange : 48 ≤ c.toNat ∧ c.toNat ≤ 57 := by
      split at hlt
      · next hc => exact hc
      · split at hlt
        · omega
        · split at hlt <;> omega
    have hall : ∀ k < 10, Char.ofNat (48 + k) ∈ decimalDigits := by decide
    have hmem := hall (c.toNat - 48) (by omega)
    rwa [Nat.add_sub_cancel' hrange.1, Char.ofNat_toNat] at hmem

theorem isDigit_of_mem_hexDigits {c : Char} (h : c ∈ hexDigits) : isDigit 16 c = true := by
  have hall : ∀ d ∈ hexDigits, isDigit 16 d = true := by decide
  exact hall c h

theorem begins_hex_iff {val : Text} :
    "0x".toList <+: val ↔ ∃ digits, val = '0' :: 'x' :: digits :=
  ⟨fun ⟨digits, h⟩ => ⟨digits, h.symm⟩, fun ⟨digits, h⟩ => ⟨digits, h.symm⟩⟩

theorem isNumber_hex (digits : Text) :
    isNumber ('0' :: 'x' :: digits) = some (decide (∀ c ∈ digits, c ∈ hexDigits)) := by
  have hhex := find_eq_zero_iff.mpr (begins_hex_iff.mpr ⟨digits, rfl⟩)
  unfold isNumber
  rw [if_neg (List.cons_ne_nil _ _), if_pos hhex]
  refine congrArg some (decide_eq_decide.mpr ?_)
  rw [findFirstNotOf_eq_none_iff]
  rfl

/-- The digits and their terminator are enough for the first twelve positions of a point. -/
theorem literalFront_sizePred (pos : Nat) :
    literalFront decimalDigits (sizePred pos) =
      if 1 ≤ pos ∧ pos ≤ 12 then some ((decimalDigits ++ ['\x00']).take (sizePred pos))
      else none := by
  have hlength : decimalDigits.length = 10 := by decide
  have henough : sizePred pos ≤ decimalDigits.length + 1 ↔ 1 ≤ pos ∧ pos ≤ 12 := by
    rw [hlength]
    unfold sizePred
    split <;> omega
  unfold literalFront
  simp only [henough]

theorem isNumber_point {front back : Text} (hfront : '.' ∉ front)
    (hhex : ¬ "0x".toList <+: front ++ '.' :: back) :
    isNumber (front ++ '.' :: back) =
      if 1 ≤ front.length ∧ front.length ≤ 12 then some false else none := by
  unfold isNumber
  rw [if_neg (by simp), if_neg (fun h => hhex (find_eq_zero_iff.mp h)), find_singleton hfront]
  simp only [literalFront_sizePred]
  by_cases hcount : 1 ≤ front.length ∧ front.length ≤ 12
  · rw [if_pos hcount, if_pos hcount, Option.map_some]
    refine congrArg some (decide_eq_false ?_)
    intro h
    have hmem := findFirstNotOf_eq_none_iff.mp h.1 '.' (by simp)
    have hno : '.' ∉ decimalDigits ++ ['\x00'] := by decide
    exact hno (List.mem_of_mem_take hmem)
  · rw [if_neg hcount, if_neg hcount, Option.map_none]

theorem isNumber_plain {val : Text} (hpoint : '.' ∉ val) (hhex : ¬ "0x".toList <+: val) :
    isNumber val = some (decide (IsNumeral 10 val)) := by
  unfold isNumber
  by_cases hnil : val = []
  · subst hnil
    rfl
  · rw [if_neg hnil, if_neg (fun h => hhex (find_eq_zero_iff.mp h)), find_singleton_none hpoint]
    refine congrArg some (decide_eq_decide.mpr ?_)
    rw [findFirstNotOf_eq_none_iff, List.drop_zero]
    refine ⟨?_, ?_⟩
    · intro h
      exact ⟨hnil, fun c hc => mem_decimalDigits_iff.mp (h c hc)⟩
    · intro h c hc
      exact mem_decimalDigits_iff.mpr (h.digits c hc)

theorem text_cases (val : Text) :
    (∃ digits, val = '0' :: 'x' :: digits) ∨ ¬ "0x".toList <+: val ∧
      ('.' ∉ val ∨ ∃ front back, val = front ++ '.' :: back ∧ '.' ∉ front) := by
  by_cases hhex : "0x".toList <+: val
  · exact .inl (begins_hex_iff.mp hhex)
  · refine .inr ⟨hhex, ?_⟩
    by_cases hpoint : '.' ∈ val
    · exact .inr (List.eq_append_cons_of_mem hpoint)
    · exact .inl hpoint

theorem isDecimal_chars {val : Text} (h : IsDecimal val) :
    ∀ c ∈ val, isDigit 10 c = true ∨ c = '.' := by
  intro c hc
  obtain h | ⟨whole, part, rfl, hwhole, hpart, -⟩ := h
  · exact .inl (h.digits c hc)
  · obtain hc | hc := List.mem_append.mp hc
    · exact .inl (hwhole c hc)
    · obtain rfl | hc := List.mem_cons.mp hc
      · exact .inr rfl
      · exact .inl (hpart c hc)

theorem not_isDecimal_hex (digits : Text) : ¬ IsDecimal ('0' :: 'x' :: digits) := by
  intro h
  obtain hx | hx := isDecimal_chars h 'x' (by simp)
  · exact absurd hx (by decide)
  · exact absurd hx (by decide)

theorem point_notMem {val : Text} (h : IsNumeral 10 val) : '.' ∉ val := by
  intro hmem
  exact absurd (h.digits _ hmem) (by decide)

theorem point_mem {val : Text} (h : IsFraction val) : '.' ∈ val := by
  obtain ⟨whole, part, rfl, -⟩ := h
  exact List.mem_append_right _ (List.mem_cons_self ..)

/-- What `is_number` accepts: decimal digits, and capitals behind a prefix. -/
theorem isNumber_eq_true_iff {val : Text} : isNumber val = some true ↔
    IsNumeral 10 val ∨ ∃ digits, val = '0' :: 'x' :: digits ∧ ∀ c ∈ digits, c ∈ hexDigits := by
  obtain ⟨digits, rfl⟩ | ⟨hhex, hpoint | ⟨front, back, rfl, hfront⟩⟩ := text_cases val
  · rw [isNumber_hex, Option.some_inj, decide_eq_true_iff]
    refine ⟨fun hall => .inr ⟨digits, rfl, hall⟩, ?_⟩
    intro h
    obtain h | ⟨digits', heq, hall⟩ := h
    · exact absurd (.inl h) (not_isDecimal_hex digits)
    · obtain rfl : digits = digits' := by simpa using heq
      exact hall
  · rw [isNumber_plain hpoint hhex, Option.some_inj, decide_eq_true_iff]
    refine ⟨.inl, ?_⟩
    intro h
    obtain h | ⟨digits, heq, -⟩ := h
    · exact h
    · exact absurd (begins_hex_iff.mpr ⟨digits, heq⟩) hhex
  · rw [isNumber_point hfront hhex]
    refine iff_of_false ?_ ?_
    · split <;> simp
    · intro h
      obtain h | ⟨digits, heq, -⟩ := h
      · exact point_notMem h (List.mem_append_right _ (List.mem_cons_self ..))
      · exact hhex (begins_hex_iff.mpr ⟨digits, heq⟩)

/-- `is_number` is undefined where the first point is out of place. -/
theorem isNumber_ne_none_iff {val : Text} : isNumber val ≠ none ↔ PointPlaced val := by
  obtain ⟨digits, rfl⟩ | ⟨hhex, hpoint | ⟨front, back, rfl, hfront⟩⟩ := text_cases val
  · rw [isNumber_hex]
    refine iff_of_true nofun ?_
    intro front back _ _ hno
    exact absurd (begins_hex_iff.mpr ⟨digits, rfl⟩) hno
  · rw [isNumber_plain hpoint hhex]
    refine iff_of_true nofun ?_
    rintro front back rfl
    exact absurd (List.mem_append_right _ (List.mem_cons_self ..)) hpoint
  · rw [isNumber_point hfront hhex]
    refine ⟨?_, ?_⟩
    · intro hdefined front' back' heq hfront' _
      obtain ⟨rfl, -⟩ := before_unique hfront hfront' heq
      by_contra hcount
      rw [if_neg hcount] at hdefined
      exact hdefined rfl
    · intro h
      rw [if_pos (h front back rfl hfront hhex)]
      nofun

theorem recognisesNumber_iff_answer {val : Text} : RecognisesNumber val ↔
    isNumber val ≠ none ∧ (isNumber val = some true ↔ IsNumberText val) := by
  unfold RecognisesNumber
  cases isNumber val with
  | none => exact iff_of_false (fun ⟨_, h, _⟩ => nomatch h) fun h => h.1 rfl
  | some answer => simp

theorem not_isFraction_of_accepted {val : Text} (h : isNumber val = some true) :
    ¬ IsFraction val := by
  intro hfraction
  obtain hnumeral | ⟨digits, rfl, -⟩ := isNumber_eq_true_iff.mp h
  · exact point_notMem hnumeral (point_mem hfraction)
  · exact not_isDecimal_hex digits (.inr hfraction)

/-- `is_number` recognises a plain number, and no other. -/
theorem recognisesNumber_iff (val : Text) : RecognisesNumber val ↔ PlainNumber val := by
  rw [recognisesNumber_iff_answer, isNumber_ne_none_iff]
  refine ⟨?_, ?_⟩
  · intro h
    obtain ⟨hpoint, hiff⟩ := h
    refine ⟨?_, ?_, ?_, hpoint⟩
    · rintro rfl
      have haccepted : isNumber "0x".toList = some true :=
        isNumber_eq_true_iff.mpr (.inr ⟨[], rfl, nofun⟩)
      obtain h | ⟨digits, heq, hnumeral⟩ := hiff.mp haccepted
      · exact not_isDecimal_hex [] h
      · obtain rfl : digits = [] := by simpa using heq.symm
        exact hnumeral.nonempty rfl
    · rintro digits rfl hnumeral
      obtain h | ⟨digits', heq, hall⟩ :=
        isNumber_eq_true_iff.mp (hiff.mpr (.inr ⟨digits, rfl, hnumeral⟩))
      · exact absurd (.inl h) (not_isDecimal_hex digits)
      · obtain rfl : digits = digits' := by simpa using heq
        exact hall
    · intro hfraction
      exact not_isFraction_of_accepted (hiff.mpr (.inl (.inr hfraction))) hfraction
  · intro h
    refine ⟨h.point, ?_⟩
    rw [isNumber_eq_true_iff]
    refine ⟨?_, ?_⟩
    · intro haccepted
      obtain hnumeral | ⟨digits, rfl, hall⟩ := haccepted
      · exact .inl (.inl hnumeral)
      · refine .inr ⟨digits, rfl, ?_, fun c hc => isDigit_of_mem_hexDigits (hall c hc)⟩
        rintro rfl
        exact h.digits rfl
    · intro hnumber
      obtain (hnumeral | hfraction) | ⟨digits, rfl, hnumeral⟩ := hnumber
      · exact .inl hnumeral
      · exact absurd hfraction h.whole
      · exact .inr ⟨digits, rfl, h.capital digits rfl hnumeral⟩

theorem underscore_notMem_of_accepted {val : Text} (h : isNumber val = some true) :
    '_' ∉ val := by
  intro hmem
  obtain hnumeral | ⟨digits, rfl, hall⟩ := isNumber_eq_true_iff.mp h
  · exact absurd (hnumeral.digits _ hmem) (by decide)
  · have hdigit : '_' ∈ digits := by simpa using hmem
    exact absurd (hall _ hdigit) (by decide)

theorem isNumber_numeral {numeral : Text} (h : IsNumeral 10 numeral) :
    ¬ "0x".toList <+: numeral ∧ isNumber numeral = some true := by
  have hhex : ¬ "0x".toList <+: numeral := by
    intro hhex
    obtain ⟨digits, rfl⟩ := begins_hex_iff.mp hhex
    exact not_isDecimal_hex digits (.inl h)
  refine ⟨hhex, ?_⟩
  rw [isNumber_plain (point_notMem h) hhex, decide_eq_true h]

theorem underscore_notMem {numeral : Text} (h : IsDecimal numeral) : '_' ∉ numeral := by
  intro hmem
  obtain hc | hc := isDecimal_chars h _ hmem
  · exact absurd hc (by decide)
  · exact absurd hc (by decide)

/-! ### What `get_time` takes for a time -/

namespace ScTimeUnit

theorem text_eq_cons (u : ScTimeUnit) : ∃ tail, u.text = '_' :: tail := by
  cases u <;> exact ⟨_, rfl⟩

theorem three_le_length_text (u : ScTimeUnit) : 3 ≤ u.text.length := by
  cases u <;> decide

theorem eq_of_take_text {u u' : ScTimeUnit} (h : u.text.take 3 = u'.text.take 3) : u = u' := by
  cases u <;> cases u' <;> first | rfl | exact absurd h (by decide)

theorem count_text (u : ScTimeUnit) : u.text.count '_' = 1 := by
  cases u <;> decide

theorem mem_timeUnits (u : ScTimeUnit) : u ∈ timeUnits := by
  cases u <;> decide

end ScTimeUnit

/-- A text is one number and one unit at most: the unit begins at the first underscore. -/
theorem unit_unique {numeral numeral' rest rest' : Text} {u u' : ScTimeUnit}
    (h : '_' ∉ numeral) (h' : '_' ∉ numeral')
    (heq : numeral ++ (u.text ++ rest) = numeral' ++ (u'.text ++ rest')) :
    numeral = numeral' ∧ u = u' ∧ rest = rest' := by
  obtain ⟨tail, htail⟩ := u.text_eq_cons
  obtain ⟨tail', htail'⟩ := u'.text_eq_cons
  have hsplit : numeral ++ '_' :: (tail ++ rest) = numeral' ++ '_' :: (tail' ++ rest') := by
    rw [htail, htail'] at heq
    exact heq
  obtain ⟨rfl, htails⟩ := before_unique h h' hsplit
  have hunits : u.text ++ rest = u'.text ++ rest' := by
    rw [htail, htail', List.cons_append, htails, List.cons_append]
  have hthree := congrArg (List.take 3) hunits
  rw [List.take_append_of_le_length u.three_le_length_text,
    List.take_append_of_le_length u'.three_le_length_text] at hthree
  obtain rfl := ScTimeUnit.eq_of_take_text hthree
  exact ⟨rfl, rfl, List.append_cancel_left hunits⟩

theorem find_unit {numeral rest : Text} (u : ScTimeUnit) (h : '_' ∉ numeral) :
    find (numeral ++ (u.text ++ rest)) u.text = some numeral.length := by
  obtain ⟨tail, htail⟩ := u.text_eq_cons
  rw [htail]
  exact find_eq_some_iff.mpr (firstAt_of_notMem h (List.prefix_append _ _))

theorem split_of_find {val pattern : Text} {pos : Nat} (h : find val pattern = some pos) :
    ∃ rest, val = val.take pos ++ (pattern ++ rest) :=
  ⟨_, split_of_occurs (find_eq_some_iff.mp h).occurs⟩

/-- The chain of conditions ends at a unit with a number before it, at its end, or where
`is_number` is undefined. -/
theorem findUnit_cases (val : Text) (us : List ScTimeUnit) :
    (∃ (u : ScTimeUnit) (pos : Nat), find val u.text = some pos ∧
      isNumber (val.take pos) = some true ∧ findUnit val us = some (some (u, pos))) ∨
    (findUnit val us = some none ∧
      ∀ u ∈ us, ∀ pos, find val u.text = some pos → isNumber (val.take pos) = some false) ∨
    (findUnit val us = none ∧
      ∃ (u : ScTimeUnit) (pos : Nat), find val u.text = some pos ∧
        isNumber (val.take pos) = none) := by
  induction us with
  | nil => exact .inr (.inl ⟨rfl, nofun⟩)
  | cons u us ih =>
      unfold findUnit
      cases hfound : find val u.text with
      | none =>
          simp only
          refine ih.imp id (Or.imp ?_ id)
          intro h
          refine ⟨h.1, List.forall_mem_cons.mpr ⟨?_, h.2⟩⟩
          intro pos hpos
          exact absurd (hfound.symm.trans hpos) nofun
      | some pos =>
          cases hnumber : isNumber (val.take pos) with
          | none =>
              simp only [hnumber]
              exact .inr (.inr ⟨trivial, u, pos, hfound, hnumber⟩)
          | some answer =>
              cases answer with
              | true =>
                  simp only [hnumber]
                  exact .inl ⟨u, pos, hfound, hnumber, rfl⟩
              | false =>
                  simp only [hnumber]
                  refine ih.imp id (Or.imp ?_ id)
                  intro h
                  refine ⟨h.1, List.forall_mem_cons.mpr ⟨?_, h.2⟩⟩
                  intro pos' hpos'
                  obtain rfl := Option.some.inj (hfound.symm.trans hpos')
                  exact hnumber

theorem getTime_cases (val : Text) :
    (∃ (numeral : Text) (u : ScTimeUnit) (rest : Text), val = numeral ++ (u.text ++ rest) ∧
      isNumber numeral = some true ∧ getTime val = some (.units (readDouble numeral) u)) ∨
    (getTime val = some .maxTime ∧
      ∀ (u : ScTimeUnit) pos, find val u.text = some pos → isNumber (val.take pos) = some false) ∨
    (getTime val = none ∧
      ∃ (u : ScTimeUnit) (pos : Nat), find val u.text = some pos ∧
        isNumber (val.take pos) = none) := by
  unfold getTime
  obtain ⟨u, pos, hfound, hnumber, hunit⟩ | ⟨hunit, hall⟩ | ⟨hunit, hundefined⟩ :=
    findUnit_cases val timeUnits
  · obtain ⟨rest, hsplit⟩ := split_of_find hfound
    refine .inl ⟨val.take pos, u, rest, hsplit, hnumber, ?_⟩
    rw [hunit]
    rfl
  · refine .inr (.inl ⟨?_, fun u => hall u u.mem_timeUnits⟩)
    rw [hunit]
    rfl
  · refine .inr (.inr ⟨?_, hundefined⟩)
    rw [hunit]
    rfl

theorem readDouble_numeral {numeral : Text} (h : IsNumeral 10 numeral) :
    readDouble numeral = decimalValue numeral :=
  if_neg fun hfound => (isNumber_numeral h).1 (find_eq_zero_iff.mp hfound)

/-- The number before a unit that has been found is a number it is taken for. -/
theorem find_numeral {numeral rest : Text} (u : ScTimeUnit) (h : '_' ∉ numeral) :
    ∃ pos, find (numeral ++ (u.text ++ rest)) u.text = some pos ∧
      (numeral ++ (u.text ++ rest)).take pos = numeral :=
  ⟨_, find_unit u h, List.take_left⟩

/-- Where a number and a unit are the whole text, no unit is found elsewhere. -/
theorem take_of_find {val numeral : Text} {u u' : ScTimeUnit} {pos : Nat} (hno : '_' ∉ numeral)
    (hsplit : val = numeral ++ u.text) (hfound : find val u'.text = some pos) :
    val.take pos = numeral := by
  obtain ⟨rest, hrest⟩ := split_of_find hfound
  have hcount := congrArg (List.count '_') (hsplit.symm.trans hrest)
  rw [List.count_append, List.count_append, List.count_append, u.count_text, u'.count_text,
    List.count_eq_zero.mpr hno] at hcount
  have hfront : '_' ∉ val.take pos := List.count_eq_zero.mp (by omega)
  have hsame : numeral ++ (u.text ++ []) = val.take pos ++ (u'.text ++ rest) := by
    rw [List.append_nil, ← hsplit, ← hrest]
  exact (unit_unique hno hfront hsame).1.symm

/-- A time is returned: it is the right one for a plain time, and no other. -/
theorem recognisesTime_of_units {val numeral rest : Text} {u : ScTimeUnit}
    (hsplit : val = numeral ++ (u.text ++ rest)) (hnumber : isNumber numeral = some true)
    (htime : getTime val = some (.units (readDouble numeral) u)) :
    RecognisesTime val ↔ PlainTime val := by
  have hno := underscore_notMem_of_accepted hnumber
  -- another reading of the text is the same one
  have hsame : ∀ {numeral' : Text} {u' : ScTimeUnit} {rest' : Text}, '_' ∉ numeral' →
      val = numeral' ++ (u'.text ++ rest') → numeral = numeral' ∧ u = u' ∧ rest = rest' :=
    fun h' heq => unit_unique hno h' (hsplit.symm.trans heq)
  have hend : ∀ {numeral' : Text} {u' : ScTimeUnit}, '_' ∉ numeral' →
      val = numeral' ++ u'.text → numeral = numeral' ∧ u = u' ∧ rest = [] :=
    fun h' heq => hsame h' (heq.trans (by rw [List.append_nil]))
  refine ⟨?_, ?_⟩
  · intro h
    obtain ⟨t, ht, hiff⟩ := h
    obtain rfl := Option.some.inj (htime.symm.trans ht)
    obtain ⟨numeral', heq, hdecimal, -⟩ := (hiff _ _).mp rfl
    obtain ⟨rfl, -, rfl⟩ := hend (underscore_notMem hdecimal) heq
    refine ⟨?_, ?_, ?_, ?_⟩
    · intro numeral' u' rest' heq' hnumeral'
      obtain ⟨-, -, rfl⟩ := hsame (underscore_notMem (.inl hnumeral')) heq'
      rfl
    · intro digits u' rest' heq' hcapitals
      have haccepted := isNumber_eq_true_iff.mpr (.inr ⟨digits, rfl, hcapitals⟩)
      obtain ⟨rfl, -⟩ := hsame (underscore_notMem_of_accepted haccepted) heq'
      exact not_isDecimal_hex digits hdecimal
    · intro numeral' u' heq' hfraction
      obtain ⟨rfl, -⟩ := hend (underscore_notMem (.inr hfraction)) heq'
      exact not_isFraction_of_accepted hnumber hfraction
    · intro u' pos hfound
      rw [← isNumber_ne_none_iff, take_of_find hno heq hfound, hnumber]
      nofun
  · intro h
    obtain hnumeral | ⟨digits, rfl, hcapitals⟩ := isNumber_eq_true_iff.mp hnumber
    · obtain rfl := h.exact numeral u rest hsplit hnumeral
      refine ⟨_, htime, ?_⟩
      intro v u'
      refine ⟨?_, ?_⟩
      · intro heq
        obtain ⟨rfl, rfl⟩ := ScTime.units.inj heq
        rw [List.append_nil] at hsplit
        exact ⟨numeral, hsplit, .inl hnumeral, readDouble_numeral hnumeral⟩
      · intro h'
        obtain ⟨numeral', heq, hdecimal, rfl⟩ := h'
        obtain ⟨rfl, rfl, -⟩ := hend (underscore_notMem hdecimal) heq
        rw [readDouble_numeral hnumeral]
    · exact absurd hcapitals (h.decimal digits u rest hsplit)

/-- `sc_max_time()` is returned: it is right exactly where no numeral with a point stands
before a unit. -/
theorem recognisesTime_of_max {val : Text} (htime : getTime val = some .maxTime)
    (hall : ∀ (u : ScTimeUnit) pos, find val u.text = some pos →
      isNumber (val.take pos) = some false) : RecognisesTime val ↔ PlainTime val := by
  have hreject : ∀ {numeral : Text} {u : ScTimeUnit} {rest : Text}, '_' ∉ numeral →
      val = numeral ++ (u.text ++ rest) → isNumber numeral ≠ some true := by
    rintro numeral u rest hno rfl hnumber
    obtain ⟨pos, hfound, htake⟩ := find_numeral u hno
    rw [← htake, hall u pos hfound] at hnumber
    cases hnumber
  refine ⟨?_, ?_⟩
  · intro h
    obtain ⟨t, ht, hiff⟩ := h
    obtain rfl := Option.some.inj (htime.symm.trans ht)
    refine ⟨?_, ?_, ?_, ?_⟩
    · intro numeral u rest heq hnumeral
      exact absurd (isNumber_numeral hnumeral).2
        (hreject (underscore_notMem (.inl hnumeral)) heq)
    · intro digits u rest heq hcapitals
      have haccepted := isNumber_eq_true_iff.mpr (.inr ⟨digits, rfl, hcapitals⟩)
      exact hreject (underscore_notMem_of_accepted haccepted) heq haccepted
    · intro numeral u heq hfraction
      exact absurd ((hiff _ u).mpr ⟨numeral, heq, .inr hfraction, rfl⟩) nofun
    · intro u pos hfound
      rw [← isNumber_ne_none_iff, hall u pos hfound]
      nofun
  · intro h
    refine ⟨_, htime, ?_⟩
    intro v u
    refine iff_of_false nofun ?_
    rintro ⟨numeral, heq, hdecimal, -⟩
    have hnumeral : IsNumeral 10 numeral := hdecimal.resolve_right (h.whole numeral u heq)
    exact hreject (underscore_notMem hdecimal) (heq.trans (by rw [List.append_nil]))
      (isNumber_numeral hnumeral).2

/-- `get_time` recognises a plain time, and no other. -/
theorem recognisesTime_iff (val : Text) : RecognisesTime val ↔ PlainTime val := by
  obtain ⟨numeral, u, rest, hsplit, hnumber, htime⟩ | ⟨htime, hall⟩ |
    ⟨htime, u, pos, hfound, hnone⟩ := getTime_cases val
  · exact recognisesTime_of_units hsplit hnumber htime
  · exact recognisesTime_of_max htime hall
  · refine iff_of_false ?_ fun h => isNumber_ne_none_iff.mpr (h.point u pos hfound) hnone
    rintro ⟨t, ht, -⟩
    rw [htime] at ht
    cases ht

/-- Numbers and times are recognised exactly where they are plain. -/
theorem recognised_iff (val : Text) :
    (RecognisesNumber val ↔ PlainNumber val) ∧ (RecognisesTime val ↔ PlainTime val) :=
  ⟨recognisesNumber_iff val, recognisesTime_iff val⟩

/-- The number of `15.3_ns`, which is how the sources write a time. -/
theorem fraction_not_recognised :
    ¬ ∀ val : Text, RecognisesNumber val ∧ RecognisesTime val := by
  intro hclaim
  obtain ⟨answer, hanswer, hiff⟩ := (hclaim "15.3".toList).1
  have hfalse : isNumber "15.3".toList = some false := by decide
  obtain rfl := Option.some.inj (hfalse.symm.trans hanswer)
  refine Bool.false_ne_true (hiff.mpr (.inl (.inr ?_)))
  exact ⟨"15".toList, "3".toList, rfl, by decide, by decide, .inl (List.cons_ne_nil _ _)⟩

end Demonstrator
