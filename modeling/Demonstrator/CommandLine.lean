/-
The client's command line.

`main` goes on after an error until it has seen all of them: it counts them, and returns 1
before it opens the device if there were any.  The port is what `strtol` makes of `argv[2]`:
blanks, a sign, as many digits as there are, and no look at what follows them.  Where there
is no such argument `strtol` is called all the same, with what lies in `argv` there; the
language says nothing of what happens then.

A `long` has 64 bits here.  With 32 of them `strtol` would stop at other numbers, which
are none of a port either.
-/
import Demonstrator.StdString

namespace Demonstrator

open Numeral

/-- `strtol(text,&endptr,10)` -/
def strtol (text : Text) : Int :=
  let body := signed (text.dropWhile isSpace)
  let magnitude : Int := value 10 (body.2.takeWhile (isDigit 10))
  max (-2 ^ 63) (min (2 ^ 63 - 1) (if body.1 then -magnitude else magnitude))

/-- `tcpip_port`, as `dev_open` sets it. -/
def tcpipPort (port : Int) : Int := if port ≠ 0 then port else 4000

/-- `sin_port` of the connection that `dev_open` makes. -/
def outgoingSinPort (port : Int) : UInt16 := .ofInt (tcpipPort port)

/-- `sin_port` of `interrupt_server` and of `dev_soft_interrupt`. -/
def interruptSinPort (port : Int) : UInt16 := .ofInt (tcpipPort port + 1)

/-- How the first part of `main` ends. -/
inductive MainEnd where
  /-- It parses an element of `argv` that is not one of the arguments. -/
  | undefined (index : Nat)
  /-- It returns, having reported these errors. -/
  | returned (status : Int) (errors : List Text)
  /-- `dev_open(hostname,port)` -/
  | opened (hostname : Text) (port : Int)
  deriving DecidableEq, Repr

/-- The error reported for the port, if any. -/
def portErrors (port : Int) : List Text :=
  if port = 0 then ["Unable to parse port number.\n".toList]
  else if port < 2000 ∨ port > 65535 then
    ["Bad port number (".toList ++ (toString port).toList ++
      ") specified. Port number restricted to between 2000 and 65535.\n".toList]
  else []

/-- The error reported for the number of arguments, if any. -/
def argcErrors (argv : List Text) : List Text :=
  if argv.length ≠ 3 then
    ["Syntax: ".toList ++ argv.getD 0 [] ++ " HOSTNAME PORTNUMBER\n".toList]
  else []

/-- `main` of `software.c` up to `dev_open`; `argc` is the length of `argv`. -/
def softwareMain (argv : List Text) : MainEnd :=
  match argv[2]? with
  | none => .undefined 2
  | some text =>
      let errors := argcErrors argv ++ portErrors (strtol text)
      if errors ≠ [] then .returned 1 errors else .opened (argv.getD 1 []) (strtol text)

/-! ### What may be opened -/

/-- The arguments name this host, and this port in full: a number in the range, with both
ports that are made of it. -/
structure Names (argv : List Text) (hostname : Text) (port : Int) : Prop where
  named : ∃ program text, argv = [program, hostname, text] ∧ IsNumeral 10 text ∧
    port = value 10 text
  range : 2000 ≤ port ∧ port ≤ 65535
  outgoing : (outgoingSinPort port).toNat = port
  interrupt : (interruptSinPort port).toNat = port + 1

/-- The device is opened for what the arguments name, or `main` returns 1; and it parses
nothing but arguments. -/
def Validates (argv : List Text) : Prop :=
  match softwareMain argv with
  | .undefined _ => False
  | .returned status _ => status = 1
  | .opened hostname port => Names argv hostname port

/-- The text begins with the number, behind blanks and a plus that need not be there. -/
def BeginsWith (text : Text) (n : Nat) : Prop :=
  ∃ blanks plus digits rest, text = blanks ++ (plus ++ (digits ++ rest)) ∧
    (∀ c ∈ blanks, isSpace c = true) ∧ (plus = [] ∨ plus = ['+']) ∧
    IsNumeral 10 digits ∧ Stops (isDigit 10) rest ∧ value 10 digits = n

/-- There are enough arguments, and a third one that begins with a number of the range is
that number in full, and not the last of the range. -/
def WellPut (argv : List Text) : Prop :=
  3 ≤ argv.length ∧ ∀ program hostname text n, argv = [program, hostname, text] →
    BeginsWith text n → 2000 ≤ n → n ≤ 65535 → IsNumeral 10 text ∧ n ≠ 65535

/-! ### What `strtol` reads -/

theorem signed_cases (text : Text) :
    (signed text).1 = true ∨
      ∃ plus, (plus = [] ∨ plus = ['+']) ∧ text = plus ++ (signed text).2 ∧
        (signed text).1 = false := by
  unfold signed
  split
  · exact .inl rfl
  · exact .inr ⟨['+'], .inr rfl, rfl, rfl⟩
  · exact .inr ⟨[], .inl rfl, rfl, rfl⟩

theorem strtol_run {blanks plus digits rest : Text} (hblanks : ∀ c ∈ blanks, isSpace c = true)
    (hplus : plus = [] ∨ plus = ['+']) (hdigits : IsNumeral 10 digits)
    (hrest : Stops (isDigit 10) rest) :
    strtol (blanks ++ (plus ++ (digits ++ rest))) = min (2 ^ 63 - 1) (value 10 digits : Int) := by
  obtain ⟨c, tail, rfl⟩ := List.exists_cons_of_ne_nil hdigits.nonempty
  have hc := isDigit_mono (by decide : 10 ≤ 16) (hdigits.digits c (List.mem_cons_self ..))
  have hbody : Stops isSpace (plus ++ (c :: tail ++ rest)) := by
    obtain rfl | rfl := hplus
    · exact stops_cons (isSpace_digit hc)
    · exact stops_cons (by decide)
  have hsigned : signed (plus ++ (c :: tail ++ rest)) = (false, c :: tail ++ rest) := by
    obtain rfl | rfl := hplus
    · exact signed_digit hc
    · rfl
  unfold strtol
  rw [dropWhile_run hblanks hbody, hsigned]
  simp only [takeWhile_run hdigits.digits hrest, Bool.false_eq_true, if_false]
  omega

theorem strtol_eq_iff {text : Text} {n : Nat} (hpos : 0 < n) (hsmall : n ≤ 65535) :
    strtol text = n ↔ BeginsWith text n := by
  refine ⟨?_, ?_⟩
  · intro h
    unfold strtol at h
    obtain hminus | ⟨plus, hplus, hbody, hsign⟩ := signed_cases (text.dropWhile isSpace)
    · simp only [hminus, if_true] at h
      omega
    · simp only [hsign, Bool.false_eq_true, if_false] at h
      have hvalue : value 10 ((signed (text.dropWhile isSpace)).2.takeWhile (isDigit 10)) = n := by
        omega
      refine ⟨text.takeWhile isSpace, plus, _, (signed (text.dropWhile isSpace)).2.dropWhile _, ?_,
        fun c hc => List.mem_takeWhile_imp hc, hplus, ⟨?_, fun c hc => List.mem_takeWhile_imp hc⟩,
        stops_dropWhile _ _, hvalue⟩
      · rw [List.takeWhile_append_dropWhile, ← hbody, List.takeWhile_append_dropWhile]
      · intro hnil
        rw [hnil, value_nil] at hvalue
        omega
  · intro h
    obtain ⟨blanks, plus, digits, rest, rfl, hblanks, hplus, hdigits, hrest, rfl⟩ := h
    rw [strtol_run hblanks hplus hdigits hrest]
    omega

/-! ### What `main` opens -/

theorem portErrors_eq_nil_iff (port : Int) : portErrors port = [] ↔ 2000 ≤ port ∧ port ≤ 65535 := by
  unfold portErrors
  split
  · next hzero => exact iff_of_false (by simp) (by omega)
  · split
    · next hout => exact iff_of_false (by simp) (by omega)
    · next hin => exact iff_of_true rfl (by omega)

theorem toNat_sinPort (port : Int) : ((UInt16.ofInt port).toNat : Int) = port % 2 ^ 16 := by
  show (((UInt16.ofNat (port % 2 ^ 16).toNat).toNat : Nat) : Int) = _
  rw [UInt16.toNat_ofNat']
  omega

/-- Of a port in the range all but the last leave room for the interrupt port. -/
theorem sinPorts_iff {port : Int} (hrange : 2000 ≤ port ∧ port ≤ 65535) :
    (outgoingSinPort port).toNat = port ∧
      ((interruptSinPort port).toNat = port + 1 ↔ port ≠ 65535) := by
  have hport : tcpipPort port = port := if_pos (by omega)
  unfold outgoingSinPort interruptSinPort
  rw [hport, toNat_sinPort, toNat_sinPort]
  omega

/-- The device is opened exactly for three arguments with a port that is in the range as
`strtol` reads it. -/
theorem softwareMain_three (program hostname text : Text) :
    Validates [program, hostname, text] ↔
      (2000 ≤ strtol text ∧ strtol text ≤ 65535 →
        Names [program, hostname, text] hostname (strtol text)) := by
  have hmain : softwareMain [program, hostname, text] =
      if portErrors (strtol text) ≠ [] then .returned 1 (portErrors (strtol text))
      else .opened hostname (strtol text) := rfl
  unfold Validates
  rw [hmain, ← portErrors_eq_nil_iff]
  by_cases herrors : portErrors (strtol text) = []
  · rw [if_neg (not_not_intro herrors)]
    simp only [herrors, forall_const]
  · rw [if_pos herrors]
    exact iff_of_true rfl fun h => absurd h herrors

/-- A vector that is too short has `main` parse what is no argument. -/
theorem softwareMain_short {argv : List Text} (h : argv.length < 3) : ¬ Validates argv := by
  unfold Validates softwareMain
  rw [List.getElem?_eq_none (by omega)]
  exact id

/-- With more arguments than three `main` returns 1. -/
theorem softwareMain_long {argv : List Text} (h : 3 < argv.length) : Validates argv := by
  have herrors : argcErrors argv ≠ [] := by
    unfold argcErrors
    rw [if_pos (by omega)]
    exact List.cons_ne_nil _ _
  unfold Validates softwareMain
  rw [List.getElem?_eq_getElem (by omega)]
  show (match (if _ ≠ [] then MainEnd.returned 1 _ else _) with
    | .undefined _ => False
    | .returned status _ => status = 1
    | .opened hostname port => Names argv hostname port)
  rw [if_pos (List.append_ne_nil_of_left_ne_nil herrors _)]

/-- `main` validates a command line exactly when there are enough arguments and the port is
put so that `strtol` reads all of it. -/
theorem validates_iff (argv : List Text) : Validates argv ↔ WellPut argv := by
  obtain hshort | hlong | hthree : argv.length < 3 ∨ 3 < argv.length ∨ argv.length = 3 := by omega
  · exact iff_of_false (softwareMain_short hshort) fun h => Nat.not_le_of_lt hshort h.1
  · refine iff_of_true (softwareMain_long hlong) ⟨Nat.le_of_lt hlong, ?_⟩
    rintro program hostname text n rfl
    exact absurd hlong (Nat.lt_irrefl 3)
  · obtain ⟨program, hostname, text, rfl⟩ := List.length_eq_three.mp hthree
    rw [softwareMain_three]
    refine ⟨?_, ?_⟩
    · intro h
      refine ⟨Nat.le_refl _, ?_⟩
      intro program' hostname' text' n heq hbegins hlow hhigh
      obtain ⟨rfl, rfl, rfl⟩ : program = program' ∧ hostname = hostname' ∧ text = text' := by
        simpa using heq
      have hread := (strtol_eq_iff (by omega) hhigh).mpr hbegins
      have hrange : 2000 ≤ strtol text ∧ strtol text ≤ 65535 := by omega
      have hnames := h hrange
      obtain ⟨program', text', heq, hnumeral, -⟩ := hnames.named
      obtain ⟨-, rfl⟩ : program = program' ∧ text = text' := by simpa using heq
      have hlast := (sinPorts_iff hrange).2.mp hnames.interrupt
      exact ⟨hnumeral, by omega⟩
    · intro h hrange
      obtain ⟨n, hn⟩ := Int.eq_ofNat_of_zero_le (show 0 ≤ strtol text by omega)
      have hbegins := (strtol_eq_iff (by omega) (by omega)).mp hn
      obtain ⟨hnumeral, hlast⟩ := h.2 program hostname text n rfl hbegins (by omega) (by omega)
      have hports := sinPorts_iff hrange
      have hread : strtol text = min (2 ^ 63 - 1) (value 10 text : Int) := by
        have hall : strtol ([] ++ ([] ++ (text ++ []))) = _ :=
          strtol_run nofun (.inl rfl) hnumeral stops_nil
        rwa [List.append_nil] at hall
      exact ⟨⟨program, text, rfl, hnumeral, by omega⟩, hrange, hports.1, hports.2.mpr (by omega)⟩

/-- A port with something behind it, and one argument too few. -/
theorem port_with_trailing_text :
    ¬ ∀ argv : List Text, 1 ≤ argv.length → Validates argv := by
  intro hclaim
  have hvalidates := hclaim ["software".toList, "localhost".toList, "4000x".toList] (by decide)
  have hmain : softwareMain ["software".toList, "localhost".toList, "4000x".toList] =
      .opened "localhost".toList 4000 := by decide
  unfold Validates at hvalidates
  rw [hmain] at hvalidates
  obtain ⟨program, text, heq, hnumeral, -⟩ := hvalidates.named
  obtain ⟨-, rfl⟩ : "software".toList = program ∧ "4000x".toList = text := by simpa using heq
  exact absurd hnumeral (by decide)

end Demonstrator
