/-
The client's test of the registers.

`main` keeps in an array the value of each register as far as it knows it: the value of
the last `dev_put` or `dev_get` that went well, and 0 before there was one.  A loop clears
the array, and then each test writes all registers, reads the status and reads all
registers back, through one variable `data` that every call may write to.

`step` is one round of a loop, or one test of the condition it ends with.  The array is a
piece of memory by index, and `used` keeps the indices that it has been used with.  The
store behind the end of the array is read as one to memory that nothing else uses.
-/
import Mathlib.Logic.Function.Basic

namespace Demonstrator

/-- What a call of `dev_put` or `dev_get` returns, and what `random` returned before it. -/
structure DeviceResult where
  random : Nat
  status : Int
  /-- What the call leaves in `data`; none where it leaves it as it was. -/
  data : Option Int32
  deriving DecidableEq, Repr

/-- The loop `main` is in, at its condition. -/
inductive TestPoint where
  | clear (t : Nat)
  | test (i : Nat)
  | put (i t : Nat)
  | status (i : Nat)
  | get (i t : Nat)
  | done
  deriving DecidableEq, Repr

structure RegisterTest where
  point : TestPoint
  /-- What lies in memory from `count` on, by index. -/
  count : Nat → Int32
  data : Int32
  /-- The indices that `count` has been used with, the last first. -/
  used : List Nat
  /-- What has been reported as an error, the last first. -/
  errors : List String
  /-- The value of the last call that went well, by register. -/
  last : Nat → Option Int32

namespace RegisterTest

/-- Before the first loop, with what lies in memory then. -/
def start (cells : Nat → Int32) (data : Int32) : RegisterTest where
  point := .clear 0
  count := cells
  data := data
  used := []
  errors := []
  last := fun _ => none

/-- `count[t] = value` -/
def store (s : RegisterTest) (t : Nat) (value : Int32) : RegisterTest :=
  { s with count := Function.update s.count t value, used := t :: s.used }

/-- A call that may write to `data`. -/
def call (s : RegisterTest) (r : DeviceResult) : RegisterTest :=
  { s with data := r.data.getD s.data }

/-- `data = abs(random()%5000) + 1000` -/
def draw (s : RegisterTest) (r : DeviceResult) : RegisterTest :=
  { s with data := .ofNat (r.random % 5000 + 1000) }

def report (s : RegisterTest) (text : String) : RegisterTest :=
  { s with errors := text :: s.errors }

/-- A call for the register `t`, and what `main` does with its result. -/
def access (s : RegisterTest) (r : DeviceResult) (t : Nat) (text : String) : RegisterTest :=
  let s := s.call r
  if r.status < 0 then s.report (text ++ toString (t + 1) ++ "\n")
  else
    let s := s.store t s.data
    { s with last := Function.update s.last t (some s.data) }

/-- One round, up to `dev_close`.  The first loop stores to `count[REGCNT]`, which is memory of
something else, or of nothing; here it is of nothing. -/
def step (regcnt testcnt : Nat) (s : RegisterTest) (r : DeviceResult) : RegisterTest :=
  match s.point with
  | .clear t =>
      if t ≠ regcnt then { s.store regcnt 0 with point := .clear (t + 1) }
      else { s with point := .test 0 }
  | .test i => if i ≠ testcnt then { s with point := .put i 0 } else { s with point := .done }
  | .put i t =>
      if t ≠ regcnt then
        { (s.draw r).access r t "Unable to set DEV_COUNT" with point := .put i (t + 1) }
      else { s with point := .status i }
  | .status i =>
      let s := s.call r
      let s := if r.status < 0 then s.report "Unable to get DEV_STATUS\n" else s
      { s with point := .get i 0 }
  | .get i t =>
      if t ≠ regcnt then
        { s.access r t "Unable to get DEV_COUNT" with point := .get i (t + 1) }
      else { s with point := .test (i + 1) }
  | .done => s

/-- After so many rounds, with the results of the calls by round. -/
def run (regcnt testcnt : Nat) (s : RegisterTest) (results : Nat → DeviceResult) :
    Nat → RegisterTest
  | 0 => s
  | n + 1 => (s.run regcnt testcnt results n).step regcnt testcnt (results n)

/-! ### What the array is to hold -/

/-- The tests have begun. -/
def Testing (s : RegisterTest) : Prop := ∀ t, s.point ≠ .clear t

/-- The array has only been used inside, is cleared when the tests begin, and holds from
then on what is known of each register. -/
structure Truthful (regcnt : Nat) (s : RegisterTest) : Prop where
  inside : ∀ t ∈ s.used, t < regcnt
  cleared : s.point = .test 0 → ∀ t < regcnt, s.count t = 0
  known : s.Testing → ∀ t < regcnt, s.count t = (s.last t).getD 0

/-- The bookkeeping is truthful through a whole run. -/
def KeepsBooks (regcnt testcnt : Nat) (s : RegisterTest) (results : Nat → DeviceResult) : Prop :=
  ∀ n, (s.run regcnt testcnt results n).Truthful regcnt

/-! ### What it does hold

The loop that is to clear the array stores to the element behind its end, each time.  The
tests themselves use it inside, and what it holds is what is known of the registers over
what was in it before.
-/

/-- What is so before each round, `cells` being what was in memory. -/
structure Tracks (regcnt : Nat) (cells : Nat → Int32) (s : RegisterTest) : Prop where
  used : ∀ t ∈ s.used, t ≤ regcnt
  known : ∀ t < regcnt, s.count t = (s.last t).getD (cells t)
  round : match s.point with
    | .clear t | .put _ t | .get _ t => t ≤ regcnt
    | .test _ | .status _ | .done => True

variable {regcnt testcnt : Nat} {cells : Nat → Int32} {s : RegisterTest}

theorem draw_eq (s : RegisterTest) (r : DeviceResult) :
    ∃ data, s.draw r = { s with data := data } := ⟨_, rfl⟩

theorem Tracks.draw (h : s.Tracks regcnt cells) (r : DeviceResult) :
    (s.draw r).Tracks regcnt cells := by
  obtain ⟨data, hdata⟩ := draw_eq s r
  rw [hdata]
  exact ⟨h.used, h.known, h.round⟩

theorem Tracks.access_used (h : s.Tracks regcnt cells) {t : Nat} (ht : t < regcnt)
    (r : DeviceResult) (text : String) : ∀ u ∈ (s.access r t text).used, u ≤ regcnt := by
  unfold access
  split
  · exact h.used
  · intro u hu
    obtain rfl | hu := List.mem_cons.mp hu
    · exact Nat.le_of_lt ht
    · exact h.used u hu

theorem Tracks.access_known (h : s.Tracks regcnt cells) (r : DeviceResult) (t : Nat)
    (text : String) : ∀ u < regcnt,
      (s.access r t text).count u = ((s.access r t text).last u).getD (cells u) := by
  intro u hu
  unfold access
  split
  · exact h.known u hu
  · show Function.update s.count t _ u = (Function.update s.last t _ u).getD (cells u)
    by_cases heq : u = t
    · subst heq
      rw [Function.update_self, Function.update_self, Option.getD_some]
      rfl
    · rw [Function.update_of_ne heq, Function.update_of_ne heq]
      exact h.known u hu

theorem Tracks.step (h : s.Tracks regcnt cells) (r : DeviceResult) :
    (s.step regcnt testcnt r).Tracks regcnt cells := by
  have hround := h.round
  unfold RegisterTest.step
  cases hpoint : s.point with
  | clear t =>
      simp only [hpoint] at hround ⊢
      split
      · next hne =>
        refine ⟨?_, ?_, Nat.lt_of_le_of_ne hround hne⟩
        · intro u hu
          obtain rfl | hu := List.mem_cons.mp hu
          · exact Nat.le_refl _
          · exact h.used u hu
        · intro u hu
          show Function.update s.count regcnt 0 u = _
          rw [Function.update_of_ne (Nat.ne_of_lt hu)]
          exact h.known u hu
      · exact ⟨h.used, h.known, trivial⟩
  | test i =>
      simp only
      split
      · exact ⟨h.used, h.known, Nat.zero_le _⟩
      · exact ⟨h.used, h.known, trivial⟩
  | put i t =>
      simp only [hpoint] at hround ⊢
      split
      · next hne =>
        have hlt := Nat.lt_of_le_of_ne hround hne
        have hdrawn := h.draw r
        exact ⟨hdrawn.access_used hlt r _, hdrawn.access_known r t _, hlt⟩
      · exact ⟨h.used, h.known, trivial⟩
  | status i =>
      simp only
      split
      · exact ⟨h.used, h.known, Nat.zero_le _⟩
      · exact ⟨h.used, h.known, Nat.zero_le _⟩
  | get i t =>
      simp only [hpoint] at hround ⊢
      split
      · next hne =>
        have hlt := Nat.lt_of_le_of_ne hround hne
        exact ⟨h.access_used hlt r _, h.access_known r t _, hlt⟩
      · exact ⟨h.used, h.known, trivial⟩
  | done => exact h

/-- Through every run an element of the array is what the last call that went well made
it, or what was there before. -/
theorem tracks_run (regcnt testcnt : Nat) (cells : Nat → Int32) (data : Int32)
    (results : Nat → DeviceResult) (n : Nat) :
    ((start cells data).run regcnt testcnt results n).Tracks regcnt cells := by
  induction n with
  | zero => exact ⟨by simp [run, start], fun _ _ => rfl, Nat.zero_le _⟩
  | succ n ih => exact ih.step _

/-- The first round that there is stores behind the end. -/
theorem not_truthful_first (h : 1 ≤ regcnt) (testcnt : Nat) (cells : Nat → Int32) (data : Int32)
    (results : Nat → DeviceResult) :
    ¬ ((start cells data).run regcnt testcnt results 1).Truthful regcnt := by
  intro htruthful
  have hused : ((start cells data).run regcnt testcnt results 1).used = [regcnt] := by
    show (if (0 : Nat) ≠ regcnt then _ else _ : RegisterTest).used = [regcnt]
    rw [if_pos (Nat.ne_of_lt h)]
    rfl
  have hinside := htruthful.inside regcnt (by rw [hused]; exact List.mem_singleton.mpr rfl)
  exact Nat.lt_irrefl _ hinside

/-- The bookkeeping is never truthful: whatever the registers, the tests, the memory and
the results, the array is used behind its end. -/
theorem not_keepsBooks (h : 1 ≤ regcnt) (testcnt : Nat) (cells : Nat → Int32) (data : Int32)
    (results : Nat → DeviceResult) : ¬ KeepsBooks regcnt testcnt (start cells data) results := by
  intro hkeeps
  exact not_truthful_first h testcnt cells data results (hkeeps 1)

/-- With the numbers of registers and tests of the source. -/
theorem not_keepsBooks_four_twenty :
    ¬ KeepsBooks 4 20 (start (fun _ => 0) 0) fun _ => ⟨0, 0, none⟩ :=
  not_keepsBooks (by decide) 20 _ _ _

theorem clearing_leaves_array :
    ¬ ∀ regcnt testcnt, 1 ≤ regcnt → ∀ cells data results,
      KeepsBooks regcnt testcnt (start cells data) results := by
  intro hclaim
  have hkeeps := hclaim 4 20 (by decide) (fun _ => 0) 0 fun _ => ⟨0, 0, none⟩
  exact not_truthful_first (by decide) 20 _ _ _ (hkeeps 1)

end RegisterTest

end Demonstrator
