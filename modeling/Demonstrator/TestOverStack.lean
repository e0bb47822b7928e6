/-
The register test over the stack.

Here the two ends meet: `main` with its loops, which are a program like any other, and the
threads, the channel and the streams its calls go through.  Nothing that is said of the test
with `devTransport` for a function is lost.  In every interleaving with whole reads it
reports no error, and when it is over its array holds what the device holds.  What the
threads add is that it may not get there (`register_test_over_stack`).
-/
import Demonstrator.ClientProgram
import Demonstrator.RegisterSession

namespace Demonstrator

open ByteMemory Transition

/-- `main` between two rounds, with the errors the driver has counted and the rounds there
were. -/
structure MainState where
  test : RegisterTest
  driverErrors : Nat
  rounds : Nat

namespace MainState

/-- `main` before its first loop, with what lies in memory then. -/
def start (cells : Nat → Int32) (data : Int32) : MainState where
  test := .start cells data
  driverErrors := 0
  rounds := 0

/-- The same with the device it talks to. -/
def bench (s : MainState) (sysc : SyscState) : TestBench where
  test := s.test
  sysc := sysc
  driverErrors := s.driverErrors

/-- The rounds of `main`, up to `dev_close`. -/
def move (regcnt testcnt : Nat) (randoms : Nat → Nat) (s : MainState) : ClientMove MainState :=
  if s.test.point = .done then .stops
  else
    match s.test.nextCall regcnt (randoms s.rounds) with
    | none => .goes {
        test := s.test.step regcnt testcnt ⟨randoms s.rounds, 0, none⟩
        driverErrors := s.driverErrors
        rounds := s.rounds + 1 }
    | some call => .calls call fun r => {
        test := s.test.step regcnt testcnt ⟨randoms s.rounds, r.1, some (intOf r.2)⟩
        driverErrors := if r.1 < 0 then s.driverErrors + 1 else s.driverErrors
        rounds := s.rounds + 1 }

end MainState

/-- `main` over the stack. -/
def testMachine (c : TlmxCodec) (regcnt testcnt : Nat) (randoms : Nat → Nat)
    (cells : Nat → Int32) (data : Int32) (s₀ : SyscState) :
    Machine (Client MainState) ClientAction :=
  clientMachine c (MainState.move regcnt testcnt randoms) (.start cells data) s₀

section Alone

variable {c : TlmxCodec} {regcnt testcnt : Nat} {randoms : Nat → Nat} {s s' : MainState}
  {sysc sysc' : SyscState} {cells : Nat → Int32} {data : Int32} {s₀ : SyscState}

/-- A step of `main` by itself is a round on the device. -/
theorem bench_of_aloneStep
    (h : aloneStep c (MainState.move regcnt testcnt randoms) (s, sysc) = some (s', sysc')) :
    (s.bench sysc).step c regcnt testcnt (randoms s.rounds) = .ok (s'.bench sysc') ∧
      s'.rounds = s.rounds + 1 := by
  unfold aloneStep MainState.move at h
  by_cases hdone : s.test.point = .done
  · simp only [if_pos hdone] at h
    exact absurd h (by simp)
  · simp only [if_neg hdone] at h
    unfold TestBench.step
    cases hcall : s.test.nextCall regcnt (randoms s.rounds) with
    | none =>
        simp only [hcall] at h
        obtain ⟨rfl, rfl⟩ := Prod.mk.inj (Option.some.inj h)
        simp only [MainState.bench, hcall]
        exact ⟨trivial, trivial⟩
    | some call =>
        simp only [hcall] at h
        obtain ⟨-, h⟩ := Option.ite_none_right_eq_some.mp h
        cases hreturn : devTransport c sysc call with
        | error halt =>
            simp only [hreturn] at h
            exact absurd h (by simp)
        | ok result =>
            obtain ⟨after, ret, buffer⟩ := result
            simp only [hreturn] at h
            obtain ⟨rfl, rfl⟩ := Prod.mk.inj (Option.some.inj h)
            simp only [MainState.bench, hcall, hreturn]
            exact ⟨rfl, trivial⟩

/-- By itself `main` is in the state that the rounds on the device lead to. -/
theorem bench_of_reachable
    (h : Reachable (aloneMachine c (MainState.move regcnt testcnt randoms) (.start cells data) s₀)
      (s, sysc)) :
    (TestBench.start s₀ cells data).run c regcnt testcnt randoms s.rounds
      = .ok (s.bench sysc) := by
  refine h.invariant (P := fun a => (TestBench.start s₀ cells data).run c regcnt testcnt randoms
    a.1.rounds = .ok (a.1.bench a.2)) rfl ?_
  rintro ⟨t, sysc⟩ ⟨⟩ ⟨t', sysc'⟩ - ht - hs
  obtain ⟨hstep, hrounds⟩ := bench_of_aloneStep hs
  show TestBench.run _ _ _ _ _ t'.rounds = _
  rw [hrounds, TestBench.run, ht]
  exact hstep

theorem reads_of_reachable (hfit : c.Fits 4) (hsix : regcnt ≤ 6)
    (h : Reachable (aloneMachine c (MainState.move regcnt testcnt randoms) (.start cells data) s₀)
      (s, sysc)) :
    Reads regcnt testcnt s₀.dev cells (s.bench sysc) ∧
      RegisterTest.remaining regcnt testcnt s.test.point
        = RegisterTest.remaining regcnt testcnt (.clear 0) - s.rounds := by
  obtain ⟨b, hrun, hreads, hleft⟩ := reads_run testcnt hfit hsix s₀ data cells randoms s.rounds
  obtain rfl := Except.ok.inj (hrun.symm.trans (bench_of_reachable h))
  exact ⟨hreads, hleft⟩

theorem fits_nextCall (hfit : c.Fits 4) {t : RegisterTest} {random : Nat} {call : DevCall}
    (h : t.nextCall regcnt random = some call) : call.Fits c := by
  unfold RegisterTest.nextCall at h
  cases hpoint : t.point with
  | put i u | get i u =>
      simp only [hpoint] at h
      obtain ⟨-, rfl⟩ := Option.ite_some_none_eq_some.mp h
      exact hfit
  | status i =>
      simp only [hpoint] at h
      obtain rfl := Option.some.inj h
      exact hfit
  | clear u | test i | done =>
      simp only [hpoint] at h
      exact absurd h (by simp)

theorem aloneStep_main (hfit : c.Fits 4) (hgoing : s.test.point ≠ .done) :
    ∃ a', aloneStep c (MainState.move regcnt testcnt randoms) (s, sysc) = some a' := by
  unfold aloneStep MainState.move
  simp only [if_neg hgoing]
  cases hcall : s.test.nextCall regcnt (randoms s.rounds) with
  | none => exact ⟨_, rfl⟩
  | some call =>
      have hfits := fits_nextCall hfit hcall
      simp only [if_pos hfits, devTransport_eq c sysc call hfits]
      exact ⟨_, rfl⟩

theorem main_ends_alone (hfit : c.Fits 4) (hsix : regcnt ≤ 6) (testcnt : Nat)
    (randoms : Nat → Nat) (cells : Nat → Int32) (data : Int32) (s₀ : SyscState) :
    ∃ (final : MainState) (sysc : SyscState), Reachable
      (aloneMachine c (MainState.move regcnt testcnt randoms) (.start cells data) s₀)
        (final, sysc) ∧ final.test.point = .done := by
  have hrounds : ∀ n, ∃ (s : MainState) (sysc : SyscState), Reachable
      (aloneMachine c (MainState.move regcnt testcnt randoms) (.start cells data) s₀) (s, sysc) ∧
        (s.test.point = .done ∨ s.rounds = n) := by
    intro n
    induction n with
    | zero => exact ⟨.start cells data, s₀, .init, Or.inr rfl⟩
    | succ n ih =>
        obtain ⟨s, sysc, hreach, hcase⟩ := ih
        by_cases hdone : s.test.point = .done
        · exact ⟨s, sysc, hreach, Or.inl hdone⟩
        · obtain ⟨⟨s', sysc'⟩, ha⟩ : ∃ a', aloneStep c (MainState.move regcnt testcnt randoms)
              (s, sysc) = some a' := aloneStep_main hfit hdone
          have hcount := (bench_of_aloneStep ha).2
          refine ⟨s', sysc', hreach.step (a := ()) trivial ha, Or.inr ?_⟩
          rw [hcount, hcase.resolve_left hdone]
  obtain ⟨s, sysc, hreach, hdone | hcount⟩ :=
    hrounds (RegisterTest.remaining regcnt testcnt (.clear 0))
  · exact ⟨s, sysc, hreach, hdone⟩
  · obtain ⟨-, hleft⟩ := reads_of_reachable hfit hsix hreach
    refine ⟨s, sysc, hreach, RegisterTest.remaining_eq_zero_iff.mp (hleft.trans ?_)⟩
    omega

end Alone

/-- In every interleaving with whole reads, and whatever the random numbers, the test has
reported no error.  When its loops are over, `error_status` is 0, the device is as it was, and
the array holds what the registers held.  And it can still get there if and only if neither a
request nor a response has been missed.  The store behind the array is to memory that nothing
else uses. -/
theorem register_test_over_stack (c : TlmxCodec) (hfit : c.Fits 4) {regcnt testcnt : Nat}
    (hsix : regcnt ≤ 6) (htests : 0 < testcnt) (s₀ : SyscState) (cells : Nat → Int32)
    (data : Int32) (randoms : Nat → Nat) {s : Client MainState}
    (h : ReachableVia (testMachine c regcnt testcnt randoms cells data s₀) (OnStack WholeReads) s) :
    s.stack.halted = none ∧ s.program.test.errors = [] ∧
      (s.program.test.point = .done →
        (s.program.bench s.stack.sysc).errorStatus = 0 ∧ s.stack.sysc.dev = s₀.dev ∧
          ∀ t < regcnt, s.program.test.count t = countOf s₀.dev t) ∧
      ((testMachine c regcnt testcnt randoms cells data s₀).Leads s
          (fun t => t.program.test.point = .done) ↔ ¬ Unheard s.stack.bridge) := by
  obtain ⟨⟨program, sysc⟩, halone, hbeside⟩ :=
    (client_simulates_alone c (MainState.move regcnt testcnt randoms) (.start cells data)
      s₀).exists_reachable h
  obtain rfl : program = s.program := hbeside.program
  obtain ⟨done, hdone, -⟩ := hbeside.sysc
  obtain ⟨hreads, -⟩ := reads_of_reachable hfit hsix halone.reachable
  refine ⟨hdone.running, hreads.noErrors.1, ?_, ?_⟩
  · intro hover
    have hfree : s.stack.inFlight = none := by
      cases hflight : s.stack.inFlight with
      | none => rfl
      | some call =>
          obtain ⟨-, resume, hmove⟩ := hbeside.calling call hflight
          rw [MainState.move, if_pos hover] at hmove
          exact absurd hmove (by simp)
    rw [hbeside.sysc_eq hfree]
    exact ⟨hreads.errorStatus, hreads.device, fun t ht => hreads.finished htests hover ht⟩
  · obtain ⟨final, last, hend, hover⟩ :=
      main_ends_alone hfit hsix testcnt randoms cells data s₀
    refine leads_iff_heard h hend (by rw [MainState.move, if_pos hover]) ?_ ?_
    · rintro t ⟨ht, -⟩
      rw [← ht.program]
      exact hover
    · rintro t call resume - hmove hover'
      rw [MainState.move, if_pos hover'] at hmove
      exact absurd hmove (by simp)

/-- With the numbers of registers and tests of the source, and before the simulation has
started. -/
theorem register_test_over_stack_four_twenty :
    (testMachine leCodec 4 20 (fun _ => 1) (fun _ => 7) 0 (.initial .zeroed)).Leads
      ⟨.start (fun _ => 7) 0, .initial leCodec (.initial .zeroed)⟩
      fun t => t.program.test.point = .done :=
  (register_test_over_stack leCodec (by decide) (by decide) (by decide) (.initial .zeroed)
    (fun _ => 7) 0 (fun _ => 1) .init).2.2.2.mpr (Heeding.initial.heard .initial)

end Demonstrator
