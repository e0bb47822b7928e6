/-
The loops that wait for a server.

`dev_open` and `dev_soft_interrupt` call `connect` until it is no longer refused, with the
same loop but for the text it reports.  The loop tests `errno` a second time at its end,
after `REPORT_INFO` and `sleep`, and any of the two may have changed it there: C lets a
call that succeeds set `errno`.

What the calls do is given round by round.  The loop is run on the rounds that have been
given, and asks for more where they do not end it.  `tries` has no bound here: at a second
a round an `int` lasts for decades.
-/
import Mathlib.Tactic.Common

namespace Demonstrator

/-- `ECONNREFUSED` -/
def econnrefused : Int := 111

/-- What the calls of one round do. -/
structure ConnectRound where
  /-- What `connect` returns. -/
  status : Int
  /-- What `connect` leaves in `errno`. -/
  errno : Int
  /-- What `REPORT_INFO` sets `errno` to, if it is called; none where it leaves it alone. -/
  reportErrno : Option Int
  /-- What `sleep` sets `errno` to, if it is called. -/
  sleepErrno : Option Int
  deriving DecidableEq, Repr

inductive ConnectReport where
  /-- `REPORT_INFO` -/
  | info (text : String)
  /-- `REPORT_ERROR("%d %s\n",errno,strerror(errno))` -/
  | error (errno : Int)
  deriving DecidableEq, Repr

structure ConnectState where
  tries : Nat
  connectStatus : Int
  errno : Int
  /-- What has been reported, the last first. -/
  reports : List ConnectReport
  deriving DecidableEq, Repr

/-- How a loop stands after the rounds that were given. -/
inductive LoopEnd where
  | left (s : ConnectState)
  /-- `exit(1)` -/
  | exited (s : ConnectState)
  | retrying (s : ConnectState)
  deriving DecidableEq, Repr

namespace ConnectState

/-- Before the loop, with what is in `errno` then. -/
def start (errno : Int) : ConnectState where
  tries := 0
  connectStatus := 0
  errno := errno
  reports := []

def report (s : ConnectState) (r : ConnectReport) : ConnectState :=
  { s with reports := r :: s.reports }

/-- A call that may set `errno`. -/
def call (s : ConnectState) (errno : Option Int) : ConnectState :=
  { s with errno := errno.getD s.errno }

/-- The body of the loop; an error is `exit(1)`. -/
def round (waiting : String) (s : ConnectState) (r : ConnectRound) :
    Except ConnectState ConnectState :=
  let s := { s with tries := s.tries + 1, connectStatus := r.status, errno := r.errno }
  if s.connectStatus < 0 then
    if s.errno = econnrefused then
      let s := if s.tries % 5 = 1 then (s.report (.info waiting)).call r.reportErrno else s
      .ok (s.call r.sleepErrno)
    else .error (s.report (.error s.errno))
  else .ok s

/-- The loop, with the text it reports while it waits. -/
def connectLoop (waiting : String) (s : ConnectState) : List ConnectRound → LoopEnd
  | [] => .retrying s
  | r :: rest =>
      match s.round waiting r with
      | .error s => .exited s
      | .ok s =>
          if s.connectStatus < 0 ∧ s.errno = econnrefused then s.connectLoop waiting rest
          else .left s

/-- The loop of `dev_open`, and the report after it. -/
def devOpen (s : ConnectState) (rounds : List ConnectRound) : LoopEnd :=
  match s.connectLoop "Waiting for connection - start SystemC?\n" rounds with
  | .left s => .left (s.report (.info "Connected\n"))
  | e => e

/-- The loop of `dev_soft_interrupt`. -/
def devSoftInterrupt (s : ConnectState) (rounds : List ConnectRound) : LoopEnd :=
  s.connectLoop "Waiting for server connection\n" rounds

end ConnectState

/-- The loop was left, if it was, with a connection. -/
def LoopEnd.Connected (e : LoopEnd) : Prop := ∀ s, e = .left s → 0 ≤ s.connectStatus

namespace ConnectRound

variable {r : ConnectRound} {tries : Nat}

/-- The connection is refused. -/
def Refused (r : ConnectRound) : Prop := r.status < 0 ∧ r.errno = econnrefused

/-- The calls after a refusal leave `errno` as it is, where this is the round of the given
number: `sleep` does, and `REPORT_INFO` if it is called, or the last to set it sets it to
what it was. -/
def LeavesErrno (r : ConnectRound) (tries : Nat) : Prop :=
  r.sleepErrno = some econnrefused ∨
    r.sleepErrno = none ∧ (tries % 5 = 1 → r.reportErrno.getD econnrefused = econnrefused)

end ConnectRound

/-- No refusal that the loop can come to is followed by a call that changes `errno`. -/
def Undisturbed (tries : Nat) (rounds : List ConnectRound) : Prop :=
  ∀ before r after, rounds = before ++ r :: after → (∀ b ∈ before, b.Refused) → r.Refused →
    r.LeavesErrno (tries + before.length + 1)

theorem undisturbed_cons {tries : Nat} {r : ConnectRound} {rest : List ConnectRound} :
    Undisturbed tries (r :: rest) ↔
      (r.Refused → r.LeavesErrno (tries + 1) ∧ Undisturbed (tries + 1) rest) := by
  refine ⟨?_, ?_⟩
  · intro h hrefused
    refine ⟨h [] r rest rfl (by simp) hrefused, ?_⟩
    intro before r' after heq hbefore hrefused'
    have hleaves := h (r :: before) r' after (by rw [heq]; rfl)
      (List.forall_mem_cons.mpr ⟨hrefused, hbefore⟩) hrefused'
    rw [List.length_cons] at hleaves
    rwa [Nat.add_right_comm tries 1]
  · intro h before r' after heq hbefore hrefused'
    cases before with
    | nil =>
        obtain ⟨rfl, rfl⟩ := List.cons.inj heq
        exact (h hrefused').1
    | cons b before =>
        obtain ⟨rfl, rfl⟩ := List.cons.inj heq
        obtain ⟨hrefused, hbefore⟩ := List.forall_mem_cons.mp hbefore
        have hleaves := (h hrefused).2 before r' after rfl hbefore hrefused'
        rw [Nat.add_right_comm tries 1] at hleaves
        exact hleaves

namespace ConnectState

variable {waiting : String} {s : ConnectState} {r : ConnectRound} {rest : List ConnectRound}

/-- A round with a refusal tests `errno` as `ECONNREFUSED` exactly when its calls have left
it so. -/
theorem round_refused (s : ConnectState) (waiting : String) (h : r.Refused) :
    ∃ s', s.round waiting r = .ok s' ∧ s'.tries = s.tries + 1 ∧ s'.connectStatus < 0 ∧
      (s'.errno = econnrefused ↔ r.LeavesErrno (s.tries + 1)) := by
  obtain ⟨hstatus, herrno⟩ := h
  unfold round
  rw [if_pos hstatus, if_pos herrno]
  unfold ConnectRound.LeavesErrno
  by_cases hreport : (s.tries + 1) % 5 = 1
  · rw [if_pos hreport]
    refine ⟨_, rfl, rfl, hstatus, ?_⟩
    cases hsleep : r.sleepErrno <;> simp [call, report, herrno, hreport]
  · rw [if_neg hreport]
    refine ⟨_, rfl, rfl, hstatus, ?_⟩
    cases hsleep : r.sleepErrno <;> simp [call, herrno, hreport]

theorem connectLoop_connected (h : 0 ≤ r.status) :
    (s.connectLoop waiting (r :: rest)).Connected := by
  have hround : s.round waiting r =
      .ok { s with tries := s.tries + 1, connectStatus := r.status, errno := r.errno } := by
    unfold round
    exact if_neg (Int.not_lt.mpr h)
  intro s' hleft
  unfold connectLoop at hleft
  rw [hround] at hleft
  simp only [Int.not_lt.mpr h, false_and, if_false] at hleft
  obtain rfl := LoopEnd.left.inj hleft
  exact h

theorem connectLoop_exited (h : r.status < 0) (herrno : r.errno ≠ econnrefused) :
    (s.connectLoop waiting (r :: rest)).Connected := by
  intro s' hleft
  unfold connectLoop round at hleft
  rw [if_pos h, if_neg herrno] at hleft
  cases hleft

/-- The loop is left with a connection only, exactly when no call changes `errno` after a
refusal. -/
theorem connectLoop_connected_iff (waiting : String) (rounds : List ConnectRound) :
    ∀ s : ConnectState, (s.connectLoop waiting rounds).Connected ↔ Undisturbed s.tries rounds := by
  induction rounds with
  | nil =>
      intro s
      refine iff_of_true nofun ?_
      intro before r after heq
      exact absurd heq (by simp)
  | cons r rest ih =>
      intro s
      rw [undisturbed_cons]
      by_cases hstatus : r.status < 0
      · by_cases herrno : r.errno = econnrefused
        · -- the loop goes on if and only if `errno` is still what it was
          obtain ⟨s', hround, htries, hnegative, hleaves⟩ :=
            s.round_refused waiting ⟨hstatus, herrno⟩
          unfold connectLoop
          rw [hround]
          simp only [hnegative, true_and, forall_const, ConnectRound.Refused, hstatus, herrno]
          by_cases hkept : s'.errno = econnrefused
          · rw [if_pos hkept, ih, htries]
            exact (and_iff_right (hleaves.mp hkept)).symm
          · rw [if_neg hkept]
            refine iff_of_false ?_ fun h => hkept (hleaves.mpr h.1)
            exact fun h => absurd (h s' rfl) (Int.not_le.mpr hnegative)
        · refine iff_of_true (connectLoop_exited hstatus herrno) ?_
          exact fun hrefused => absurd hrefused.2 herrno
      · refine iff_of_true (connectLoop_connected (Int.not_lt.mp hstatus)) ?_
        exact fun hrefused => absurd hrefused.1 hstatus

/-- Either loop ends with a connection only, exactly when no call changes `errno` after a
refusal. -/
theorem connectLoops_connected_iff (errno : Int) (rounds : List ConnectRound) :
    (((start errno).devOpen rounds).Connected ↔ Undisturbed 0 rounds) ∧
      (((start errno).devSoftInterrupt rounds).Connected ↔ Undisturbed 0 rounds) := by
  refine ⟨?_, connectLoop_connected_iff _ rounds (start errno)⟩
  refine Iff.trans ?_
    (connectLoop_connected_iff "Waiting for connection - start SystemC?\n" rounds (start errno))
  unfold devOpen
  cases connectLoop "Waiting for connection - start SystemC?\n" (start errno) rounds with
  | left s =>
      refine ⟨?_, ?_⟩
      · intro h s' hs'
        obtain rfl := LoopEnd.left.inj hs'
        exact h (s.report (.info "Connected\n")) rfl
      · intro h s' hs'
        obtain rfl := LoopEnd.left.inj hs'
        exact h s rfl
  | exited s => exact Iff.rfl
  | retrying s => exact Iff.rfl

/-- A refusal after which `sleep` leaves another number (`EINTR`) in `errno`: both loops
are left, and `dev_open` reports a connection. -/
theorem connectLoops_left_refused :
    ¬ ∀ errno rounds, ((start errno).devOpen rounds).Connected ∧
      ((start errno).devSoftInterrupt rounds).Connected := by
  intro hclaim
  obtain ⟨hopen, -⟩ := hclaim 0 [⟨-1, econnrefused, none, some 4⟩]
  have hleft : (start 0).devOpen [⟨-1, econnrefused, none, some 4⟩] = .left
      { tries := 1, connectStatus := -1, errno := 4
        reports := [.info "Connected\n", .info "Waiting for connection - start SystemC?\n"] } := by
    decide
  exact absurd (hopen _ hleft) (by decide)

end ConnectState

end Demonstrator
