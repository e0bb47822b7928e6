/-
Who is left waiting for an acknowledgement.

A call of `dev_soft_interrupt` reads until its connection is acknowledged or closed, so
the server must not put a connection aside before it has done one of the two.  Its loop
has two ways round that do: after a failed write it goes on to the next connection, and
after it has found `server_stop` it leaves.

`Tended` is the invariant of the runs in which it takes neither: a connection that was
accepted is closed, or it is the one in hand.
-/
import Demonstrator.SoftInterrupt

namespace Demonstrator

open Transition

/-- The call has a connection. -/
def CallPoint.connected : CallPoint → Bool
  | .idle | .connecting => false
  | .sending | .measuring | .reading _ | .closing | .returned => true

namespace Irq

/-- The call is in its `read`, which cannot return. -/
def Blocked (s : Irq) (i : Nat) : Prop :=
  s.server ≠ .aborted ∧ ∃ size, (s.calls i).point = .reading size ∧
    ∀ count, ¬ (s.calls i).Readable size count

/-- The server has the connection in hand, or will get to it. -/
def Expects (s : Irq) (i : Nat) : Prop :=
  s.server.inHand = some i ∨ (i ∈ s.queue ∧ s.server ≠ .exited)

/-- The server lets go of every connection it takes. -/
structure Releases (s : Irq) : Prop where
  /-- Back in `accept`, or through with its loop, it has closed what it had accepted. -/
  closed : s.server = .accepting ∨ s.server = .exited →
    ∀ i, (s.calls i).accepted = true → (s.calls i).closed = true
  /-- Who is blocked in the `read` for an acknowledgement is still on the server's list. -/
  expects : ∀ i, s.Blocked i → s.Expects i

/-- The server does not find `server_stop` set after it has accepted a connection, and no
write of an acknowledgement fails. -/
def KeepsOn (s : Irq) : IrqAction → Prop
  | .check => s.serverStop = false
  | .write outcome => outcome ≠ .failed
  | _ => True

instance (s : Irq) : (a : IrqAction) → Decidable (s.KeepsOn a)
  | .check => inferInstanceAs (Decidable (s.serverStop = false))
  | .write outcome => inferInstanceAs (Decidable (outcome ≠ .failed))
  | .call _ _ | .devClose _ _ | .connect _ | .send _ | .measure _ | .read _ _ | .hangUp _
  | .acceptFails | .accept | .raise | .close => inferInstanceAs (Decidable True)

/-- Every connection is waiting to be accepted, in hand, or closed. -/
structure Tended (s : Irq) : Prop where
  running : s.server ≠ .exited
  accepted : ∀ j, (s.calls j).accepted = true →
    (s.calls j).closed = true ∨ s.server.inHand = some j
  connected : ∀ j, (s.calls j).point.connected = true →
    j ∈ s.queue ∨ (s.calls j).accepted = true

variable {s s' : Irq}

/-- What a step that changes one call has to show: what has become of that call, and that
the server has lost none of the others. -/
theorem Tended.of_put (h : Tended s) {i : Nat} {x : Exchange} {server : LoopPoint}
    {queue : List Nat} {flag stop : Bool} (hrunning : server ≠ .exited)
    (haccepted : x.accepted = true → x.closed = true ∨ server.inHand = some i)
    (hconnected : x.point.connected = true → i ∈ queue ∨ x.accepted = true)
    (hhand : ∀ j, j ≠ i → s.server.inHand = some j → server.inHand = some j)
    (hqueue : ∀ j, j ≠ i → j ∈ s.queue → j ∈ queue) :
    Tended { s.put i x with
      server := server, queue := queue, interruptFlag := flag, serverStop := stop } where
  running := hrunning
  accepted := by
    intro j hj
    by_cases hij : j = i
    · subst hij
      rw [put_self] at hj ⊢
      exact haccepted hj
    · rw [put_of_ne s x hij] at hj ⊢
      exact (h.accepted j hj).imp_right (hhand j hij)
  connected := by
    intro j hj
    by_cases hij : j = i
    · subst hij
      rw [put_self] at hj ⊢
      exact hconnected hj
    · rw [put_of_ne s x hij] at hj ⊢
      exact (h.connected j hj).imp_left (hqueue j hij)

theorem Tended.client (h : Tended s) {i : Nat} {x : Exchange} {queue : List Nat} {stop : Bool}
    (hsame : x.accepted = (s.calls i).accepted ∧ x.closed = (s.calls i).closed)
    (hqueue : ∀ j ∈ s.queue, j ∈ queue)
    (hpoint : x.point.connected = true → i ∈ queue ∨ (s.calls i).point.connected = true) :
    Tended { s.put i x with queue := queue, serverStop := stop } := by
  refine h.of_put h.running ?_ ?_ (fun _ _ => id) fun j _ => hqueue j
  · rw [hsame.1, hsame.2]
    exact h.accepted i
  · intro hconnected
    rw [hsame.1]
    obtain hin | hc := hpoint hconnected
    · exact Or.inl hin
    · exact (h.connected i hc).imp_left (hqueue i)

theorem Tended.serve (h : Tended s) {i : Nat} {x : Exchange} {server : LoopPoint} {flag : Bool}
    (hsame : x.accepted = (s.calls i).accepted ∧ x.closed = (s.calls i).closed ∧
      x.point = (s.calls i).point)
    (hhand : server.inHand = s.server.inHand) (hrunning : server ≠ .exited) :
    Tended { s.put i x with server := server, interruptFlag := flag } := by
  refine h.of_put hrunning ?_ ?_ (fun _ _ => hhand.trans) fun _ _ => id
  · rw [hsame.1, hsame.2.1, hhand]
    exact h.accepted i
  · rw [hsame.1, hsame.2.2]
    exact h.connected i

theorem Tended.accept (h : Tended s) {i : Nat} {rest : List Nat} (hs : s.server = .accepting)
    (hqueue : s.queue = i :: rest) :
    Tended { s.put i { s.calls i with accepted := true } with
      server := .checking i, queue := rest } := by
  refine h.of_put (by simp) (fun _ => Or.inr rfl) (fun _ => Or.inr rfl) ?_ ?_
  · intro j _ hhand
    rw [hs] at hhand
    exact absurd hhand (by simp [LoopPoint.inHand])
  · intro j hj hin
    rw [hqueue] at hin
    exact (List.mem_cons.mp hin).resolve_left hj

theorem Tended.close (h : Tended s) {i : Nat} (hs : s.server = .closing i) :
    Tended { s.put i { s.calls i with closed := true } with server := .accepting } := by
  refine h.of_put (by simp) (fun _ => Or.inl rfl) (h.connected i) ?_ fun _ _ => id
  intro j hj hhand
  rw [hs] at hhand
  exact absurd (Option.some.inj hhand).symm hj

theorem tended_init : Tended irqMachine.init where
  running := by simp [irqMachine]
  accepted := nofun
  connected := nofun

/-- A step of a loop that keeps on leaves every connection tended, unless it ends the
process. -/
theorem Tended.step {a : IrqAction} (h : Tended s) (hok : s.KeepsOn a)
    (hstep : irqMachine.step s a = some s') : s'.server = .aborted ∨ Tended s' := by
  obtain ⟨-, htakes⟩ := takes_of_step hstep
  cases htakes with
  | call i ackReply hp =>
      exact Or.inr (h.client ⟨rfl, rfl⟩ (fun _ hj => hj) nofun)
  | devClose i ackReply hp =>
      exact Or.inr (h.client ⟨rfl, rfl⟩ (fun _ hj => hj) nofun)
  | connect i hp =>
      exact Or.inr (h.client ⟨rfl, rfl⟩ (fun _ hj => List.mem_append_left _ hj)
        fun _ => Or.inl (List.mem_append_right _ (List.mem_singleton.mpr rfl)))
  | send i hp =>
      exact Or.inr (h.client ⟨rfl, rfl⟩ (fun _ hj => hj) fun _ => Or.inr (by rw [hp]; rfl))
  | measure i size hp _ =>
      exact Or.inr (h.client ⟨rfl, rfl⟩ (fun _ hj => hj) fun _ => Or.inr (by rw [hp]; rfl))
  | read i size count hp _ =>
      exact Or.inr (h.client ⟨rfl, rfl⟩ (fun _ hj => hj) fun _ => Or.inr (by rw [hp]; rfl))
  | hangUp i hp =>
      exact Or.inr (h.client ⟨rfl, rfl⟩ (fun _ hj => hj) fun _ => Or.inr (by rw [hp]; rfl))
  | acceptFails hs => exact Or.inr h
  | accept i rest hs hqueue => exact Or.inr (h.accept hs hqueue)
  | check i hs =>
      have hstop : s.serverStop = false := hok
      rw [if_neg (by rw [hstop]; exact Bool.false_ne_true)]
      refine Or.inr ⟨by simp, ?_, h.connected⟩
      intro j haccepted
      have hhand := h.accepted j haccepted
      rw [hs] at hhand
      exact hhand
  | raise i hs =>
      refine Or.inr (h.serve ⟨rfl, rfl, rfl⟩ ?_ (by simp))
      rw [hs]
      rfl
  | writeFails i hs => exact absurd rfl hok
  | writeShort i hs => exact Or.inl rfl
  | write i hs =>
      refine Or.inr (h.serve ⟨rfl, rfl, rfl⟩ ?_ (by simp))
      rw [hs]
      rfl
  | close i hs => exact Or.inr (h.close hs)

/-- In a tended state a call that cannot go on is one the server will get to: if it were
closed its `read` would return. -/
theorem Tended.releases (h : Tended s) : Releases s := by
  refine ⟨?_, ?_⟩
  · intro hs i haccepted
    obtain hclosed | hhand := h.accepted i haccepted
    · exact hclosed
    · obtain hs | hs := hs
      · rw [hs] at hhand
        exact absurd hhand (by simp [LoopPoint.inHand])
      · exact absurd hs h.running
  · intro i hblocked
    obtain ⟨-, size, hreading, hno⟩ := hblocked
    obtain hin | haccepted := h.connected i (by rw [hreading]; rfl)
    · exact Or.inr ⟨hin, h.running⟩
    · obtain hclosed | hhand := h.accepted i haccepted
      · -- a closed connection lets the call read what there is, or return with nothing
        exfalso
        by_cases hreply : (s.calls i).reply = 0
        · exact hno 0 (Or.inr (Or.inr ⟨hclosed, hreply, rfl⟩))
        · by_cases hsize : size = 0
          · exact hno 0 (Or.inl ⟨hsize, rfl⟩)
          · exact hno 1 (Or.inr (Or.inl ⟨Nat.le_refl 1, Nat.pos_of_ne_zero hsize,
              Nat.pos_of_ne_zero hreply⟩))
      · exact Or.inl hhand

/-- Once the process is gone there is nobody left to wait, and nobody to let go of. -/
theorem releases_of_aborted (h : s.server = .aborted) : Releases s := by
  refine ⟨?_, fun i hblocked => absurd h hblocked.1⟩
  intro hs
  rw [h] at hs
  exact absurd hs (by simp)

/-- In every run in which the loop keeps on, every connection is answered and released. -/
theorem releases_of_keepsOn (h : ReachableVia irqMachine KeepsOn s) : Releases s := by
  have htended : s.server = .aborted ∨ Tended s := by
    refine h.invariant (P := fun s => s.server = .aborted ∨ Tended s) (Or.inr tended_init) ?_
    intro s a s' _ hinv hok hstep
    obtain haborted | htended := hinv
    · exact absurd haborted (takes_of_step hstep).1
    · exact htended.step hok hstep
  obtain haborted | htended := htended
  · exact releases_of_aborted haborted
  · exact htended.releases

end Irq

/-- An interrupt that is answered, and one that has just connected. -/
def answeredInterrupt : List IrqAction :=
  [.call 0 [65, 0], .connect 0, .send 0, .measure 0, .accept, .check, .raise, .write .full,
    .call 1 [65, 0], .connect 1, .send 1, .measure 1, .close]

theorem releases_answeredInterrupt :
    ∃ s : Irq, s.server = .accepting ∧ s.queue = [1] ∧ s.Releases := by
  have hrun : ((irqMachine.keeping Irq.KeepsOn).run (irqMachine.keeping Irq.KeepsOn).init
      answeredInterrupt).map (fun s => (s.server, s.queue)) = some (.accepting, [1]) := by decide
  obtain ⟨s, hreach, hs⟩ := Machine.exists_of_run hrun
  obtain ⟨hserver, hqueue⟩ := Prod.mk.inj hs
  exact ⟨s, hserver, hqueue, Irq.releases_of_keepsOn (Machine.reachableVia_of_keeping hreach)⟩

/-! ### A connection put aside -/

namespace Irq

variable {s s' : Irq}

/-- A call that is blocked on a connection which the server neither has in hand nor will
accept. -/
structure Forsaken (i : Nat) (s : Irq) : Prop where
  blocked : ∃ size, (s.calls i).point = .reading size ∧ ∀ count, ¬ (s.calls i).Readable size count
  away : s.server.inHand ≠ some i
  unqueued : i ∈ s.queue → s.server = .exited

theorem forsaken_of_not_expects {i : Nat} (hblocked : s.Blocked i) (hno : ¬ s.Expects i) :
    Forsaken i s where
  blocked := hblocked.2
  away := fun hhand => hno (Or.inl hhand)
  unqueued := by
    intro hin
    by_contra hs
    exact hno (Or.inr ⟨hin, hs⟩)

/-- What happens to other connections does not help. -/
theorem Forsaken.elsewhere {i j : Nat} (h : Forsaken i s) (hj : i ≠ j) {x : Exchange}
    (hcalls : s'.calls = (s.put j x).calls) (haway : s'.server.inHand ≠ some i)
    (hqueue : i ∈ s'.queue → s'.server = .exited) : Forsaken i s' where
  blocked := by
    rw [hcalls, put_of_ne s x hj]
    exact h.blocked
  away := haway
  unqueued := hqueue

theorem Forsaken.ne_of_point {i j : Nat} (h : Forsaken i s) {p : CallPoint}
    (hp : (s.calls j).point = p) (hne : ∀ size, p ≠ .reading size) : i ≠ j := by
  intro hij
  subst hij
  obtain ⟨size, hreading, -⟩ := h.blocked
  exact hne size (hp.symm.trans hreading)

theorem Forsaken.not_queued {i : Nat} (h : Forsaken i s) {p : LoopPoint} (hs : s.server = p)
    (hne : p ≠ .exited) : i ∉ s.queue := fun hin => hne (hs.symm.trans (h.unqueued hin))

theorem Forsaken.ne_of_hand {i j : Nat} (h : Forsaken i s) (hhand : s.server.inHand = some j) :
    i ≠ j := by
  intro hij
  subst hij
  exact h.away hhand

/-- Nothing the server or any call does gets it any further. -/
theorem Forsaken.step {i : Nat} {a : IrqAction} (h : Forsaken i s)
    (hstep : irqMachine.step s a = some s') : Forsaken i s' := by
  obtain ⟨-, htakes⟩ := takes_of_step hstep
  cases htakes with
  | call j ackReply hp | devClose j ackReply hp =>
      exact h.elsewhere (h.ne_of_point hp nofun) rfl h.away h.unqueued
  | connect j hp =>
      have hij := h.ne_of_point hp nofun
      refine h.elsewhere hij rfl h.away ?_
      intro hin
      obtain hin | hin := List.mem_append.mp hin
      · exact h.unqueued hin
      · exact absurd (List.mem_singleton.mp hin) hij
  | send j hp | measure j size hp | hangUp j hp =>
      exact h.elsewhere (h.ne_of_point hp nofun) rfl h.away h.unqueued
  | read j size count hp hread =>
      refine h.elsewhere ?_ rfl h.away h.unqueued
      intro hij
      subst hij
      obtain ⟨size', hreading, hno⟩ := h.blocked
      obtain rfl := CallPoint.reading.inj (hp.symm.trans hreading)
      exact hno count hread
  | acceptFails => exact h
  | accept j rest hs hqueue =>
      have hfree := h.not_queued hs nofun
      rw [hqueue] at hfree
      have hij : i ≠ j := fun heq => hfree (heq ▸ List.mem_cons_self)
      exact h.elsewhere hij rfl (fun hhand => hij (Option.some.inj hhand).symm)
        fun hin => absurd (List.mem_cons_of_mem j hin) hfree
  | check j hs =>
      have hij := h.ne_of_hand (by rw [hs]; rfl)
      refine ⟨h.blocked, ?_, ?_⟩
      · show (if s.serverStop = true then LoopPoint.exited else .raising j).inHand ≠ some i
        split
        · simp [LoopPoint.inHand]
        · exact fun hhand => hij (Option.some.inj hhand).symm
      · exact fun hin => absurd hin (h.not_queued hs nofun)
  | raise j hs =>
      have hij := h.ne_of_hand (by rw [hs]; rfl)
      exact h.elsewhere hij rfl (fun hhand => hij (Option.some.inj hhand).symm)
        fun hin => absurd hin (h.not_queued hs nofun)
  | writeFails j hs | writeShort j hs =>
      exact ⟨h.blocked, by simp [LoopPoint.inHand],
        fun hin => absurd hin (h.not_queued hs nofun)⟩
  | write j hs =>
      have hij := h.ne_of_hand (by rw [hs]; rfl)
      exact h.elsewhere hij rfl (fun hhand => hij (Option.some.inj hhand).symm)
        fun hin => absurd hin (h.not_queued hs nofun)
  | close j hs =>
      have hij := h.ne_of_hand (by rw [hs]; rfl)
      exact h.elsewhere hij rfl (by simp [LoopPoint.inHand])
        fun hin => absurd hin (h.not_queued hs nofun)

/-- A call that the server does not expect any more stays in its `read`, whatever
happens. -/
theorem blocked_forever {i : Nat} {actions : List IrqAction} (hblocked : s.Blocked i)
    (hno : ¬ s.Expects i) (hrun : irqMachine.run s actions = some s') :
    ∃ size, (s'.calls i).point = .reading size ∧ ∀ count, ¬ (s'.calls i).Readable size count :=
  (Machine.run_keeps (P := Forsaken i) (fun _ _ _ h hstep => h.step hstep)
    (forsaken_of_not_expects hblocked hno) hrun).blocked

end Irq

/-- The client closes the device: the server finds `server_stop` and leaves. -/
def shutdown : List IrqAction :=
  [.devClose 0 [65, 0], .connect 0, .send 0, .measure 0, .accept, .check]

theorem shutdown_not_released :
    ¬ ∀ s : Irq, Reachable irqMachine s → s.Releases := by
  intro hclaim
  have hrun : (irqMachine.run irqMachine.init shutdown).map
      (fun s => (s.server, (s.calls 0).accepted, (s.calls 0).closed)) =
        some (.exited, true, false) := by decide
  obtain ⟨s, hreach, hs⟩ := Machine.exists_of_run hrun
  obtain ⟨hserver, hrest⟩ := Prod.mk.inj hs
  obtain ⟨haccepted, hclosed⟩ := Prod.mk.inj hrest
  have hreleased := (hclaim s hreach).closed (Or.inr hserver) 0 haccepted
  exact absurd (hclosed.symm.trans hreleased) (by decide)

end Demonstrator
