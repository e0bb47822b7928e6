/-
Whether a soft interrupt waits until it was served.

`dev_soft_interrupt` asks `read` for as many bytes as it finds before the first
terminator in a buffer that it has never written to.  How long it waits is therefore up
to what lies on its stack: with a terminator in front it does not wait at all.

`Usable` says which contents do no harm.  `Prompt` is the invariant of the runs before
the shutdown in which every call finds such a content: what a call has read was sent for
its own connection, after the interrupt had been raised.
-/
import Demonstrator.SoftInterrupt

namespace Demonstrator

open Transition

/-- The content does not begin with a terminator, and has one no later than behind the
buffer. -/
def Usable (maxBuffer : Nat) (ackReply : List UInt8) : Prop :=
  ackReply.head? ≠ some 0 ∧ 0 ∈ ackReply.take (maxBuffer + 1)

instance (maxBuffer : Nat) (ackReply : List UInt8) : Decidable (Usable maxBuffer ackReply) :=
  inferInstanceAs (Decidable (_ ∧ _))

theorem length_takeWhile_le {n : Nat} : ∀ {bytes : List UInt8}, 0 ∈ bytes.take (n + 1) →
    (bytes.takeWhile (· ≠ 0)).length ≤ n := by
  induction n with
  | zero =>
      intro bytes h
      cases bytes with
      | nil => exact absurd h (by simp)
      | cons b rest =>
          obtain rfl : (0 : UInt8) = b := by simpa using h
          simp
  | succ n ih =>
      intro bytes h
      cases bytes with
      | nil => exact absurd h (by simp)
      | cons b rest =>
          by_cases hb : b = 0
          · simp [hb]
          · rw [List.take_succ_cons, List.mem_cons] at h
            have hrest := ih (h.resolve_left (Ne.symm hb))
            rw [List.takeWhile_cons, if_pos (by simpa using hb), List.length_cons]
            exact Nat.succ_le_succ hrest

/-- From a usable content comes a length that `read` can be asked for. -/
theorem Usable.strlen {maxBuffer : Nat} {ackReply : List UInt8} (h : Usable maxBuffer ackReply) :
    ∃ size, strlen ackReply = some size ∧ 1 ≤ size ∧ size ≤ maxBuffer := by
  obtain ⟨hhead, hmem⟩ := h
  refine ⟨(ackReply.takeWhile (· ≠ 0)).length, ?_, ?_, length_takeWhile_le hmem⟩
  · rw [Demonstrator.strlen, if_pos (List.mem_of_mem_take hmem)]
  · cases ackReply with
    | nil => exact absurd hmem (by simp)
    | cons b rest =>
        have hb : b ≠ 0 := fun hb => hhead (by rw [hb]; rfl)
        simp [hb]

namespace Irq

/-- A call waits for its interrupt to be raised, whatever it finds in its buffer. -/
structure Synchronous (maxBuffer : Nat) (s : Irq) : Prop where
  /-- Who has returned has read from an acknowledgement that was sent after the interrupt
  was raised for its connection. -/
  answered : ∀ i, (s.calls i).point = .returned →
    (s.calls i).raised = true ∧ 1 ≤ (s.calls i).received ∧ (s.calls i).received ≤ ackSize
  measured : ∀ i, (s.calls i).point = .measuring → strlen (s.calls i).ackReply ≠ none
  asked : ∀ i size, (s.calls i).point = .reading size → 1 ≤ size ∧ size ≤ maxBuffer
  /-- A `read` returns exactly where there is something to read or the connection has been
  closed. -/
  independent : ∀ i size, (s.calls i).point = .reading size →
    ((∃ count, (s.calls i).Readable size count) ↔
      0 < (s.calls i).reply ∨ (s.calls i).closed = true)

/-- The device is not closed, and a call finds a usable content in its buffer. -/
def Prepared (maxBuffer : Nat) (_ : Irq) : IrqAction → Prop
  | .call _ ackReply => Usable maxBuffer ackReply
  | .devClose _ _ => False
  | _ => True

instance (maxBuffer : Nat) (s : Irq) : (a : IrqAction) → Decidable (s.Prepared maxBuffer a)
  | .call _ ackReply => inferInstanceAs (Decidable (Usable maxBuffer ackReply))
  | .devClose _ _ => inferInstanceAs (Decidable False)
  | .connect _ | .send _ | .measure _ | .read _ _ | .hangUp _ | .acceptFails | .accept
  | .check | .raise | .write _ | .close => inferInstanceAs (Decidable True)

end Irq

/-! ### One exchange -/

namespace Exchange

variable {x : Exchange}

/-- The call has read. -/
def HasRead (x : Exchange) : Prop := x.point = .closing ∨ x.point = .returned

/-- The acknowledgement is there to be read, or the call has read. -/
def Answered (x : Exchange) : Prop := 0 < x.reply ∨ x.HasRead

/-- Nothing is read, and nothing closed, that was not acknowledged. -/
structure Fair (maxBuffer : Nat) (x : Exchange) : Prop where
  usable : x.point ≠ .idle → Usable maxBuffer x.ackReply
  size : ∀ size, x.point = .reading size → strlen x.ackReply = some size
  reply : x.reply ≤ ackSize
  raised : 0 < x.reply → x.raised = true
  read : x.HasRead → x.raised = true ∧ 1 ≤ x.received ∧ x.received ≤ ackSize
  closed : x.closed = true → x.Answered

theorem fair_unused (maxBuffer : Nat) : Fair maxBuffer .unused where
  usable h := absurd rfl h
  size := nofun
  reply := Nat.zero_le _
  raised h := absurd h (Nat.lt_irrefl 0)
  read h := by
    obtain h | h := h
    · exact absurd h (by simp [unused])
    · exact absurd h (by simp [unused])
  closed := nofun

theorem Fair.goes {maxBuffer : Nat} (h : Fair maxBuffer x) {point : CallPoint}
    (hfrom : ¬ x.HasRead) (hto : point ≠ .closing ∧ point ≠ .returned) (hidle : x.point ≠ .idle)
    (hsize : ∀ size, point = .reading size → strlen x.ackReply = some size) :
    Fair maxBuffer { x with point := point } where
  usable _ := h.usable hidle
  size := hsize
  reply := h.reply
  raised := h.raised
  read hread := by
    obtain hread | hread := hread
    · exact absurd hread hto.1
    · exact absurd hread hto.2
  closed hclosed := Or.inl ((h.closed hclosed).resolve_right hfrom)

theorem Fair.called {maxBuffer : Nat} (h : Fair maxBuffer x) (hidle : x.point = .idle)
    {ackReply : List UInt8} (husable : Usable maxBuffer ackReply) :
    Fair maxBuffer { x with point := .connecting, ackReply := ackReply } where
  usable _ := husable
  size := nofun
  reply := h.reply
  raised := h.raised
  read hread := by
    obtain hread | hread := hread
    · exact absurd hread (by simp)
    · exact absurd hread (by simp)
  closed hclosed := by
    refine Or.inl ((h.closed hclosed).resolve_right ?_)
    intro hread
    obtain hread | hread := hread
    · exact absurd (hidle.symm.trans hread) (by simp)
    · exact absurd (hidle.symm.trans hread) (by simp)

theorem Fair.asked {maxBuffer size : Nat} (h : Fair maxBuffer x) (hpoint : x.point = .reading size) :
    1 ≤ size ∧ size ≤ maxBuffer := by
  obtain ⟨size', hsize, hbounds⟩ := (h.usable (by rw [hpoint]; simp)).strlen
  obtain rfl := Option.some.inj (hsize.symm.trans (h.size size hpoint))
  exact hbounds

theorem Fair.readable {maxBuffer size count : Nat} (h : Fair maxBuffer x)
    (hpoint : x.point = .reading size) (hread : x.Readable size count) :
    1 ≤ count ∧ count ≤ x.reply := by
  have hpos := (h.asked hpoint).1
  obtain ⟨hzero, -⟩ | ⟨hcount, -, hreply⟩ | ⟨hclosed, hreply, -⟩ := hread
  · omega
  · exact ⟨hcount, hreply⟩
  · -- nothing closes a connection whose acknowledgement is still to be read
    obtain hreply' | hdone | hdone := h.closed hclosed
    · omega
    · exact absurd (hpoint.symm.trans hdone) (by simp)
    · exact absurd (hpoint.symm.trans hdone) (by simp)

theorem Fair.reads {maxBuffer size count : Nat} (h : Fair maxBuffer x)
    (hpoint : x.point = .reading size) (hread : x.Readable size count) :
    Fair maxBuffer { x with point := .closing, received := count, reply := x.reply - count } where
  usable _ := h.usable (by rw [hpoint]; simp)
  size := nofun
  reply := Nat.le_trans (Nat.sub_le _ _) h.reply
  raised hreply := h.raised (Nat.lt_of_lt_of_le hreply (Nat.sub_le _ _))
  read _ := by
    obtain ⟨hcount, hle⟩ := h.readable hpoint hread
    exact ⟨h.raised (Nat.lt_of_lt_of_le hcount hle), hcount, Nat.le_trans hle h.reply⟩
  closed _ := Or.inr (Or.inl rfl)

theorem Fair.returns {maxBuffer : Nat} (h : Fair maxBuffer x) (hpoint : x.point = .closing) :
    Fair maxBuffer { x with point := .returned } where
  usable _ := h.usable (by rw [hpoint]; simp)
  size := nofun
  reply := h.reply
  raised := h.raised
  read _ := h.read (Or.inl hpoint)
  closed _ := Or.inr (Or.inr rfl)

theorem Fair.raise {maxBuffer : Nat} (h : Fair maxBuffer x) :
    Fair maxBuffer { x with raised := true } where
  usable := h.usable
  size := h.size
  reply := h.reply
  raised _ := rfl
  read hread := ⟨rfl, (h.read hread).2⟩
  closed := h.closed

theorem Fair.acknowledge {maxBuffer : Nat} (h : Fair maxBuffer x) (hraised : x.raised = true) :
    Fair maxBuffer { x with reply := ackSize } where
  usable := h.usable
  size := h.size
  reply := Nat.le_refl _
  raised _ := hraised
  read := h.read
  closed _ := Or.inl (show 0 < ackSize by decide)

theorem Fair.close {maxBuffer : Nat} (h : Fair maxBuffer x) (hans : x.Answered) :
    Fair maxBuffer { x with closed := true } where
  usable := h.usable
  size := h.size
  reply := h.reply
  raised := h.raised
  read := h.read
  closed _ := hans

end Exchange

/-! ### The server and all the calls -/

namespace Irq

variable {maxBuffer : Nat} {s s' : Irq}

/-- Every exchange is fair, and the one in hand is served step by step. -/
structure Prompt (maxBuffer : Nat) (s : Irq) : Prop where
  running : s.serverStop = false
  fair : ∀ i, (s.calls i).Fair maxBuffer
  writing : ∀ i, s.server = .writing i → (s.calls i).raised = true
  closing : ∀ i, s.server = .closing i → (s.calls i).Answered

theorem prompt_init (maxBuffer : Nat) : Prompt maxBuffer irqMachine.init where
  running := rfl
  fair _ := Exchange.fair_unused maxBuffer
  writing := by simp [irqMachine]
  closing := by simp [irqMachine]

/-- All exchanges but one stay, and that one is fair. -/
theorem Prompt.fair_put (h : Prompt maxBuffer s) {i : Nat} {x : Exchange}
    (hx : x.Fair maxBuffer) (j : Nat) : ((s.put i x).calls j).Fair maxBuffer := by
  by_cases hj : j = i
  · subst hj
    rw [put_self]
    exact hx
  · rw [put_of_ne s x hj]
    exact h.fair j

/-- A step of a call, which leaves what the server has done for it. -/
theorem Prompt.client (h : Prompt maxBuffer s) {i : Nat} {x : Exchange} {queue : List Nat}
    (hx : x.Fair maxBuffer) (hraised : x.raised = (s.calls i).raised)
    (hans : (s.calls i).Answered → x.Answered) :
    Prompt maxBuffer { s.put i x with queue := queue } where
  running := h.running
  fair := h.fair_put hx
  writing := by
    intro j hs
    by_cases hj : j = i
    · subst hj
      rw [put_self, hraised]
      exact h.writing j hs
    · rw [put_of_ne s x hj]
      exact h.writing j hs
  closing := by
    intro j hs
    by_cases hj : j = i
    · subst hj
      rw [put_self]
      exact hans (h.closing j hs)
    · rw [put_of_ne s x hj]
      exact h.closing j hs

theorem answered_of_point {x x' : Exchange} (hreply : x'.reply = x.reply) (hno : ¬ x.HasRead)
    (h : x.Answered) : x'.Answered := Or.inl (hreply ▸ h.resolve_right hno)

theorem not_hasRead {x : Exchange} {p : CallPoint} (hp : x.point = p)
    (hne : p ≠ .closing ∧ p ≠ .returned) : ¬ x.HasRead := by
  intro hread
  obtain hread | hread := hread
  · exact hne.1 (hp.symm.trans hread)
  · exact hne.2 (hp.symm.trans hread)

theorem Prompt.goes (h : Prompt maxBuffer s) {i : Nat} {p point : CallPoint} {queue : List Nat}
    (hp : (s.calls i).point = p) (hfrom : p ≠ .idle ∧ p ≠ .closing ∧ p ≠ .returned)
    (hto : point ≠ .closing ∧ point ≠ .returned)
    (hsize : ∀ size, point = .reading size → strlen (s.calls i).ackReply = some size) :
    Prompt maxBuffer { s.put i { s.calls i with point := point } with queue := queue } := by
  have hno := not_hasRead hp hfrom.2
  exact h.client ((h.fair i).goes hno hto (by rw [hp]; exact hfrom.1) hsize) rfl
    (answered_of_point rfl hno)

/-- The server moves on to a point at which it owes nobody anything yet. -/
theorem Prompt.moves (h : Prompt maxBuffer s) {calls : Nat → Exchange} {queue : List Nat}
    {server : LoopPoint} (hcalls : ∀ i, (calls i).Fair maxBuffer)
    (hpoint : ∀ i, server ≠ .writing i ∧ server ≠ .closing i) :
    Prompt maxBuffer { s with calls := calls, queue := queue, server := server } where
  running := h.running
  fair := hcalls
  writing i hs := absurd hs (hpoint i).1
  closing i hs := absurd hs (hpoint i).2

theorem Prompt.step {a : IrqAction} (h : Prompt maxBuffer s) (hok : s.Prepared maxBuffer a)
    (hstep : irqMachine.step s a = some s') : Prompt maxBuffer s' := by
  obtain ⟨-, htakes⟩ := takes_of_step hstep
  cases htakes with
  | call i ackReply hp =>
      exact h.client ((h.fair i).called hp hok) rfl
        (answered_of_point rfl (not_hasRead hp ⟨by simp, by simp⟩))
  | devClose i ackReply hp => exact absurd hok id
  | connect i hp => exact h.goes hp ⟨by simp, by simp, by simp⟩ ⟨by simp, by simp⟩ nofun
  | send i hp => exact h.goes hp ⟨by simp, by simp, by simp⟩ ⟨by simp, by simp⟩ nofun
  | measure i size hp hsize =>
      refine h.goes hp ⟨by simp, by simp, by simp⟩ ⟨by simp, by simp⟩ ?_
      intro size' heq
      rw [← CallPoint.reading.inj heq]
      exact hsize
  | read i size count hp hread =>
      exact h.client ((h.fair i).reads hp hread) rfl fun _ => Or.inr (Or.inl rfl)
  | hangUp i hp =>
      exact h.client ((h.fair i).returns hp) rfl fun _ => Or.inr (Or.inr rfl)
  | acceptFails hs => exact h
  | accept i rest hs hqueue =>
      have hx : (({ s.calls i with accepted := true } : Exchange)).Fair maxBuffer :=
        { h.fair i with }
      exact h.moves (h.fair_put hx) fun j => ⟨by simp, by simp⟩
  | check i hs =>
      rw [if_neg (by rw [h.running]; exact Bool.false_ne_true)]
      exact h.moves h.fair fun j => ⟨by simp, by simp⟩
  | raise i hs =>
      refine ⟨h.running, h.fair_put (h.fair i).raise, ?_, fun j hs' => absurd hs' (by simp)⟩
      intro j hs'
      obtain rfl : i = j := LoopPoint.writing.inj hs'
      show ((s.put i _).calls i).raised = true
      rw [put_self]
  | writeFails i hs => exact h.moves h.fair fun j => ⟨by simp, by simp⟩
  | writeShort i hs => exact h.moves h.fair fun j => ⟨by simp, by simp⟩
  | write i hs =>
      refine ⟨h.running, h.fair_put ((h.fair i).acknowledge (h.writing i hs)),
        fun j hs' => absurd hs' (by simp), ?_⟩
      intro j hs'
      obtain rfl : i = j := LoopPoint.closing.inj hs'
      show ((s.put i _).calls i).Answered
      rw [put_self]
      exact Or.inl (show 0 < ackSize by decide)
  | close i hs =>
      exact h.moves (h.fair_put ((h.fair i).close (h.closing i hs))) fun j => ⟨by simp, by simp⟩

theorem Prompt.synchronous (h : Prompt maxBuffer s) : Synchronous maxBuffer s := by
  refine ⟨?_, ?_, ?_, ?_⟩
  · intro i hp
    exact (h.fair i).read (Or.inr hp)
  · intro i hp hnone
    obtain ⟨size, hsize, -⟩ := ((h.fair i).usable (by rw [hp]; simp)).strlen
    exact absurd (hnone.symm.trans hsize) (by simp)
  · intro i size hp
    exact (h.fair i).asked hp
  · intro i size hp
    refine ⟨?_, ?_⟩
    · intro hread
      obtain ⟨count, hread⟩ := hread
      obtain ⟨hpos, hle⟩ := (h.fair i).readable hp hread
      exact Or.inl (Nat.lt_of_lt_of_le hpos hle)
    · intro hdue
      have hreply : 0 < (s.calls i).reply := by
        obtain hreply | hclosed := hdue
        · exact hreply
        · exact ((h.fair i).closed hclosed).resolve_right (not_hasRead hp ⟨by simp, by simp⟩)
      exact ⟨1, Or.inr (Or.inl ⟨Nat.le_refl 1, ((h.fair i).asked hp).1, hreply⟩)⟩

/-- In every run before the shutdown in which the calls find usable contents, they wait for
their interrupts to be raised. -/
theorem synchronous_of_prepared (h : ReachableVia irqMachine (Prepared maxBuffer) s) :
    Synchronous maxBuffer s := by
  have hprompt : Prompt maxBuffer s :=
    h.invariant (P := Prompt maxBuffer) (prompt_init maxBuffer)
      fun _ _ _ _ hinv hok hstep => hinv.step hok hstep
  exact hprompt.synchronous

end Irq

/-- A call that finds `"Ack\n"` on its stack, and reads all of its acknowledgement but the
last byte. -/
def servedCall : List IrqAction :=
  [.call 0 [65, 99, 107, 10, 0], .connect 0, .send 0, .measure 0, .accept, .check, .raise,
    .write .full, .read 0 4, .hangUp 0]

theorem synchronous_servedCall : ∃ s : Irq, (s.calls 0).point = .returned ∧
    (s.calls 0).received = 4 ∧ s.Synchronous 100 := by
  have hrun : ((irqMachine.keeping (Irq.Prepared 100)).run
      (irqMachine.keeping (Irq.Prepared 100)).init servedCall).map
      (fun s => ((s.calls 0).point, (s.calls 0).received)) = some (.returned, 4) := by decide
  obtain ⟨s, hreach, hs⟩ := Machine.exists_of_run hrun
  obtain ⟨hpoint, hreceived⟩ := Prod.mk.inj hs
  exact ⟨s, hpoint, hreceived,
    Irq.synchronous_of_prepared (Machine.reachableVia_of_keeping hreach)⟩

/-- A call that finds a terminator in front. -/
def hastyCall : List IrqAction :=
  [.call 0 [0], .connect 0, .send 0, .measure 0, .read 0 0, .hangUp 0]

/-- The device is not closed. -/
def BeforeShutdown (_ : Irq) : IrqAction → Prop
  | .devClose _ _ => False
  | _ => True

instance (s : Irq) : (a : IrqAction) → Decidable (BeforeShutdown s a)
  | .devClose _ _ => inferInstanceAs (Decidable False)
  | .call _ _ | .connect _ | .send _ | .measure _ | .read _ _ | .hangUp _ | .acceptFails
  | .accept | .check | .raise | .write _ | .close => inferInstanceAs (Decidable True)

theorem hasty_call_returns : ¬ ∀ (maxBuffer : Nat) (s : Irq),
    ReachableVia irqMachine BeforeShutdown s → s.Synchronous maxBuffer := by
  intro hclaim
  have hrun : ((irqMachine.keeping BeforeShutdown).run (irqMachine.keeping BeforeShutdown).init
      hastyCall).map (fun s => ((s.calls 0).point, (s.calls 0).raised)) =
        some (.returned, false) := by decide
  obtain ⟨s, hreach, hs⟩ := Machine.exists_of_run hrun
  obtain ⟨hpoint, hraised⟩ := Prod.mk.inj hs
  have hanswered := (hclaim 100 s (Machine.reachableVia_of_keeping hreach)).answered 0 hpoint
  exact absurd (hraised.symm.trans hanswered.1) (by decide)

end Demonstrator
