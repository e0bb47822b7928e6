/-
Interrupt connections, from both ends.

Any number of calls of `dev_soft_interrupt` run beside the loop of `interrupt_server`,
all of them in the client's process.  A call connects, sends its message, and reads for
the acknowledgement; the server takes the connections in the order they were made, raises
the interrupt for each, acknowledges and closes it.  `dev_close` sets `server_stop` and
makes one more call.

An `Exchange` is one call with its connection, seen from both ends.  `step` is one step of
the server or of a call.  The server raises an interrupt in one step here: what it does
under `interrupt_mutex` concerns nobody but `dev_wait`.
-/
import Mathlib.Logic.Function.Basic
import Demonstrator.Lib.Transition

namespace Demonstrator

open Transition

/-- `acknowledgement`, without its terminator. -/
def acknowledgement : List UInt8 := [65, 99, 107, 10]

/-- `ack_size` -/
def ackSize : Nat := acknowledgement.length + 1

/-- `strlen` of what lies in memory from some byte on; none where there is no
terminator. -/
def strlen (bytes : List UInt8) : Option Nat :=
  if 0 ∈ bytes then some (bytes.takeWhile (· ≠ 0)).length else none

/-- Where a call of `dev_soft_interrupt` is. -/
inductive CallPoint where
  /-- Not called yet. -/
  | idle
  | connecting
  | sending
  /-- It takes the length of what it finds in `ack_reply`. -/
  | measuring
  /-- In `read`, for this many bytes. -/
  | reading (size : Nat)
  | closing
  | returned
  deriving DecidableEq, Repr

/-- A call of `dev_soft_interrupt` and its connection. -/
structure Exchange where
  point : CallPoint
  /-- What lies in memory from `ack_reply` on, as the function is entered. -/
  ackReply : List UInt8
  /-- `recv_count` -/
  received : Nat
  /-- The server has accepted the connection. -/
  accepted : Bool
  /-- The server has raised the interrupt for it. -/
  raised : Bool
  /-- The bytes of the acknowledgement that wait to be read. -/
  reply : Nat
  /-- The server has closed its end. -/
  closed : Bool
  deriving DecidableEq, Repr

/-- A call that has not been made. -/
def Exchange.unused : Exchange where
  point := .idle
  ackReply := []
  received := 0
  accepted := false
  raised := false
  reply := 0
  closed := false

/-- Where the loop of `interrupt_server` is, with the connection in `incoming_socket`. -/
inductive LoopPoint where
  | accepting
  /-- It looks at `server_stop`. -/
  | checking (i : Nat)
  | raising (i : Nat)
  | writing (i : Nat)
  | closing (i : Nat)
  | exited
  /-- The assertion after the write failed. -/
  | aborted
  deriving DecidableEq, Repr

/-- The connection the server is busy with. -/
def LoopPoint.inHand : LoopPoint → Option Nat
  | .checking i | .raising i | .writing i | .closing i => some i
  | .accepting | .exited | .aborted => none

/-- The server, and the calls by number. -/
structure Irq where
  server : LoopPoint
  /-- The connections that wait to be accepted. -/
  queue : List Nat
  calls : Nat → Exchange
  serverStop : Bool
  interruptFlag : Bool

/-- How a write of the acknowledgement ends. -/
inductive WriteOutcome where
  | failed
  | short
  | full
  deriving DecidableEq, Repr

/-- What can happen next. -/
inductive IrqAction where
  /-- `dev_soft_interrupt` is called on a stack with this content. -/
  | call (i : Nat) (ackReply : List UInt8)
  /-- `dev_close` is called: it sets `server_stop` and calls `dev_soft_interrupt`. -/
  | devClose (i : Nat) (ackReply : List UInt8)
  | connect (i : Nat)
  | send (i : Nat)
  | measure (i : Nat)
  /-- `read` returns with this many bytes. -/
  | read (i : Nat) (count : Nat)
  | hangUp (i : Nat)
  | acceptFails
  | accept
  | check
  | raise
  | write (outcome : WriteOutcome)
  | close
  deriving DecidableEq, Repr

/-- A `read` for `size` bytes can return with `count`: it waits for nothing if nothing was
asked for, and otherwise until there is something or the connection has been closed. -/
def Exchange.Readable (x : Exchange) (size count : Nat) : Prop :=
  (size = 0 ∧ count = 0) ∨ (1 ≤ count ∧ count ≤ size ∧ count ≤ x.reply) ∨
    (x.closed = true ∧ x.reply = 0 ∧ count = 0)

instance (x : Exchange) (size count : Nat) : Decidable (x.Readable size count) :=
  inferInstanceAs (Decidable (_ ∨ _))

namespace Irq

/-- One exchange changes. -/
def put (s : Irq) (i : Nat) (x : Exchange) : Irq := { s with calls := Function.update s.calls i x }

/-- A call starts. -/
def enter (s : Irq) (i : Nat) (ackReply : List UInt8) : Option Irq :=
  if (s.calls i).point = .idle then
    some (s.put i { s.calls i with point := .connecting, ackReply := ackReply })
  else none

/-- What can happen, while the process runs. -/
def act (s : Irq) : IrqAction → Option Irq
  | .call i ackReply => s.enter i ackReply
  | .devClose i ackReply => { s with serverStop := true }.enter i ackReply
  | .connect i =>
      if (s.calls i).point = .connecting then
        some { s.put i { s.calls i with point := .sending } with queue := s.queue ++ [i] }
      else none
  | .send i =>
      if (s.calls i).point = .sending then some (s.put i { s.calls i with point := .measuring })
      else none
  | .measure i =>
      if (s.calls i).point = .measuring then
        (strlen (s.calls i).ackReply).map fun size =>
          s.put i { s.calls i with point := .reading size }
      else none
  | .read i count =>
      match (s.calls i).point with
      | .reading size =>
          if (s.calls i).Readable size count then
            some (s.put i { s.calls i with
              point := .closing, received := count, reply := (s.calls i).reply - count })
          else none
      | _ => none
  | .hangUp i =>
      if (s.calls i).point = .closing then some (s.put i { s.calls i with point := .returned })
      else none
  | .acceptFails => if s.server = .accepting then some s else none
  | .accept =>
      match s.server, s.queue with
      | .accepting, i :: rest =>
          some { s.put i { s.calls i with accepted := true } with server := .checking i, queue := rest }
      | _, _ => none
  | .check =>
      match s.server with
      | .checking i => some { s with server := if s.serverStop then .exited else .raising i }
      | _ => none
  | .raise =>
      match s.server with
      | .raising i =>
          some { s.put i { s.calls i with raised := true } with
            server := .writing i, interruptFlag := true }
      | _ => none
  | .write outcome =>
      match s.server, outcome with
      | .writing _, .failed => some { s with server := .accepting }
      | .writing _, .short => some { s with server := .aborted }
      | .writing i, .full =>
          some { s.put i { s.calls i with reply := ackSize } with server := .closing i }
      | _, _ => none
  | .close =>
      match s.server with
      | .closing i =>
          some { s.put i { s.calls i with closed := true } with server := .accepting }
      | _ => none

/-- The state after an action. -/
def step (s : Irq) (a : IrqAction) : Option Irq := if s.server = .aborted then none else s.act a

end Irq

/-- The server in its loop, and nobody has called yet. -/
def irqMachine : Machine Irq IrqAction where
  init := {
    server := .accepting
    queue := []
    calls := fun _ => .unused
    serverStop := false
    interruptFlag := false }
  step := Irq.step

/-! ### Each way a step can go -/

namespace Irq

@[simp] theorem put_self (s : Irq) (i : Nat) (x : Exchange) : (s.put i x).calls i = x := by
  show Function.update s.calls i x i = x
  rw [Function.update_self]

theorem put_of_ne (s : Irq) {i j : Nat} (x : Exchange) (h : j ≠ i) :
    (s.put i x).calls j = s.calls j := by
  show Function.update s.calls i x j = s.calls j
  rw [Function.update_of_ne h]

inductive Takes (s : Irq) : IrqAction → Irq → Prop
  | call (i ackReply) (h : (s.calls i).point = .idle) :
      Takes s (.call i ackReply)
        (s.put i { s.calls i with point := .connecting, ackReply := ackReply })
  | devClose (i ackReply) (h : (s.calls i).point = .idle) :
      Takes s (.devClose i ackReply)
        { s.put i { s.calls i with point := .connecting, ackReply := ackReply } with
          serverStop := true }
  | connect (i) (h : (s.calls i).point = .connecting) :
      Takes s (.connect i)
        { s.put i { s.calls i with point := .sending } with queue := s.queue ++ [i] }
  | send (i) (h : (s.calls i).point = .sending) :
      Takes s (.send i) (s.put i { s.calls i with point := .measuring })
  | measure (i size) (h : (s.calls i).point = .measuring)
      (hsize : strlen (s.calls i).ackReply = some size) :
      Takes s (.measure i) (s.put i { s.calls i with point := .reading size })
  | read (i size count) (h : (s.calls i).point = .reading size)
      (hread : (s.calls i).Readable size count) :
      Takes s (.read i count) (s.put i { s.calls i with
        point := .closing, received := count, reply := (s.calls i).reply - count })
  | hangUp (i) (h : (s.calls i).point = .closing) :
      Takes s (.hangUp i) (s.put i { s.calls i with point := .returned })
  | acceptFails (h : s.server = .accepting) : Takes s .acceptFails s
  | accept (i rest) (h : s.server = .accepting) (hqueue : s.queue = i :: rest) :
      Takes s .accept
        { s.put i { s.calls i with accepted := true } with server := .checking i, queue := rest }
  | check (i) (h : s.server = .checking i) :
      Takes s .check { s with server := if s.serverStop then .exited else .raising i }
  | raise (i) (h : s.server = .raising i) :
      Takes s .raise { s.put i { s.calls i with raised := true } with
        server := .writing i, interruptFlag := true }
  | writeFails (i) (h : s.server = .writing i) :
      Takes s (.write .failed) { s with server := .accepting }
  | writeShort (i) (h : s.server = .writing i) :
      Takes s (.write .short) { s with server := .aborted }
  | write (i) (h : s.server = .writing i) :
      Takes s (.write .full)
        { s.put i { s.calls i with reply := ackSize } with server := .closing i }
  | close (i) (h : s.server = .closing i) :
      Takes s .close { s.put i { s.calls i with closed := true } with server := .accepting }

theorem takes_of_step {s s' : Irq} {a : IrqAction} (h : irqMachine.step s a = some s') :
    s.server ≠ .aborted ∧ Takes s a s' := by
  have hstep : (if s.server = .aborted then none else s.act a) = some s' := h
  obtain ⟨halive, hact⟩ := Option.ite_none_left_eq_some.mp hstep
  refine ⟨halive, ?_⟩
  cases a with
  | call i ackReply =>
      obtain ⟨hpoint, rfl⟩ := Option.ite_some_none_eq_some.mp hact
      exact .call i ackReply hpoint
  | devClose i ackReply =>
      obtain ⟨hpoint, rfl⟩ := Option.ite_some_none_eq_some.mp hact
      exact .devClose i ackReply hpoint
  | connect i =>
      obtain ⟨hpoint, rfl⟩ := Option.ite_some_none_eq_some.mp hact
      exact .connect i hpoint
  | send i =>
      obtain ⟨hpoint, rfl⟩ := Option.ite_some_none_eq_some.mp hact
      exact .send i hpoint
  | measure i =>
      obtain ⟨hpoint, hact⟩ := Option.ite_none_right_eq_some.mp hact
      obtain ⟨size, hsize, rfl⟩ := Option.map_eq_some_iff.mp hact
      exact .measure i size hpoint hsize
  | read i count =>
      simp only [act] at hact
      split at hact
      · next size hpoint =>
        obtain ⟨hread, rfl⟩ := Option.ite_some_none_eq_some.mp hact
        exact .read i size count hpoint hread
      · exact absurd hact (by simp)
  | hangUp i =>
      obtain ⟨hpoint, rfl⟩ := Option.ite_some_none_eq_some.mp hact
      exact .hangUp i hpoint
  | acceptFails =>
      obtain ⟨hpoint, rfl⟩ := Option.ite_some_none_eq_some.mp hact
      exact .acceptFails hpoint
  | accept =>
      simp only [act] at hact
      split at hact
      · next i rest hpoint hqueue =>
        obtain rfl := Option.some.inj hact
        exact .accept i rest hpoint hqueue
      · exact absurd hact (by simp)
  | check =>
      simp only [act] at hact
      split at hact
      · next i hpoint =>
        obtain rfl := Option.some.inj hact
        exact .check i hpoint
      · exact absurd hact (by simp)
  | raise =>
      simp only [act] at hact
      split at hact
      · next i hpoint =>
        obtain rfl := Option.some.inj hact
        exact .raise i hpoint
      · exact absurd hact (by simp)
  | write outcome =>
      simp only [act] at hact
      split at hact
      · next i hpoint =>
        obtain rfl := Option.some.inj hact
        exact .writeFails i hpoint
      · next i hpoint =>
        obtain rfl := Option.some.inj hact
        exact .writeShort i hpoint
      · next i hpoint =>
        obtain rfl := Option.some.inj hact
        exact .write i hpoint
      · exact absurd hact (by simp)
  | close =>
      simp only [act] at hact
      split at hact
      · next i hpoint =>
        obtain rfl := Option.some.inj hact
        exact .close i hpoint
      · exact absurd hact (by simp)

end Irq

end Demonstrator
