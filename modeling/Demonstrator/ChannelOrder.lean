/-
What the channel hands over, and in which order.

Any number of threads call the channel, each call taking effect at once under its
mutex; `update` takes its two mutexes one after the other, so its two blocks count as
two calls.  A `Traffic` is the channel with a log of the calls that were made and of what
they returned, the newest first.

Each direction is a queue of its own: `InOrder` says that what has been handed out,
followed by what waits, is what was handed in, that a flag is up exactly when something
has happened since `update` last looked, and that `update` notifies exactly then.  It
holds of every run because a call of one direction leaves the other alone
(`Apart`).
-/
import Demonstrator.Channel
import Demonstrator.Lib.Fifo
import Demonstrator.Lib.Transition

namespace Demonstrator

open Transition Fifo

/-- A call of the channel. -/
inductive ChannelCall (α : Type) where
  | push (p : α)
  | canGet
  | nbGet
  | nbPut (p : α)
  | canPull
  | nbPull
  /-- `update`, the block that handles a push. -/
  | updatePush
  /-- `update`, the block that handles a pull. -/
  | updatePull
  deriving DecidableEq, Repr

/-- What a call returns. -/
inductive ChannelAnswer (α : Type) where
  | nothing
  /-- `can_get` or `can_pull` -/
  | available (answer : Bool)
  /-- `nb_get` or `nb_pull` returned true with a packet, or false. -/
  | packet (p : Option α)
  /-- `update` notified the event of its block, or had no reason to. -/
  | notified (answer : Bool)
  deriving DecidableEq, Repr

variable {θ α : Type}

/-- The channel after a call, and what the call returns. -/
def TlmxChannel.perform (c : TlmxChannel θ α) : ChannelCall α → TlmxChannel θ α × ChannelAnswer α
  | .push p => (c.push p, .nothing)
  | .canGet => (c, .available c.canGet)
  | .nbGet =>
      match c.nbGet with
      | none => (c, .packet none)
      | some (p, c') => (c', .packet (some p))
  | .nbPut p => (c.nbPut p, .nothing)
  | .canPull => (c, .available c.canPull)
  | .nbPull =>
      match c.nbPull with
      | none => (c, .packet none)
      | some (p, c') => (c', .packet (some p))
  | .updatePush => (c.updatePush, .notified c.threadDidPush)
  | .updatePull => (c.updatePull, .notified c.threadDidPull)

/-- A call and what it returned. -/
abbrev ChannelEvent (α : Type) := ChannelCall α × ChannelAnswer α

/-- The channel, and the calls that were made, the newest first. -/
structure Traffic (θ α : Type) where
  chan : TlmxChannel θ α
  log : List (ChannelEvent α)
  deriving DecidableEq

/-- A thread makes a call. -/
def Traffic.step (s : Traffic θ α) (action : θ × ChannelCall α) : Traffic θ α :=
  let r := s.chan.perform action.2
  { chan := r.1, log := (action.2, r.2) :: s.log }

/-- The channel, with threads that call it as they please. -/
def trafficMachine (constructor : θ) : Machine (Traffic θ α) (θ × ChannelCall α) where
  init := { chan := .new constructor, log := [] }
  step s action := some (s.step action)

/-! ### What the log says -/

namespace ChannelEvent

/-- The packet that was handed in, whatever the channel did with it. -/
def pushed? : ChannelEvent α → Option α
  | (.push p, _) => some p
  | _ => none

/-- The packet that was handed out. -/
def got? : ChannelEvent α → Option α
  | (.nbGet, .packet p) => p
  | _ => none

def put? : ChannelEvent α → Option α
  | (.nbPut p, _) => some p
  | _ => none

def pulled? : ChannelEvent α → Option α
  | (.nbPull, .packet p) => p
  | _ => none

/-- A push. -/
def isPush (e : ChannelEvent α) : Bool := (pushed? e).isSome

/-- A successful pull. -/
def isPull (e : ChannelEvent α) : Bool := (pulled? e).isSome

def isUpdatePush : ChannelEvent α → Bool
  | (.updatePush, _) => true
  | _ => false

def isUpdatePull : ChannelEvent α → Bool
  | (.updatePull, _) => true
  | _ => false

end ChannelEvent

/-- The packets that `which` finds in a log, the oldest first. -/
def packets (which : ChannelEvent α → Option α) (log : List (ChannelEvent α)) : List α :=
  log.reverse.filterMap which

/-- A push has happened since `update` last looked. -/
def pushPending (log : List (ChannelEvent α)) : Bool :=
  pendingSince ChannelEvent.isPush ChannelEvent.isUpdatePush log

/-- A successful pull has happened since `update` last looked. -/
def pullPending (log : List (ChannelEvent α)) : Bool :=
  pendingSince ChannelEvent.isPull ChannelEvent.isUpdatePull log

section Packets

variable {which : ChannelEvent α → Option α} {e : ChannelEvent α} {p : α}

theorem packets_some (h : which e = some p) (log : List (ChannelEvent α)) :
    packets which (e :: log) = packets which log ++ [p] := by
  unfold packets
  rw [List.reverse_cons, List.filterMap_append, List.filterMap_cons_some h, List.filterMap_nil]

theorem packets_none (h : which e = none) (log : List (ChannelEvent α)) :
    packets which (e :: log) = packets which log := by
  unfold packets
  rw [List.reverse_cons, List.filterMap_append, List.filterMap_cons_none h, List.filterMap_nil,
    List.append_nil]

end Packets

/-! ### The two directions apart -/

/-- What the calls of one direction work on. -/
def toSysc (c : TlmxChannel θ α) : List α × Bool × Bool :=
  (c.queueToSysc, c.threadDidPush, c.syscPutEvent)

def fmSysc (c : TlmxChannel θ α) : List α × Bool × Bool × Bool :=
  (c.queueFmSysc, c.threadDidPull, c.syscDidPut, c.syscGetEvent)

/-- A call of the direction towards SystemC. -/
def ChannelCall.isToSysc : ChannelCall α → Bool
  | .push _ | .canGet | .nbGet | .updatePush => true
  | .nbPut _ | .canPull | .nbPull | .updatePull => false

theorem perform_nbGet (c : TlmxChannel θ α) :
    (c.queueToSysc = [] ∧ c.perform .nbGet = (c, .packet none)) ∨
      ∃ p, c.queueToSysc.getLast? = some p ∧
        c.perform .nbGet =
          ({ c with queueToSysc := c.queueToSysc.dropLast }, .packet (some p)) := by
  simp only [TlmxChannel.perform, TlmxChannel.nbGet]
  cases hlast : c.queueToSysc.getLast? with
  | none => exact .inl ⟨List.getLast?_eq_none_iff.mp hlast, rfl⟩
  | some p => exact .inr ⟨p, rfl, rfl⟩

theorem perform_nbPull (c : TlmxChannel θ α) :
    (c.queueFmSysc = [] ∧ c.perform .nbPull = (c, .packet none)) ∨
      ∃ p, c.queueFmSysc.getLast? = some p ∧
        c.perform .nbPull = ({ c with
          queueFmSysc := c.queueFmSysc.dropLast
          threadDidPull := true
          syscDidPut := false
          updateRequested := true }, .packet (some p)) := by
  simp only [TlmxChannel.perform, TlmxChannel.nbPull]
  cases hlast : c.queueFmSysc.getLast? with
  | none => exact .inl ⟨List.getLast?_eq_none_iff.mp hlast, rfl⟩
  | some p => exact .inr ⟨p, rfl, rfl⟩

/-- What one call does, whatever the channel holds. -/
structure Orderly (c : TlmxChannel θ α) : Prop where
  /-- A call changes nothing of the other direction. -/
  apart : ∀ call : ChannelCall α,
    (call.isToSysc = true → fmSysc (c.perform call).1 = fmSysc c) ∧
      (call.isToSysc = false → toSysc (c.perform call).1 = toSysc c)
  /-- `push` and `nb_put` always take the packet, behind those that wait, and raise the flag
  of their direction. -/
  enter : ∀ p : α,
    ((c.perform (.push p)).1.queueToSysc = p :: c.queueToSysc ∧
        (c.perform (.push p)).1.threadDidPush = true) ∧
      ((c.perform (.nbPut p)).1.queueFmSysc = p :: c.queueFmSysc ∧
        (c.perform (.nbPut p)).1.syscDidPut = true)
  /-- `nb_get` returns false exactly where its queue is empty, and then changes nothing;
  otherwise it hands out what is due. -/
  nbGet : ((c.perform .nbGet).2 = .packet none ↔ c.queueToSysc = []) ∧
    ((c.perform .nbGet).2 = .packet none → (c.perform .nbGet).1 = c) ∧
    ∀ p, (c.perform .nbGet).2 = .packet (some p) ↔ c.queueToSysc.getLast? = some p
  /-- `nb_pull` returns false exactly where its queue is empty, and then changes nothing;
  otherwise it hands out what is due. -/
  nbPull : ((c.perform .nbPull).2 = .packet none ↔ c.queueFmSysc = []) ∧
    ((c.perform .nbPull).2 = .packet none → (c.perform .nbPull).1 = c) ∧
    ∀ p, (c.perform .nbPull).2 = .packet (some p) ↔ c.queueFmSysc.getLast? = some p
  /-- `can_get` and `can_pull` tell whether there is a packet, and change nothing. -/
  can : (∃ answer, c.perform .canGet = (c, .available answer) ∧
      (answer = true ↔ c.queueToSysc ≠ [])) ∧
    ∃ answer, c.perform .canPull = (c, .available answer) ∧ (answer = true ↔ c.queueFmSysc ≠ [])
  /-- `update` notifies an event exactly where its flag is up, and takes the flag down. -/
  update : ((c.perform .updatePush).1.syscPutEvent = (c.syscPutEvent || c.threadDidPush) ∧
      (c.perform .updatePush).1.threadDidPush = false ∧
      (c.perform .updatePush).2 = .notified c.threadDidPush) ∧
    ((c.perform .updatePull).1.syscGetEvent = (c.syscGetEvent || c.threadDidPull) ∧
      (c.perform .updatePull).1.threadDidPull = false ∧
      (c.perform .updatePull).2 = .notified c.threadDidPull)

theorem perform_apart (c : TlmxChannel θ α) (call : ChannelCall α) :
    (call.isToSysc = true → fmSysc (c.perform call).1 = fmSysc c) ∧
      (call.isToSysc = false → toSysc (c.perform call).1 = toSysc c) := by
  cases call with
  | push p => exact ⟨fun _ => rfl, nofun⟩
  | canGet => exact ⟨fun _ => rfl, nofun⟩
  | nbGet =>
      refine ⟨fun _ => ?_, nofun⟩
      obtain ⟨-, h⟩ | ⟨_, -, h⟩ := perform_nbGet c
      · rw [h]
      · rw [h]
        rfl
  | nbPut p => exact ⟨nofun, fun _ => rfl⟩
  | canPull => exact ⟨nofun, fun _ => rfl⟩
  | nbPull =>
      refine ⟨nofun, fun _ => ?_⟩
      obtain ⟨-, h⟩ | ⟨_, -, h⟩ := perform_nbPull c
      · rw [h]
      · rw [h]
        rfl
  | updatePush => exact ⟨fun _ => (congrArg fmSysc (TlmxChannel.updatePush_eq c) :), nofun⟩
  | updatePull => exact ⟨nofun, fun _ => (congrArg toSysc (TlmxChannel.updatePull_eq c) :)⟩

theorem orderly (c : TlmxChannel θ α) : Orderly c where
  apart := perform_apart c
  enter _ := ⟨⟨rfl, rfl⟩, ⟨rfl, rfl⟩⟩
  nbGet := by
    obtain ⟨hempty, h⟩ | ⟨p, hlast, h⟩ := perform_nbGet c
    · rw [h]
      refine ⟨iff_of_true rfl hempty, fun _ => rfl, fun p => iff_of_false nofun ?_⟩
      rw [hempty]
      exact nofun
    · have hne : c.queueToSysc ≠ [] := List.getLast?_isSome.mp (hlast ▸ rfl)
      rw [h, hlast]
      exact ⟨iff_of_false nofun hne, nofun, fun p' => ⟨fun hp => (ChannelAnswer.packet.inj hp),
        congrArg ChannelAnswer.packet⟩⟩
  nbPull := by
    obtain ⟨hempty, h⟩ | ⟨p, hlast, h⟩ := perform_nbPull c
    · rw [h]
      refine ⟨iff_of_true rfl hempty, fun _ => rfl, fun p => iff_of_false nofun ?_⟩
      rw [hempty]
      exact nofun
    · have hne : c.queueFmSysc ≠ [] := List.getLast?_isSome.mp (hlast ▸ rfl)
      rw [h, hlast]
      exact ⟨iff_of_false nofun hne, nofun, fun p' => ⟨fun hp => (ChannelAnswer.packet.inj hp),
        congrArg ChannelAnswer.packet⟩⟩
  can := by
    refine ⟨⟨c.canGet, rfl, ?_⟩, ⟨c.canPull, rfl, ?_⟩⟩
    · rw [TlmxChannel.canGet, Bool.not_eq_true', Ne, ← List.isEmpty_iff, Bool.not_eq_true]
    · rw [TlmxChannel.canPull, Bool.not_eq_true', Ne, ← List.isEmpty_iff, Bool.not_eq_true]
  update := by
    unfold TlmxChannel.perform
    rw [TlmxChannel.updatePush_eq, TlmxChannel.updatePull_eq]
    exact ⟨⟨rfl, rfl, rfl⟩, ⟨rfl, rfl, rfl⟩⟩

/-! ### Every run -/

open ChannelEvent in
/-- What the channel has guaranteed so far. -/
structure InOrder (s : Traffic θ α) : Prop where
  /-- What was got, followed by what waits, is what was pushed. -/
  toSysc : Conserves (packets pushed? s.log) (packets got? s.log) s.chan.queueToSysc
  /-- What was pulled, followed by what waits, is what was put. -/
  fmSysc : Conserves (packets put? s.log) (packets pulled? s.log) s.chan.queueFmSysc
  didPush : s.chan.threadDidPush = pushPending s.log
  didPull : s.chan.threadDidPull = pullPending s.log
  /-- Each `update` notified exactly where something had happened since the one before. -/
  putEvent : ∀ newer notified older,
    s.log = newer ++ (.updatePush, .notified notified) :: older →
      notified = pushPending older
  getEvent : ∀ newer notified older,
    s.log = newer ++ (.updatePull, .notified notified) :: older →
      notified = pullPending older

/-- A log grows by an event that says of what went before it what `tells` does, if it is
one of the `mark`ed ones. -/
theorem told_cons {mark : Bool → ChannelEvent α} {tells : List (ChannelEvent α) → Bool}
    {e : ChannelEvent α} {log : List (ChannelEvent α)}
    (hlog : ∀ newer b older, log = newer ++ mark b :: older → b = tells older)
    (he : ∀ b, e = mark b → b = tells log) :
    ∀ newer b older, e :: log = newer ++ mark b :: older → b = tells older := by
  intro newer b older heq
  cases newer with
  | nil =>
      obtain ⟨hb, rfl⟩ := List.cons.inj heq
      exact he b hb
  | cons e' newer => exact hlog newer b older (List.cons.inj heq).2

theorem inOrder_init (constructor : θ) :
    InOrder ({ chan := .new constructor, log := [] } : Traffic θ α) where
  toSysc := conserves_nil
  fmSysc := conserves_nil
  didPush := rfl
  didPull := rfl
  putEvent := by
    intro newer b older heq
    exact absurd heq (by simp)
  getEvent := by
    intro newer b older heq
    exact absurd heq (by simp)

section Step

variable {c : TlmxChannel θ α} {log : List (ChannelEvent α)}

/-- A call that hands nothing over and is no `update` leaves everything as it was. -/
theorem InOrder.idle {e : ChannelEvent α} (h : InOrder { chan := c, log := log })
    (hin : e.pushed? = none ∧ e.put? = none) (hout : e.got? = none ∧ e.pulled? = none)
    (hpush : e.isUpdatePush = false) (hpull : e.isUpdatePull = false) :
    InOrder { chan := c, log := e :: log } where
  toSysc := by
    rw [packets_none hin.1, packets_none hout.1]
    exact h.toSysc
  fmSysc := by
    rw [packets_none hin.2, packets_none hout.2]
    exact h.fmSysc
  didPush := by
    have hraise : e.isPush = false := by rw [ChannelEvent.isPush, hin.1]; rfl
    exact h.didPush.trans (pendingSince_other hraise hpush).symm
  didPull := by
    have hraise : e.isPull = false := by rw [ChannelEvent.isPull, hout.2]; rfl
    exact h.didPull.trans (pendingSince_other hraise hpull).symm
  putEvent := told_cons h.putEvent fun b hb => by
    rw [hb] at hpush
    exact Bool.noConfusion hpush
  getEvent := told_cons h.getEvent fun b hb => by
    rw [hb] at hpull
    exact Bool.noConfusion hpull

theorem InOrder.push (h : InOrder { chan := c, log := log }) (p : α) :
    InOrder { chan := c.push p, log := (.push p, .nothing) :: log } where
  toSysc := by
    rw [packets_some rfl, packets_none rfl]
    exact h.toSysc.enter p
  fmSysc := by
    rw [packets_none rfl, packets_none rfl]
    exact h.fmSysc
  didPush := (pendingSince_raise rfl).symm
  didPull := h.didPull.trans (pendingSince_other rfl rfl).symm
  putEvent := told_cons h.putEvent nofun
  getEvent := told_cons h.getEvent nofun

theorem InOrder.nbGet (h : InOrder { chan := c, log := log }) {p : α}
    (hlast : c.queueToSysc.getLast? = some p) :
    InOrder { chan := { c with queueToSysc := c.queueToSysc.dropLast },
              log := (.nbGet, .packet (some p)) :: log } where
  toSysc := by
    rw [packets_none rfl, packets_some rfl]
    exact h.toSysc.serve hlast
  fmSysc := by
    rw [packets_none rfl, packets_none rfl]
    exact h.fmSysc
  didPush := h.didPush.trans (pendingSince_other rfl rfl).symm
  didPull := h.didPull.trans (pendingSince_other rfl rfl).symm
  putEvent := told_cons h.putEvent nofun
  getEvent := told_cons h.getEvent nofun

theorem InOrder.nbPut (h : InOrder { chan := c, log := log }) (p : α) :
    InOrder { chan := c.nbPut p, log := (.nbPut p, .nothing) :: log } where
  toSysc := by
    rw [packets_none rfl, packets_none rfl]
    exact h.toSysc
  fmSysc := by
    rw [packets_some rfl, packets_none rfl]
    exact h.fmSysc.enter p
  didPush := h.didPush.trans (pendingSince_other rfl rfl).symm
  didPull := h.didPull.trans (pendingSince_other rfl rfl).symm
  putEvent := told_cons h.putEvent nofun
  getEvent := told_cons h.getEvent nofun

theorem InOrder.nbPull (h : InOrder { chan := c, log := log }) {p : α}
    (hlast : c.queueFmSysc.getLast? = some p) :
    InOrder { chan := { c with
                queueFmSysc := c.queueFmSysc.dropLast
                threadDidPull := true
                syscDidPut := false
                updateRequested := true },
              log := (.nbPull, .packet (some p)) :: log } where
  toSysc := by
    rw [packets_none rfl, packets_none rfl]
    exact h.toSysc
  fmSysc := by
    rw [packets_none rfl, packets_some rfl]
    exact h.fmSysc.serve hlast
  didPush := h.didPush.trans (pendingSince_other rfl rfl).symm
  didPull := (pendingSince_raise rfl).symm
  putEvent := told_cons h.putEvent nofun
  getEvent := told_cons h.getEvent nofun

theorem InOrder.updatePush (h : InOrder { chan := c, log := log }) :
    InOrder { chan := c.updatePush, log := (.updatePush, .notified c.threadDidPush) :: log } := by
  rw [TlmxChannel.updatePush_eq]
  refine ⟨?_, ?_, (pendingSince_clear rfl rfl).symm,
    h.didPull.trans (pendingSince_other rfl rfl).symm, told_cons h.putEvent ?_, told_cons h.getEvent nofun⟩
  · rw [packets_none rfl, packets_none rfl]
    exact h.toSysc
  · rw [packets_none rfl, packets_none rfl]
    exact h.fmSysc
  · intro b hb
    obtain rfl := ChannelAnswer.notified.inj (Prod.mk.inj hb).2
    exact h.didPush

theorem InOrder.updatePull (h : InOrder { chan := c, log := log }) :
    InOrder { chan := c.updatePull, log := (.updatePull, .notified c.threadDidPull) :: log } := by
  rw [TlmxChannel.updatePull_eq]
  refine ⟨?_, ?_, h.didPush.trans (pendingSince_other rfl rfl).symm,
    (pendingSince_clear rfl rfl).symm, told_cons h.putEvent nofun, told_cons h.getEvent ?_⟩
  · rw [packets_none rfl, packets_none rfl]
    exact h.toSysc
  · rw [packets_none rfl, packets_none rfl]
    exact h.fmSysc
  · intro b hb
    obtain rfl := ChannelAnswer.notified.inj (Prod.mk.inj hb).2
    exact h.didPull

end Step

theorem inOrder_step {s : Traffic θ α} (h : InOrder s) (action : θ × ChannelCall α) :
    InOrder (s.step action) := by
  obtain ⟨c, log⟩ := s
  obtain ⟨_, call⟩ := action
  unfold Traffic.step
  cases call with
  | push p => exact h.push p
  | canGet => exact h.idle ⟨rfl, rfl⟩ ⟨rfl, rfl⟩ rfl rfl
  | nbGet =>
      obtain ⟨-, hcall⟩ | ⟨p, hlast, hcall⟩ := perform_nbGet c
      · simp only [hcall]
        exact h.idle ⟨rfl, rfl⟩ ⟨rfl, rfl⟩ rfl rfl
      · simp only [hcall]
        exact h.nbGet hlast
  | nbPut p => exact h.nbPut p
  | canPull => exact h.idle ⟨rfl, rfl⟩ ⟨rfl, rfl⟩ rfl rfl
  | nbPull =>
      obtain ⟨-, hcall⟩ | ⟨p, hlast, hcall⟩ := perform_nbPull c
      · simp only [hcall]
        exact h.idle ⟨rfl, rfl⟩ ⟨rfl, rfl⟩ rfl rfl
      · simp only [hcall]
        exact h.nbPull hlast
  | updatePush => exact h.updatePush
  | updatePull => exact h.updatePull

/-- Whatever threads call the channel and in whichever order, nothing is lost, doubled or
overtaken, each flag tells what has happened since `update` last looked, and no call
touches the other direction. -/
theorem channel_in_order {constructor : θ} {s : Traffic θ α}
    (h : Reachable (trafficMachine constructor) s) : InOrder s ∧ Orderly s.chan := by
  refine ⟨h.invariant (P := InOrder) (inOrder_init constructor) ?_, orderly s.chan⟩
  intro s action s' _ hs _ hstep
  obtain rfl := Option.some.inj hstep
  exact inOrder_step hs action

/-- Two threads push, the kernel updates, one packet is got and its answer is put. -/
theorem channel_in_order_run : ∃ s : Traffic Nat Nat, Reachable (trafficMachine 0) s ∧
    packets ChannelEvent.pushed? s.log = [5, 7] ∧ packets ChannelEvent.got? s.log = [5] ∧
      s.chan.queueToSysc = [7] ∧ s.chan.queueFmSysc = [6] ∧ InOrder s ∧ Orderly s.chan := by
  let m : Machine (Traffic Nat Nat) (Nat × ChannelCall Nat) := trafficMachine 0
  have hrun : (m.run m.init
      [(1, .push 5), (2, .push 7), (0, .updatePush), (0, .nbGet), (0, .nbPut 6)]).map
      (fun s => (packets ChannelEvent.pushed? s.log, packets ChannelEvent.got? s.log,
        s.chan.queueToSysc, s.chan.queueFmSysc)) = some ([5, 7], [5], [7], [6]) := rfl
  obtain ⟨s, hreach, hs⟩ := Machine.exists_of_run hrun
  obtain ⟨hpushed, hs⟩ := Prod.mk.inj hs
  obtain ⟨hgot, hs⟩ := Prod.mk.inj hs
  obtain ⟨hto, hfm⟩ := Prod.mk.inj hs
  exact ⟨s, hreach, hpushed, hgot, hto, hfm, channel_in_order hreach⟩

end Demonstrator
