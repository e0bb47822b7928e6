/-
Who may wait for whom in the channel.

The thread that runs the SystemC kernel constructs the channel and calls `can_get`,
`nb_get`, `nb_put` and `update`; any number of other threads call `push`, `can_pull`,
`nb_pull`, `wait_for_put` and `wait_for_get`.  A step is one operation on a mutex, or what
is done between two of them.  Nothing stops a step that unlocks a mutex of somebody else.

`KernelPoint.holds` and `OsCallPoint.holds` say which mutexes a thread holds at each point
of these functions, and `discipline` checks it against what they do there.  The rest is
the theory of `Discipline`: a thread other than the kernel's takes one mutex at a time, so
whoever keeps the kernel waiting can go on.
-/
import Demonstrator.Channel
import Demonstrator.Lib.Mutex
import Demonstrator.Lib.Transition

namespace Demonstrator

open Concurrency Transition

/-- The mutexes of `tlmx_channel`. -/
inductive ChannelMutex where
  /-- `m_mutex_to_sysc` -/
  | toSysc
  /-- `m_mutex_fm_sysc` -/
  | fmSysc
  /-- `m_mutex_wait_get` -/
  | waitGet
  /-- `m_mutex_wait_put` -/
  | waitPut
  deriving DecidableEq, Repr

/-- The threads: the kernel's, and any number of others. -/
inductive Party (ι : Type) where
  | kernel
  | os (i : ι)
  deriving DecidableEq, Repr

variable {ι τ α : Type}

namespace TlmxChannel

/-- The owner of a mutex. -/
def owner (c : TlmxChannel τ α) : ChannelMutex → Option τ
  | .toSysc => c.mutexToSysc
  | .fmSysc => c.mutexFmSysc
  | .waitGet => c.mutexWaitGet
  | .waitPut => c.mutexWaitPut

/-- The channel after an operation on a mutex. -/
def setOwner (c : TlmxChannel τ α) (m : ChannelMutex) (thread : Option τ) : TlmxChannel τ α :=
  match m with
  | .toSysc => { c with mutexToSysc := thread }
  | .fmSysc => { c with mutexFmSysc := thread }
  | .waitGet => { c with mutexWaitGet := thread }
  | .waitPut => { c with mutexWaitPut := thread }

theorem owner_setOwner (c : TlmxChannel τ α) (m : ChannelMutex) (thread : Option τ) :
    (c.setOwner m thread).owner = Function.update c.owner m thread := by
  funext m'
  cases m <;> cases m' <;> rfl

end TlmxChannel

/-! ### The kernel's thread -/

/-- A call the kernel's thread makes. -/
inductive KernelCall (α : Type) where
  | canGet
  | nbGet
  | nbPut (p : α)
  | update
  deriving DecidableEq, Repr

/-- Where the kernel's thread is. -/
inductive KernelPoint (α : Type) where
  /-- It is in no call. -/
  | between
  /-- `can_get` -/
  | canGetLock
  | canGetBody
  | canGetUnlock (answer : Bool)
  /-- `nb_get` -/
  | getLock
  | getBody
  | getPulse (p : α)
  | getRelock (p : α)
  | getUnlock (got : Option α)
  /-- `nb_put` -/
  | putLock (p : α)
  | putBody (p : α)
  | putPulse
  | putRelock
  | putUnlock
  /-- `update`, the block that handles a push. -/
  | updatePushLock
  | updatePushBody
  | updatePushUnlock
  /-- `update`, the block that handles a pull. -/
  | updatePullLock
  | updatePullBody
  | updatePullUnlock
  deriving DecidableEq, Repr

/-- Where a call begins. -/
def KernelCall.start : KernelCall α → KernelPoint α
  | .canGet => .canGetLock
  | .nbGet => .getLock
  | .nbPut p => .putLock p
  | .update => .updatePushLock

namespace KernelPoint

/-- The operation on a mutex that comes next. -/
def op : KernelPoint α → Option (LockOp ChannelMutex)
  | .canGetLock | .getLock | .updatePushLock => some (.lock .toSysc)
  | .canGetUnlock _ | .getUnlock _ | .updatePushUnlock => some (.unlock .toSysc)
  | .putLock _ | .updatePullLock => some (.lock .fmSysc)
  | .putUnlock | .updatePullUnlock => some (.unlock .fmSysc)
  | .getPulse _ => some (.unlock .waitGet)
  | .getRelock _ => some (.lock .waitGet)
  | .putPulse => some (.unlock .waitPut)
  | .putRelock => some (.lock .waitPut)
  | .between | .canGetBody | .getBody | .putBody _ | .updatePushBody | .updatePullBody => none

/-- What a step does besides an operation on a mutex, and where it leads. -/
def after (c : TlmxChannel τ α) : KernelPoint α → TlmxChannel τ α × KernelPoint α
  | .between => (c, .between)
  | .canGetLock => (c, .canGetBody)
  | .canGetBody => (c, .canGetUnlock c.canGet)
  | .canGetUnlock _ => (c, .between)
  | .getLock => (c, .getBody)
  | .getBody =>
      match c.nbGet with
      | none => (c, .getUnlock none)
      | some (p, c') => (c', .getPulse p)
  | .getPulse p => (c, .getRelock p)
  | .getRelock p => (c, .getUnlock (some p))
  | .getUnlock _ => (c, .between)
  | .putLock p => (c, .putBody p)
  | .putBody p => (c.nbPut p, .putPulse)
  | .putPulse => (c, .putRelock)
  | .putRelock => (c, .putUnlock)
  | .putUnlock => (c, .between)
  | .updatePushLock => (c, .updatePushBody)
  | .updatePushBody => (c.updatePush, .updatePushUnlock)
  | .updatePushUnlock => (c, .updatePullLock)
  | .updatePullLock => (c, .updatePullBody)
  | .updatePullBody => (c.updatePull, .updatePullUnlock)
  | .updatePullUnlock => (c, .between)

/-- The mutexes the kernel's thread holds: it gives a mutex that others wait for away only
to take it back. -/
def holds : KernelPoint α → ChannelMutex → Bool
  | .getRelock _, .waitGet => false
  | .putRelock, .waitPut => false
  | _, .waitGet | _, .waitPut => true
  | .canGetBody, .toSysc | .canGetUnlock _, .toSysc => true
  | .getBody, .toSysc | .getPulse _, .toSysc | .getRelock _, .toSysc | .getUnlock _, .toSysc => true
  | .updatePushBody, .toSysc | .updatePushUnlock, .toSysc => true
  | .putBody _, .fmSysc | .putPulse, .fmSysc | .putRelock, .fmSysc | .putUnlock, .fmSysc => true
  | .updatePullBody, .fmSysc | .updatePullUnlock, .fmSysc => true
  | _, _ => false

end KernelPoint

/-! ### The other threads -/

/-- A call any other thread makes. -/
inductive OsCall (α : Type) where
  | push (p : α)
  | canPull
  | nbPull
  | waitForPut
  | waitForGet
  deriving DecidableEq, Repr

/-- Where a thread other than the kernel's is. -/
inductive OsCallPoint (α : Type) where
  /-- It is in no call. -/
  | between
  /-- `push` -/
  | pushLock (p : α)
  | pushBody (p : α)
  | pushUnlock
  /-- `can_pull` -/
  | canPullLock
  | canPullBody
  | canPullUnlock (answer : Bool)
  /-- `nb_pull` -/
  | pullLock
  | pullBody
  | pullUnlock (pulled : Option α)
  /-- `wait_for_put` -/
  | waitPutLock
  | waitPutUnlock
  /-- `wait_for_get` -/
  | waitGetLock
  | waitGetUnlock
  deriving DecidableEq, Repr

/-- Where a call begins. -/
def OsCall.start : OsCall α → OsCallPoint α
  | .push p => .pushLock p
  | .canPull => .canPullLock
  | .nbPull => .pullLock
  | .waitForPut => .waitPutLock
  | .waitForGet => .waitGetLock

namespace OsCallPoint

/-- The operation on a mutex that comes next. -/
def op : OsCallPoint α → Option (LockOp ChannelMutex)
  | .pushLock _ => some (.lock .toSysc)
  | .pushUnlock => some (.unlock .toSysc)
  | .canPullLock | .pullLock => some (.lock .fmSysc)
  | .canPullUnlock _ | .pullUnlock _ => some (.unlock .fmSysc)
  | .waitPutLock => some (.lock .waitPut)
  | .waitPutUnlock => some (.unlock .waitPut)
  | .waitGetLock => some (.lock .waitGet)
  | .waitGetUnlock => some (.unlock .waitGet)
  | .between | .pushBody _ | .canPullBody | .pullBody => none

/-- What a step does besides an operation on a mutex, and where it leads. -/
def after (c : TlmxChannel τ α) : OsCallPoint α → TlmxChannel τ α × OsCallPoint α
  | .between => (c, .between)
  | .pushLock p => (c, .pushBody p)
  | .pushBody p => (c.push p, .pushUnlock)
  | .pushUnlock => (c, .between)
  | .canPullLock => (c, .canPullBody)
  | .canPullBody => (c, .canPullUnlock c.canPull)
  | .canPullUnlock _ => (c, .between)
  | .pullLock => (c, .pullBody)
  | .pullBody =>
      match c.nbPull with
      | none => (c, .pullUnlock none)
      | some (p, c') => (c', .pullUnlock (some p))
  | .pullUnlock _ => (c, .between)
  | .waitPutLock => (c, .waitPutUnlock)
  | .waitPutUnlock => (c, .between)
  | .waitGetLock => (c, .waitGetUnlock)
  | .waitGetUnlock => (c, .between)

/-- The mutexes the thread holds: none when it wants one. -/
def holds : OsCallPoint α → ChannelMutex → Bool
  | .pushBody _, .toSysc | .pushUnlock, .toSysc => true
  | .canPullBody, .fmSysc | .canPullUnlock _, .fmSysc => true
  | .pullBody, .fmSysc | .pullUnlock _, .fmSysc => true
  | .waitPutUnlock, .waitPut => true
  | .waitGetUnlock, .waitGet => true
  | _, _ => false

end OsCallPoint

/-! ### All threads -/

/-- The channel, and where every thread is. -/
structure Contention (ι α : Type) where
  chan : TlmxChannel (Party ι) α
  kernel : KernelPoint α
  os : ι → OsCallPoint α

/-- What can happen next. -/
inductive ContentionAction (ι α : Type) where
  /-- The kernel's thread makes a call. -/
  | callKernel (call : KernelCall α)
  /-- The kernel's thread goes on. -/
  | kernel
  /-- Another thread makes a call. -/
  | callOs (i : ι) (call : OsCall α)
  /-- Another thread goes on. -/
  | os (i : ι)
  deriving DecidableEq, Repr

/-- The operation of a thread on a mutex: it has to wait for one that somebody owns. -/
def TlmxChannel.operate (c : TlmxChannel τ α) (thread : τ) :
    Option (LockOp ChannelMutex) → Option (TlmxChannel τ α)
  | none => some c
  | some (.lock m) =>
      match c.owner m with
      | none => some (c.setOwner m (some thread))
      | some _ => none
  | some (.unlock m) => some (c.setOwner m none)

namespace Contention

variable [DecidableEq ι]

/-- The state after an action. -/
def step (s : Contention ι α) : ContentionAction ι α → Option (Contention ι α)
  | .callKernel call =>
      match s.kernel with
      | .between => some { s with kernel := call.start }
      | _ => none
  | .kernel =>
      (s.chan.operate .kernel s.kernel.op).map fun c =>
        { s with chan := (s.kernel.after c).1, kernel := (s.kernel.after c).2 }
  | .callOs i call =>
      match s.os i with
      | .between => some { s with os := Function.update s.os i call.start }
      | _ => none
  | .os i =>
      (s.chan.operate (.os i) (s.os i).op).map fun c =>
        { s with
          chan := ((s.os i).after c).1, os := Function.update s.os i ((s.os i).after c).2 }

end Contention

/-- The channel as the kernel's thread has constructed it. -/
def contentionMachine (ι α : Type) [DecidableEq ι] :
    Machine (Contention ι α) (ContentionAction ι α) where
  init := { chan := .new .kernel, kernel := .between, os := fun _ => .between }
  step := Contention.step

/-! ### The code keeps its discipline -/

/-- The places of a thread. -/
def Place (α : Type) : Party ι → Type
  | .kernel => KernelPoint α
  | .os _ => OsCallPoint α

/-- What a thread does next with a mutex. -/
def opAt : ∀ t : Party ι, Place α t → Option (LockOp ChannelMutex)
  | .kernel, p => KernelPoint.op p
  | .os _, p => OsCallPoint.op p

/-- What a thread holds. -/
def holdsAt : ∀ t : Party ι, Place α t → ChannelMutex → Bool
  | .kernel, p => KernelPoint.holds p
  | .os _, p => OsCallPoint.holds p

/-- Where a thread can go from a place. -/
def nextAt : ∀ t : Party ι, Place α t → Place α t → Prop
  | .kernel, (p : KernelPoint α), p' => (p = .between ∧ ∃ call : KernelCall α, p' = call.start) ∨
      ∃ c : TlmxChannel (Party ι) α, p' = (p.after c).2
  | .os _, (p : OsCallPoint α), p' => (p = .between ∧ ∃ call : OsCall α, p' = call.start) ∨
      ∃ c : TlmxChannel (Party ι) α, p' = (p.after c).2

theorem KernelPoint.suits (p : KernelPoint α) : Suits p.holds p.op := by
  cases p with
  | between | canGetBody | getBody | putBody | updatePushBody | updatePullBody => trivial
  | _ => rfl

theorem OsCallPoint.suits (p : OsCallPoint α) : Suits p.holds p.op := by
  cases p with
  | between | pushBody | canPullBody | pullBody => trivial
  | _ => rfl

theorem KernelPoint.holds_after (p : KernelPoint α) (c : TlmxChannel τ α) :
    (p.after c).2.holds = heldAfter p.holds p.op := by
  funext m
  cases p with
  | getBody =>
      simp only [KernelPoint.after]
      cases c.nbGet <;> cases m <;> rfl
  | _ => cases m <;> rfl

theorem OsCallPoint.holds_after (p : OsCallPoint α) (c : TlmxChannel τ α) :
    (p.after c).2.holds = heldAfter p.holds p.op := by
  funext m
  cases p with
  | pullBody =>
      simp only [OsCallPoint.after]
      cases c.nbPull <;> cases m <;> rfl
  | _ => cases m <;> rfl

theorem KernelCall.holds_start (call : KernelCall α) :
    call.start.holds = KernelPoint.between.holds (α := α) := by
  funext m
  cases call <;> cases m <;> rfl

theorem OsCall.holds_start (call : OsCall α) :
    call.start.holds = OsCallPoint.between.holds (α := α) := by
  funext m
  cases call <;> cases m <;> rfl

theorem discipline : Discipline (θ := Party ι) (π := Place α) opAt nextAt holdsAt where
  suits := by
    intro t p
    cases t with
    | kernel => exact KernelPoint.suits p
    | os i => exact OsCallPoint.suits p
  follows := by
    intro t p p' hnext
    cases t with
    | kernel =>
        obtain ⟨rfl, call, rfl⟩ | ⟨c, rfl⟩ := hnext
        · exact call.holds_start
        · exact KernelPoint.holds_after p c
    | os i =>
        obtain ⟨rfl, call, rfl⟩ | ⟨c, rfl⟩ := hnext
        · exact call.holds_start
        · exact OsCallPoint.holds_after p c

theorem OsCallPoint.holds_of_lock {p : OsCallPoint α} {m : ChannelMutex}
    (hop : p.op = some (.lock m)) (m' : ChannelMutex) : p.holds m' = false := by
  cases p with
  | pushLock p | canPullLock | pullLock | waitPutLock | waitGetLock => rfl
  | _ => exact absurd hop nofun

/-! ### A step is a move -/

theorem KernelPoint.owner_after (p : KernelPoint α) (c : TlmxChannel τ α) :
    (p.after c).1.owner = c.owner := by
  funext m
  cases p with
  | getBody =>
      simp only [KernelPoint.after, TlmxChannel.nbGet]
      cases c.queueToSysc.getLast? <;> cases m <;> rfl
  | updatePushBody =>
      simp only [KernelPoint.after, TlmxChannel.updatePush_eq]
      cases m <;> rfl
  | updatePullBody =>
      simp only [KernelPoint.after, TlmxChannel.updatePull_eq]
      cases m <;> rfl
  | _ => cases m <;> rfl

theorem OsCallPoint.owner_after (p : OsCallPoint α) (c : TlmxChannel τ α) :
    (p.after c).1.owner = c.owner := by
  funext m
  cases p with
  | pullBody =>
      simp only [OsCallPoint.after, TlmxChannel.nbPull]
      cases c.queueFmSysc.getLast? <;> cases m <;> rfl
  | _ => cases m <;> rfl

theorem operates_of_operate {c c' : TlmxChannel τ α} {thread : τ}
    {o : Option (LockOp ChannelMutex)} (h : c.operate thread o = some c') :
    Operates c.owner thread o c'.owner := by
  cases o with
  | none =>
      obtain rfl := Option.some.inj h
      exact .none
  | some op =>
      cases op with
      | lock m =>
          simp only [TlmxChannel.operate] at h
          split at h
          · next hfree =>
            obtain rfl := Option.some.inj h
            rw [TlmxChannel.owner_setOwner]
            exact .lock hfree
          · exact absurd h (by simp)
      | unlock m =>
          obtain rfl := Option.some.inj h
          rw [TlmxChannel.owner_setOwner]
          exact .unlock

namespace Contention

/-- The owners and the places. -/
def threads (s : Contention ι α) : Threads (Party ι) ChannelMutex (Place α) where
  owner := s.chan.owner
  place
    | .kernel => s.kernel
    | .os i => s.os i

section
variable {s s' : Contention ι α}

theorem place_of_ne_kernel (hos : s'.os = s.os) (u : Party ι) (hu : u ≠ .kernel) :
    s'.threads.place u = s.threads.place u := by
  cases u with
  | kernel => exact absurd rfl hu
  | os i => exact congrFun hos i

theorem place_of_ne_os [DecidableEq ι] {i : ι} {p : OsCallPoint α}
    (hkernel : s'.kernel = s.kernel) (hos : s'.os = Function.update s.os i p) (u : Party ι)
    (hu : u ≠ .os i) : s'.threads.place u = s.threads.place u := by
  cases u with
  | kernel => exact hkernel
  | os j =>
      show s'.os j = s.os j
      rw [hos]
      exact Function.update_of_ne (fun hj => hu (congrArg Party.os hj)) _ _

end

variable [DecidableEq ι] {s s' : Contention ι α}

theorem moves_of_step {a : ContentionAction ι α} (h : s.step a = some s') :
    ∃ t, Moves opAt nextAt s.threads t s'.threads := by
  cases a with
  | callKernel call =>
      simp only [step] at h
      split at h
      · next hpoint =>
        obtain rfl := Option.some.inj h
        refine ⟨.kernel, ?_, Or.inl ⟨hpoint, call, rfl⟩, ?_⟩
        · show Operates s.chan.owner .kernel s.kernel.op s.chan.owner
          rw [hpoint]
          exact .none
        · exact place_of_ne_kernel rfl
      · exact absurd h (by simp)
  | kernel =>
      obtain ⟨c, hc, rfl⟩ := Option.map_eq_some_iff.mp h
      refine ⟨.kernel, ?_, Or.inr ⟨c, rfl⟩, ?_⟩
      · show Operates s.chan.owner .kernel s.kernel.op (s.kernel.after c).1.owner
        rw [KernelPoint.owner_after]
        exact operates_of_operate hc
      · exact place_of_ne_kernel rfl
  | callOs i call =>
      simp only [step] at h
      split at h
      · next hpoint =>
        obtain rfl := Option.some.inj h
        refine ⟨.os i, ?_, Or.inl ⟨hpoint, call, Function.update_self ..⟩, ?_⟩
        · show Operates s.chan.owner (.os i) (s.os i).op s.chan.owner
          rw [hpoint]
          exact .none
        · exact place_of_ne_os rfl rfl
      · exact absurd h (by simp)
  | os i =>
      obtain ⟨c, hc, rfl⟩ := Option.map_eq_some_iff.mp h
      refine ⟨.os i, ?_, Or.inr ⟨c, Function.update_self ..⟩, ?_⟩
      · show Operates s.chan.owner (.os i) (s.os i).op ((s.os i).after c).1.owner
        rw [OsCallPoint.owner_after]
        exact operates_of_operate hc
      · exact place_of_ne_os rfl rfl

/-- The owner of a mutex is the thread that is at a place where it holds it. -/
theorem owned_of_reachable (h : Reachable (contentionMachine ι α) s) :
    Owned holdsAt s.threads := by
  refine h.invariant (P := fun s => Owned holdsAt s.threads) ?_ ?_
  · intro m t
    cases t with
    | kernel =>
        show (TlmxChannel.new Party.kernel).owner m = some Party.kernel ↔
          KernelPoint.between.holds (α := α) m = true
        cases m with
        | toSysc | fmSysc => exact iff_of_false nofun nofun
        | waitGet | waitPut => exact iff_of_true rfl rfl
    | os i =>
        show (TlmxChannel.new Party.kernel).owner m = some (Party.os i) ↔
          OsCallPoint.between.holds (α := α) m = true
        cases m <;> exact iff_of_false nofun nofun
  · intro s a s' _ howned _ hstep
    obtain ⟨t, hmoves⟩ := moves_of_step hstep
    exact howned.moves discipline hmoves

/-- The operation on a mutex that a thread does next. -/
def nextOp (s : Contention ι α) : Party ι → Option (LockOp ChannelMutex)
  | .kernel => s.kernel.op
  | .os i => (s.os i).op

/-- The thread wants a mutex that somebody owns. -/
def Stalled (s : Contention ι α) (t : Party ι) : Prop :=
  ∃ m u, s.nextOp t = some (.lock m) ∧ s.chan.owner m = some u

/-- The kernel's side of the channel goes on, and nobody unlocks what is not his. -/
structure Sound (s : Contention ι α) : Prop where
  home : s.kernel = .between →
    s.chan.mutexWaitGet = some .kernel ∧ s.chan.mutexWaitPut = some .kernel
  unlocks : ∀ t m, s.nextOp t = some (.unlock m) → s.chan.owner m = some t
  waits : ∀ m u, s.nextOp .kernel = some (.lock m) → s.chan.owner m = some u →
    u ≠ .kernel ∧ ¬ s.Stalled u

omit [DecidableEq ι] in
theorem nextOp_eq (s : Contention ι α) (t : Party ι) :
    s.nextOp t = opAt t (s.threads.place t) := by
  cases t <;> rfl

omit [DecidableEq ι] in
theorem not_stalled_of_owner (h : Owned holdsAt s.threads) {m : ChannelMutex} {i : ι}
    (howner : s.chan.owner m = some (.os i)) : ¬ s.Stalled (.os i) := by
  intro hstalled
  obtain ⟨m', u, hop, hu⟩ := hstalled
  have hblocked : Blocked opAt s.threads (.os i) := ⟨m', u, hop, hu⟩
  refine h.not_blocked ?_ howner hblocked
  intro p l hlock
  exact OsCallPoint.holds_of_lock hlock

end Contention

variable [DecidableEq ι]

/-- Any number of threads use the channel beside the kernel's: the kernel's thread owns
the two mutexes that are waited for whenever it is in no call, every unlock is the
owner's, and whoever keeps the kernel's thread from a mutex is another thread that can go
on. -/
theorem channel_locks_sound {s : Contention ι α} (h : Reachable (contentionMachine ι α) s) :
    s.Sound := by
  have howned := Contention.owned_of_reachable h
  refine ⟨?_, ?_, ?_⟩
  · intro hbetween
    have hholds : ∀ m, KernelPoint.between.holds (α := α) m = true →
        s.chan.owner m = some .kernel := by
      intro m hm
      refine (howned m .kernel).mpr ?_
      show s.kernel.holds m = true
      rw [hbetween]
      exact hm
    exact ⟨hholds .waitGet rfl, hholds .waitPut rfl⟩
  · intro t m hop
    rw [Contention.nextOp_eq] at hop
    exact howned.owner_of_unlock discipline hop
  · intro m u hop howner
    rw [Contention.nextOp_eq] at hop
    have hne : u ≠ .kernel := howned.ne_of_lock discipline hop howner
    cases u with
    | kernel => exact absurd rfl hne
    | os i => exact ⟨hne, Contention.not_stalled_of_owner howned howner⟩

/-- The kernel's thread is in `nb_get`, about to take `m_mutex_wait_get` back, which a
thread in `wait_for_get` has got. -/
def contendedGet : List (ContentionAction Nat Nat) :=
  [.callOs 1 (.push 7), .os 1, .os 1, .os 1, .callKernel .nbGet, .kernel, .kernel,
    .callOs 2 .waitForGet, .kernel, .os 2]

theorem channel_locks_sound_contendedGet : ∃ s : Contention Nat Nat,
    s.kernel = .getRelock 7 ∧ s.chan.mutexWaitGet = some (.os 2) ∧ s.Sound := by
  have hrun : ((contentionMachine Nat Nat).run (contentionMachine Nat Nat).init contendedGet).map
      (fun s => (s.kernel, s.chan.mutexWaitGet)) = some (.getRelock 7, some (.os 2)) := by decide
  obtain ⟨s, hreach, hs⟩ := Machine.exists_of_run hrun
  obtain ⟨hkernel, howner⟩ := Prod.mk.inj hs
  exact ⟨s, hkernel, howner, channel_locks_sound hreach⟩

end Demonstrator
