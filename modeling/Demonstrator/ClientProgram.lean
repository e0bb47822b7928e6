/-
Programs that call the driver.

A program calls `dev_put` and `dev_get`, and what it does next depends on what they
returned.  `aloneStep` runs such a program with `devTransport` for a function, and
`Client.step` runs it over the stack, where a call takes as many steps of the threads, in
any order, as it needs.  Whatever the program is, it cannot tell the two apart:
`program_runs_as_alone` is about where it can get to, and `program_ends_iff` about whether
it gets to its end.
-/
import Demonstrator.CallReturns

namespace Demonstrator

open ByteMemory Transition

variable {σ : Type}

/-- What a program does next. -/
inductive ClientMove (σ : Type) where
  /-- Something other than a call. -/
  | goes (next : σ)
  /-- A call; the program goes on with what it returns and leaves in the buffer. -/
  | calls (call : DevCall) (resume : Int × Mem → σ)
  | stops

/-- A step of the program by itself, which calls `devTransport` like a function. -/
def aloneStep (c : TlmxCodec) (move : σ → ClientMove σ) (s : σ × SyscState) :
    Option (σ × SyscState) :=
  match move s.1 with
  | .goes next => some (next, s.2)
  | .calls call resume =>
      -- a message that does not fit would run over the end of `send_message`
      if call.Fits c then
        match devTransport c s.2 call with
        | .ok (after, ret, buffer) => some (resume (ret, buffer), after)
        | .error _ => none
      else none
  | .stops => none

def aloneMachine (c : TlmxCodec) (move : σ → ClientMove σ) (start : σ) (s₀ : SyscState) :
    Machine (σ × SyscState) Unit where
  init := (start, s₀)
  step s _ := aloneStep c move s

/-- The program and the stack; while a call is in flight the program waits. -/
structure Client (σ : Type) where
  program : σ
  stack : Stack

inductive ClientAction where
  /-- The program takes a step, or makes a call. -/
  | program
  /-- The stack goes on. -/
  | stack (a : StackAction)

/-- The stack has gone on; if the call has returned, the program goes on with the result. -/
def Client.resume (move : σ → ClientMove σ) (s : Client σ) (stack : Stack) : Client σ :=
  match s.stack.inFlight, stack.inFlight, move s.program, stack.returned.getLast? with
  | some _, none, .calls _ resume, some r =>
      { program := resume (r.1, r.2.data), stack := stack }
  | _, _, _, _ => { s with stack := stack }

def Client.step (c : TlmxCodec) (move : σ → ClientMove σ) (s : Client σ) :
    ClientAction → Option (Client σ)
  | .program =>
      match move s.program with
      | .goes next =>
          if s.stack.inFlight.isNone ∧ s.stack.halted.isNone then some { s with program := next }
          else none
      | .calls call _ => (s.stack.step c (.call call)).map fun stack => { s with stack := stack }
      | .stops => none
  -- only the program makes calls
  | .stack (.call _) => none
  | .stack a => (s.stack.step c a).map (s.resume move)

def clientMachine (c : TlmxCodec) (move : σ → ClientMove σ) (start : σ) (s₀ : SyscState) :
    Machine (Client σ) ClientAction where
  init := { program := start, stack := .initial c s₀ }
  step := Client.step c move

/-- A condition on what the stack does. -/
def OnStack (ok : Stack → StackAction → Prop) (s : Client σ) : ClientAction → Prop
  | .program => True
  | .stack a => ok s.stack a

/-! ### The stack under a program -/

section Stack

variable {c : TlmxCodec} {move : σ → ClientMove σ}

/-- Each way a step can go. -/
inductive Client.Takes (c : TlmxCodec) (move : σ → ClientMove σ) (s : Client σ) :
    ClientAction → Client σ → Prop
  | goes {next : σ} (hmove : move s.program = .goes next) (hfree : s.stack.inFlight = none) :
      Takes c move s .program { s with program := next }
  | calls {call : DevCall} {resume : Int × Mem → σ} {stack : Stack}
      (hmove : move s.program = .calls call resume)
      (hstack : s.stack.step c (.call call) = some stack) :
      Takes c move s .program { s with stack := stack }
  | stack {a : StackAction} {stack : Stack} (ha : ∀ call, a ≠ .call call)
      (hstack : s.stack.step c a = some stack) :
      Takes c move s (.stack a) (s.resume move stack)

theorem Client.takes_of_step {s s' : Client σ} {a : ClientAction}
    (h : s.step c move a = some s') : s.Takes c move a s' := by
  cases a with
  | program =>
      simp only [Client.step] at h
      cases hmove : move s.program with
      | goes next =>
          simp only [hmove] at h
          obtain ⟨⟨hfree, -⟩, rfl⟩ := Option.ite_some_none_eq_some.mp h
          exact .goes hmove (Option.isNone_iff_eq_none.mp hfree)
      | calls call resume =>
          simp only [hmove] at h
          obtain ⟨stack, hstack, rfl⟩ := Option.map_eq_some_iff.mp h
          exact .calls hmove hstack
      | stops =>
          simp only [hmove] at h
          exact absurd h (by simp)
  | stack a =>
      cases a with
      | call call => exact absurd h (by simp [Client.step])
      | _ =>
          obtain ⟨stack, hstack, rfl⟩ := Option.map_eq_some_iff.mp h
          exact .stack (fun call hc => by cases hc) hstack

theorem Client.resume_stack (s : Client σ) (stack : Stack) :
    (s.resume move stack).stack = stack := by
  unfold Client.resume
  split <;> rfl

/-- Unless it is a call, what the stack does keeps the calls, and the one in flight goes on
or returns. -/
theorem Stack.Takes.inFlight {s s' : Stack} {a : StackAction} (h : s.Takes c a s')
    (ha : ∀ call, a ≠ .call call) :
    s'.calls = s.calls ∧ (s'.inFlight = s.inFlight ∧ s'.returned = s.returned ∨
      s.inFlight.isSome = true ∧ s'.inFlight = none ∧
        ∃ result, s'.returned = s.returned ++ [result]) := by
  cases h with
  | call => exact absurd rfl (ha _)
  | @clientRead call n hflight =>
      unfold Stack.decode
      split
      · exact ⟨rfl, Or.inl ⟨rfl, rfl⟩⟩
      · exact ⟨rfl, Or.inr ⟨by rw [hflight]; rfl, rfl, _, rfl⟩⟩
  | sysc =>
      split
      · exact ⟨rfl, Or.inl ⟨rfl, rfl⟩⟩
      · exact ⟨rfl, Or.inl ⟨rfl, rfl⟩⟩
  | giveUp | request | respond | fails | os | transport | notify =>
      exact ⟨rfl, Or.inl ⟨rfl, rfl⟩⟩

end Stack

/-! ### Beside the program alone -/

/-- The program by itself is in the state `a`: it has had the calls that have returned. -/
structure Alongside (c : TlmxCodec) (s₀ : SyscState) (move : σ → ClientMove σ) (s : Client σ)
    (a : σ × SyscState) : Prop where
  reachable : ReachableVia (stackMachine c s₀) WholeReads s.stack
  program : a.1 = s.program
  calling : ∀ call, s.stack.inFlight = some call →
    call.Fits c ∧ ∃ resume, move s.program = .calls call resume
  sysc : ∃ done, Sequential c s₀ s.stack done ∧ a.2 = callsAfter c s₀ done

section Alongside

variable {c : TlmxCodec} {move : σ → ClientMove σ} {start : σ} {s₀ : SyscState} {s : Client σ}
  {a : σ × SyscState} {call : DevCall} {stack : Stack}

theorem Alongside.initial (c : TlmxCodec) (move : σ → ClientMove σ) (start : σ) (s₀ : SyscState) :
    Alongside c s₀ move (clientMachine c move start s₀).init (start, s₀) where
  reachable := .init
  program := rfl
  calling call h := by cases h
  sysc := ⟨[], ⟨rfl, rfl, fun _ h => absurd h List.not_mem_nil, rfl, fun _ => rfl⟩, rfl⟩

theorem Alongside.sysc_eq (h : Alongside c s₀ move s a) (hfree : s.stack.inFlight = none) :
    s.stack.sysc = a.2 := by
  obtain ⟨done, hdone, hsysc⟩ := h.sysc
  exact (hdone.sysc hfree).trans hsysc.symm

theorem Alongside.goes (h : Alongside c s₀ move s a) {next : σ}
    (hmove : move s.program = .goes next) (hfree : s.stack.inFlight = none) :
    aloneStep c move a = some (next, a.2) ∧
      Alongside c s₀ move { s with program := next } (next, a.2) := by
  refine ⟨?_, h.reachable, rfl, fun call hcall => ?_, h.sysc⟩
  · simp only [aloneStep, h.program, hmove]
  · exact absurd (hfree.symm.trans hcall) (by simp)

theorem Alongside.calls (h : Alongside c s₀ move s a) {resume : Int × Mem → σ}
    (hmove : move s.program = .calls call resume)
    (hstack : s.stack.step c (.call call) = some stack) :
    Alongside c s₀ move { s with stack := stack } a := by
  have hreach : ReachableVia (stackMachine c s₀) WholeReads stack :=
    h.reachable.step (a := .call call) trivial hstack
  obtain ⟨-, htakes⟩ := Stack.takes_of_step hstack
  obtain ⟨done, hdone, hsysc⟩ := h.sysc
  cases htakes with
  | call hfree hfit =>
      refine ⟨hreach, h.program, ?_, ?_⟩
      · intro call' hcall
        obtain rfl : call = call' := Option.some.inj hcall
        exact ⟨hfit, resume, hmove⟩
      · obtain ⟨done', hdone'⟩ := sequential_of_reachable hreach
        have hsame : done = done' := by
          have hcalls : s.stack.calls ++ [call] = done' ++ [call] := hdone'.calls
          rw [hdone.calls, hfree] at hcalls
          simpa using hcalls
        exact ⟨done, hsame ▸ hdone', hsysc⟩

theorem Alongside.waits (h : Alongside c s₀ move s a) {b : StackAction}
    (hreach : ReachableVia (stackMachine c s₀) WholeReads stack)
    (hstack : s.stack.Takes c b stack) (hb : ∀ call, b ≠ .call call)
    (hflight : stack.inFlight = s.stack.inFlight) :
    Alongside c s₀ move { s with stack := stack } a := by
  obtain ⟨hcalls, -⟩ := hstack.inFlight hb
  refine ⟨hreach, h.program, fun call hcall => h.calling call (hflight.symm.trans hcall), ?_⟩
  obtain ⟨done, hdone, hsysc⟩ := h.sysc
  obtain ⟨done', hdone'⟩ := sequential_of_reachable hreach
  have hsame : done' ++ s.stack.inFlight.toList = done ++ s.stack.inFlight.toList := by
    rw [← hdone.calls, ← hflight, ← hdone'.calls, hcalls]
  exact ⟨done', hdone', by rw [hsysc, List.append_cancel_right hsame]⟩

/-- The call returns what it returns when it is a function. -/
theorem Alongside.returns (h : Alongside c s₀ move s a) (hflight : s.stack.inFlight = some call)
    (hreach : ReachableVia (stackMachine c s₀) WholeReads stack)
    (hcalls : stack.calls = s.stack.calls) (hnone : stack.inFlight = none) :
    ∃ a', aloneStep c move a = some a' ∧ Alongside c s₀ move (s.resume move stack) a' := by
  obtain ⟨hfit, resume, hmove⟩ := h.calling call hflight
  obtain ⟨done, hdone, hsysc⟩ := h.sysc
  obtain ⟨done', hdone'⟩ := sequential_of_reachable hreach
  obtain rfl : done' = done ++ [call] := by
    have hsame := hdone'.calls.symm.trans (hcalls.trans hdone.calls)
    rw [hnone, hflight] at hsame
    simpa using hsame
  have hlast : stack.returned.getLast?.map (fun r => (r.1, r.2.data)) =
      some (callReturn c a.2 call, callBuffer c a.2 call) := by
    rw [← List.getLast?_map, hdone'.returned, Mealy.outputs_concat, List.map_append, hsysc]
    simp only [List.map_cons, List.map_nil, List.getLast?_concat]
    rw [← replyReturn_callReply]
    rfl
  obtain ⟨r, hr, hresult⟩ := Option.map_eq_some_iff.mp hlast
  refine ⟨(resume (callReturn c a.2 call, callBuffer c a.2 call), callAfter c a.2 call), ?_, ?_⟩
  · simp only [aloneStep, h.program, hmove, if_pos hfit, devTransport_eq c a.2 call hfit]
  · have hresume : s.resume move stack =
        { program := resume (callReturn c a.2 call, callBuffer c a.2 call), stack := stack } := by
      simp only [Client.resume, hflight, hnone, hmove, hr]
      rw [← hresult]
    rw [hresume]
    refine ⟨hreach, rfl, fun call' hcall => ?_, done ++ [call], hdone', ?_⟩
    · exact absurd (hnone.symm.trans hcall) (by simp)
    · show callAfter c a.2 call = _
      rw [hsysc, callsAfter, callsAfter, List.foldl_append]
      rfl

theorem Client.resume_waits (hflight : stack.inFlight = s.stack.inFlight) :
    s.resume move stack = { s with stack := stack } := by
  unfold Client.resume
  cases hs : s.stack.inFlight with
  | none => rfl
  | some call => rw [hflight, hs]

theorem Alongside.step (h : Alongside c s₀ move s a) {act : ClientAction}
    (hok : OnStack WholeReads s act) {s' : Client σ} (hs : s.step c move act = some s') :
    Alongside c s₀ move s' a ∨ ∃ a', aloneStep c move a = some a' ∧ Alongside c s₀ move s' a' := by
  cases Client.takes_of_step hs with
  | goes hmove hfree => exact Or.inr ⟨_, h.goes hmove hfree⟩
  | calls hmove hstack => exact Or.inl (h.calls hmove hstack)
  | @stack b stack hb hstack =>
      have hreach := h.reachable.step hok hstack
      obtain ⟨-, htakes⟩ := Stack.takes_of_step hstack
      obtain ⟨hcalls, ⟨hflight, -⟩ | ⟨hsome, hnone, -⟩⟩ := htakes.inFlight hb
      · rw [Client.resume_waits hflight]
        exact Or.inl (h.waits hreach htakes hb hflight)
      · obtain ⟨call, hflight⟩ := Option.isSome_iff_exists.mp hsome
        exact Or.inr (h.returns hflight hreach hcalls hnone)

/-- A client over the stack is the program by itself. -/
theorem client_simulates_alone (c : TlmxCodec) (move : σ → ClientMove σ) (start : σ)
    (s₀ : SyscState) :
    Simulates (clientMachine c move start s₀) (OnStack WholeReads) (aloneMachine c move start s₀)
      (fun _ _ => True) (Alongside c s₀ move) where
  init := .initial c move start s₀
  step s act s' a h hok hs := by
    obtain hsame | ⟨a', ha, h'⟩ := h.step hok hs
    · exact Or.inl hsame
    · exact Or.inr ⟨(), a', trivial, ha, h'⟩

end Alongside

/-- In every interleaving whose reads are whole, every program that calls the driver is in a
state that it gets to by itself, with `devTransport` for a function, and neither program ends
before its time. -/
theorem program_runs_as_alone (c : TlmxCodec) (move : σ → ClientMove σ) (start : σ)
    (s₀ : SyscState) {s : Client σ}
    (h : ReachableVia (clientMachine c move start s₀) (OnStack WholeReads) s) :
    s.stack.halted = none ∧ ∃ sysc, Reachable (aloneMachine c move start s₀) (s.program, sysc) ∧
      (s.stack.inFlight = none → s.stack.sysc = sysc) := by
  obtain ⟨a, halone, hbeside⟩ := (client_simulates_alone c move start s₀).exists_reachable h
  obtain ⟨done, hdone, -⟩ := hbeside.sysc
  obtain ⟨program, sysc⟩ := a
  obtain rfl : program = s.program := hbeside.program
  exact ⟨hdone.running, sysc, halone, hbeside.sysc_eq⟩

/-- A program that makes one call and keeps what it returns. -/
def putOnce : Option Int → ClientMove (Option Int)
  | none => .calls wordPut fun r => some r.1
  | some _ => .stops

theorem program_runs_as_alone_putOnce : ∃ s : Client (Option Int),
    s.stack.inFlight = some wordPut ∧ s.stack.halted = none ∧ ∃ sysc,
      Reachable (aloneMachine leCodec putOnce none (.initial .zeroed)) (s.program, sysc) := by
  have hreach : ReachableVia (clientMachine leCodec putOnce none (.initial .zeroed))
      (OnStack WholeReads) _ := .step .init trivial (a := .program) rfl
  obtain ⟨hrun, sysc, halone, -⟩ :=
    program_runs_as_alone leCodec putOnce none (.initial .zeroed) hreach
  exact ⟨_, rfl, hrun, sysc, halone⟩

/-! ### The end of a program -/

section End

variable {c : TlmxCodec} {move : σ → ClientMove σ} {start : σ} {s₀ : SyscState} {s : Client σ}
  {a a' : σ × SyscState} {call : DevCall} {stack : Stack}

theorem Client.step_stack {b : StackAction} (hb : ∀ call, b ≠ .call call)
    (hstack : s.stack.step c b = some stack) :
    s.step c move (.stack b) = some (s.resume move stack) := by
  cases b with
  | call call => exact absurd rfl (hb call)
  | _ => simp only [Client.step, hstack, Option.map_some]

/-- Beside the program, between two calls. -/
def Resting (c : TlmxCodec) (s₀ : SyscState) (move : σ → ClientMove σ) (a : σ × SyscState)
    (s : Client σ) : Prop :=
  Alongside c s₀ move s a ∧ s.stack.inFlight = none

theorem Resting.heard (h : Resting c s₀ move a s) : ¬ Unheard s.stack.bridge := fun hunheard =>
  (hangs_of_unheard h.1.reachable hunheard).waiting h.2

theorem Alongside.leads_return (h : Alongside c s₀ move s a)
    (hflight : s.stack.inFlight = some call) (hheard : ¬ Unheard s.stack.bridge)
    (ha : aloneStep c move a = some a') :
    (clientMachine c move start s₀).Leads s (Resting c s₀ move a') := by
  refine Machine.leads_of_rank (I := fun t => Alongside c s₀ move t a ∧
    t.stack.inFlight = some call ∧ ¬ Unheard t.stack.bridge) (fun t => t.stack.rank) ?_
    ⟨h, hflight, hheard⟩
  rintro t ⟨ht, hflight, hheard⟩
  obtain ⟨b, stack, hwhole, hstack, hnext⟩ := Running.returnsNext ht.reachable hflight hheard
  obtain ⟨-, htakes⟩ := Stack.takes_of_step hstack
  have hb : ∀ call, b ≠ .call call := by
    rintro call' rfl
    cases htakes with
    | call hfree => exact absurd (hfree.symm.trans hflight) (by simp)
  have hreach := ht.reachable.step hwhole hstack
  obtain ⟨hcalls, hcase⟩ := htakes.inFlight hb
  refine ⟨.stack b, _, Client.step_stack hb hstack, ?_⟩
  obtain ⟨hsame, hreturned⟩ | ⟨-, hnone, -⟩ := hcase
  · obtain hlt | ⟨-, -, hheard', hrank⟩ := hnext
    · rw [hreturned] at hlt
      exact absurd hlt (Nat.lt_irrefl _)
    · rw [Client.resume_waits hsame]
      exact Or.inr ⟨⟨ht.waits hreach htakes hb hsame, hsame.trans hflight, hheard'⟩, hrank⟩
  · obtain ⟨a'', ha'', ht'⟩ := ht.returns hflight hreach hcalls hnone
    obtain rfl : a'' = a' := Option.some.inj (ha''.symm.trans ha)
    refine Or.inl ⟨ht', ?_⟩
    rw [Client.resume_stack]
    exact hnone

theorem Resting.leads_step (h : Resting c s₀ move a s) (ha : aloneStep c move a = some a') :
    (clientMachine c move start s₀).Leads s (Resting c s₀ move a') := by
  obtain ⟨hbeside, hfree⟩ := h
  obtain ⟨done, hdone, -⟩ := hbeside.sysc
  have hrun := hdone.running
  cases hmove : move s.program with
  | goes next =>
      obtain ⟨halone, hnext⟩ := hbeside.goes hmove hfree
      obtain rfl : (next, a.2) = a' := Option.some.inj (halone.symm.trans ha)
      have hs : s.step c move .program = some { s with program := next } := by
        simp only [Client.step, hmove, hfree, hrun, Option.isNone_none, and_self, if_true]
      exact .of_step (a := .program) hs (.here ⟨hnext, hfree⟩)
  | calls call resume =>
      have hfit : call.Fits c := by
        by_contra hno
        simp [aloneStep, hbeside.program, hmove, hno] at ha
      obtain ⟨stack, hstack, hflight, hbridge⟩ : ∃ stack, s.stack.step c (.call call) = some stack ∧
          stack.inFlight = some call ∧ stack.bridge = s.stack.bridge := by
        refine ⟨{ s.stack with
          toServer := s.stack.toServer ++ c.pack (devRequest c call)
          inFlight := some call
          calls := s.stack.calls ++ [call] }, ?_, rfl, rfl⟩
        simp only [Stack.step, hrun, hfree, hfit, Option.isSome_none, Option.isNone_none, and_self,
          if_true, if_false, Bool.false_eq_true]
      have hs : s.step c move .program = some { s with stack := stack } := by
        simp only [Client.step, hmove, hstack, Option.map_some]
      refine .of_step (a := .program) hs ((hbeside.calls hmove hstack).leads_return hflight ?_ ha)
      show ¬ Unheard stack.bridge
      rw [hbridge]
      exact Resting.heard ⟨hbeside, hfree⟩
  | stops =>
      rw [aloneStep, hbeside.program, hmove] at ha
      exact absurd ha (by simp)

theorem Resting.leads_run {final : σ × SyscState} : ∀ {actions : List Unit} {a : σ × SyscState}
    {s : Client σ}, Resting c s₀ move a s →
      (aloneMachine c move start s₀).run a actions = some final →
      (clientMachine c move start s₀).Leads s (Resting c s₀ move final) := by
  intro actions
  induction actions with
  | nil =>
      intro a s h hrun
      obtain rfl := Option.some.inj hrun
      exact .here h
  | cons b rest ih =>
      intro a s h hrun
      obtain ⟨a₁, ha, hrest⟩ := Option.bind_eq_some_iff.mp hrun
      exact (h.leads_step ha).trans fun t ht => ih ht hrest

/-- A client in which nothing has been missed can do what its program still does by itself. -/
theorem Alongside.leads_end (h : Alongside c s₀ move s a) (hheard : ¬ Unheard s.stack.bridge)
    {final : σ × SyscState} (hstops : move final.1 = .stops)
    (hend : (aloneMachine c move start s₀).Leads a (· = final)) :
    (clientMachine c move start s₀).Leads s (Resting c s₀ move final) := by
  obtain ⟨actions, t, hrun, rfl⟩ := hend
  cases hflight : s.stack.inFlight with
  | none => exact Resting.leads_run ⟨h, hflight⟩ hrun
  | some call =>
      cases actions with
      | nil =>
          obtain rfl := Option.some.inj hrun
          obtain ⟨-, resume, hmove⟩ := h.calling call hflight
          rw [h.program, hmove] at hstops
          exact absurd hstops (by simp)
      | cons b rest =>
          obtain ⟨a₁, ha, hrest⟩ := Option.bind_eq_some_iff.mp hrun
          exact (h.leads_return hflight hheard ha).trans fun t ht => ht.leads_run hrest

theorem hangs_client_step (h : Hangs s.stack) {act : ClientAction} {s' : Client σ}
    (hs : s.step c move act = some s') : Hangs s'.stack ∧ s'.program = s.program := by
  cases Client.takes_of_step hs with
  | goes hmove hfree => exact absurd hfree h.waiting
  | calls hmove hstack => exact ⟨(h.step hstack).1, rfl⟩
  | @stack b stack hb hstack =>
      have hhangs := (h.step hstack).1
      obtain ⟨-, htakes⟩ := Stack.takes_of_step hstack
      obtain ⟨-, ⟨hflight, -⟩ | ⟨-, hnone, -⟩⟩ := htakes.inFlight hb
      · rw [Client.resume_waits hflight]
        exact ⟨hhangs, rfl⟩
      · exact absurd hnone hhangs.waiting

/-- What holds at the end of a program, and in no call of it. -/
theorem leads_iff_heard (h : ReachableVia (clientMachine c move start s₀) (OnStack WholeReads) s)
    {final : σ} {sysc : SyscState} {Q : Client σ → Prop}
    (hend : Reachable (aloneMachine c move start s₀) (final, sysc)) (hstops : move final = .stops)
    (hQ : ∀ t, Resting c s₀ move (final, sysc) t → Q t)
    (hno : ∀ t call resume, t.stack.inFlight ≠ none → move t.program = .calls call resume → ¬ Q t) :
    (clientMachine c move start s₀).Leads s Q ↔ ¬ Unheard s.stack.bridge := by
  obtain ⟨a, halone, hbeside⟩ := (client_simulates_alone c move start s₀).exists_reachable h
  constructor
  · intro hleads hunheard
    have hhangs := hangs_of_unheard hbeside.reachable hunheard
    obtain ⟨call, hflight⟩ := Option.ne_none_iff_exists'.mp hhangs.waiting
    obtain ⟨-, resume, hmove⟩ := hbeside.calling call hflight
    refine Machine.not_leads_of_trap (P := fun t => Hangs t.stack ∧ t.program = s.program) ?_ ?_
      ⟨hhangs, rfl⟩ hleads
    · rintro t act t' ⟨ht, hsame⟩ hs
      obtain ⟨ht', hprogram⟩ := hangs_client_step ht hs
      exact ⟨ht', hprogram.trans hsame⟩
    · rintro t ⟨ht, hsame⟩
      exact hno t call resume ht.waiting (hsame ▸ hmove)
  · intro hheard
    have hrest : (aloneMachine c move start s₀).Leads a (· = (final, sysc)) := by
      refine Machine.leads_to_end ?_ ?_ hend halone
      · intro t b b' t' t'' ht ht'
        exact Option.some.inj (ht.symm.trans ht')
      · intro b
        show aloneStep c move (final, sysc) = none
        simp only [aloneStep, hstops]
    exact (hbeside.leads_end hheard hstops hrest).trans fun t ht => .here (hQ t ht)

end End

/-- Of a program that comes to an end by itself: over the stack it can still come to that
end, with the device it then leaves, if and only if nothing has been missed. -/
theorem program_ends_iff (c : TlmxCodec) (move : σ → ClientMove σ) (start : σ) (s₀ : SyscState)
    {s : Client σ} (h : ReachableVia (clientMachine c move start s₀) (OnStack WholeReads) s)
    {final : σ} {sysc : SyscState}
    (hend : Reachable (aloneMachine c move start s₀) (final, sysc)) (hstops : move final = .stops) :
    (clientMachine c move start s₀).Leads s
        (fun t => t.program = final ∧ t.stack.inFlight = none ∧ t.stack.sysc = sysc) ↔
      ¬ Unheard s.stack.bridge := by
  refine leads_iff_heard h hend hstops ?_ ?_
  · rintro t ⟨ht, hfree⟩
    exact ⟨ht.program.symm, hfree, ht.sysc_eq hfree⟩
  · rintro t call resume hwaits - ⟨-, hfree, -⟩
    exact hwaits hfree

theorem program_ends_iff_putOnce : ∃ sysc,
    (clientMachine leCodec putOnce none (.initial .zeroed)).Leads
      ⟨none, .initial leCodec (.initial .zeroed)⟩
      fun t => t.program = some 0 ∧ t.stack.inFlight = none ∧ t.stack.sysc = sysc := by
  have hret : callReturn leCodec (.initial .zeroed) wordPut = 0 := by decide
  have hfit : wordPut.Fits leCodec := by decide
  have hcall : aloneStep leCodec putOnce (none, .initial .zeroed)
      = some (some 0, callAfter leCodec (.initial .zeroed) wordPut) := by
    simp only [aloneStep, putOnce, if_pos hfit, devTransport_eq leCodec _ wordPut hfit, hret]
  have hend : Reachable (aloneMachine leCodec putOnce none (.initial .zeroed))
      (some 0, callAfter leCodec (.initial .zeroed) wordPut) :=
    .step .init trivial (a := ()) hcall
  exact ⟨_, (program_ends_iff leCodec putOnce none (.initial .zeroed) .init hend rfl).mpr
    (Heeding.initial.heard .initial)⟩

end Demonstrator
