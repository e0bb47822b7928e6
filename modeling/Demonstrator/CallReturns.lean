/-
Whether a call returns.

That a call returns what it should when it returns is said of the stack elsewhere.  Here
is when it does return.  Nobody forces the OS thread to take `m_mutex_wait_put` in time,
or keeps it from pushing before the initiator waits, so a call may hang; but the stack has
no other way to hang.  `call_returns_iff` is the exact condition, on the state: as long as
nothing has been missed (`Unheard`) some way of going on gets the call to return, and once
something has been missed none does.  `call_returns_attentive` is about runs: one in which
the pulses and the first update phase are attended to never comes to such a state.
-/
import Demonstrator.Hearing
import Demonstrator.StackSession

namespace Demonstrator

open ByteMemory Transition

/-! ### Runs that miss nothing -/

/-- The next operation puts a request into its queue. -/
def OsPoint.atPush {α : Type} : OsPoint α → Bool
  | .pushBody _ => true
  | _ => false

/-- The first update phase, which comes before any process has run. -/
def Phase.updatesFirst : Phase → Bool
  | .update true _ => true
  | _ => false

/-- No request is pushed in the first update phase, and `nb_put` locks `m_mutex_wait_put`
again only when the OS thread has left its `wait_for_put`. -/
def InTime {α : Type} (b : Bridge α) : BridgeAction α → Prop
  | .os => b.os.atPush = true → b.phase.updatesFirst = false
  | .sysc => b.initiator = .putRelock → b.os.beforeWait = false
  | .receive _ | .receiveExit | .transport _ | .notify _ => True

/-- The same of the stack. -/
def Attentive (s : Stack) : StackAction → Prop
  | .os => InTime s.bridge .os
  | .sysc => InTime s.bridge .sysc
  | .call _ | .clientRead _ | .serverRead _ | .transport | .notify _ => True

/-- Why nothing has been missed. -/
structure Heeding {α : Type} (b : Bridge α) : Prop where
  announced : Announced b
  attended : Attended b
  unpushed : b.phase = .elaborated ∨ b.phase.updatesFirst = true → b.pushed = []

section Heeding

variable {α : Type} {ignore : α} {b b' : Bridge α}

theorem Heeding.initial : Heeding (Bridge.initial α) :=
  ⟨fun hfm => absurd rfl hfm, .initial, fun _ => rfl⟩

theorem pushed_osStep (hs : b.osStep = some b') :
    b'.phase = b.phase ∧ (b.os.atPush = true ∨ b'.pushed = b.pushed) := by
  unfold Bridge.osStep at hs
  cases hos : b.os <;> simp only [hos] at hs <;> grind [OsPoint.atPush]

theorem pushed_updateStep {initial : Bool} {point : UpdatePoint}
    (hs : b.updateStep initial point = some b') :
    b'.pushed = b.pushed ∧ b'.phase ≠ .elaborated ∧
      (b'.phase.updatesFirst = true → initial = true) := by
  unfold Bridge.updateStep at hs
  cases point <;> simp only at hs <;> grind [Phase.updatesFirst]

theorem Heeding.step {a : BridgeAction α} (h : Heeding b) (hin : InStep b) (ho : Opening b)
    (hok : InTime b a) (hs : b.step ignore a = some b') : Heeding b' := by
  refine ⟨?_, ?_, ?_⟩
  · refine h.announced.step hin ?_ hs
    cases a with
    | sysc => exact hok
    | _ => trivial
  · refine h.attended.step hin ?_ hs
    cases a with
    | sysc => exact fun hphase => h.unpushed (Or.inr (by rw [hphase]; rfl))
    | _ => trivial
  · have hunpushed := h.unpushed
    cases Bridge.takes_of_step hs with
    | os hos =>
        obtain ⟨hphase, hpush | hsame⟩ := pushed_osStep hos
        · rw [hphase]
          rintro (helaborated | hfirst)
          · rw [ho.permission.elaborated helaborated] at hpush
            exact Bool.noConfusion hpush
          · rw [hok hpush] at hfirst
            exact Bool.noConfusion hfirst
        · rw [hphase, hsame]
          exact hunpushed
    | start hphase => exact fun _ => hunpushed (Or.inl hphase)
    | @update initial point _ hphase hup =>
        obtain ⟨hsame, hnot, hfirst⟩ := pushed_updateStep hup
        rw [hsame]
        rintro (helaborated | hyes)
        · exact absurd helaborated hnot
        · refine hunpushed (Or.inr ?_)
          rw [hphase, hfirst hyes]
          rfl
    | initiator hphase hrun hini =>
        have hkeep := keepsRequest_initiatorStep hini
        rw [hkeep.phase, hkeep.pushed]
        exact hunpushed
    | evaluated | notify => rintro (hno | hno) <;> exact absurd hno (by simp [Phase.updatesFirst])
    | receive | receiveExit | transport => exact hunpushed

theorem Heeding.heard (h : Heeding b) (hin : InStep b) : ¬ Unheard b := by
  intro hun
  cases hun with
  | response hresponse hwait hpulse =>
      rw [h.announced hresponse hwait] at hpulse
      exact Bool.noConfusion hpulse
  | request hrequest hwake =>
      have htoken := h.attended.token hrequest
      omega
  | early hrequest hearly =>
      rcases hearly with ⟨point, hphase⟩ | ⟨hphase, hevent⟩
      · have hpushed : b.pushed ≠ [] := by
          refine hin.handover.pushed_ne_nil fun hnil => hrequest ?_
          unfold Bridge.inFlight at hnil
          simpa using (List.append_eq_nil_iff.mp hnil).2
        exact hpushed (h.unpushed (Or.inr (by rw [hphase]; rfl)))
      · rw [(h.attended.quiet (by rw [hphase]; rfl)).1] at hevent
        exact Bool.noConfusion hevent

end Heeding

/-! ### The threads in the stack -/

section Threads

variable {c : TlmxCodec} {s₀ : SyscState} {s s' : Stack} {l : Link}

/-- The OS thread leaves its loop for no message of the client's. -/
structure Threads (b : Bridge Nat) : Prop where
  inStep : InStep b
  opening : Opening b
  looping : b.os ≠ .exited

/-- A step of the stack is one of the threads, or one of the client alone. -/
theorem Stack.Takes.bridge {a : StackAction} (h : s.Takes c a s') :
    s'.bridge = s.bridge ∨ ∃ b, b ≠ .receiveExit ∧ (Attentive s a → InTime s.bridge b) ∧
      s.bridge.step 0 b = some s'.bridge := by
  cases h with
  | call | fails | giveUp => exact Or.inl rfl
  | clientRead =>
      refine Or.inl ?_
      unfold Stack.decode
      split <;> rfl
  | request hos hpos hmax hn hreceive hbridge =>
      exact Or.inr ⟨.receive (s.made + 1), nofun, fun _ => trivial, hbridge⟩
  | respond hreply hlast hrespond hbridge => exact Or.inr ⟨.os, nofun, id, hbridge⟩
  | os hreply hbridge => exact Or.inr ⟨.os, nofun, id, hbridge⟩
  | sysc hbridge =>
      refine Or.inr ⟨.sysc, nofun, id, ?_⟩
      rw [hbridge]
      split <;> rfl
  | @transport n bridge hhands hbridge =>
      exact Or.inr ⟨.transport (!isDebug (s.packets n).command), nofun, fun _ => trivial, hbridge⟩
  | @notify elapsed bridge hbridge =>
      exact Or.inr ⟨.notify elapsed, nofun, fun _ => trivial, hbridge⟩

theorem Threads.initial : Threads (.initial Nat) := ⟨.initial, .initial, nofun⟩

theorem osStep_ne_exited {b b' : Bridge Nat} (hs : b.osStep = some b') : b'.os ≠ .exited := by
  unfold Bridge.osStep at hs
  cases hos : b.os <;> simp only [hos] at hs <;> grind

theorem Threads.step {b b' : Bridge Nat} {a : BridgeAction Nat} (h : Threads b)
    (ha : a ≠ .receiveExit) (hs : b.step 0 a = some b') : Threads b' := by
  refine ⟨h.inStep.step hs, h.opening.step h.inStep hs, ?_⟩
  have hlooping := h.looping
  cases Bridge.takes_of_step hs with
  | os hos => exact osStep_ne_exited hos
  | receive => simp
  | receiveExit => exact absurd rfl ha
  | update hphase hup =>
      rw [(Bridge.updateStep_keeps hup).2.2]
      exact hlooping
  | initiator hphase hrun hini =>
      rw [os_initiatorStep hini]
      exact hlooping
  | start | evaluated | transport | notify => exact hlooping

theorem Threads.stack_step (h : Threads s.bridge) {a : StackAction} (hs : s.step c a = some s') :
    Threads s'.bridge := by
  obtain ⟨-, htakes⟩ := Stack.takes_of_step hs
  rcases htakes.bridge with hsame | ⟨b, hb, -, hstep⟩
  · rw [hsame]
    exact h
  · exact h.step hb hstep

/-- What a run with whole reads comes to. -/
structure Running (c : TlmxCodec) (s₀ : SyscState) (s : Stack) : Prop where
  running : s.halted = none
  threads : Threads s.bridge
  one : OneAtATime s
  link : ∃ l, Tracks c s l ∧ InSequence c s₀ l

theorem running_of_reachable (h : ReachableVia (stackMachine c s₀) WholeReads s) :
    Running c s₀ s := by
  obtain ⟨l, hl, htracks, hone, -⟩ := (stack_simulates_whole c s₀).exists_reachable h
  obtain ⟨hsequence, hlock⟩ := inSequence_of_reachable hl
  refine ⟨htracks.halted.symm.trans hlock.faithful.running, ?_, hone, l, htracks, hsequence⟩
  exact h.invariant (P := fun s => Threads s.bridge) Threads.initial
    fun _ _ _ _ hthreads _ hs => hthreads.stack_step hs

end Threads

/-! ### A call that hangs -/

section Hangs

variable {c : TlmxCodec} {s s' : Stack}

/-- The client waits for a reply, and the OS thread for a response it will not hear of. -/
structure Hangs (s : Stack) : Prop where
  threads : Threads s.bridge
  unheard : Unheard s.bridge
  waiting : s.inFlight ≠ none
  nothing : s.toClient = []

theorem Hangs.step (h : Hangs s) {a : StackAction} (hs : s.step c a = some s') :
    Hangs s' ∧ s'.returned = s.returned := by
  have hthreads := h.threads.stack_step hs
  have hwaits := h.unheard.waits h.threads.inStep
  have hunheard : ∀ {b : BridgeAction Nat} {bridge : Bridge Nat},
      s.bridge.step 0 b = some bridge → Unheard bridge :=
    fun hb => h.unheard.step h.threads.inStep h.threads.opening hb
  obtain ⟨-, htakes⟩ := Stack.takes_of_step hs
  cases htakes with
  | call hfree => exact absurd hfree h.waiting
  | clientRead hflight hpos hmax hn =>
      rw [h.nothing, List.length_nil] at hn
      omega
  | giveUp hos | request hos =>
      rw [hos] at hwaits
      exact absurd hwaits (by simp)
  | respond hreply | fails hreply =>
      rw [hreply] at hwaits
      exact absurd hwaits (by simp)
  | os hreply hbridge => exact ⟨⟨hthreads, hunheard hbridge, h.waiting, h.nothing⟩, rfl⟩
  | sysc hbridge =>
      refine ⟨⟨hthreads, ?_, ?_, ?_⟩, ?_⟩
      · split <;> exact hunheard hbridge
      · split <;> exact h.waiting
      · split <;> exact h.nothing
      · split <;> rfl
  | transport hhands hbridge => exact ⟨⟨hthreads, hunheard hbridge, h.waiting, h.nothing⟩, rfl⟩
  | notify hbridge => exact ⟨⟨hthreads, hunheard hbridge, h.waiting, h.nothing⟩, rfl⟩

theorem hangs_of_unheard {s₀ : SyscState} (h : ReachableVia (stackMachine c s₀) WholeReads s)
    (hunheard : Unheard s.bridge) : Hangs s := by
  obtain ⟨-, hthreads, hone, -⟩ := running_of_reachable h
  have hbusy : s.bridge.os.busy = true := by
    rcases hunheard.waits hthreads.inStep with hos | hos <;> rw [hos] <;> rfl
  exact ⟨hthreads, hunheard, (hone.working hbusy).2.2, (hone.busy hbusy).2⟩

end Hangs

/-! ### A call that can return -/

section Returns

variable {c : TlmxCodec} {s₀ : SyscState} {s s' : Stack} {call : DevCall}

/-- How far the stack is from the client's read of the reply. -/
def Stack.rank (s : Stack) : Nat := if s.toClient = [] then s.bridge.rank + 1 else 0

/-- A step, or the last one, on the way to the return of the call. -/
def ReturnsNext (c : TlmxCodec) (s : Stack) : Prop :=
  ∃ a s', WholeReads s a ∧ s.step c a = some s' ∧
    (s.returned.length < s'.returned.length ∨
      s'.inFlight = s.inFlight ∧ s'.returned = s.returned ∧ ¬ Unheard s'.bridge ∧ s'.rank < s.rank)

/-- The threads go on, and the client does not notice. -/
structure BehindClient (s s' : Stack) : Prop where
  nearer : Nearer s.bridge s'.bridge
  inFlight : s'.inFlight = s.inFlight
  toClient : s'.toClient = s.toClient
  returned : s'.returned = s.returned

theorem ReturnsNext.of_behind (hclient : s.toClient = []) {a : StackAction}
    (hs : s.step c a = some s') (hwhole : WholeReads s a) (h : BehindClient s s') :
    ReturnsNext c s := by
  refine ⟨a, s', hwhole, hs, Or.inr ⟨h.inFlight, h.returned, h.nearer.heard, ?_⟩⟩
  unfold Stack.rank
  rw [if_pos hclient, if_pos (h.toClient.trans hclient)]
  exact Nat.succ_lt_succ h.nearer.rank

theorem returnsNext_of_advances (hrun : s.halted = none) (hin : InStep s.bridge)
    (hclient : s.toClient = []) (hreply : s.bridge.os ≠ .reply) (h : Advances 0 s.bridge) :
    ReturnsNext c s := by
  have hguard : ¬ s.halted.isSome = true := by
    rw [hrun]
    exact Bool.false_ne_true
  cases h with
  | @os bridge hs hnear =>
      have hstep : s.step c .os = some { s with
          bridge := bridge
          halted := if bridge.os = .missing then some (.fatal "Missing response") else none } := by
        simp only [Stack.step, if_neg hguard, if_neg hreply, hs, Option.map_some]
      exact .of_behind hclient hstep trivial ⟨hnear, rfl, rfl, rfl⟩
  | @sysc bridge hs hnear =>
      have hstep : s.step c .sysc = some (if bridge.initiator = .getLock then
          { s with bridge := bridge }.write 0 (emptyPacket c) else { s with bridge := bridge }) := by
        simp only [Stack.step, if_neg hguard, hs, Option.map_some]
      refine .of_behind hclient hstep trivial ⟨?_, ?_, ?_, ?_⟩
      · split <;> exact hnear
      · split <;> rfl
      · split <;> rfl
      · split <;> rfl
  | @notify bridge hs hnear =>
      have hstep : s.step c (.notify true) = some { s with bridge := bridge } := by
        simp only [Stack.step, if_neg hguard, hs, Option.map_some]
      exact .of_behind hclient hstep trivial ⟨hnear, rfl, rfl, rfl⟩
  | transport h =>
      obtain ⟨b, hb, -⟩ := h true
      obtain ⟨n, hhands, -⟩ := hin.transport_request hb
      obtain ⟨bridge, hbridge, hnear⟩ := h (!isDebug (s.packets n).command)
      have hstep : s.step c .transport = some ({ s with
          bridge := bridge
          sysc := (initiatorStep s.sysc (s.packets n)).1 }.write n
            (initiatorStep s.sysc (s.packets n)).2) := by
        simp only [Stack.step, if_neg hguard, Stack.transport, hhands, hbridge, Option.map_some]
      exact .of_behind hclient hstep trivial ⟨hnear, rfl, rfl, rfl⟩

theorem Running.read_reply (h : ReachableVia (stackMachine c s₀) WholeReads s)
    (hflight : s.inFlight = some call) (hclient : s.toClient ≠ []) : ReturnsNext c s := by
  obtain ⟨hrun, -, -, l, htracks, hsequence⟩ := running_of_reachable h
  have hlen : s.toClient.length = (c.pack (devRequest c call)).length := by
    rw [← htracks.toClient]
    have hasked : l.inFlight = some (devRequest c call) := by
      rw [htracks.inFlight, hflight]
      rfl
    rcases hsequence with ⟨_, _, _, hf, _⟩ | ⟨_, _, _, _, _, _, hc, _⟩ |
      ⟨calls, call', _, _, hf, _, hc, _⟩
    · exact absurd (hf.symm.trans hasked) (by simp)
    · exact absurd (htracks.toClient.symm.trans hc) hclient
    · obtain rfl : call' = call :=
        devRequest_injective c (Option.some.inj (hf.symm.trans hasked))
      rw [hc]
      exact length_reply (dataLen_response c _ _)
  have hpos : 1 ≤ s.toClient.length := List.length_pos_iff.mpr hclient
  have hstep : s.step c (.clientRead s.toClient.length) = some (s.decode c call s.toClient.length) := by
    have hguard : ¬ s.halted.isSome = true := by
      rw [hrun]
      exact Bool.false_ne_true
    simp only [Stack.step, if_neg hguard, hflight]
    exact if_pos ⟨hpos, Nat.le_of_eq hlen, Nat.le_refl _⟩
  have hrun' := (running_of_reachable (h.step (a := .clientRead s.toClient.length) rfl hstep)).running
  refine ⟨.clientRead s.toClient.length, _, rfl, hstep, Or.inl ?_⟩
  unfold Stack.decode at hrun' ⊢
  cases hreply : devReply c (devRequest c call) (some (s.toClient.take s.toClient.length)) with
  | error halt =>
      rw [hreply] at hrun'
      exact absurd hrun' (by simp)
  | ok result =>
      show s.returned.length < (s.returned ++ [result]).length
      rw [List.length_append]
      exact Nat.lt_succ_self _

theorem Running.read_request (h : ReachableVia (stackMachine c s₀) WholeReads s)
    (hflight : s.inFlight = some call) (hclient : s.toClient = []) (hos : s.bridge.os = .receive) :
    ReturnsNext c s := by
  obtain ⟨hrun, hthreads, -, l, htracks, hsequence⟩ := running_of_reachable h
  obtain ⟨-, hserver, -⟩ := htracks.receiving hos
  obtain ⟨hfit, hwaiting⟩ : call.Fits c ∧ s.toServer = c.pack (devRequest c call) := by
    have hasked : l.inFlight = some (devRequest c call) := by
      rw [htracks.inFlight, hflight]
      rfl
    rcases hsequence with ⟨_, _, _, hf, _⟩ | ⟨calls, call', hfits, _, hf, hs, _⟩ |
      ⟨_, _, _, _, _, _, hc, _⟩
    · exact absurd (hf.symm.trans hasked) (by simp)
    · obtain rfl : call' = call :=
        devRequest_injective c (Option.some.inj (hf.symm.trans hasked))
      exact ⟨hfits call' (by simp), hserver.symm.trans hs⟩
    · rw [htracks.toClient, hclient] at hc
      exact absurd hc.symm (pack_ne_nil c _)
  have hmax : s.toServer.length ≤ c.maxBuffer := by
    rw [hwaiting, c.length_pack, toNat_dataLen_devRequest]
    exact Nat.le_trans (Nat.add_le_add_left hfit _) c.fits
  have hpos : 1 ≤ s.toServer.length := by
    rw [hwaiting]
    exact List.length_pos_iff.mpr (pack_ne_nil c _)
  have hstep : s.step c (.serverRead s.toServer.length) = s.receive c s.toServer.length := by
    have hguard : ¬ s.halted.isSome = true := by
      rw [hrun]
      exact Bool.false_ne_true
    simp only [Stack.step, if_neg hguard]
    exact if_pos ⟨hos, hpos, hmax, Nat.le_refl _⟩
  unfold Stack.receive at hstep
  cases hreceive : asyncOsReceive c (some (s.toServer.take s.toServer.length)) with
  | error halt =>
      rw [hreceive] at hstep
      have hrun' := (running_of_reachable
        (h.step (a := .serverRead s.toServer.length) rfl hstep)).running
      exact absurd hrun' (by simp)
  | ok request =>
      have hbridge : s.bridge.step 0 (.receive (s.made + 1)) =
          some { s.bridge with os := .pushLock (s.made + 1) } := by
        simp [Bridge.step, hos]
      rw [hreceive] at hstep
      simp only [hbridge, Option.map_some] at hstep
      have hnear : Nearer s.bridge { s.bridge with os := .pushLock (s.made + 1) } := by
        refine ⟨heard_of_os (hthreads.inStep.step hbridge) (by simp) (by simp), ?_⟩
        have hleft := s.bridge.phase.left_le
        simp only [Bridge.rank, hos]
        omega
      exact .of_behind hclient hstep rfl ⟨hnear, rfl, rfl, rfl⟩

theorem Running.send_reply (h : ReachableVia (stackMachine c s₀) WholeReads s)
    (hclient : s.toClient = []) (hos : s.bridge.os = .reply) : ReturnsNext c s := by
  obtain ⟨hrun, hthreads, -, l, htracks, -⟩ := running_of_reachable h
  obtain ⟨request, -, hlast, -, -, hrespond⟩ := htracks.replying hos
  have hguard : ¬ s.halted.isSome = true := by
    rw [hrun]
    exact Bool.false_ne_true
  have hbridge : s.bridge.step 0 .os = some { s.bridge with os := .receive } := by
    simp [Bridge.step, Bridge.osStep, hos]
  have hstep : s.step c .os = some { s with
      bridge := { s.bridge with os := .receive }
      toClient := s.toClient ++ c.pack (s.packets s.made) } := by
    simp only [Stack.step, if_neg hguard, if_pos hos, Stack.respond, hlast, hrespond, hbridge,
      Option.map_some]
  refine ⟨.os, _, trivial, hstep, Or.inr ⟨rfl, rfl, ?_, ?_⟩⟩
  · exact heard_of_os (hthreads.inStep.step hbridge) (by simp) (by simp)
  · have hsent : s.toClient ++ c.pack (s.packets s.made) ≠ [] := fun hnil =>
      pack_ne_nil c _ (List.append_eq_nil_iff.mp hnil).2
    unfold Stack.rank
    rw [if_pos hclient, if_neg hsent]
    exact Nat.succ_pos _

/-- While nothing has been missed, some step gets the call nearer to its return. -/
theorem Running.returnsNext (h : ReachableVia (stackMachine c s₀) WholeReads s)
    (hflight : s.inFlight = some call) (hheard : ¬ Unheard s.bridge) : ReturnsNext c s := by
  obtain ⟨hrun, hthreads, -, -⟩ := running_of_reachable h
  by_cases hclient : s.toClient = []
  · by_cases hreceive : s.bridge.os = .receive
    · exact Running.read_request h hflight hclient hreceive
    by_cases hreply : s.bridge.os = .reply
    · exact Running.send_reply h hclient hreply
    exact returnsNext_of_advances hrun hthreads.inStep hclient hreply
      (.of_heard hthreads.inStep hthreads.opening hheard hreceive hreply hthreads.looping)
  · exact Running.read_reply h hflight hclient

theorem leads_of_heard (h : ReachableVia (stackMachine c s₀) WholeReads s)
    (hflight : s.inFlight = some call) (hheard : ¬ Unheard s.bridge) :
    (stackMachine c s₀).Leads s fun t => s.returned.length < t.returned.length := by
  refine Machine.leads_of_rank (I := fun t => ReachableVia (stackMachine c s₀) WholeReads t ∧
    t.inFlight = some call ∧ t.returned = s.returned ∧ ¬ Unheard t.bridge) Stack.rank ?_
    ⟨h, hflight, rfl, hheard⟩
  rintro t ⟨ht, hflight, hsame, hheard⟩
  obtain ⟨a, t', hwhole, hs, hreturned | ⟨hflight', hsame', hheard', hrank⟩⟩ :=
    Running.returnsNext ht hflight hheard
  · exact ⟨a, t', hs, Or.inl (hsame ▸ hreturned)⟩
  · exact ⟨a, t', hs, Or.inr ⟨⟨ht.step hwhole hs, hflight'.trans hflight, hsame'.trans hsame,
      hheard'⟩, hrank⟩⟩

end Returns

/-- In every interleaving of the whole stack with whole reads, a call in flight can still
return if and only if neither its request nor its response has been missed. -/
theorem call_returns_iff (c : TlmxCodec) (s₀ : SyscState) {s : Stack} {call : DevCall}
    (h : ReachableVia (stackMachine c s₀) WholeReads s) (hflight : s.inFlight = some call) :
    (stackMachine c s₀).Leads s (fun t => s.returned.length < t.returned.length) ↔
      ¬ Unheard s.bridge := by
  refine ⟨?_, leads_of_heard h hflight⟩
  intro hleads hunheard
  refine Machine.not_leads_of_trap (P := fun t => Hangs t ∧ t.returned = s.returned) ?_ ?_
    ⟨hangs_of_unheard h hunheard, rfl⟩ hleads
  · rintro t a t' ⟨ht, hsame⟩ hs
    obtain ⟨ht', hreturned⟩ := ht.step hs
    exact ⟨ht', hreturned.trans hsame⟩
  · rintro t ⟨-, hsame⟩ hlt
    rw [hsame] at hlt
    exact Nat.lt_irrefl _ hlt

/-- The stack once the client has made the first call of a session, before the simulation
has started. -/
theorem first_call : ∃ s : Stack, s.inFlight = some wordPut ∧ s.bridge = .initial Nat ∧
    ReachableVia (stackMachine leCodec (.initial .zeroed))
      (fun s a => WholeReads s a ∧ Attentive s a) s :=
  ⟨_, rfl, rfl, .step .init ⟨trivial, trivial⟩ (a := .call wordPut) rfl⟩

theorem call_returns_iff_wordPut : ∃ s : Stack, s.inFlight = some wordPut ∧
    (stackMachine leCodec (.initial .zeroed)).Leads s
      fun t => s.returned.length < t.returned.length := by
  obtain ⟨s, hflight, hbridge, hreach⟩ := first_call
  refine ⟨s, hflight, (call_returns_iff leCodec (.initial .zeroed)
    (hreach.mono fun _ _ h => h.1) hflight).mpr ?_⟩
  rw [hbridge]
  exact Heeding.initial.heard .initial

/-- A call in flight can return in every state of a run in which no request is pushed in
the first update phase and the OS thread is always the first to take `m_mutex_wait_put`. -/
theorem call_returns_attentive (c : TlmxCodec) (s₀ : SyscState) {s : Stack} {call : DevCall}
    (h : ReachableVia (stackMachine c s₀) (fun s a => WholeReads s a ∧ Attentive s a) s)
    (hflight : s.inFlight = some call) :
    (stackMachine c s₀).Leads s fun t => s.returned.length < t.returned.length := by
  have hinv : Threads s.bridge ∧ Heeding s.bridge := by
    refine h.invariant (P := fun s => Threads s.bridge ∧ Heeding s.bridge) ⟨.initial, .initial⟩ ?_
    rintro s a s' - ⟨hthreads, hheeding⟩ ⟨-, hattentive⟩ hs
    refine ⟨hthreads.stack_step hs, ?_⟩
    obtain ⟨-, htakes⟩ := Stack.takes_of_step hs
    rcases htakes.bridge with hsame | ⟨b, -, hok, hstep⟩
    · rw [hsame]
      exact hheeding
    · exact hheeding.step hthreads.inStep hthreads.opening (hok hattentive) hstep
  exact leads_of_heard (h.mono fun _ _ hok => hok.1) hflight (hinv.2.heard hinv.1.inStep)

theorem call_returns_attentive_wordPut : ∃ s : Stack, s.inFlight = some wordPut ∧
    (stackMachine leCodec (.initial .zeroed)).Leads s
      fun t => s.returned.length < t.returned.length := by
  obtain ⟨s, hflight, -, hreach⟩ := first_call
  exact ⟨s, hflight, call_returns_attentive leCodec (.initial .zeroed) hreach hflight⟩

end Demonstrator
