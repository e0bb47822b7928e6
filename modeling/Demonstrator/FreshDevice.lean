/-
What a new device tells about the memory it was allocated in.

The constructor allocates `m_register` and sets none of it, so a new device holds
whatever the allocator left there.  Two devices that were constructed in the same place
but on different leftovers should answer every sequence of calls alike.

They do so exactly when every byte a read delivers was written by an earlier call
(`WrittenFirst`).  The argument goes through the flat memory the device refines: what a
read delivers is `FlatMemory.lastStored` of the accepted calls before it, and that is
independent of what the memory held at the start for the bytes that were stored to, and
for those only.
-/
import Demonstrator.DevMemory

namespace Demonstrator

open ByteMemory FlatMemory

/-- The constructor of `dev_module`: the array is allocated and none of it is set, so it
holds the `content` the memory had, and `beyond` is what follows it. -/
def DevModule.construct (content : Flat registerBytes) (beyond : Mem) : DevModule where
  register a := if h : a < registerBytes then content ⟨a, h⟩ else beyond a

/-- What the calls return: the response status and the data buffer of each. -/
def DevState.answers (s : DevState) : List Access → List (TlmResponseStatus × Mem)
  | [] => []
  | a :: rest =>
      ((s.perform a).2.responseStatus, (s.perform a).2.data) :: (s.perform a).1.answers rest

/-- The answers are the same whatever the registers held when the device was
constructed. -/
def Reproducible (accesses : List Access) : Prop :=
  ∀ (content content' : Flat registerBytes) (beyond : Mem) (delay : SimTime),
    DevState.answers { dev := .construct content beyond, delay := delay } accesses =
      DevState.answers { dev := .construct content' beyond, delay := delay } accesses

/-- The checks of the call's path accept the payload. -/
def Access.Served : Access → Prop
  | .bTransport payload => Accepted payload
  | .transportDbg payload => DbgAccepted payload

/-- An accepted call that writes the byte. -/
structure Access.WritesByte (a : Access) (b : Nat) : Prop where
  served : a.Served
  command : a.trans.command = .write
  within : Within a.trans.address.toNat a.trans.dataLength.toNat b

/-- Every byte that an accepted read delivers was written by an accepted write before
it. -/
def WrittenFirst (accesses : List Access) : Prop :=
  ∀ pre a post, accesses = pre ++ a :: post → a.Served → a.trans.command = .read →
    ∀ b, Within a.trans.address.toNat a.trans.dataLength.toNat b → ∃ w ∈ pre, w.WritesByte b

/-! ### One call -/

theorem answers_iff_served (s : DevState) (a : Access) : s.Answers a ↔ a.Served := by
  cases a with
  | bTransport payload => exact bTransport_ok_iff s.dev payload s.delay
  | transportDbg payload => exact transportDbg_ok_iff s.dev payload

theorem status_perform (s s' : DevState) (a : Access) :
    (s.perform a).2.responseStatus = (s'.perform a).2.responseStatus := by
  by_cases h : a.Served
  · have hok : (s.perform a).2.responseStatus = .ok := (answers_iff_served s a).mpr h
    have hok' : (s'.perform a).2.responseStatus = .ok := (answers_iff_served s' a).mpr h
    rw [hok, hok']
  · cases a with
    | bTransport payload =>
        simp only [DevState.perform, bTransport_refused _ _ _ h]
    | transportDbg payload =>
        simp only [DevState.perform, transportDbg_refused _ _ h]

/-- Two devices return the same data exactly where, if the call is an accepted read, they
hold the same bytes there. -/
theorem data_perform_iff (s s' : DevState) {a : Access} (hin : InFile a.trans) :
    (s.perform a).2.data = (s'.perform a).2.data ↔
      (a.Served → a.trans.command = .read →
        AgreeOn a.trans.address.toNat a.trans.dataLength.toNat s.dev.register s'.dev.register) := by
  have hdbg : a.DbgInFile := by
    cases a with
    | bTransport payload => exact trivial
    | transportDbg payload => exact hin
  by_cases h : a.Served
  · have hacts := perform_refines s a hdbg ((answers_iff_served s a).mpr h)
    have hacts' := perform_refines s' a hdbg ((answers_iff_served s' a).mpr h)
    refine ⟨?_, ?_⟩
    · intro hdata _ hread b hb
      have hk : b - a.trans.address.toNat < a.trans.dataLength.toNat := by
        have := hb.1
        have := hb.2
        omega
      have hbyte := congrFun hdata (b - a.trans.address.toNat)
      rw [hacts.loaded hread _ hk, hacts'.loaded hread _ hk] at hbyte
      simpa only [DevModule.flat, Nat.add_sub_cancel' hb.1] using hbyte
    · intro hagree
      funext k
      by_cases hk : a.trans.command = .read → a.trans.dataLength.toNat ≤ k
      · rw [hacts.buffer k hk, hacts'.buffer k hk]
      · obtain ⟨hread, hlt⟩ := Classical.not_imp.mp hk
        have hlt' : k < a.trans.dataLength.toNat := Nat.lt_of_not_le hlt
        rw [hacts.loaded hread k hlt', hacts'.loaded hread k hlt']
        exact hagree h hread _ ⟨Nat.le_add_right _ _, Nat.add_lt_add_left hlt' _⟩
  · have hno : ∀ t : DevState, (t.perform a).2.data = a.trans.data := fun t =>
      (perform_refused t a fun hok => h ((answers_iff_served t a).mp hok)).2
    exact iff_of_true ((hno s).trans (hno s').symm) fun hserved => absurd hserved h

/-! ### A run of calls -/

/-- Two runs answer alike exactly when every call in them does. -/
theorem answers_eq_iff : ∀ (accesses : List Access) (s s' : DevState),
    (∀ a ∈ accesses, InFile a.trans) →
    (s.answers accesses = s'.answers accesses ↔
      ∀ pre a post, accesses = pre ++ a :: post →
        ((s.performAll pre).perform a).2.data = ((s'.performAll pre).perform a).2.data) := by
  intro accesses
  induction accesses with
  | nil =>
      intro s s' _
      refine iff_of_true rfl ?_
      intro pre a post heq
      exact absurd heq (by simp)
  | cons a rest ih =>
      intro s s' h
      have hrest := ih (s.perform a).1 (s'.perform a).1 fun b hb => h b (List.mem_cons_of_mem a hb)
      rw [DevState.answers, DevState.answers, List.cons.injEq, Prod.mk.injEq, hrest]
      refine ⟨?_, ?_⟩
      · intro hall pre b post heq
        cases pre with
        | nil =>
            obtain ⟨rfl, rfl⟩ := List.cons.inj heq
            exact hall.1.2
        | cons c pre =>
            obtain ⟨rfl, htail⟩ := List.cons.inj heq
            exact hall.2 pre b post htail
      · intro hall
        refine ⟨⟨status_perform s s' a, hall [] a rest rfl⟩, ?_⟩
        intro pre b post heq
        exact hall (a :: pre) b post (by rw [heq, List.cons_append])

theorem acceptedOps_congr : ∀ (accesses : List Access) (s s' : DevState),
    s.acceptedOps accesses = s'.acceptedOps accesses := by
  intro accesses
  induction accesses with
  | nil => intro s s'; rfl
  | cons a rest ih =>
      intro s s'
      rw [DevState.acceptedOps, DevState.acceptedOps, ih (s.perform a).1 (s'.perform a).1]
      congr 1
      exact if_congr ((answers_iff_served s a).trans (answers_iff_served s' a).symm) rfl rfl

theorem mem_acceptedOps : ∀ (accesses : List Access) (s : DevState) (op : Op registerBytes),
    op ∈ s.acceptedOps accesses ↔ ∃ a ∈ accesses, a.Served ∧ accessOp a.trans = op := by
  intro accesses
  induction accesses with
  | nil =>
      intro s op
      exact iff_of_false (List.not_mem_nil) fun ⟨a, ha, _⟩ => List.not_mem_nil ha
  | cons a rest ih =>
      intro s op
      rw [DevState.acceptedOps, List.mem_append, ih]
      simp only [List.mem_cons, exists_eq_or_imp]
      refine or_congr ?_ Iff.rfl
      by_cases h : s.Answers a
      · rw [if_pos h, List.mem_singleton]
        exact ⟨fun heq => ⟨(answers_iff_served s a).mp h, heq.symm⟩, fun hop => hop.2.symm⟩
      · rw [if_neg h]
        exact iff_of_false List.not_mem_nil fun hop => h ((answers_iff_served s a).mpr hop.1)

theorem stored_accessOp_iff {trans : GenericPayload} (hin : InFile trans) (b : Fin registerBytes) :
    ((accessOp trans).stored? b).isSome = true ↔
      trans.command = .write ∧ Within trans.address.toNat trans.dataLength.toNat b := by
  rw [accessOp, dif_pos hin]
  cases trans.command with
  | read => exact iff_of_false Bool.false_ne_true fun h => absurd h.1 (by decide)
  | write =>
      by_cases hb : Within trans.address.toNat trans.dataLength.toNat b
      · simp [Op.stored?, hb]
      · simp [Op.stored?, hb]
  | ignore => exact iff_of_false Bool.false_ne_true fun h => absurd h.1 (by decide)

/-- A run stores to a byte exactly where one of its calls writes it. -/
theorem stored_iff_written {accesses : List Access} (h : ∀ a ∈ accesses, InFile a.trans)
    (s : DevState) (b : Fin registerBytes) :
    (∃ op ∈ s.acceptedOps accesses, (op.stored? b).isSome = true) ↔
      ∃ w ∈ accesses, w.WritesByte b := by
  refine ⟨?_, ?_⟩
  · intro hstored
    obtain ⟨op, hop, hb⟩ := hstored
    obtain ⟨w, hw, hserved, rfl⟩ := (mem_acceptedOps accesses s op).mp hop
    obtain ⟨hcmd, hwithin⟩ := (stored_accessOp_iff (h w hw) b).mp hb
    exact ⟨w, hw, hserved, hcmd, hwithin⟩
  · intro hwritten
    obtain ⟨w, hw, hserved, hcmd, hwithin⟩ := hwritten
    exact ⟨accessOp w.trans, (mem_acceptedOps accesses s _).mpr ⟨w, hw, hserved, rfl⟩,
      (stored_accessOp_iff (h w hw) b).mpr ⟨hcmd, hwithin⟩⟩

/-- What a byte of the registers holds after a run on a new device. -/
theorem register_performAll {accesses : List Access} (h : ∀ a ∈ accesses, InFile a.trans)
    (content : Flat registerBytes) (beyond : Mem) (delay : SimTime) (s : DevState)
    (b : Fin registerBytes) :
    (DevState.performAll { dev := .construct content beyond, delay := delay } accesses).dev.register b
      = lastStored content (s.acceptedOps accesses) b := by
  have hdbg : ∀ a ∈ accesses, a.DbgInFile := by
    intro a ha
    cases a with
    | bTransport payload => exact trivial
    | transportDbg payload => exact h _ ha
  have hnew : (DevModule.construct content beyond).flat = content := by
    funext a
    exact dif_pos a.isLt
  have hflat := performAll_flat accesses { dev := .construct content beyond, delay := delay } hdbg
  rw [hnew, acceptedOps_congr accesses _ s] at hflat
  rw [← run_apply, ← hflat]
  rfl

/-- The answers do not tell what the new device held exactly when every byte that is read
was written before. -/
theorem reproducible_iff {accesses : List Access} (h : ∀ a ∈ accesses, InFile a.trans) :
    Reproducible accesses ↔ WrittenFirst accesses := by
  refine ⟨?_, ?_⟩
  · intro hrep pre a post heq hserved hread b hb
    have hpre : ∀ w ∈ pre, InFile w.trans := fun w hw => h w (by rw [heq]; simp [hw])
    have ha : InFile a.trans := h a (by rw [heq]; simp)
    have hlt : b < registerBytes := by
      have := hb.2
      exact Nat.lt_of_lt_of_le this ha
    by_contra hno
    -- two devices that differ in every byte of their registers
    have hdata := (answers_eq_iff accesses _ _ h).mp
      (hrep (fun _ => 0) (fun _ => 1) (fun _ => 0) 0) pre a post heq
    have hbyte := (data_perform_iff _ _ ha).mp hdata hserved hread b hb
    have hfresh : ¬ ∃ op ∈ DevState.acceptedOps ⟨.zeroed, 0⟩ pre,
        (op.stored? (⟨b, hlt⟩ : Fin registerBytes)).isSome = true :=
      fun hs => hno ((stored_iff_written hpre _ ⟨b, hlt⟩).mp hs)
    rw [register_performAll hpre _ _ _ ⟨.zeroed, 0⟩ ⟨b, hlt⟩,
      register_performAll hpre _ _ _ ⟨.zeroed, 0⟩ ⟨b, hlt⟩,
      lastStored_of_untouched hfresh, lastStored_of_untouched hfresh] at hbyte
    exact absurd hbyte (by decide)
  · intro hfirst content content' beyond delay
    refine (answers_eq_iff accesses _ _ h).mpr ?_
    intro pre a post heq
    have hpre : ∀ w ∈ pre, InFile w.trans := fun w hw => h w (by rw [heq]; simp [hw])
    have ha : InFile a.trans := h a (by rw [heq]; simp)
    refine (data_perform_iff _ _ ha).mpr ?_
    intro hserved hread b hb
    have hlt : b < registerBytes := Nat.lt_of_lt_of_le hb.2 ha
    have hstored := (stored_iff_written hpre ⟨.zeroed, 0⟩ ⟨b, hlt⟩).mpr
      (hfirst pre a post heq hserved hread b hb)
    have hlast : ∀ m : Flat registerBytes,
        (DevState.performAll { dev := .construct m beyond, delay := delay } pre).dev.register b =
          lastStored m (DevState.acceptedOps ⟨.zeroed, 0⟩ pre) ⟨b, hlt⟩ :=
      fun m => register_performAll hpre m beyond delay _ ⟨b, hlt⟩
    rw [hlast content, hlast content', lastStored_congr hstored content content']

/-- A read of the first register. -/
def statusRead : GenericPayload :=
  { GenericPayload.fresh with
    command := .read, address := 0, dataLength := 4, streamingWidth := 4 }

theorem new_device_tells :
    ¬ ∀ accesses : List Access, (∀ a ∈ accesses, InFile a.trans) → Reproducible accesses := by
  intro hclaim
  have hrep := hclaim [.bTransport statusRead] (by decide)
  have hanswers := hrep (fun _ => 0) (fun _ => 1) (fun _ => 0) 0
  have hdata := congrArg Prod.snd (List.cons.inj hanswers).1
  exact absurd (congrFun hdata 0) (by decide)

theorem reproducible_statusRead :
    Reproducible [.bTransport statusRead] ↔ WrittenFirst [.bTransport statusRead] :=
  reproducible_iff (by decide)

end Demonstrator
