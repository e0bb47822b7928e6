/-
Which part of a memory a call can touch.

A call works on a memory and returns something.  It is `Confined n` when the bytes from
the `n`th on might as well not be there: it leaves them as they are, and neither what it
returns nor what it leaves below them depends on them.  Nothing is said about how the
call is written, so an overrun cannot hide behind a copy that happens to change nothing:
there is a memory on which it shows.

The rules are those of a copy out of the memory and of a copy into it.
-/
import Demonstrator.Lib.Memory

namespace ByteMemory

variable {β γ : Type} {n : Nat}

/-- The call neither changes the bytes from the `n`th on nor looks at them. -/
structure Confined (n : Nat) (call : Mem → Mem × β) : Prop where
  frame : ∀ (m : Mem) (a : Nat), n ≤ a → (call m).1 a = m a
  result : ∀ m m' : Mem, AgreeOn 0 n m m' → (call m).2 = (call m').2
  below : ∀ m m' : Mem, AgreeOn 0 n m m' → AgreeOn 0 n (call m).1 (call m').1

/-- A call that leaves the memory alone and returns a constant. -/
theorem confined_const (n : Nat) (b : β) : Confined n fun m => (m, b) where
  frame _ _ _ := rfl
  result _ _ _ := rfl
  below _ _ h := h

/-- How the result of a call is presented does not matter, as long as it can be read
back. -/
theorem confined_congr (call : Mem → Mem × β) {call' : Mem → Mem × γ} (f : β → γ) (g : γ → β)
    (hcall : ∀ m, call' m = ((call m).1, f (call m).2)) (hback : ∀ m, g (f (call m).2) = (call m).2) :
    Confined n call' ↔ Confined n call := by
  have hmem : ∀ m, (call' m).1 = (call m).1 := fun m => by rw [hcall]
  have hres : ∀ m, (call' m).2 = f (call m).2 := fun m => by rw [hcall]
  refine ⟨?_, ?_⟩
  · intro h
    refine ⟨?_, ?_, ?_⟩
    · intro m a ha
      rw [← hmem]
      exact h.frame m a ha
    · intro m m' hm
      rw [← hback m, ← hback m', ← hres, ← hres, h.result m m' hm]
    · intro m m' hm
      rw [← hmem, ← hmem]
      exact h.below m m' hm
  · intro h
    refine ⟨?_, ?_, ?_⟩
    · intro m a ha
      rw [hmem]
      exact h.frame m a ha
    · intro m m' hm
      rw [hres, hres, h.result m m' hm]
    · intro m m' hm
      rw [hmem, hmem]
      exact h.below m m' hm

/-- A memory that differs from the zeroed one from the `n`th byte on only. -/
def onesFrom (n : Nat) : Mem := fun a => if a < n then 0 else 1

theorem agreeOn_onesFrom (n : Nat) : AgreeOn 0 n (fun _ => 0) (onesFrom n) := by
  intro a ha
  have hlt : a < n := by have := ha.2; omega
  rw [onesFrom, if_pos hlt]

/-- A copy out of the memory is confined exactly when it ends before the `n`th byte. -/
theorem confined_load_iff {buffer : Mem} {i len : Nat} (hi : i < n) :
    Confined n (fun m => (m, memcpy buffer 0 m i len)) ↔ i + len ≤ n := by
  refine ⟨?_, ?_⟩
  · intro h
    by_contra hout
    have hk : n - i < len := by omega
    have hsame : memcpy buffer 0 (fun _ => 0) i len (0 + (n - i))
        = memcpy buffer 0 (onesFrom n) i len (0 + (n - i)) :=
      congrFun (h.result _ _ (agreeOn_onesFrom n)) _
    rw [memcpy_add _ _ _ _ hk, memcpy_add _ _ _ _ hk, Nat.add_sub_cancel' (Nat.le_of_lt hi),
      onesFrom, if_neg (Nat.lt_irrefl n)] at hsame
    exact absurd hsame (by decide)
  · intro hin
    refine ⟨fun _ _ _ => rfl, ?_, fun _ _ h => h⟩
    intro m m' hm
    funext a
    exact memcpy_congr rfl (hm.mono fun b hb => ⟨Nat.zero_le b, by have := hb.2; omega⟩)

/-- A copy into the memory is confined exactly when it ends before the `n`th byte. -/
theorem confined_store_iff {data : Mem} {i len : Nat} (b : β) (hi : i < n) :
    Confined n (fun m => (memcpy m i data 0 len, b)) ↔ i + len ≤ n := by
  refine ⟨?_, ?_⟩
  · intro h
    by_contra hout
    have hk : n - i < len := by omega
    have hcopy : ∀ m : Mem, m n = data (0 + (n - i)) := by
      intro m
      rw [← memcpy_add m i data 0 hk, Nat.add_sub_cancel' (Nat.le_of_lt hi)]
      exact (h.frame m n (Nat.le_refl n)).symm
    -- the copy would leave one byte there, whatever was there before
    have hsame : (0 : UInt8) = 1 := (hcopy fun _ => 0).trans (hcopy fun _ => 1).symm
    exact absurd hsame (by decide)
  · intro hin
    refine ⟨?_, fun _ _ _ => rfl, ?_⟩
    · intro m a ha
      exact memcpy_outside fun hw => by have := hw.2; omega
    · intro m m' hm a ha
      exact memcpy_congr (hm a ha) (AgreeOn.refl _ _ _)

end ByteMemory
