/-
A memory of `n` bytes, and what a byte holds after a history of accesses.

This is the memory a driver's author has in mind: a span of bytes is loaded or
stored, and a load gives for every byte what was last stored in it.  A `Span`
carries the proof that it lies inside, so no operation can leave the memory.

`run` applies the operations one after another; `lastStored` says what a byte holds
without running anything, by looking for the newest operation that stored to it.
`run_apply` is the theorem that the two agree, by induction on the history.
-/
import Mathlib.Data.List.Induction
import Demonstrator.Lib.Memory

namespace FlatMemory

open ByteMemory

/-- A memory of `n` bytes. -/
abbrev Flat (n : Nat) := Fin n → UInt8

/-- The `len` bytes from `addr` on, all of them in a memory of `n` bytes. -/
structure Span (n : Nat) where
  addr : Nat
  len : Nat
  inside : addr + len ≤ n

/-- What a client can ask of a memory. -/
inductive Op (n : Nat) where
  | load (s : Span n)
  | store (s : Span n) (data : Mem)
  | idle

variable {n : Nat}

/-- The byte the operation stores to `b`, if it stores one there. -/
def Op.stored? : Op n → Fin n → Option UInt8
  | .store s data, b => if Within s.addr s.len b then some (data (b - s.addr)) else none
  | .load _, _ => none
  | .idle, _ => none

/-- The memory after one operation. -/
def step (m : Flat n) (op : Op n) : Flat n := fun b => (op.stored? b).getD (m b)

/-- The memory after a list of operations, the oldest first. -/
def run (m : Flat n) (ops : List (Op n)) : Flat n := ops.foldl step m

/-- What was last stored to `b`, or else what it held at the start. -/
def lastStored (m : Flat n) (ops : List (Op n)) (b : Fin n) : UInt8 :=
  (ops.reverse.findSome? fun op => op.stored? b).getD (m b)

@[simp] theorem run_nil (m : Flat n) : run m [] = m := rfl

theorem run_append (m : Flat n) (ops ops' : List (Op n)) :
    run m (ops ++ ops') = run (run m ops) ops' := by
  rw [run, List.foldl_append]
  rfl

@[simp] theorem step_load (m : Flat n) (s : Span n) : step m (.load s) = m := rfl

@[simp] theorem step_idle (m : Flat n) : step m .idle = m := rfl

theorem step_store (m : Flat n) (s : Span n) (data : Mem) (b : Fin n) :
    step m (.store s data) b =
      if Within s.addr s.len b then data (b - s.addr) else m b := by
  show ((if Within s.addr s.len b then some (data (b - s.addr)) else none).getD (m b)) = _
  by_cases h : Within s.addr s.len b
  · rw [if_pos h, if_pos h]; rfl
  · rw [if_neg h, if_neg h]; rfl

/-- The newest operation decides, if it stores to the byte at all. -/
theorem lastStored_concat (m : Flat n) (ops : List (Op n)) (op : Op n) (b : Fin n) :
    lastStored m (ops ++ [op]) b = (op.stored? b).getD (lastStored m ops b) := by
  unfold lastStored
  rw [List.reverse_append, List.reverse_singleton, List.singleton_append, List.findSome?_cons]
  cases op.stored? b <;> rfl

/-- A byte holds what was last stored to it. -/
theorem run_apply (m : Flat n) (ops : List (Op n)) (b : Fin n) :
    run m ops b = lastStored m ops b := by
  induction ops using List.reverseRecOn with
  | nil => rfl
  | append_singleton ops op ih =>
      rw [lastStored_concat, run_append, ← ih]
      rfl

/-- A byte that was stored to no longer depends on what the memory held at the start. -/
theorem lastStored_congr {ops : List (Op n)} {b : Fin n}
    (h : ∃ op ∈ ops, (op.stored? b).isSome = true) (m m' : Flat n) :
    lastStored m ops b = lastStored m' ops b := by
  obtain ⟨op, hmem, hop⟩ := h
  have hfound : (ops.reverse.findSome? fun op => op.stored? b).isSome = true :=
    List.findSome?_isSome_iff.mpr ⟨op, List.mem_reverse.mpr hmem, hop⟩
  obtain ⟨v, hv⟩ := Option.isSome_iff_exists.mp hfound
  rw [lastStored, lastStored, hv, Option.getD_some, Option.getD_some]

/-- A byte that was not stored to still holds what it held at the start. -/
theorem lastStored_of_untouched {ops : List (Op n)} {b : Fin n}
    (h : ¬ ∃ op ∈ ops, (op.stored? b).isSome = true) (m : Flat n) : lastStored m ops b = m b := by
  have hnone : (ops.reverse.findSome? fun op => op.stored? b) = none := by
    refine List.findSome?_eq_none_iff.mpr ?_
    intro op hop
    exact Option.not_isSome_iff_eq_none.mp fun hsome => h ⟨op, List.mem_reverse.mp hop, hsome⟩
  rw [lastStored, hnone, Option.getD_none]

end FlatMemory
