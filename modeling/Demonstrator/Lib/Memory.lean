/-
Byte memories and `memcpy`.

A memory is a function from byte offsets to bytes, so a C pointer is a memory
seen from the byte it points to.  Nothing bounds a memory here: a program that
copies past the end of an object reads or writes whatever follows it, which is
what `memcpy` does, and staying inside the object is a theorem about the program.

The second half is the buffers of a message: a list of bytes read into zeroed
memory, and the bytes that a `write` sends from it.
-/
import Mathlib.Tactic.Common

namespace ByteMemory

/-- The bytes seen from one pointer on. -/
abbrev Mem := Nat → UInt8

/-- `a` is one of the `n` bytes from `i` on. -/
def Within (i n a : Nat) : Prop := i ≤ a ∧ a < i + n

instance (i n a : Nat) : Decidable (Within i n a) :=
  inferInstanceAs (Decidable (_ ∧ _))

/-- `memcpy`: the `n` bytes of `src` from `j` on replace those of `dst` from `i` on. -/
def memcpy (dst : Mem) (i : Nat) (src : Mem) (j n : Nat) : Mem :=
  fun a => if Within i n a then src (j + (a - i)) else dst a

/-- The two memories hold the same `n` bytes from `i` on. -/
def AgreeOn (i n : Nat) (m m' : Mem) : Prop := ∀ a, Within i n a → m a = m' a

/-! ### What a copy changes -/

theorem memcpy_inside {dst src : Mem} {i j n a : Nat} (h : Within i n a) :
    memcpy dst i src j n a = src (j + (a - i)) := if_pos h

theorem memcpy_outside {dst src : Mem} {i j n a : Nat} (h : ¬ Within i n a) :
    memcpy dst i src j n a = dst a := if_neg h

theorem memcpy_add (dst : Mem) (i : Nat) (src : Mem) (j : Nat) {n k : Nat} (h : k < n) :
    memcpy dst i src j n (i + k) = src (j + k) := by
  rw [memcpy_inside ⟨Nat.le_add_right i k, by omega⟩, Nat.add_sub_cancel_left]

/-- Copying bytes that are already there changes nothing. -/
theorem memcpy_eq_self_iff {dst src : Mem} {i j n : Nat} :
    memcpy dst i src j n = dst ↔ ∀ k < n, src (j + k) = dst (i + k) := by
  refine ⟨?_, ?_⟩
  · intro h k hk
    have hcopy : memcpy dst i src j n (i + k) = src (j + k) := memcpy_add dst i src j hk
    rw [← hcopy, h]
  · intro h
    funext a
    by_cases ha : Within i n a
    · have hk : a - i < n := by have := ha.1; have := ha.2; omega
      rw [memcpy_inside ha, h _ hk, Nat.add_sub_cancel' ha.1]
    · exact memcpy_outside ha

/-- A copy reads nothing but its source range. -/
theorem memcpy_congr {dst dst' src src' : Mem} {i j n a : Nat} (hd : dst a = dst' a)
    (hs : AgreeOn j n src src') :
    memcpy dst i src j n a = memcpy dst' i src' j n a := by
  by_cases ha : Within i n a
  · have hi := ha.1
    have hn := ha.2
    rw [memcpy_inside ha, memcpy_inside ha]
    exact hs _ ⟨Nat.le_add_right j _, by omega⟩
  · rw [memcpy_outside ha, memcpy_outside ha, hd]

theorem AgreeOn.refl (i n : Nat) (m : Mem) : AgreeOn i n m m := fun _ _ => rfl

theorem AgreeOn.mono {i n i' n' : Nat} {m m' : Mem} (h : AgreeOn i n m m')
    (hsub : ∀ a, Within i' n' a → Within i n a) : AgreeOn i' n' m m' :=
  fun a ha => h a (hsub a ha)

/-! ### Buffers that hold a list of bytes

`bzero` followed by a `read` of `l` leaves `ofList l`: the bytes received, then
zeros.  `toList` is what `write` sends from a buffer.
-/

/-- A zero-filled buffer that holds `l` from its first byte on. -/
def ofList (l : List UInt8) : Mem := fun a => l.getD a 0

/-- The `n` bytes of `m` from `i` on. -/
def toList (m : Mem) (i n : Nat) : List UInt8 := (List.range n).map fun k => m (i + k)

@[simp] theorem length_toList (m : Mem) (i n : Nat) : (toList m i n).length = n := by
  simp [toList]

theorem getElem_toList (m : Mem) {i n k : Nat} (h : k < (toList m i n).length) :
    (toList m i n)[k] = m (i + k) := by
  simp [toList]

/-- The head of a buffer that holds `l ++ r` is `l`. -/
theorem toList_ofList_append (l r : List UInt8) : toList (ofList (l ++ r)) 0 l.length = l := by
  refine List.ext_getElem (by simp) ?_
  intro k h₁ h₂
  rw [getElem_toList, Nat.zero_add, ofList, List.getD_eq_getElem?_getD,
    List.getElem?_append_left h₂, List.getElem?_eq_getElem h₂, Option.getD_some]

/-- Past `l`, a buffer that holds `l ++ r` holds `r`. -/
theorem ofList_append_add (l r : List UInt8) (k : Nat) :
    ofList (l ++ r) (l.length + k) = ofList r k := by
  rw [ofList, ofList, List.getD_eq_getElem?_getD, List.getD_eq_getElem?_getD,
    List.getElem?_append_right (Nat.le_add_right _ _), Nat.add_sub_cancel_left]

theorem ofList_toList {m : Mem} {i n k : Nat} (h : k < n) :
    ofList (toList m i n) k = m (i + k) := by
  simp [ofList, toList, h]

theorem ofList_take {l : List UInt8} {n k : Nat} (h : k < n) : ofList (l.take n) k = ofList l k := by
  rw [ofList, ofList, List.getD_eq_getElem?_getD, List.getD_eq_getElem?_getD,
    List.getElem?_take_of_lt h]

/-- Past the list the buffer is still zero. -/
theorem ofList_of_length_le {l : List UInt8} {k : Nat} (h : l.length ≤ k) : ofList l k = 0 := by
  rw [ofList, List.getD_eq_getElem?_getD, List.getElem?_eq_none h, Option.getD_none]

end ByteMemory
