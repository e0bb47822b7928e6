/-
Mutexes that threads lock and unlock on their way through their code.

A thread is at a place of its own code, and `op` tells which operation on a mutex it does
next there, if it does one.  An unlock takes effect whoever owns the mutex: that only the
owner ever unlocks is something to be shown.

`Discipline` is what has to be checked of the code, place by place: a reading `holds` of
what a thread owns at a place that suits each operation and follows it.  Then in every
interleaving a mutex has the owner that the places say (`Owned.moves`), whatever else the
threads compute and however they choose where to go next.
-/
import Mathlib.Logic.Function.Basic

namespace Concurrency

/-- An operation on a mutex. -/
inductive LockOp (μ : Type) where
  | lock (m : μ)
  | unlock (m : μ)
  deriving DecidableEq, Repr

/-- The owners of the mutexes, and where the threads are. -/
structure Threads (θ μ : Type) (π : θ → Type) where
  owner : μ → Option θ
  place : ∀ t, π t

variable {θ μ : Type} {π : θ → Type}
variable {op : ∀ t, π t → Option (LockOp μ)} {next : ∀ t, π t → π t → Prop}
variable {holds : ∀ t, π t → μ → Bool}

/-- An operation that suits what is held: nothing is locked twice, or unlocked unheld. -/
def Suits (held : μ → Bool) : Option (LockOp μ) → Prop
  | none => True
  | some (.lock m) => held m = false
  | some (.unlock m) => held m = true

/-- A mutex is owned by the thread that holds it at its place, if there is one. -/
def Owned (holds : ∀ t, π t → μ → Bool) (s : Threads θ μ π) : Prop :=
  ∀ m t, s.owner m = some t ↔ holds t (s.place t) m = true

/-- The thread wants a mutex that somebody owns. -/
def Blocked (op : ∀ t, π t → Option (LockOp μ)) (s : Threads θ μ π) (t : θ) : Prop :=
  ∃ m u, op t (s.place t) = some (.lock m) ∧ s.owner m = some u

variable {s s' : Threads θ μ π} {t : θ}

theorem Owned.not_blocked (h : Owned holds s)
    (hleaf : ∀ {p m}, op t p = some (.lock m) → ∀ m', holds t p m' = false) {m : μ}
    (howner : s.owner m = some t) : ¬ Blocked op s t := by
  intro hblocked
  obtain ⟨m', u, hop, -⟩ := hblocked
  exact Bool.noConfusion ((hleaf hop m).symm.trans ((h m t).mp howner))

variable [DecidableEq μ]

/-- What is held after an operation. -/
def heldAfter (held : μ → Bool) : Option (LockOp μ) → μ → Bool
  | none => held
  | some (.lock m) => Function.update held m true
  | some (.unlock m) => Function.update held m false

/-- What a thread holds at a place suits what it does there, and follows it. -/
structure Discipline (op : ∀ t, π t → Option (LockOp μ)) (next : ∀ t, π t → π t → Prop)
    (holds : ∀ t, π t → μ → Bool) : Prop where
  suits : ∀ t p, Suits (holds t p) (op t p)
  follows : ∀ {t p p'}, next t p p' → holds t p' = heldAfter (holds t p) (op t p)

theorem Owned.owner_of_unlock (h : Owned holds s) (hd : Discipline op next holds) {m : μ}
    (hop : op t (s.place t) = some (.unlock m)) : s.owner m = some t := by
  have hsuits := hd.suits t (s.place t)
  rw [hop] at hsuits
  exact (h m t).mpr hsuits

theorem Owned.ne_of_lock (h : Owned holds s) (hd : Discipline op next holds) {m : μ} {u : θ}
    (hop : op t (s.place t) = some (.lock m)) (howner : s.owner m = some u) : u ≠ t := by
  intro hu
  subst hu
  have hsuits := hd.suits u (s.place u)
  rw [hop] at hsuits
  exact Bool.noConfusion (((h m u).mp howner).symm.trans hsuits)

variable [DecidableEq θ]

/-- The owners after an operation, if the thread can do it. -/
inductive Operates (owner : μ → Option θ) (t : θ) : Option (LockOp μ) → (μ → Option θ) → Prop
  | none : Operates owner t none owner
  | lock {m : μ} (hfree : owner m = none) :
      Operates owner t (some (.lock m)) (Function.update owner m (some t))
  | unlock {m : μ} : Operates owner t (some (.unlock m)) (Function.update owner m none)

/-- A thread does what comes next at its place. -/
structure Moves (op : ∀ t, π t → Option (LockOp μ)) (next : ∀ t, π t → π t → Prop)
    (s : Threads θ μ π) (t : θ) (s' : Threads θ μ π) : Prop where
  operates : Operates s.owner t (op t (s.place t)) s'.owner
  next : next t (s.place t) (s'.place t)
  others : ∀ u, u ≠ t → s'.place u = s.place u

omit [DecidableEq θ] in
/-- An operation changes what the thread owns as it changes what it holds, and leaves the
other threads what they own. -/
theorem Operates.owner_iff {owner owner' : μ → Option θ} {held : μ → Bool}
    {o : Option (LockOp μ)} (ho : Operates owner t o owner') (hsuits : Suits held o)
    (h : ∀ m, owner m = some t ↔ held m = true) (m : μ) :
    (owner' m = some t ↔ heldAfter held o m = true) ∧
      ∀ u, u ≠ t → (owner' m = some u ↔ owner m = some u) := by
  cases ho with
  | none => exact ⟨h m, fun _ _ => Iff.rfl⟩
  | @lock l hfree =>
      by_cases hm : m = l
      · subst hm
        rw [heldAfter, Function.update_self, Function.update_self, hfree]
        refine ⟨iff_of_true rfl rfl, fun u hu => iff_of_false ?_ nofun⟩
        exact fun heq => hu (Option.some.inj heq).symm
      · rw [heldAfter, Function.update_of_ne hm, Function.update_of_ne hm]
        exact ⟨h m, fun _ _ => Iff.rfl⟩
  | @unlock l =>
      by_cases hm : m = l
      · subst hm
        rw [heldAfter, Function.update_self, Function.update_self]
        refine ⟨iff_of_false nofun Bool.false_ne_true, fun u hu => iff_of_false nofun ?_⟩
        -- the thread that unlocks owned the mutex, so nobody else did
        intro hother
        exact hu (Option.some.inj (hother.symm.trans ((h m).mpr hsuits)))
      · rw [heldAfter, Function.update_of_ne hm, Function.update_of_ne hm]
        exact ⟨h m, fun _ _ => Iff.rfl⟩

/-- Whatever a thread does next, the places tell who owns what. -/
theorem Owned.moves (h : Owned holds s) (hd : Discipline op next holds)
    (hmoves : Moves op next s t s') : Owned holds s' := by
  intro m u
  obtain ⟨hself, hothers⟩ := hmoves.operates.owner_iff (hd.suits t (s.place t)) (fun m => h m t) m
  by_cases hu : u = t
  · subst hu
    rw [hd.follows hmoves.next]
    exact hself
  · rw [hothers u hu, hmoves.others u hu]
    exact h m u

end Concurrency
