/-
Trees written down line by line.

A forest is listed in preorder, with every node on a line of its own that says how deep the
node is.  Nothing closes a node, so where its subtree ends is settled by the next line that
is no deeper.  `readBack` goes through the lines from the last one up, and a line takes
what is pending and deeper for its children.  `readBack_outline` is that nothing but the
depths is needed for it.
-/
import Demonstrator.Lib.Numeral

namespace Outline

open Numeral

variable {α : Type}

inductive RoseTree (α : Type) where
  | node (label : α) (children : List (RoseTree α))

def RoseTree.label : RoseTree α → α
  | .node label _ => label

mutual

/-- The lines of a tree whose root is so deep. -/
def RoseTree.outline (depth : Nat) : RoseTree α → List (Nat × α)
  | .node label children => (depth, label) :: outline (depth + 1) children

/-- The lines of trees whose roots are so deep. -/
def outline (depth : Nat) : List (RoseTree α) → List (Nat × α)
  | [] => []
  | t :: rest => t.outline depth ++ outline depth rest

end

theorem outline_append (depth : Nat) (front back : List (RoseTree α)) :
    outline depth (front ++ back) = outline depth front ++ outline depth back := by
  induction front with
  | nil => rfl
  | cons t rest ih => rw [List.cons_append, outline, outline, ih, List.append_assoc]

theorem outline_leaves (depth : Nat) (labels : List α) :
    outline depth (labels.map (RoseTree.node · [])) = labels.map (depth, ·) := by
  induction labels with
  | nil => rfl
  | cons label rest ih =>
      rw [List.map_cons, outline, ih]
      rfl

mutual

theorem RoseTree.le_of_mem_outline {depth : Nat} {line : Nat × α} : ∀ {t : RoseTree α},
    line ∈ t.outline depth → line = (depth, t.label) ∨ depth < line.1
  | .node label children, h => by
      rcases List.mem_cons.mp h with rfl | hbelow
      · exact Or.inl rfl
      · exact Or.inr (le_of_mem_outline hbelow)

theorem le_of_mem_outline {depth : Nat} {line : Nat × α} : ∀ {trees : List (RoseTree α)},
    line ∈ outline depth trees → depth ≤ line.1
  | t :: rest, h => by
      rcases List.mem_append.mp h with hfirst | hrest
      · rcases RoseTree.le_of_mem_outline hfirst with rfl | hdeeper
        · exact Nat.le_refl depth
        · exact Nat.le_of_lt hdeeper
      · exact le_of_mem_outline hrest

end

/-- The lines that are as deep as the trees are those of their roots. -/
theorem root_of_mem_outline {depth : Nat} {line : Nat × α} : ∀ {trees : List (RoseTree α)},
    line ∈ outline depth trees → line.1 = depth → ∃ t ∈ trees, t.label = line.2
  | t :: rest, h, hdepth => by
      rcases List.mem_append.mp h with hfirst | hrest
      · rcases RoseTree.le_of_mem_outline hfirst with rfl | hdeeper
        · exact ⟨t, List.mem_cons_self, rfl⟩
        · exact absurd hdepth (Nat.ne_of_gt hdeeper)
      · obtain ⟨t', ht', hlabel⟩ := root_of_mem_outline hrest hdepth
        exact ⟨t', List.mem_cons_of_mem t ht', hlabel⟩

/-! ### Reading it -/

/-- A line above trees that are already read: those that are deeper are its children. -/
def hang (line : Nat × α) (pending : List (Nat × RoseTree α)) : List (Nat × RoseTree α) :=
  (line.1, .node line.2 ((pending.takeWhile fun p => line.1 < p.1).map Prod.snd)) ::
    pending.dropWhile fun p => line.1 < p.1

def readBack (lines : List (Nat × α)) : List (Nat × RoseTree α) := lines.foldr hang []

theorem readBack_cons (line : Nat × α) (lines : List (Nat × α)) :
    readBack (line :: lines) = hang line (readBack lines) := rfl

/-- What is pending does not go deeper than `depth`, as far as its first tree tells. -/
def NoDeeper (depth : Nat) (pending : List (Nat × RoseTree α)) : Prop :=
  Stops (fun p => decide (depth < p.1)) pending

theorem noDeeper_nil (depth : Nat) : NoDeeper depth ([] : List (Nat × RoseTree α)) := stops_nil

theorem NoDeeper.succ {depth : Nat} {pending : List (Nat × RoseTree α)}
    (h : NoDeeper depth pending) : NoDeeper (depth + 1) pending := by
  intro p hp
  have hle := of_decide_eq_false (h p hp)
  refine decide_eq_false ?_
  omega

/-- Trees of one depth before what is pending. -/
theorem NoDeeper.append {depth : Nat} {pending : List (Nat × RoseTree α)}
    (h : NoDeeper depth pending) (trees : List (RoseTree α)) :
    NoDeeper depth (trees.map (fun t => (depth, t)) ++ pending) := by
  cases trees with
  | nil => exact h
  | cons t rest => exact stops_cons (decide_eq_false (Nat.lt_irrefl depth))

/-- A line takes the trees one deeper that are pending, and nothing behind them. -/
theorem hang_children {depth : Nat} {pending : List (Nat × RoseTree α)}
    (h : NoDeeper depth pending) (label : α) (children : List (RoseTree α)) :
    hang (depth, label) (children.map (fun t => (depth + 1, t)) ++ pending) =
      (depth, .node label children) :: pending := by
  have hdeeper : ∀ p ∈ children.map (fun t => (depth + 1, t)), decide (depth < p.1) = true := by
    intro p hp
    obtain ⟨t, -, rfl⟩ := List.mem_map.mp hp
    exact decide_eq_true (Nat.lt_succ_self depth)
  have hback : (children.map fun t => (depth + 1, t)).map Prod.snd = children := by
    rw [List.map_map]
    exact List.map_id children
  unfold hang
  rw [takeWhile_run hdeeper h, dropWhile_run hdeeper h, hback]

mutual

theorem readBack_tree {depth : Nat} : ∀ (t : RoseTree α) {lines : List (Nat × α)},
    NoDeeper depth (readBack lines) →
      readBack (t.outline depth ++ lines) = (depth, t) :: readBack lines
  | .node label children, lines, h => by
      have hbelow : readBack (outline (depth + 1) children ++ lines) =
          children.map (fun t => (depth + 1, t)) ++ readBack lines :=
        readBack_trees children h.succ
      rw [RoseTree.outline, List.cons_append, readBack_cons, hbelow, hang_children h]

theorem readBack_trees {depth : Nat} : ∀ (trees : List (RoseTree α)) {lines : List (Nat × α)},
    NoDeeper depth (readBack lines) →
      readBack (outline depth trees ++ lines) =
        trees.map (fun t => (depth, t)) ++ readBack lines
  | [], _, _ => rfl
  | t :: rest, lines, h => by
      have hrest := readBack_trees rest h
      have hnext : NoDeeper depth (readBack (outline depth rest ++ lines)) := by
        rw [hrest]
        exact h.append rest
      rw [outline, List.append_assoc, readBack_tree t hnext, hrest]
      rfl

end

/-- The lines of a forest say what it is. -/
theorem readBack_outline (trees : List (RoseTree α)) :
    (readBack (outline 0 trees)).map Prod.snd = trees := by
  have hall : readBack (outline 0 trees ++ []) = trees.map (fun t => (0, t)) ++ readBack [] :=
    readBack_trees trees (noDeeper_nil 0)
  rw [List.append_nil] at hall
  rw [hall, readBack, List.foldr_nil, List.append_nil, List.map_map]
  exact List.map_id trees

end Outline
