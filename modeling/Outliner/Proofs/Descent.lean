import Mathlib.Data.List.Nodup
import Outliner.Proofs.Ownership

/-!
# Up and down an owned forest

`Forest.ancestors` and `Forest.tree` stop after `f.size` steps. In an owned forest they are done by
then, since no chain of distinct nodes is longer: the ancestors of a node are its parent and the
ancestors of that (`Owned.ancestors_of_parent?`), and the tree below a node is the node over the trees
below its children (`Owned.tree_eq`). Properties of nodes can be proved from the leaves upwards with
`Owned.descend`. A walk from `n` lists each node that has `n` above it once (`Owned.mem_walk`,
`Owned.nodup_walk`).
-/

namespace Outliner.Forest

open Relation

variable {f g : Forest} {c k m n p : Nat}

/-! ### Ancestors -/

theorem ancestorsWithin_of_parentless (hn : f.parent? n = none) : f.ancestorsWithin k n = [] := by
  cases k with
  | zero => rfl
  | succ k => simp only [ancestorsWithin, hn]

theorem depth_of_parentless (hn : f.parent? n = none) : f.depth n = 0 :=
  congrArg List.length (ancestorsWithin_of_parentless hn)

theorem ancestorsWithin_succ (hp : f.parent? n = some p) :
    f.ancestorsWithin (k + 1) n = p :: f.ancestorsWithin k p := by
  simp only [ancestorsWithin, hp]

theorem above_of_mem_ancestorsWithin (hm : m ∈ f.ancestorsWithin k n) : f.Above m n := by
  induction k generalizing n with
  | zero => cases hm
  | succ k ih =>
    cases hp : f.parent? n with
    | none =>
      rw [ancestorsWithin_of_parentless hp] at hm
      cases hm
    | some p =>
      rw [ancestorsWithin_succ hp] at hm
      rcases List.mem_cons.1 hm with rfl | hm
      · exact .single hp
      · exact (ih hm).tail hp

/-- A list of ancestors that ends early does not grow with more fuel. -/
theorem ancestorsWithin_succ_eq (hk : (f.ancestorsWithin k n).length < k) :
    f.ancestorsWithin (k + 1) n = f.ancestorsWithin k n := by
  induction k generalizing n with
  | zero => cases hk
  | succ k ih =>
    cases hp : f.parent? n with
    | none => rw [ancestorsWithin_of_parentless hp, ancestorsWithin_of_parentless hp]
    | some p =>
      rw [ancestorsWithin_succ hp, List.length_cons] at hk
      rw [ancestorsWithin_succ hp, ancestorsWithin_succ hp, ih (Nat.lt_of_succ_lt_succ hk)]

namespace Owned

theorem nodup_ancestorsWithin (h : f.Owned) (k n : Nat) : (n :: f.ancestorsWithin k n).Nodup := by
  induction k generalizing n with
  | zero => simp [ancestorsWithin]
  | succ k ih =>
    cases hp : f.parent? n with
    | none => simp [ancestorsWithin_of_parentless hp]
    | some p =>
      rw [ancestorsWithin_succ hp]
      refine List.nodup_cons.2 ⟨fun hn => h.not_above_parent hp ?_, ih p⟩
      rcases List.mem_cons.1 hn with rfl | hn
      · exact .refl
      · exact above_of_mem_ancestorsWithin hn

theorem length_ancestorsWithin_lt (h : f.Owned) (hn : n < f.size) (k : Nat) :
    (f.ancestorsWithin k n).length < f.size := by
  have hsub : n :: f.ancestorsWithin k n ⊆ List.range f.size := by
    intro m hm
    rw [List.mem_range]
    rcases List.mem_cons.1 hm with rfl | hm
    · exact hn
    · exact h.above_lt hn (above_of_mem_ancestorsWithin hm)
  have hle := (h.nodup_ancestorsWithin k n).length_le_of_subset hsub
  rwa [List.length_range, List.length_cons] at hle

theorem ancestors_of_parent? (h : f.Owned) (hp : f.parent? c = some p) :
    f.ancestors c = p :: f.ancestors p := by
  have hc : c < f.size := IsParent.child_lt hp
  obtain ⟨s, hs⟩ : ∃ s, f.size = s + 1 := Nat.exists_eq_succ_of_ne_zero (Nat.ne_zero_of_lt hc)
  have hlen := h.length_ancestorsWithin_lt hc (s + 1)
  rw [ancestorsWithin_succ hp, hs, List.length_cons] at hlen
  rw [ancestors, ancestors, hs, ancestorsWithin_succ hp,
    ancestorsWithin_succ_eq (Nat.lt_of_succ_lt_succ hlen)]

theorem depth_of_parent? (h : f.Owned) (hp : f.parent? c = some p) :
    f.depth c = f.depth p + 1 := by
  rw [depth, h.ancestors_of_parent? hp, List.length_cons, depth]

theorem depth_lt_size (h : f.Owned) (hn : n < f.size) : f.depth n < f.size :=
  h.length_ancestorsWithin_lt hn f.size

/-! ### Trees -/

/-- Induction from the leaves upwards. -/
theorem descend {motive : NodeId → Prop} (h : f.Owned)
    (step : ∀ n, (∀ c ∈ f.children n, motive c) → motive n) (n : NodeId) : motive n := by
  induction hk : f.size - f.depth n using Nat.strong_induction_on generalizing n with
  | h k ih =>
    refine step n fun c hc => ih (f.size - f.depth c) ?_ c rfl
    have hdepth := h.depth_of_parent? (h.parent?_of_mem hc)
    have hlt := h.depth_lt_size (h.child_lt hc)
    omega

/-- Fuel that reaches below every node beneath `n` gives the same tree. -/
theorem treeWithin_eq (h : f.Owned) (j k n : Nat) (hj : f.size ≤ f.depth n + j)
    (hk : f.size ≤ f.depth n + k) : f.treeWithin j n = f.treeWithin k n := by
  have leafless : ∀ n, f.size ≤ f.depth n → f.children n = [] := fun n hn =>
    children_of_size_le (Nat.le_of_not_lt fun hlt => Nat.not_lt.2 hn (h.depth_lt_size hlt))
  induction j generalizing k n with
  | zero =>
    cases k with
    | zero => rfl
    | succ k => simp [treeWithin, leafless n hj]
  | succ j ih =>
    cases k with
    | zero => simp [treeWithin, leafless n hk]
    | succ k =>
      simp only [treeWithin, Tree.mk.injEq, true_and]
      refine List.map_congr_left fun c hc => ih k c ?_ ?_
      all_goals
        rw [h.depth_of_parent? (h.parent?_of_mem hc)]
        omega

theorem tree_eq (h : f.Owned) (n : NodeId) :
    f.tree n = .mk (f.node n) (f.closed n) ((f.children n).map f.tree) := by
  have hsucc : f.tree n = f.treeWithin (f.size + 1) n :=
    h.treeWithin_eq _ _ n (Nat.le_add_left ..) (by omega)
  rw [hsucc, treeWithin]
  rfl

theorem node_tree (h : f.Owned) (n : NodeId) : (f.tree n).node = f.node n := by
  rw [h.tree_eq]
  rfl

theorem closed_tree (h : f.Owned) (n : NodeId) : (f.tree n).closed = f.closed n := by
  rw [h.tree_eq]
  rfl

theorem children_tree (h : f.Owned) (n : NodeId) : (f.tree n).children = (f.children n).map f.tree := by
  rw [h.tree_eq]
  rfl

/-- The tree below `c` depends on the nodes below `c` only. -/
theorem tree_congr (h : f.Owned) (hg : g.Owned)
    (hsame : ∀ m, f.Above c m → g.node m = f.node m ∧ g.closed m = f.closed m ∧
      g.children m = f.children m) : g.tree c = f.tree c := by
  induction c using h.descend with
  | step c ih =>
    obtain ⟨hnode, hclosed, hchildren⟩ := hsame c .refl
    rw [h.tree_eq, hg.tree_eq, hnode, hclosed, hchildren]
    refine congrArg _ (List.map_congr_left fun d hd => ih d hd fun m hm => ?_)
    exact hsame m (.head (h.parent?_of_mem hd) hm)

theorem walk_eq (h : f.Owned) (n : NodeId) : f.walk n = n :: (f.children n).flatMap f.walk := by
  rw [walk, h.tree_eq, Tree.walk, Tree.walkAll_eq_flatMap, List.map_cons, List.map_flatMap,
    List.flatMap_map]
  rfl

theorem above_of_mem_walk (h : f.Owned) (hm : m ∈ f.walk n) : f.Above n m := by
  induction n using h.descend with
  | step n ih =>
    rw [h.walk_eq, List.mem_cons, List.mem_flatMap] at hm
    rcases hm with rfl | ⟨c, hc, hm⟩
    · exact .refl
    · exact .head (h.parent?_of_mem hc) (ih c hc hm)

theorem mem_walk (h : f.Owned) : m ∈ f.walk n ↔ f.Above n m := by
  refine ⟨h.above_of_mem_walk, fun hm => ?_⟩
  induction hm using ReflTransGen.head_induction_on with
  | refl =>
    rw [h.walk_eq]
    exact List.mem_cons_self
  | head hp _ ih =>
    rw [h.walk_eq]
    exact List.mem_cons_of_mem _ (List.mem_flatMap.2 ⟨_, h.mem_of_parent? hp, ih⟩)

theorem nodup_walk (h : f.Owned) (n : NodeId) : (f.walk n).Nodup := by
  induction n using h.descend with
  | step n ih =>
    rw [h.walk_eq, List.nodup_cons, List.nodup_flatMap]
    refine ⟨fun hn => ?_, ih, (h.nodup n).imp_of_mem fun {a b} ha hb hab m hma hmb => ?_⟩
    · obtain ⟨c, hc, hn⟩ := List.mem_flatMap.1 hn
      exact h.not_above_of_mem hc (h.above_of_mem_walk hn)
    · exact hab (h.eq_of_above ha hb (h.above_of_mem_walk hma) (h.above_of_mem_walk hmb))

end Owned

end Outliner.Forest
