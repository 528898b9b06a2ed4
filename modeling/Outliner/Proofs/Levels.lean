import Mathlib.Data.List.Perm.Basic
import Outliner.Proofs.Rerendering
import Outliner.Proofs.Shown

/-!
# Collapsing below a level

`Forest.AtLevel f r l m` says that `m` lies `l` levels below `r`, going down the lists of children. In an
owned forest that is the difference of the depths (`Owned.depth_of_atLevel`).

`collapseBelow` works off a stack, with the size of the forest as fuel. `CollapseLoop` is its loop without
fuel, and tells the nodes that are taken off the stack and their levels. These are the `visits`, which do not
depend on what is closed on the way: each node of the tree once, at its level (`Owned.mem_visits`,
`Owned.perm_visits`). The loop ends when they are done (`Owned.collapseLoop`), and it needs no more fuel than
it is given (`Owned.collapseBelow_eq`). The main statement, `collapseBelow_closes`, says what this
does to the forest.
-/

namespace Outliner

/-! ### The order of the visits -/

namespace Tree

mutual

/-- The nodes of a tree with their levels, where the root has the given one, in the order in which a stack
gives them out: of siblings the last comes first. -/
def visits (level : Nat) : Tree → List (NodeId × Nat)
  | mk node _ children => (node.id, level) :: visitsAll (level + 1) children

def visitsAll (level : Nat) : List Tree → List (NodeId × Nat)
  | [] => []
  | t :: ts => visitsAll level ts ++ visits level t

end

theorem visitsAll_eq (level : Nat) (ts : List Tree) :
    visitsAll level ts = ts.reverse.flatMap (visits level) := by
  induction ts with
  | nil => rfl
  | cons t ts ih => simp [visitsAll, ih]

end Tree

namespace Forest

variable {f g : Forest} {d : Int} {c m n p r : NodeId} {k l level fuel : Nat}
  {stack visited : List (NodeId × Nat)}

/-! ### Levels -/

/-- `m` lies `l` levels below `r`, and `r` itself is at level 0. -/
inductive AtLevel (f : Forest) (r : NodeId) : Nat → NodeId → Prop where
  | root : AtLevel f r 0 r
  | child {l : Nat} {p m : NodeId} : AtLevel f r l p → m ∈ f.children p → AtLevel f r (l + 1) m

theorem AtLevel.of_child (hc : c ∈ f.children r) (h : f.AtLevel c l m) : f.AtLevel r (l + 1) m := by
  induction h with
  | root => exact .child .root hc
  | child _ hm ih => exact .child ih hm

/-- Levels depend on the lists of children only. -/
theorem AtLevel.of_agree (h : ∀ p, g.children p = f.children p) (hl : g.AtLevel r l m) :
    f.AtLevel r l m := by
  induction hl with
  | root => exact .root
  | child _ hm ih => exact .child ih (h _ ▸ hm)

theorem atLevel_iff_cases :
    f.AtLevel r l m ↔ l = 0 ∧ m = r ∨ ∃ c ∈ f.children r, ∃ k, l = k + 1 ∧ f.AtLevel c k m := by
  constructor
  · intro h
    induction h with
    | root => exact .inl ⟨rfl, rfl⟩
    | @child l p m _ hm ih =>
      rcases ih with ⟨rfl, rfl⟩ | ⟨c, hc, k, rfl, hk⟩
      · exact .inr ⟨m, hm, 0, rfl, .root⟩
      · exact .inr ⟨c, hc, k + 1, rfl, .child hk hm⟩
  · rintro (⟨rfl, rfl⟩ | ⟨c, hc, k, rfl, hk⟩)
    · exact .root
    · exact hk.of_child hc

namespace Owned

theorem above_of_atLevel (h : f.Owned) (hl : f.AtLevel r l m) : f.Above r m := by
  induction hl with
  | root => exact .refl
  | child _ hm ih => exact ih.tail (h.parent?_of_mem hm)

theorem depth_of_atLevel (h : f.Owned) (hl : f.AtLevel r l m) : f.depth m = f.depth r + l := by
  induction hl with
  | root => rfl
  | child _ hm ih => rw [h.depth_of_parent? (h.parent?_of_mem hm), ih, Nat.add_assoc]

theorem exists_atLevel (h : f.Owned) (hrm : f.Above r m) : ∃ l, f.AtLevel r l m := by
  induction hrm with
  | refl => exact ⟨0, .root⟩
  | tail _ hp ih =>
    obtain ⟨l, hl⟩ := ih
    exact ⟨l + 1, .child hl (h.mem_of_parent? hp)⟩

end Owned

/-! ### The loop -/

/-- What the loop does to a node that it takes off the stack. -/
def visit (d : Int) (f : Forest) (v : NodeId × Nat) : Forest :=
  if d ≤ v.2 && !(f.children v.1).isEmpty then f.collapse v.1 else f

/-- The loop of `collapseBelow` without fuel. It takes the nodes `visited` off the stack, one in each pass,
until the stack is empty, and turns `f` into `g`. -/
inductive CollapseLoop (d : Int) :
    List (NodeId × Nat) → Forest → List (NodeId × Nat) → Forest → Prop where
  | done {f : Forest} : CollapseLoop d [] f [] f
  | pass {n : NodeId} {level : Nat} {stack visited : List (NodeId × Nat)} {f g : Forest} :
      CollapseLoop d ((f.children n).reverse.map (·, level + 1) ++ stack) (f.visit d (n, level))
        visited g →
      CollapseLoop d ((n, level) :: stack) f ((n, level) :: visited) g

theorem CollapseLoop.unique {visited' : List (NodeId × Nat)} {g' : Forest}
    (h : CollapseLoop d stack f visited g) (h' : CollapseLoop d stack f visited' g') :
    visited' = visited ∧ g' = g := by
  induction h generalizing visited' with
  | done =>
    cases h'
    exact ⟨rfl, rfl⟩
  | pass _ ih =>
    rcases h' with _ | h'
    obtain ⟨rfl, rfl⟩ := ih h'
    exact ⟨rfl, rfl⟩

/-- Fuel for every pass is enough. -/
theorem CollapseLoop.collapseStacked_eq (h : CollapseLoop d stack f visited g)
    (hfuel : visited.length ≤ fuel) : collapseStacked d fuel stack f = g := by
  induction h generalizing fuel with
  | done => cases fuel <;> rfl
  | pass _ ih =>
    obtain ⟨fuel, rfl⟩ : ∃ k, fuel = k + 1 := ⟨fuel - 1, by simp at hfuel; omega⟩
    exact ih (by simpa using hfuel)

theorem refolded_visit (d : Int) (f : Forest) (v : NodeId × Nat) : Refolded f (f.visit d v) := by
  unfold visit
  split
  · exact .setClosed f v.1 true
  · exact .refl f

theorem closed_visit {v : NodeId × Nat} :
    (f.visit d v).closed m = true
      ↔ f.closed m = true ∨ v.1 = m ∧ d ≤ v.2 ∧ f.children m ≠ [] := by
  unfold visit
  split
  · next hv =>
    simp only [Bool.and_eq_true, decide_eq_true_eq, Bool.not_eq_true', List.isEmpty_eq_false_iff] at hv
    have hlt := lt_size_of_children_ne hv.2
    rw [collapse, closed_setClosed]
    by_cases hm : v.1 = m
    · subst hm
      simp [hv, hlt]
    · simp [hm]
  · next hv =>
    refine ⟨.inl, ?_⟩
    rintro (hm | ⟨rfl, hd, hc⟩)
    · exact hm
    · exact absurd (by simp [hd, hc]) hv

/-- What a run of visits closes. -/
theorem closed_foldl_visit :
    (visited.foldl (visit d) f).closed m = true
      ↔ f.closed m = true ∨ ∃ l : Nat, (m, l) ∈ visited ∧ d ≤ l ∧ f.children m ≠ [] := by
  induction visited generalizing f with
  | nil => simp
  | cons v visited ih =>
    obtain ⟨n, level⟩ := v
    rw [List.foldl_cons, ih, closed_visit, (refolded_visit d f (n, level)).children, or_assoc]
    refine or_congr_right ?_
    constructor
    · rintro (⟨rfl, hd, hc⟩ | ⟨l, hl, hd, hc⟩)
      · exact ⟨level, List.mem_cons_self, hd, hc⟩
      · exact ⟨l, List.mem_cons_of_mem _ hl, hd, hc⟩
    · rintro ⟨l, hl, hd, hc⟩
      rcases List.mem_cons.1 hl with heq | hl
      · cases heq
        exact .inl ⟨rfl, hd, hc⟩
      · exact .inr ⟨l, hl, hd, hc⟩

/-! ### The nodes that are visited -/

/-- The nodes from `n` downwards with their levels, where `n` has the given one, in the order in which the
loop takes them off the stack. -/
def visits (f : Forest) (n : NodeId) (level : Nat) : List (NodeId × Nat) :=
  (f.tree n).visits level

namespace Owned

theorem visits_eq (h : f.Owned) (n : NodeId) (level : Nat) :
    f.visits n level
      = (n, level) :: (f.children n).reverse.flatMap fun c => f.visits c (level + 1) := by
  rw [visits, h.tree_eq, Tree.visits, Tree.visitsAll_eq, ← List.map_reverse, List.flatMap_map]
  rfl

theorem mem_visits (h : f.Owned) :
    (m, k) ∈ f.visits n level ↔ ∃ l, f.AtLevel n l m ∧ k = level + l := by
  induction n using h.descend generalizing level with
  | step n ih =>
    rw [h.visits_eq, List.mem_cons, List.mem_flatMap]
    constructor
    · rintro (heq | ⟨c, hc, hm⟩)
      · cases heq
        exact ⟨0, .root, rfl⟩
      · rw [List.mem_reverse] at hc
        obtain ⟨l, hl, rfl⟩ := (ih c hc).1 hm
        exact ⟨l + 1, hl.of_child hc, by omega⟩
    · rintro ⟨l, hl, rfl⟩
      rcases atLevel_iff_cases.1 hl with ⟨rfl, rfl⟩ | ⟨c, hc, l, rfl, hcl⟩
      · exact .inl rfl
      · exact .inr ⟨c, List.mem_reverse.2 hc, (ih c hc).2 ⟨l, hcl, by omega⟩⟩

theorem perm_visits (h : f.Owned) (n : NodeId) (level : Nat) :
    ((f.visits n level).map Prod.fst).Perm (f.walk n) := by
  induction n using h.descend generalizing level with
  | step n ih =>
    rw [h.visits_eq, h.walk_eq, List.map_cons, List.map_flatMap]
    refine List.Perm.cons n (((List.reverse_perm _).flatMap_right _).trans ?_)
    exact List.Perm.flatMap_left _ fun c hc => ih c hc (level + 1)

theorem length_visits_le (h : f.Owned) (hr : r < f.size) : (f.visits r level).length ≤ f.size := by
  have hsub : f.walk r ⊆ List.range f.size := fun m hm =>
    List.mem_range.2 (Above.lt_size (h.mem_walk.1 hm) hr)
  have hlen := (h.nodup_walk r).length_le_of_subset hsub
  have hperm := (h.perm_visits r level).length_eq
  rw [List.length_map] at hperm
  rwa [hperm, ← List.length_range (n := f.size)]

/-- The loop visits what lies below the nodes on the stack, whatever it has closed before. -/
theorem collapseLoop (h : f.Owned) (hg : Refolded f g)
    (hvisited : (stack.flatMap fun v => f.visits v.1 v.2) = visited) :
    CollapseLoop d stack g visited (visited.foldl (visit d) g) := by
  induction visited generalizing stack g with
  | nil =>
    rcases stack with _ | ⟨⟨n, level⟩, stack⟩
    · exact .done
    · rw [List.flatMap_cons, h.visits_eq] at hvisited
      cases hvisited
  | cons v visited ih =>
    rcases stack with _ | ⟨⟨n, level⟩, stack⟩
    · cases hvisited
    · rw [List.flatMap_cons, h.visits_eq, List.cons_append, List.cons.injEq] at hvisited
      obtain ⟨rfl, hvisited⟩ := hvisited
      refine .pass (ih (hg.trans (refolded_visit d g _)) ?_)
      rw [hg.children, List.flatMap_append, List.flatMap_map]
      exact hvisited

theorem collapseLoop_root (h : f.Owned) (r : NodeId) (d : Int) :
    CollapseLoop d [(r, 0)] f (f.visits r 0) ((f.visits r 0).foldl (visit d) f) :=
  h.collapseLoop (.refl f) (by simp)

theorem collapseBelow_eq (h : f.Owned) (hr : r < f.size) (d : Int) :
    f.collapseBelow r d = (f.visits r 0).foldl (visit d) f :=
  (h.collapseLoop_root r d).collapseStacked_eq (h.length_visits_le hr)

theorem collapseLoop_iff (h : f.Owned) (hr : r < f.size) :
    CollapseLoop d [(r, 0)] f visited g ↔ visited = f.visits r 0 ∧ g = f.collapseBelow r d := by
  rw [h.collapseBelow_eq hr]
  constructor
  · exact (h.collapseLoop_root r d).unique
  · rintro ⟨rfl, rfl⟩
    exact h.collapseLoop_root r d

theorem mem_visits_root (h : f.Owned) : (m, l) ∈ f.visits r 0 ↔ f.AtLevel r l m := by
  rw [h.mem_visits]
  simp

theorem closed_collapseBelow (h : f.Owned) (hr : r < f.size) :
    (f.collapseBelow r d).closed m = true
      ↔ f.closed m = true ∨ ∃ l : Nat, f.AtLevel r l m ∧ d ≤ l ∧ f.children m ≠ [] := by
  rw [h.collapseBelow_eq hr, closed_foldl_visit]
  simp only [h.mem_visits_root]

end Owned

theorem Refolded.atLevel_iff (h : Refolded f g) : g.AtLevel r l m ↔ f.AtLevel r l m :=
  ⟨.of_agree h.children, .of_agree fun p => (h.children p).symm⟩

theorem refolded_collapseBelow (f : Forest) (r : NodeId) (d : Int) :
    Refolded f (f.collapseBelow r d) :=
  ⟨size_collapseBelow, fun _ => node_collapseBelow, fun _ => parent?_collapseBelow,
    fun _ => children_collapseBelow⟩

/-- Collapsing below two levels is collapsing below the upper one of them. -/
theorem Owned.collapseBelow_collapseBelow (h : f.Owned) (hr : r < f.size) (d e : Int) :
    (f.collapseBelow r d).collapseBelow r e = f.collapseBelow r (min d e) := by
  have hd := refolded_collapseBelow f r d
  have hde := hd.trans (refolded_collapseBelow _ r e)
  have hmin := refolded_collapseBelow f r (min d e)
  refine eq_of_reads (hde.size.trans hmin.size.symm) (fun m => (hde.node m).trans (hmin.node m).symm)
    (fun m => ?_) (fun m => (hde.parent? m).trans (hmin.parent? m).symm)
    fun m => (hde.children m).trans (hmin.children m).symm
  rw [Bool.eq_iff_iff, (hd.owned h).closed_collapseBelow (hd.size.symm ▸ hr), h.closed_collapseBelow hr,
    h.closed_collapseBelow hr, or_assoc, ← exists_or]
  refine or_congr_right (exists_congr fun l => ?_)
  have hlevel : min d e ≤ l ↔ d ≤ l ∨ e ≤ l := by omega
  rw [hd.atLevel_iff, hd.children, hlevel, or_and_right, and_or_left]

/-- Collapsing below the level `d` of a tree closes the nodes that have children and lie `d` or more levels
below its root, and changes nothing else: no other node is opened or closed, and all nodes keep their
contents, parents and children. The loop takes every node of the tree off the stack once, at its level,
and ends. So collapsing below two levels, in either order, is collapsing below the upper one. -/
theorem collapseBelow_closes (h : f.Reached) (hr : r < f.size) (d : Int) :
    let g := f.collapseBelow r d
    (∀ m, g.closed m = true
      ↔ f.closed m = true ∨ ∃ l : Nat, f.AtLevel r l m ∧ d ≤ l ∧ f.children m ≠ []) ∧
      Refolded f g ∧
      (∃ visited, (∀ m l, (m, l) ∈ visited ↔ f.AtLevel r l m) ∧
        (visited.map Prod.fst).Perm (f.walk r) ∧ (visited.map Prod.fst).Nodup ∧
        ∀ visited' g', CollapseLoop d [(r, 0)] f visited' g' ↔ visited' = visited ∧ g' = g) ∧
      ∀ e, g.collapseBelow r e = f.collapseBelow r (min d e) ∧
        (f.collapseBelow r e).collapseBelow r d = f.collapseBelow r (min d e) := by
  intro g
  have howned := h.owned
  have hperm := howned.perm_visits r 0
  refine ⟨fun m => howned.closed_collapseBelow hr, refolded_collapseBelow f r d, ?_, fun e => ⟨?_, ?_⟩⟩
  · exact ⟨f.visits r 0, fun _ _ => howned.mem_visits_root, hperm,
      hperm.nodup_iff.2 (howned.nodup_walk r), fun _ _ => howned.collapseLoop_iff hr⟩
  · exact howned.collapseBelow_collapseBelow hr d e
  · rw [howned.collapseBelow_collapseBelow hr, Int.min_comm]

/-- The class of `interleaved` was closed before, and what has no children stays open. -/
theorem collapseBelow_closes_interleaved :
    let f := interleaved
    let g := f.collapseBelow 0 0
    f.Reached ∧ 0 < f.size ∧
      (List.range 5).map f.closed = [false, true, false, false, false] ∧
      (List.range 5).map g.closed = [true, true, false, false, false] ∧
      (∃ visited, (visited.map Prod.fst).Perm [0, 1, 4, 2, 3] ∧
        ∀ visited' g', CollapseLoop 0 [(0, 0)] f visited' g' ↔ visited' = visited ∧ g' = g) ∧
      g.collapseBelow 0 7 = g := by
  intro f g
  obtain ⟨-, -, ⟨visited, -, hperm, -, hloop⟩, hcompose⟩ :=
    collapseBelow_closes interleaved_reached (r := 0) (by decide) 0
  exact ⟨interleaved_reached, by decide, by decide, by decide, ⟨visited, hperm, hloop⟩, (hcompose 7).1⟩

end Forest

end Outliner
