import Outliner.Proofs.Levels

/-!
# Down a tree and up again

A walk goes down the lists of children, and the depth of a node is counted by going up from parent to parent.
`WalkRun` and `ClimbLoop` are this recursion and this loop without fuel. In an owned forest both end, with what
`walk` and `depth` give (`Owned.walkRun_iff`, `Owned.climbLoop_iff`).

So the two directions agree in every forest that a run of operations reaches: a walk from a node lists the
nodes from which one climbs to it, and a node that lies some levels below another one is deeper by that
many (`walk_agrees_with_parents`).
-/

namespace Outliner.Forest

variable {f : Forest} {n : NodeId} {n? : Option NodeId} {ns : List NodeId} {d e e' : Nat}

/-! ### Up -/

/-- The loop that counts the nodes above a node: it stands at `n?` and has counted `d` nodes, and when there is
none left it has counted `e`. -/
inductive ClimbLoop (f : Forest) : Option NodeId → Nat → Nat → Prop where
  | top {d : Nat} : ClimbLoop f none d d
  | climb {n d e : Nat} : ClimbLoop f (f.parent? n) (d + 1) e → ClimbLoop f (some n) d e

theorem ClimbLoop.unique (h : ClimbLoop f n? d e) (h' : ClimbLoop f n? d e') : e' = e := by
  induction h with
  | top =>
    cases h'
    rfl
  | climb _ ih =>
    rcases h' with _ | h'
    exact ih h'

theorem Owned.climbLoop (h : f.Owned) (n : NodeId) (d : Nat) :
    ClimbLoop f (f.parent? n) d (d + f.depth n) := by
  -- from the top downwards, since the loop goes on at the parent
  induction n using h.wf.induction generalizing d with
  | h n ih =>
    cases hp : f.parent? n with
    | none =>
      rw [depth_of_parentless hp]
      exact .top
    | some p =>
      rw [h.depth_of_parent? hp, Nat.add_comm (f.depth p), ← Nat.add_assoc]
      exact .climb (ih p hp (d + 1))

theorem Owned.climbLoop_iff (h : f.Owned) : ClimbLoop f (f.parent? n) 0 e ↔ e = f.depth n := by
  have hloop := h.climbLoop n 0
  rw [Nat.zero_add] at hloop
  exact ⟨hloop.unique, fun heq => heq ▸ hloop⟩

/-! ### Down -/

/-- The recursion of a walk: it lists a node, and then what it lists for each of the children, in their
order. -/
inductive WalkRun (f : Forest) : NodeId → List NodeId → Prop where
  | node {n : NodeId} {below : List (List NodeId)} :
      List.Forall₂ (WalkRun f) (f.children n) below → WalkRun f n (n :: below.flatten)

theorem forall₂_iff_eq_map {α β : Type} {R : α → β → Prop} {g : α → β} {xs : List α} {ys : List β}
    (h : ∀ x ∈ xs, ∀ y, R x y ↔ y = g x) : List.Forall₂ R xs ys ↔ ys = xs.map g := by
  induction xs generalizing ys with
  | nil => rw [List.forall₂_nil_left_iff, List.map_nil]
  | cons x xs ih =>
    rw [List.forall₂_cons_left_iff, List.map_cons]
    have hx := h x List.mem_cons_self
    have hxs : ∀ zs, List.Forall₂ R xs zs ↔ zs = xs.map g :=
      fun _ => ih fun y hy => h y (List.mem_cons_of_mem x hy)
    simp only [hx, hxs]
    exact ⟨fun ⟨_, _, hy, hys, heq⟩ => hy ▸ hys ▸ heq, fun heq => ⟨_, _, rfl, rfl, heq⟩⟩

theorem Owned.walkRun_iff (h : f.Owned) : WalkRun f n ns ↔ ns = f.walk n := by
  induction n using h.descend generalizing ns with
  | step n ih =>
    have hbelow : ∀ below, List.Forall₂ (WalkRun f) (f.children n) below
        ↔ below = (f.children n).map f.walk := fun _ => forall₂_iff_eq_map fun c hc _ => ih c hc
    rw [h.walk_eq, List.flatMap_def]
    constructor
    · rintro ⟨hrun⟩
      rw [(hbelow _).1 hrun]
    · rintro rfl
      exact .node ((hbelow _).2 rfl)

/-! ### Both ways -/

/-- In every forest that a run of operations reaches, a walk from `r` lists the nodes from which one climbs to
`r`, each of them once. The walk ends, and lists `r` first and then the walks from its children, in their
order. The nodes from which one climbs to `r` are those at some level below it, and such a node is deeper than
`r` by its level. The loop that counts how deep a node is ends. -/
theorem walk_agrees_with_parents (h : f.Reached) (r m : NodeId) :
    (m ∈ f.walk r ↔ f.Above r m) ∧
      (m ∈ f.walk r → (f.walk r).count m = 1) ∧
      f.walk r = r :: (f.children r).flatMap f.walk ∧
      (∀ ns, WalkRun f r ns ↔ ns = f.walk r) ∧
      (f.Above r m ↔ ∃ l, f.AtLevel r l m) ∧
      (∀ l, f.AtLevel r l m → f.depth m = f.depth r + l) ∧
      ∀ d, ClimbLoop f (f.parent? m) 0 d ↔ d = f.depth m := by
  have howned := h.owned
  refine ⟨howned.mem_walk, List.count_eq_one_of_mem (howned.nodup_walk r), howned.walk_eq r,
    fun _ => howned.walkRun_iff, ?_, fun _ => howned.depth_of_atLevel, fun _ => howned.climbLoop_iff⟩
  exact ⟨howned.exists_atLevel, fun ⟨_, hl⟩ => howned.above_of_atLevel hl⟩

/-- The class of `interleaved` has been moved into a bucket, and its method has gone with it. -/
theorem walk_agrees_with_parents_bucket :
    let f := (interleaved.bucketize 0).1
    f.Reached ∧ 4 ∈ f.walk 5 ∧ f.Above 5 4 ∧ (f.walk 5).count 4 = 1 ∧ WalkRun f 5 [5, 1, 4] ∧
      f.depth 4 = f.depth 5 + 2 ∧ ClimbLoop f (f.parent? 4) 0 2 := by
  intro f
  have hf : f.Reached := interleaved_reached.step (.bucketize 0) trivial
  obtain ⟨hmem, hcount, -, hrun, -, hdepth, hloop⟩ := walk_agrees_with_parents hf 5 4
  have hlisted : 4 ∈ f.walk 5 := by decide
  have hlevel : f.AtLevel 5 2 4 := .child (.child .root (p := 5) (m := 1) (by decide)) (by decide)
  exact ⟨hf, hlisted, hmem.1 hlisted, hcount hlisted, (hrun _).2 (by decide), hdepth 2 hlevel,
    (hloop 2).2 (by decide)⟩

end Outliner.Forest
