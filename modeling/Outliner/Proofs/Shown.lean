import Mathlib.Data.List.Flatten
import Outliner.Proofs.Descent
import Outliner.Proofs.Runs
import Outliner.Proofs.VisibleRows

/-!
# The visible nodes of a forest

`Forest.shown f n` lists the visible nodes from `n` downwards, in pre-order. They are the nodes of the rows
of the tree below `n` (`Owned.map_node?_render`), and a node is among them if no node above it, up to
`n`, is closed (`Owned.mem_shown`).

Opening and closing nodes has no effect but on what is shown: the forest stays the same otherwise
(`Refolded`), whichever of the operations that do so are used (`refolded_foldl`).
-/

namespace Outliner

namespace Tree

variable {s : Style} {label : Node → String} {t : Tree} {ts : List Tree} {padding : String}

/-- The visible nodes in pre-order. -/
def shown (t : Tree) : List Node :=
  t.visible.map fun v => v.2.node

theorem map_node_visibleFrom (i : Nat) (ts : List Tree) :
    (visibleFrom i ts).map (fun v => v.2.node) = ts.flatMap shown := by
  induction ts generalizing i with
  | nil => rfl
  | cons t ts ih =>
    rw [visibleFrom, List.map_append, List.map_map, ih, List.flatMap_cons]
    rfl

theorem shown_eq (t : Tree) :
    t.shown = t.node :: if t.closed then [] else t.children.flatMap shown := by
  rw [shown, visible_eq, List.map_cons]
  cases t.closed with
  | true => rfl
  | false => exact congrArg _ (map_node_visibleFrom 0 t.children)

/-! ### The nodes of rows -/

theorem map_node?_rowsAll_of (h : ∀ t ∈ ts, ∀ padding place,
      (rows s label padding place t).map Row.node? = t.shown.map some) (padding : String)
    (marked : Bool) :
    (rowsAll s label padding marked ts).map Row.node? = (ts.flatMap shown).map some := by
  induction ts generalizing marked with
  | nil => rfl
  | cons t ts ih =>
    have hrest := ih (fun u hu => h u (List.mem_cons_of_mem t hu)) false
    rw [rowsAll, List.map_append, h t List.mem_cons_self, hrest, List.flatMap_cons, List.map_append]

theorem map_node?_rows (s : Style) (label : Node → String) (padding : String) (place : Place)
    (t : Tree) : (rows s label padding place t).map Row.node? = t.shown.map some := by
  induction t using induct generalizing padding place with
  | step node closed children ih =>
    have hchildren := map_node?_rowsAll_of ih (padding ++ s.filler place) false
    rw [shown_eq, rows, List.map_cons, List.map_cons]
    cases closed with
    | true => rfl
    | false => exact congrArg _ hchildren

theorem map_node?_rowsAll (s : Style) (label : Node → String) (padding : String) (marked : Bool)
    (ts : List Tree) :
    (rowsAll s label padding marked ts).map Row.node? = (ts.flatMap shown).map some :=
  map_node?_rowsAll_of (fun t _ padding place => map_node?_rows s label padding place t) padding marked

theorem map_node?_render (s : Style) (label : Node → String) (hideRoot : Bool) (t : Tree) :
    (t.render s label hideRoot).map Row.node?
      = (if hideRoot then t.shown.tail else t.shown).map some := by
  have hchildren := map_node?_rowsAll s label (if hideRoot then "" else s.empty) (!hideRoot) t.children
  obtain ⟨node, closed, children⟩ := t
  rw [shown_eq]
  cases hideRoot <;> cases closed
  · exact congrArg _ hchildren
  · rfl
  · exact hchildren
  · rfl

end Tree

namespace Forest

open Relation

variable {f g : Forest} {a c d m n p r : NodeId} {b : Bool}

/-! ### Which nodes are visible -/

/-- The visible nodes from `n` downwards, in pre-order. -/
def shown (f : Forest) (n : NodeId) : List NodeId :=
  (f.tree n).shown.map Node.id

/-- `n` lies below `r` or is `r` itself, and all nodes above it, up to `r`, are open. -/
def Shown (f : Forest) (r n : NodeId) : Prop :=
  f.Above r n ∧ ∀ a, f.Above r a → f.Above a n → a ≠ n → f.closed a = false

namespace Owned

theorem above_antisymm (h : f.Owned) (han : f.Above a n) (hna : f.Above n a) : a = n := by
  rcases ReflTransGen.cases_tail han with rfl | ⟨p, hap, hpn⟩
  · rfl
  · exact absurd (hna.trans hap) (h.not_above_parent hpn)

theorem shown_eq (h : f.Owned) (n : NodeId) :
    f.shown n = n :: if f.closed n then [] else (f.children n).flatMap f.shown := by
  rw [shown, Tree.shown_eq, h.node_tree, h.closed_tree, h.children_tree, List.map_cons]
  refine congrArg (n :: ·) ?_
  cases f.closed n with
  | true => rfl
  | false =>
    rw [if_neg Bool.false_ne_true, if_neg Bool.false_ne_true, List.flatMap_map, List.map_flatMap]
    rfl

theorem shown_tree (h : f.Owned) (n : NodeId) : (f.tree n).shown = (f.shown n).map f.node := by
  induction n using h.descend with
  | step n ih =>
    rw [Tree.shown_eq, h.node_tree, h.closed_tree, h.children_tree, h.shown_eq, List.map_cons]
    refine congrArg _ ?_
    cases f.closed n with
    | true => rfl
    | false =>
      rw [if_neg Bool.false_ne_true, if_neg Bool.false_ne_true, List.flatMap_map, List.map_flatMap]
      exact List.flatMap_congr fun c hc => ih c hc

theorem map_node?_render (h : f.Owned) (s : Style) (label : Node → String) (hideRoot : Bool)
    (n : NodeId) :
    ((f.tree n).render s label hideRoot).map Row.node?
      = (if hideRoot then (f.shown n).tail else f.shown n).map fun m => some (f.node m) := by
  rw [Tree.map_node?_render, h.shown_tree]
  cases hideRoot with
  | true => rw [if_pos rfl, if_pos rfl, ← List.map_tail, List.map_map]; rfl
  | false => rw [if_neg Bool.false_ne_true, if_neg Bool.false_ne_true, List.map_map]; rfl

theorem shown_sublist_walk (h : f.Owned) (n : NodeId) : (f.shown n).Sublist (f.walk n) := by
  induction n using h.descend with
  | step n ih =>
    rw [h.shown_eq, h.walk_eq]
    refine List.Sublist.cons_cons n ?_
    cases f.closed n with
    | true => exact List.nil_sublist _
    | false => exact List.Sublist.flatMap_right _ ih

theorem nodup_shown (h : f.Owned) (n : NodeId) : (f.shown n).Nodup :=
  (h.nodup_walk n).sublist (h.shown_sublist_walk n)

theorem shown_self (h : f.Owned) (n : NodeId) : f.Shown n n :=
  ⟨.refl, fun _ hna han hne => absurd (h.above_antisymm han hna) hne⟩

/-- A visible node other than the root is visible from one of the children of the root. -/
theorem shown_cons (h : f.Owned) (hp : f.IsParent r c) :
    f.Shown r n ∧ f.Above c n ↔ f.closed r = false ∧ f.Shown c n := by
  constructor
  · rintro ⟨⟨-, hopen⟩, hcn⟩
    refine ⟨hopen r .refl (.head hp hcn) ?_, hcn, fun a ha => hopen a (.head hp ha)⟩
    rintro rfl
    exact h.not_above_parent hp hcn
  · rintro ⟨hr, hcn, hopen⟩
    refine ⟨⟨.head hp hcn, fun a hra han hne => ?_⟩, hcn⟩
    rcases ReflTransGen.cases_head hra with rfl | ⟨d, hd, hda⟩
    · exact hr
    · have hdc := h.eq_of_above (h.mem_of_parent? hd) (h.mem_of_parent? hp) (hda.trans han) hcn
      exact hopen a (hdc ▸ hda) han hne

theorem mem_shown (h : f.Owned) : m ∈ f.shown r ↔ f.Shown r m := by
  induction r using h.descend with
  | step r ih =>
    rw [h.shown_eq, List.mem_cons]
    constructor
    · rintro (rfl | hm)
      · exact h.shown_self m
      · cases hr : f.closed r with
        | true =>
          rw [hr] at hm
          cases hm
        | false =>
          rw [hr] at hm
          obtain ⟨c, hc, hm⟩ := List.mem_flatMap.1 hm
          exact ((h.shown_cons (h.parent?_of_mem hc)).2 ⟨hr, (ih c hc).1 hm⟩).1
    · intro hm
      rcases ReflTransGen.cases_head hm.1 with rfl | ⟨c, hp, hcm⟩
      · exact .inl rfl
      · obtain ⟨hr, hcm⟩ := (h.shown_cons hp).1 ⟨hm, hcm⟩
        have hc := h.mem_of_parent? hp
        rw [hr]
        exact .inr (List.mem_flatMap.2 ⟨c, hc, (ih c hc).2 hcm⟩)

/-- With all nodes open everything is visible. -/
theorem shown_eq_walk (h : f.Owned) (hopen : ∀ m ∈ f.walk n, f.closed m = false) :
    f.shown n = f.walk n := by
  refine (h.shown_sublist_walk n).eq_of_length_le (List.Nodup.length_le_of_subset (h.nodup_walk n) ?_)
  intro m hm
  refine h.mem_shown.2 ⟨h.mem_walk.1 hm, fun a ha _ _ => hopen a (h.mem_walk.2 ha)⟩

end Owned

/-! ### Other collapse states -/

/-- `g` is `f` but for the collapse states of the nodes. -/
structure Refolded (f g : Forest) : Prop where
  size : g.size = f.size
  node : ∀ m, g.node m = f.node m
  parent? : ∀ m, g.parent? m = f.parent? m
  children : ∀ m, g.children m = f.children m

namespace Refolded

theorem refl (f : Forest) : Refolded f f :=
  ⟨rfl, fun _ => rfl, fun _ => rfl, fun _ => rfl⟩

theorem trans {k : Forest} (h : Refolded f g) (h' : Refolded g k) : Refolded f k where
  size := h'.size.trans h.size
  node m := (h'.node m).trans (h.node m)
  parent? m := (h'.parent? m).trans (h.parent? m)
  children m := (h'.children m).trans (h.children m)

theorem setClosed (f : Forest) (n : NodeId) (b : Bool) : Refolded f (f.setClosed n b) :=
  ⟨size_setClosed, fun _ => node_setClosed, fun _ => parent?_setClosed, fun _ => children_setClosed⟩

theorem owned (h : Refolded f g) (hf : f.Owned) : g.Owned :=
  hf.congr h.parent? fun m => .of_eq (h.children m)

theorem above_iff (h : Refolded f g) : g.Above a n ↔ f.Above a n :=
  ⟨.of_agree fun m _ => h.parent? m, .of_agree fun m _ => (h.parent? m).symm⟩

theorem walk_eq (h : Refolded f g) (hf : f.Owned) (n : NodeId) : g.walk n = f.walk n := by
  induction n using hf.descend with
  | step n ih =>
    rw [(h.owned hf).walk_eq, hf.walk_eq, h.children]
    exact congrArg _ (List.flatMap_congr ih)

end Refolded

end Forest

namespace Operation

open Forest

/-- The operations that open and close nodes. -/
def Folds : Operation → Prop
  | toggle _ | expand _ | collapse _ | collapseBelow .. | toggleRow .. => True
  | _ => False

theorem Folds.refolded {op : Operation} (h : op.Folds) (f : Forest) : Refolded f (op.run f) := by
  cases op with
  | toggle n => exact .setClosed f n _
  | expand n => exact .setClosed f n _
  | collapse n => exact .setClosed f n _
  | collapseBelow n depth =>
    exact ⟨size_collapseBelow, fun _ => node_collapseBelow, fun _ => parent?_collapseBelow,
      fun _ => children_collapseBelow⟩
  | toggleRow rows i =>
    show Refolded f (f.toggleRow rows i).2
    unfold Forest.toggleRow
    split
    · exact .refl f
    · exact .setClosed f _ _
  | create | append | detach | sortBelow | bucketize | renderNavbar | renderTree => exact h.elim

end Operation

/-- A run of operations that open and close nodes. -/
theorem Forest.refolded_foldl {ops : List Operation} (h : ∀ op ∈ ops, op.Folds) (f : Forest) :
    Refolded f (ops.foldl (fun g op => op.run g) f) :=
  List.foldlRecOn ops _ (.refl f) fun g hg op hop => hg.trans ((h op hop).refolded g)

end Outliner
