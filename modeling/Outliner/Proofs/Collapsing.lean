import Outliner.Proofs.Descent
import Outliner.Proofs.Runs
import Outliner.Proofs.VisibleRows

/-!
# The rows of a tree with one more node collapsed

The rows of siblings are the rows of each of them one after the other, and what is drawn for one depends
on the others only through its place (`Tree.exists_rowsAll_eq`). So from any node above `n` that is shown
down to `n`, the rows differ in one stretch, the rows of `n` and of what lies below it (`Forest.Spliced`).
If a node above `n` is closed, nothing differs from there upwards (`Tree.LooksLike`).
-/

namespace Outliner

namespace Tree

variable {s : Style} {label : Node → String} {padding : String} {place : Place} {marked : Bool}
  {t t' : Tree} {ts : List Tree} {row : Row}

/-- The rows of a tree after that of its root. -/
def rowsBelow (s : Style) (label : Node → String) (padding : String) (marked : Bool) (t : Tree) :
    List Row :=
  if t.closed then [] else rowsAll s label padding marked t.children

theorem rows_eq_cons (s : Style) (label : Node → String) (padding : String) (place : Place) (t : Tree) :
    rows s label padding place t
      = ⟨padding ++ (s.lead place).pick t.fold ++ label t.node, some t.node⟩
        :: t.rowsBelow s label (padding ++ s.filler place) false :=
  rows_eq s label padding place t

theorem render_eq_append (s : Style) (label : Node → String) (hideRoot : Bool) (t : Tree) :
    t.render s label hideRoot
      = (if hideRoot then [] else [⟨s.root.pick t.fold ++ label t.node, some t.node⟩])
        ++ t.rowsBelow s label (if hideRoot then "" else s.empty) (!hideRoot) := by
  cases t
  cases hideRoot <;> rfl

theorem map_node?_rowsBelow (s : Style) (label : Node → String) (padding : String) (marked : Bool)
    (t : Tree) :
    (t.rowsBelow s label padding marked).map Row.node?
      = t.visible.tail.map fun v => some v.2.node := by
  have hrows : rowsAll s label padding marked t.children
      = (visibleFrom 0 t.children).map (t.rowBelow s label padding (!marked)) := by
    have hall : rowsAll s label padding (!!marked) t.children = _ :=
      rowsAll_eq (i := 0) (!marked) List.drop_zero fun c _ => rowsAll_children s label c
    rwa [Bool.not_not] at hall
  rw [rowsBelow, tail_visible]
  cases t.closed with
  | true => rfl
  | false =>
    rw [if_neg Bool.false_ne_true, if_neg Bool.false_ne_true, hrows, List.map_map]
    rfl

/-! ### Nodes with rows -/

theorem exists_of_mem_rowsAll (h : row ∈ rowsAll s label padding marked ts) :
    ∃ t ∈ ts, ∃ place, row ∈ rows s label padding place t := by
  induction ts generalizing marked with
  | nil => cases h
  | cons t ts ih =>
    rw [rowsAll, List.mem_append] at h
    rcases h with h | h
    · exact ⟨t, List.mem_cons_self, _, h⟩
    · obtain ⟨u, hu, hrow⟩ := ih h
      exact ⟨u, List.mem_cons_of_mem t hu, hrow⟩

theorem exists_of_mem_rows (h : row ∈ rows s label padding place t) :
    ∃ m ∈ t.walk, row.node? = some m := by
  induction t using induct generalizing padding place with
  | step node closed children ih =>
    rw [rows, List.mem_cons] at h
    rcases h with rfl | h
    · exact ⟨node, List.mem_cons_self, rfl⟩
    · cases closed with
      | true => cases h
      | false =>
        obtain ⟨t, ht, _, hrow⟩ := exists_of_mem_rowsAll h
        obtain ⟨m, hm, hnode⟩ := ih t ht hrow
        refine ⟨m, List.mem_cons_of_mem node ?_, hnode⟩
        rw [walkAll_eq_flatMap]
        exact List.mem_flatMap.2 ⟨t, ht, hm⟩

/-- The rows around those of one sibling do not depend on it. -/
theorem exists_rowsAll_eq (s : Style) (label : Node → String) (padding : String) (marked : Bool)
    (before after : List Tree) :
    ∃ pre place post,
      (∀ t, rowsAll s label padding marked (before ++ t :: after)
        = pre ++ rows s label padding place t ++ post) ∧
      ∀ row ∈ pre ++ post, ∃ t ∈ before ++ after, ∃ m ∈ t.walk, row.node? = some m := by
  induction before generalizing marked with
  | nil =>
    refine ⟨[], _, rowsAll s label padding false after, fun t => rfl, fun row hrow => ?_⟩
    obtain ⟨t, ht, place, hrow⟩ := exists_of_mem_rowsAll hrow
    exact ⟨t, ht, exists_of_mem_rows hrow⟩
  | cons b before ih =>
    obtain ⟨pre, place, post, hrows, hnodes⟩ := ih false
    refine ⟨rows s label padding (if marked then .first else .nth) b ++ pre, place, post, ?_, ?_⟩
    · intro t
      have hlater : (before ++ t :: after).isEmpty = false := by simp
      rw [List.cons_append, rowsAll, hlater, hrows, if_neg Bool.false_ne_true]
      simp only [List.append_assoc]
    · intro row hrow
      rw [List.append_assoc, List.mem_append] at hrow
      rcases hrow with hrow | hrow
      · exact ⟨b, List.mem_cons_self, exists_of_mem_rows hrow⟩
      · obtain ⟨t, ht, hm⟩ := hnodes row hrow
        exact ⟨t, List.mem_cons_of_mem b ht, hm⟩

/-! ### Trees that look the same -/

/-- Both trees have the same rows, wherever they hang. -/
structure LooksLike (s : Style) (label : Node → String) (t t' : Tree) : Prop where
  node : t'.node = t.node
  fold : t'.fold = t.fold
  rowsBelow : ∀ padding marked, t'.rowsBelow s label padding marked = t.rowsBelow s label padding marked

theorem LooksLike.rows (h : LooksLike s label t t') (padding : String) (place : Place) :
    t'.rows s label padding place = t.rows s label padding place := by
  rw [rows_eq_cons, rows_eq_cons, h.node, h.fold, h.rowsBelow]

theorem LooksLike.render (h : LooksLike s label t t') (hideRoot : Bool) :
    t'.render s label hideRoot = t.render s label hideRoot := by
  rw [render_eq_append, render_eq_append, h.node, h.fold, h.rowsBelow]

end Tree

namespace Forest

open Relation Outliner.Tree

variable {f : Forest} {s : Style} {label : Node → String} {padding : String} {place : Place}
  {a c d n r : NodeId} {b : Bool} {row : Row}
  {part part' mid mid' whole whole' : List Row}

/-! ### Lists that differ in one stretch -/

/-- `whole'` has `part'` where `whole` has `part`. The rows left and right of it are the same, and none of
them is for `n` or a node below it. -/
def Spliced (f : Forest) (n : NodeId) (part part' whole whole' : List Row) : Prop :=
  ∃ before after, whole = before ++ part ++ after ∧ whole' = before ++ part' ++ after ∧
    ∀ row ∈ before ++ after, ∀ m, row.node? = some m → ¬ f.Above n m.id

theorem Spliced.refl : f.Spliced n part part' part part' :=
  ⟨[], [], by simp, by simp, by simp⟩

theorem Spliced.trans (h : f.Spliced n mid mid' whole whole') (h' : f.Spliced n part part' mid mid') :
    f.Spliced n part part' whole whole' := by
  obtain ⟨before, after, rfl, rfl, hout⟩ := h
  obtain ⟨pre, post, rfl, rfl, hout'⟩ := h'
  refine ⟨before ++ pre, post ++ after, by simp, by simp, fun row hrow => ?_⟩
  simp only [List.mem_append] at hrow hout hout'
  rcases hrow with (hrow | hrow) | (hrow | hrow)
  · exact hout row (.inl hrow)
  · exact hout' row (.inl hrow)
  · exact hout' row (.inr hrow)
  · exact hout row (.inr hrow)

theorem Spliced.cons (hrow : ∀ m, row.node? = some m → ¬ f.Above n m.id)
    (h : f.Spliced n part part' whole whole') : f.Spliced n part part' (row :: whole) (row :: whole') := by
  obtain ⟨before, after, rfl, rfl, hout⟩ := h
  exact ⟨row :: before, after, rfl, rfl, List.forall_mem_cons.2 ⟨hrow, hout⟩⟩

/-! ### The tree of each node -/

theorem closed_setClosed_of_ne (h : d ≠ n) : (f.setClosed n b).closed d = f.closed d := by
  rw [closed_setClosed, if_neg fun hn => h hn.1.symm]

theorem Owned.fold_tree (h : f.Owned) (n : NodeId) :
    (f.tree n).fold = .of (!(f.children n).isEmpty) (f.closed n) := by
  rw [Tree.fold, h.closed_tree, h.children_tree, List.isEmpty_map]

theorem Owned.rowsBelow_tree (h : f.Owned) (s : Style) (label : Node → String) (padding : String)
    (marked : Bool) (n : NodeId) :
    (f.tree n).rowsBelow s label padding marked
      = if f.closed n then [] else rowsAll s label padding marked ((f.children n).map f.tree) := by
  rw [rowsBelow, h.closed_tree, h.children_tree]

theorem Owned.node_tree_setClosed (h : f.Owned) :
    ((f.setClosed n b).tree d).node = (f.tree d).node := by
  rw [h.node_tree, (h.setClosed n b).node_tree, node_setClosed]

theorem Owned.fold_tree_setClosed (h : f.Owned) (hd : d ≠ n) :
    ((f.setClosed n b).tree d).fold = (f.tree d).fold := by
  rw [h.fold_tree, (h.setClosed n b).fold_tree, children_setClosed, closed_setClosed_of_ne hd]

theorem Owned.tree_setClosed (h : f.Owned) (hd : ¬ f.Above d n) :
    (f.setClosed n b).tree d = f.tree d :=
  h.tree_congr (h.setClosed n b) fun m hm =>
    have hne : m ≠ n := fun hmn => hd (hmn ▸ hm)
    ⟨node_setClosed, closed_setClosed_of_ne hne, children_setClosed⟩

section Siblings

variable {cs before after : List NodeId} {e m : NodeId}

/-- What lies below one child of a node does not lie below another. -/
theorem Owned.not_above_of_sibling (h : f.Owned) (hnodup : (before ++ c :: after).Nodup)
    (hsub : before ++ c :: after ⊆ f.children d) (he : e ∈ before ++ after) (hem : f.Above e m) :
    ¬ f.Above c m := by
  intro hcm
  rw [List.nodup_middle, List.nodup_cons] at hnodup
  have hc : c ∈ f.children d := hsub List.mem_append_cons_self
  have hed : e ∈ f.children d := hsub (List.perm_middle.mem_iff.2 (List.mem_cons_of_mem c he))
  exact hnodup.1 (h.eq_of_above hed hc hem hcm ▸ he)

/-- Of the rows of some children of a node above `n`, those of the child above `n` may differ. -/
theorem Owned.spliced_among (h : f.Owned) (hnodup : cs.Nodup) (hsub : cs ⊆ f.children d)
    (hmem : c ∈ cs) (hc : f.Above c n) (b : Bool) (s : Style) (label : Node → String)
    (padding : String) (marked : Bool) :
    ∃ place, f.Spliced n (rows s label padding place (f.tree c))
      (rows s label padding place ((f.setClosed n b).tree c))
      (rowsAll s label padding marked (cs.map f.tree))
      (rowsAll s label padding marked (cs.map (f.setClosed n b).tree)) := by
  obtain ⟨before, after, rfl⟩ := List.append_of_mem hmem
  have hothers : ∀ ds : List NodeId, ds ⊆ before ++ after →
      ds.map (f.setClosed n b).tree = ds.map f.tree := by
    intro ds hds
    refine List.map_congr_left fun e he => h.tree_setClosed fun hen => ?_
    exact h.not_above_of_sibling hnodup hsub (hds he) hen hc
  obtain ⟨pre, place, post, hrows, hnodes⟩ :=
    exists_rowsAll_eq s label padding marked (before.map f.tree) (after.map f.tree)
  refine ⟨place, pre, post, ?_, ?_, fun row hrow m hm hnm => ?_⟩
  · rw [List.map_append, List.map_cons, hrows]
  · rw [List.map_append, List.map_cons, hothers before (List.subset_append_left _ _),
      hothers after (List.subset_append_right _ _), hrows]
  · obtain ⟨t, ht, m', hm', hnode⟩ := hnodes row hrow
    cases hm.symm.trans hnode
    rw [← List.map_append, List.mem_map] at ht
    obtain ⟨e, he, rfl⟩ := ht
    have hem : f.Above e m.id := h.mem_walk.1 (List.mem_map_of_mem hm')
    exact h.not_above_of_sibling hnodup hsub he hem (hc.trans hnm)

theorem Owned.spliced_children (h : f.Owned) (hp : f.IsParent d c) (hc : f.Above c n) (b : Bool)
    (s : Style) (label : Node → String) (padding : String) (marked : Bool) :
    ∃ place, f.Spliced n (rows s label padding place (f.tree c))
      (rows s label padding place ((f.setClosed n b).tree c))
      (rowsAll s label padding marked ((f.children d).map f.tree))
      (rowsAll s label padding marked ((f.children d).map (f.setClosed n b).tree)) :=
  h.spliced_among (h.nodup d) (List.Subset.refl _) (h.mem_of_parent? hp) hc b s label padding marked

end Siblings

theorem Owned.not_above_of_isParent (h : f.Owned) (hp : f.IsParent d c) (hc : f.Above c n) :
    ¬ f.Above n d := fun hn => h.not_above_parent hp (hc.trans hn)

/-- Setting the state of `n` changes `whole` to `whole'`, and only in the rows of `n` and below it. -/
def Changes (f : Forest) (n : NodeId) (b : Bool) (s : Style) (label : Node → String)
    (whole whole' : List Row) : Prop :=
  ∃ padding place, f.Spliced n (rows s label padding place (f.tree n))
    (rows s label padding place ((f.setClosed n b).tree n)) whole whole'

/-- The rows after that of an open node above `n` change if those of its child do. -/
theorem Owned.changes_rowsBelow (h : f.Owned) (hp : f.IsParent d c) (hc : f.Above c n)
    (hd : f.closed d = false)
    (hrows : ∀ padding place, f.Changes n b s label (rows s label padding place (f.tree c))
      (rows s label padding place ((f.setClosed n b).tree c)))
    (padding : String) (marked : Bool) :
    f.Changes n b s label ((f.tree d).rowsBelow s label padding marked)
      (((f.setClosed n b).tree d).rowsBelow s label padding marked) := by
  have hne : d ≠ n := fun he => h.not_above_of_isParent hp hc (he ▸ .refl)
  rw [h.rowsBelow_tree, (h.setClosed n b).rowsBelow_tree, closed_setClosed_of_ne hne, hd,
    children_setClosed, if_neg Bool.false_ne_true, if_neg Bool.false_ne_true]
  obtain ⟨place, hchildren⟩ := h.spliced_children hp hc b s label padding marked
  obtain ⟨padding', place', hrow⟩ := hrows padding place
  exact ⟨padding', place', hchildren.trans hrow⟩

theorem Owned.changes_rows (h : f.Owned) (hd : f.Above d n)
    (hopen : ∀ a, f.Above d a → f.Above a n → a ≠ n → f.closed a = false) (b : Bool)
    (s : Style) (label : Node → String) (padding : String) (place : Place) :
    f.Changes n b s label (rows s label padding place (f.tree d))
      (rows s label padding place ((f.setClosed n b).tree d)) := by
  induction hd using ReflTransGen.head_induction_on generalizing padding place with
  | refl => exact ⟨padding, place, .refl⟩
  | @head d c hp hc ih =>
    have hout := h.not_above_of_isParent hp hc
    have hne : d ≠ n := fun he => hout (he ▸ .refl)
    have hd := hopen d .refl (.head hp hc) hne
    obtain ⟨padding', place', hbelow⟩ := h.changes_rowsBelow hp hc hd
      (ih fun a ha => hopen a (.head hp ha)) (padding ++ s.filler place) false
    rw [rows_eq_cons, rows_eq_cons, h.node_tree_setClosed, h.fold_tree_setClosed hne, h.node_tree]
    exact ⟨padding', place', hbelow.cons fun m hm => Option.some.inj hm ▸ hout⟩

/-- From the root down to a node below it that is shown. -/
theorem Owned.changes_render (h : f.Owned) (hn : f.Above r n) (hne : r ≠ n)
    (hopen : ∀ a, f.Above r a → f.Above a n → a ≠ n → f.closed a = false) (b : Bool)
    (s : Style) (label : Node → String) (hideRoot : Bool) :
    f.Changes n b s label ((f.tree r).render s label hideRoot)
      (((f.setClosed n b).tree r).render s label hideRoot) := by
  obtain ⟨c, hp, hc⟩ := (ReflTransGen.cases_head hn).resolve_left hne
  have hout := h.not_above_of_isParent hp hc
  have hrows := h.changes_rows hc (fun a ha => hopen a (.head hp ha)) b s label
  obtain ⟨padding, place, hbelow⟩ := h.changes_rowsBelow hp hc (hopen r .refl hn hne) hrows
    (if hideRoot then "" else s.empty) (!hideRoot)
  refine ⟨padding, place, ?_⟩
  rw [render_eq_append, render_eq_append, h.node_tree_setClosed, h.fold_tree_setClosed hne, h.node_tree]
  cases hideRoot with
  | true => exact hbelow
  | false => exact hbelow.cons fun m hm => Option.some.inj hm ▸ hout

/-! ### Nothing to hide -/

theorem Owned.looksLike_of_leaf (h : f.Owned) (hn : f.children n = []) :
    LooksLike s label (f.tree n) ((f.setClosed n b).tree n) where
  node := h.node_tree_setClosed
  fold := by
    rw [h.fold_tree, (h.setClosed n b).fold_tree, children_setClosed, hn]
    rfl
  rowsBelow padding marked := by
    rw [h.rowsBelow_tree, (h.setClosed n b).rowsBelow_tree, children_setClosed, hn, List.map_nil,
      List.map_nil, rowsAll, ite_self, ite_self]

theorem Owned.looksLike_of_closed (h : f.Owned) (hne : a ≠ n) (ha : f.closed a = true) :
    LooksLike s label (f.tree a) ((f.setClosed n b).tree a) where
  node := h.node_tree_setClosed
  fold := h.fold_tree_setClosed hne
  rowsBelow padding marked := by
    rw [h.rowsBelow_tree, (h.setClosed n b).rowsBelow_tree, closed_setClosed_of_ne hne, ha, if_pos rfl,
      if_pos rfl]

/-- What looks the same at a node looks the same at every node above it. -/
theorem Owned.looksLike_of_above (h : f.Owned) (hd : f.Above d a) (ha : f.Above a n)
    (hlook : LooksLike s label (f.tree a) ((f.setClosed n b).tree a)) :
    LooksLike s label (f.tree d) ((f.setClosed n b).tree d) := by
  induction hd using ReflTransGen.head_induction_on with
  | refl => exact hlook
  | @head d c hp hc ih =>
    have hout := h.not_above_of_isParent hp (hc.trans ha)
    have hne : d ≠ n := fun he => hout (he ▸ .refl)
    refine ⟨h.node_tree_setClosed, h.fold_tree_setClosed hne, fun padding marked => ?_⟩
    obtain ⟨place, pre, post, hrows, hrows', -⟩ :=
      h.spliced_children hp (hc.trans ha) b s label padding marked
    rw [h.rowsBelow_tree, (h.setClosed n b).rowsBelow_tree, closed_setClosed_of_ne hne,
      children_setClosed, hrows, hrows', ih.rows]

/-! ### Collapsing -/

theorem expand_collapse (hn : f.closed n = false) : (f.collapse n).expand n = f := by
  refine eq_of_reads ?_ (fun m => ?_) (fun m => ?_) (fun m => ?_) fun m => ?_
  · rw [expand, collapse, size_setClosed, size_setClosed]
  · rw [expand, collapse, node_setClosed, node_setClosed]
  · rw [expand, collapse, closed_setClosed, closed_setClosed, size_setClosed]
    split
    · next hm => rw [← hm.1, hn]
    · rfl
  · rw [expand, collapse, parent?_setClosed, parent?_setClosed]
  · rw [expand, collapse, children_setClosed, children_setClosed]

theorem closed_collapse_self (hn : f.children n ≠ []) : (f.collapse n).closed n = true := by
  have hlt : n < f.size := Nat.lt_of_not_le fun hle => hn (children_of_size_le hle)
  rw [collapse, closed_setClosed, if_pos ⟨rfl, hlt⟩]

theorem Owned.collapse (h : f.Owned) (n : NodeId) : (f.collapse n).Owned := h.setClosed n true

theorem Owned.fold_tree_of_open (h : f.Owned) (hopen : f.closed n = false) (hn : f.children n ≠ []) :
    (f.tree n).fold = .opened := by
  rw [h.fold_tree, hopen, List.isEmpty_eq_false_iff.2 hn]
  rfl

theorem Owned.fold_tree_collapse (h : f.Owned) (hn : f.children n ≠ []) :
    ((f.collapse n).tree n).fold = .closed := by
  have hchildren : (f.collapse n).children n = f.children n := children_setClosed
  rw [(h.collapse n).fold_tree, closed_collapse_self hn, hchildren, List.isEmpty_eq_false_iff.2 hn]
  rfl

theorem Owned.rows_collapse (h : f.Owned) (hopen : f.closed n = false) (hn : f.children n ≠ [])
    (s : Style) (label : Node → String) (padding : String) (place : Place) :
    rows s label padding place (f.tree n)
        = ⟨padding ++ (s.lead place).opened ++ label (f.node n), some (f.node n)⟩
          :: (f.tree n).rowsBelow s label (padding ++ s.filler place) false ∧
      rows s label padding place ((f.collapse n).tree n)
        = [⟨padding ++ (s.lead place).closed ++ label (f.node n), some (f.node n)⟩] := by
  have hnode : ((f.collapse n).tree n).node = f.node n :=
    h.node_tree_setClosed.trans (h.node_tree n)
  rw [rows_eq_cons s label padding place (f.tree n), h.fold_tree_of_open hopen hn, h.node_tree,
    rows_eq_cons, h.fold_tree_collapse hn, hnode, (h.collapse n).rowsBelow_tree,
    closed_collapse_self hn, if_pos rfl]
  exact ⟨rfl, rfl⟩

theorem Owned.render_collapse_root (h : f.Owned) (hopen : f.closed n = false) (hn : f.children n ≠ [])
    (s : Style) (label : Node → String) (hideRoot : Bool) :
    (f.tree n).render s label hideRoot
        = (if hideRoot then [] else [⟨s.root.opened ++ label (f.node n), some (f.node n)⟩])
          ++ (f.tree n).rowsBelow s label (if hideRoot then "" else s.empty) (!hideRoot) ∧
      ((f.collapse n).tree n).render s label hideRoot
        = if hideRoot then [] else [⟨s.root.closed ++ label (f.node n), some (f.node n)⟩] := by
  have hnode : ((f.collapse n).tree n).node = f.node n :=
    h.node_tree_setClosed.trans (h.node_tree n)
  rw [render_eq_append, h.fold_tree_of_open hopen hn, h.node_tree, render_eq_append,
    h.fold_tree_collapse hn, hnode, (h.collapse n).rowsBelow_tree, closed_collapse_self hn, if_pos rfl,
    List.append_nil]
  exact ⟨rfl, rfl⟩

/-- Collapsing a node changes no row if the node has no children or lies below a closed node. Otherwise,
if it was open, the rows of the visible nodes below it go, its own row gets the closed lead for the
open one of the same place, and all other rows stay, in text and node. Expanding it brings the old rows
back. -/
theorem render_collapse (h : f.Reached) (hn : n ∈ f.walk r) (s : Style) (label : Node → String)
    (hideRoot : Bool) :
    let rows (g : Forest) := (g.tree r).render s label hideRoot
    let hidden := ∃ a ∈ f.walk r, a ≠ n ∧ f.Above a n ∧ f.closed a = true
    (f.children n = [] → rows (f.collapse n) = rows f) ∧
      (hidden → rows (f.collapse n) = rows f) ∧
      (f.closed n = false → rows ((f.collapse n).expand n) = rows f) ∧
      (f.closed n = false → f.children n ≠ [] → ¬ hidden →
        ∃ padding lead block,
          (n = r → padding = "" ∧ lead = s.root) ∧
          (n ≠ r → ∃ place, lead = s.lead place) ∧
          block.map Row.node? = (f.tree n).visible.tail.map (fun v => some v.2.node) ∧
          let own (fold : Fold) : List Row :=
            if n = r ∧ hideRoot = true then []
            else [⟨padding ++ lead.pick fold ++ label (f.node n), some (f.node n)⟩]
          f.Spliced n (own .opened ++ block) (own .closed) (rows f) (rows (f.collapse n))) := by
  intro rows hidden
  have howned := h.owned
  have hrn := howned.mem_walk.1 hn
  refine ⟨fun hleaf => ?_, ?_, fun hopen => ?_, fun hopen hchildren hshown => ?_⟩
  · exact (howned.looksLike_of_above hrn .refl (howned.looksLike_of_leaf hleaf)).render hideRoot
  · rintro ⟨a, ha, hne, han, hclosed⟩
    have hra := howned.mem_walk.1 ha
    exact (howned.looksLike_of_above hra han (howned.looksLike_of_closed hne hclosed)).render hideRoot
  · exact congrArg rows (expand_collapse hopen)
  · by_cases hnr : n = r
    · subst hnr
      obtain ⟨hrows, hrows'⟩ := howned.render_collapse_root hopen hchildren s label hideRoot
      refine ⟨"", s.root, (f.tree n).rowsBelow s label (if hideRoot then "" else s.empty) (!hideRoot),
        fun _ => ⟨rfl, rfl⟩, fun hne => absurd rfl hne, map_node?_rowsBelow .., ?_⟩
      simp only [rows, hrows, hrows', true_and, String.empty_append]
      exact .refl
    · have hopen' : ∀ a, f.Above r a → f.Above a n → a ≠ n → f.closed a = false := by
        intro a hra han hne
        exact Bool.eq_false_iff.2 fun ha => hshown ⟨a, howned.mem_walk.2 hra, hne, han, ha⟩
      obtain ⟨padding, place, hspliced⟩ :=
        howned.changes_render hrn (Ne.symm hnr) hopen' true s label hideRoot
      obtain ⟨hrows, hrows'⟩ := howned.rows_collapse hopen hchildren s label padding place
      refine ⟨padding, s.lead place, (f.tree n).rowsBelow s label (padding ++ s.filler place) false,
        fun hne => absurd hne hnr, fun _ => ⟨place, rfl⟩, map_node?_rowsBelow .., ?_⟩
      simp only [hnr, false_and, if_false]
      rw [hrows] at hspliced
      exact hrows' ▸ hspliced

/-- A root, a class below it and a method below that. -/
def oneMethod : Forest :=
  (oneClass.add (.declared ⟨⟨"m", .function, 2⟩, 2⟩) false).append 1 2

theorem oneMethod_reached : oneMethod.Reached := by
  refine (oneClass_reached.step (.create _ _) trivial).step (.append 1 2) ⟨by decide, by decide, ?_⟩
  intro habove
  -- above the class is only the root
  rcases habove.eq_or_above (p := 0) rfl with heq | habove
  · cases heq
  · cases habove.eq_of_parentless rfl

/-- The class is collapsed, and the row of its method goes. -/
theorem render_collapse_method :
    let f := oneMethod
    let rows (g : Forest) := (g.tree 0).render Style.rounded Node.markedName false
    ∃ padding place block,
      block.map Row.node? = [some (f.node 2)] ∧
      f.Spliced 1
        (⟨padding ++ (Style.rounded.lead place).opened ++ "C A", some (f.node 1)⟩ :: block)
        [⟨padding ++ (Style.rounded.lead place).closed ++ "C A", some (f.node 1)⟩]
        (rows f) (rows (f.collapse 1)) := by
  intro f rows
  have hshown : ¬ ∃ a ∈ f.walk 0, a ≠ 1 ∧ f.Above a 1 ∧ f.closed a = true := by
    rintro ⟨a, ha, -, -, hclosed⟩
    have hopen : ∀ a ∈ f.walk 0, f.closed a = false := by decide
    rw [hopen a ha] at hclosed
    cases hclosed
  obtain ⟨padding, lead, block, -, hlead, hblock, hspliced⟩ :=
    (render_collapse oneMethod_reached (by decide : 1 ∈ f.walk 0) Style.rounded Node.markedName
      false).2.2.2 (by decide) (by decide) hshown
  obtain ⟨place, rfl⟩ := hlead (by decide)
  exact ⟨padding, place, block, hblock, hspliced⟩

end Forest

end Outliner
