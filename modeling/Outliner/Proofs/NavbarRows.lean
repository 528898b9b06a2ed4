import Mathlib.Data.List.GetD
import Outliner.Proofs.Collapsing
import Outliner.Proofs.LineForms
import Outliner.Proofs.Rerendering
import Outliner.Proofs.Shown
import Outliner.Proofs.Siblings

/-!
# What a navbar shows

Below its three buckets a navbar shows what is visible from the children of the node, bucket by bucket
(`Owned.map_node?_navbar`). The buckets come in the order of the kinds, and that is the order in which an
outline sorts the children of its root, none of which is without a kind (`bucketed_addOutline`). So the
navbar of an outline shows the nodes of the flat view, in the same order (`navbar_nodes_eq_flat`).
-/

namespace Outliner

/-! ### Kinds in order -/

theorem Line.item?_kind_ne {line : List Char} {item : Item} (h : item? line = some item) :
    item.kind ≠ .kindless := by
  rw [item?_eq_findSome?] at h
  cases (findSome?_forms_iff (.refl _)).1 h <;> nofun

/-- A list in the order of the kinds is made of its three parts, if none is without a kind. -/
theorem filter_kinds_append {α : Type} {kind : α → Kind} {l : List α}
    (hsorted : l.Pairwise fun a b => (kind a).code ≤ (kind b).code)
    (hkind : ∀ a ∈ l, kind a ≠ .kindless) :
    (l.filter fun a => kind a = .classDef) ++ ((l.filter fun a => kind a = .function)
      ++ l.filter fun a => kind a = .constant) = l := by
  induction l with
  | nil => rfl
  | cons a l ih =>
    obtain ⟨hle, hsorted⟩ := List.pairwise_cons.1 hsorted
    have hrest := ih hsorted fun b hb => hkind b (List.mem_cons_of_mem a hb)
    -- the kinds before that of `a` do not come again
    have hgone : ∀ k : Kind, k.code < (kind a).code → (l.filter fun b => kind b = k) = [] := by
      intro k hk
      refine List.filter_eq_nil_iff.2 fun b hb => ?_
      have hab := hle b hb
      rw [decide_eq_true_eq]
      rintro rfl
      omega
    cases ha : kind a with
    | kindless => exact absurd ha (hkind a List.mem_cons_self)
    | classDef => simp [ha, hrest]
    | function =>
      have hclass := hgone .classDef (by rw [ha]; decide)
      rw [hclass] at hrest
      simpa [ha, hclass] using hrest
    | constant =>
      have hclass := hgone .classDef (by rw [ha]; decide)
      have hfunction := hgone .function (by rw [ha]; decide)
      rw [hclass, hfunction] at hrest
      simpa [ha, hclass, hfunction] using hrest

namespace Forest

variable {f g : Forest} {ds : List Declaration} {k : Kind} {c m n p r : NodeId} {style : String}
  {spacing : Int} {s : Style} {label : Node → String}

/-- The children of `n` in the order of the buckets, those without a kind left out. -/
def bucketed (f : Forest) (n : NodeId) : List NodeId :=
  let ofKind (k : Kind) := (f.children n).filter fun c => (f.node c).kind = k
  ofKind .classDef ++ (ofKind .function ++ ofKind .constant)

theorem mem_bucketed : c ∈ f.bucketed n ↔ c ∈ f.children n ∧ (f.node c).kind ≠ .kindless := by
  simp only [bucketed, List.mem_append, List.mem_filter, decide_eq_true_eq, ← and_or_left]
  refine and_congr_right fun _ => ?_
  cases (f.node c).kind <;> simp

/-! ### The nodes of the rows -/

theorem closed_bucket (hp : f.addBuckets.2.ofKind? k = some p) : f.addBuckets.1.closed p = false :=
  congrArg Cell.closed (cell_bucket hp)

/-- A bucket stands for no line. -/
theorem line_bucket (hp : f.addBuckets.2.ofKind? k = some p) : (f.addBuckets.1.node p).line = -1 := by
  rw [Node.line, node, cell_bucket hp]
  rfl

theorem Owned.render_bucket (h : f.Owned) (hp : f.addBuckets.2.ofKind? k = some p) :
    ((f.bucketize n).1.tree p).render s label false
      = ⟨s.root.pick (.of (!(f.treesOfKind n k).isEmpty) false) ++ label (f.addBuckets.1.node p),
          some (f.addBuckets.1.node p)⟩
        :: Tree.rowsAll s label s.empty true (f.treesOfKind n k) := by
  rw [h.tree_bucket hp, closed_bucket hp]
  rfl

theorem Owned.map_node?_bucket (h : f.Owned) (hp : f.addBuckets.2.ofKind? k = some p) :
    (((f.bucketize n).1.tree p).render s label false).map Row.node?
      = some (f.addBuckets.1.node p)
        :: ((f.children n).filter fun c => (f.node c).kind = k).flatMap fun c =>
          (f.shown c).map fun m => some (f.node m) := by
  rw [h.render_bucket hp, List.map_cons, Tree.map_node?_rowsAll, treesOfKind, List.flatMap_map,
    List.map_flatMap]
  refine congrArg _ (List.flatMap_congr fun c _ => ?_)
  rw [h.shown_tree, List.map_map]
  rfl

/-- The nodes of the rows of a navbar: in each part that of the bucket and then those that are visible
from the children in it. -/
theorem Owned.map_node?_navbar (h : f.Owned) :
    ((f.bucketize n).1.renderAll f.addBuckets.2.toList s label).map Row.node?
      = let part (b : NodeId) (k : Kind) := some (f.addBuckets.1.node b)
          :: ((f.children n).filter fun c => (f.node c).kind = k).flatMap fun c =>
            (f.shown c).map fun m => some (f.node m)
        part f.size .classDef ++ none :: (part (f.size + 1) .function ++ none ::
          part (f.size + 2) .constant) := by
  rw [renderAll_buckets]
  simp only [List.map_append, List.map_cons]
  rw [h.map_node?_bucket (k := .classDef) rfl, h.map_node?_bucket (k := .function) rfl,
    h.map_node?_bucket (k := .constant) rfl]
  rfl

end Forest

/-- Whether the row shows a node older than `size`. Of the rows of a navbar of a forest of that size these
are all but the separators and the buckets. -/
def Row.showsOlder (size : Nat) (r : Row) : Bool :=
  r.node?.any fun m => m.id < size

namespace Forest

variable {f g : Forest} {ds : List Declaration} {k : Kind} {c m n p r : NodeId} {style : String}
  {spacing : Int} {s : Style} {label : Node → String}

theorem Owned.lt_of_mem_shown (h : f.Owned) (hc : c ∈ f.children n) (hm : m ∈ f.shown c) :
    m < f.size :=
  (h.mem_shown.1 hm).1.lt_size (h.child_lt hc)

theorem Owned.older_navbar (h : f.Owned) :
    (((f.bucketize n).1.renderAll f.addBuckets.2.toList s label).filter
        (Row.showsOlder f.size)).map Row.node?
      = ((f.bucketed n).flatMap f.shown).map fun m => some (f.node m) := by
  have holder : ∀ k, ((((f.children n).filter fun c => (f.node c).kind = k).flatMap fun c =>
      (f.shown c).map fun m => some (f.node m)).filter fun r => r.any fun m => decide (m.id < f.size))
        = (((f.children n).filter fun c => (f.node c).kind = k).flatMap f.shown).map
            fun m => some (f.node m) := by
    intro k
    rw [List.map_flatMap]
    refine List.filter_eq_self.2 fun r hr => ?_
    obtain ⟨c, hc, hr⟩ := List.mem_flatMap.1 hr
    obtain ⟨m, hm, rfl⟩ := List.mem_map.1 hr
    exact decide_eq_true (h.lt_of_mem_shown (List.mem_of_mem_filter hc) hm)
  have hnew : ∀ i, ((some (f.addBuckets.1.node (f.size + i))).any fun m => decide (m.id < f.size))
      = false := fun i => decide_eq_false (Nat.not_lt.2 (Nat.le_add_right f.size i))
  have hfirst := hnew 0
  rw [Nat.add_zero] at hfirst
  have hrows := List.filter_map (f := Row.node?) (p := fun r => r.any fun m => decide (m.id < f.size))
    (l := (f.bucketize n).1.renderAll f.addBuckets.2.toList s label)
  rw [h.map_node?_navbar] at hrows
  refine hrows.symm.trans ?_
  simp only [List.filter_append, List.filter_cons, holder, hfirst, hnew, bucketed,
    List.flatMap_append, List.map_append]
  rfl

/-- A row of a navbar is a separator or shows a bucket or a node below one of the children in the
buckets. -/
theorem Owned.node?_of_mem_navbar (h : f.Owned) {row : Row}
    (hrow : row ∈ (f.bucketize n).1.renderAll f.addBuckets.2.toList s label) :
    row.node? = none ∨
      (∃ k p, f.addBuckets.2.ofKind? k = some p ∧ row.node? = some (f.addBuckets.1.node p)) ∨
      ∃ c ∈ f.bucketed n, ∃ m ∈ f.shown c, row.node? = some (f.node m) := by
  have hpart : ∀ k p, f.addBuckets.2.ofKind? k = some p → k ≠ .kindless →
      row.node? ∈ some (f.addBuckets.1.node p)
        :: (((f.children n).filter fun c => (f.node c).kind = k).flatMap fun c =>
          (f.shown c).map fun m => some (f.node m)) →
      (∃ k p, f.addBuckets.2.ofKind? k = some p ∧ row.node? = some (f.addBuckets.1.node p)) ∨
        ∃ c ∈ f.bucketed n, ∃ m ∈ f.shown c, row.node? = some (f.node m) := by
    intro k p hp hk hmem
    rcases List.mem_cons.1 hmem with hbucket | hmem
    · exact .inl ⟨k, p, hp, hbucket⟩
    · obtain ⟨c, hc, hmem⟩ := List.mem_flatMap.1 hmem
      obtain ⟨m, hm, hnode⟩ := List.mem_map.1 hmem
      obtain ⟨hc, hck⟩ := List.mem_filter.1 hc
      have hkind : (f.node c).kind ≠ .kindless := of_decide_eq_true hck ▸ hk
      exact .inr ⟨c, mem_bucketed.2 ⟨hc, hkind⟩, m, hm, hnode.symm⟩
  have hnode := List.mem_map_of_mem (f := Row.node?) hrow
  rw [h.map_node?_navbar] at hnode
  rcases List.mem_append.1 hnode with hnode | hnode
  · exact .inr (hpart .classDef _ rfl nofun hnode)
  rcases List.mem_cons.1 hnode with hnone | hnode
  · exact .inl hnone
  rcases List.mem_append.1 hnode with hnode | hnode
  · exact .inr (hpart .function _ rfl nofun hnode)
  rcases List.mem_cons.1 hnode with hnone | hnode
  · exact .inl hnone
  · exact .inr (hpart .constant _ rfl nofun hnode)

theorem Owned.length_navbar (h : f.Owned) :
    ((f.bucketize n).1.renderAll f.addBuckets.2.toList s label).length
      = ((f.bucketed n).flatMap f.shown).length + 5 := by
  rw [← List.length_map Row.node?, h.map_node?_navbar]
  simp only [bucketed, List.length_append, List.length_cons, List.flatMap_append, List.length_flatMap,
    List.length_map]
  omega

/-! ### The navbar of an outline -/

theorem Refolded.bucketed_eq (h : Refolded f g) (n : NodeId) : g.bucketed n = f.bucketed n := by
  simp only [bucketed, h.children, h.node]

theorem Nested.kind_eq (h : Nested f g ds ds.length) {j : Nat} (hj : j < ds.length) :
    (g.node (f.size + 1 + j)).kind = ds[j].kind := by
  rw [Node.kind, h.content j _ hj (List.getElem?_eq_getElem hj)]
  rfl

/-- The children of the root of an outline are in the order of the buckets. -/
theorem bucketed_addOutline (h : f.Reached) (text : String) :
    (f.addOutline (declarations Line.item? text)).bucketed f.size
      = (f.addOutline (declarations Line.item? text)).children f.size := by
  have hg := nested_addOutline h (declarations Line.item? text)
  have hchildren : (f.addOutline (declarations Line.item? text)).children (outlineNode f.size none) = _ :=
    children_addOutline h (by simp)
  refine filter_kinds_append ?_ fun c hc => ?_
  · show ((f.addOutline _).children (outlineNode f.size none)).Pairwise _
    rw [hchildren, List.pairwise_map]
    refine (Declaration.pairwise_siblings _ none).imp_of_mem fun {i j} hi hj hij => ?_
    have hi := (Declaration.mem_siblings.1 hi).1
    have hj := (Declaration.mem_siblings.1 hj).1
    have hle := hij.1
    rw [Declaration.kindNameLEAt, Declaration.kindNameLE_iff, List.getD_eq_getElem _ _ hi,
      List.getD_eq_getElem _ _ hj] at hle
    rw [hg.kind_eq hi, hg.kind_eq hj]
    omega
  · have hc : c ∈ (f.addOutline _).children (outlineNode f.size none) := hc
    rw [hchildren] at hc
    obtain ⟨j, hj, rfl⟩ := List.mem_map.1 hc
    have hj := (Declaration.mem_siblings.1 hj).1
    obtain ⟨_, line, item, -, hitem, hd⟩ := mem_declarations.1 (List.getElem_mem hj)
    rw [hg.kind_eq hj, hd]
    exact Line.item?_kind_ne hitem

theorem Nested.perm_walk (h : Nested f g ds ds.length) (hf : f.Owned) :
    (g.walk f.size).tail.Perm ((List.range ds.length).map (f.size + 1 + ·)) := by
  have howned := h.reached.owned
  have hnodup := howned.nodup_walk f.size
  rw [howned.walk_eq, List.nodup_cons] at hnodup
  rw [howned.walk_eq, List.tail_cons]
  refine (List.perm_ext_iff_of_nodup hnodup.2 ?_).2 fun m => ?_
  · exact List.nodup_range.map fun i j hij => Nat.add_left_cancel hij
  · have hm := h.mem_walk (n := m) hf
    rw [howned.walk_eq, List.mem_cons] at hm
    simp only [List.mem_map, List.mem_range]
    constructor
    · intro hmem
      rcases hm.1 (.inr hmem) with rfl | ⟨j, hj, rfl⟩
      · exact absurd hmem hnodup.1
      · exact ⟨j, hj, rfl⟩
    · rintro ⟨j, hj, rfl⟩
      refine (hm.2 (.inr ⟨j, hj, rfl⟩)).resolve_left fun he => ?_
      omega

theorem Nested.perm_lines (h : Nested f g ds ds.length) (hf : f.Owned) :
    ((g.walk f.size).tail.map fun m => (g.node m).line).Perm (ds.map fun d => d.line) := by
  refine ((h.perm_walk hf).map _).trans (.of_eq ?_)
  rw [List.map_map]
  refine List.ext_getElem (by simp) fun j hj _ => ?_
  rw [List.length_map, List.length_range] at hj
  rw [List.getElem_map, List.getElem_map, List.getElem_range, Function.comp_apply, Node.line,
    h.content j _ hj (List.getElem?_eq_getElem hj)]
  rfl

end Forest

/-! ### Lines that declare something -/

section Lines

open Declaration

variable {item? : List Char → Option Item} {text : String} {line : List Char} {k : Nat}

theorem Declaration.length_ofItemsFrom (n : Nat) (items : List (Option Item)) :
    (ofItemsFrom n items).length = (items.filterMap id).length := by
  induction items generalizing n with
  | nil => rfl
  | cons head items ih =>
    cases head with
    | none => exact ih (n + 1)
    | some item => exact congrArg Nat.succ (ih (n + 1))

theorem length_declarations (item? : List Char → Option Item) (text : String) :
    (declarations item? text).length = ((Text.lines text).filterMap item?).length := by
  rw [declarations, ofItems, length_ofItemsFrom, List.filterMap_map]
  rfl

theorem count_line_declarations (hline : (Text.lines text)[k]? = some line) :
    ((declarations item? text).map fun d => d.line).count (k + 1 : Int)
      = if (item? line).isSome then 1 else 0 := by
  have hnodup : ((declarations item? text).map fun d => d.line).Nodup :=
    List.pairwise_map.2 ((pairwise_line_lt 1 _).imp fun hlt => Int.ne_of_lt hlt)
  have hmem : (k + 1 : Int) ∈ (declarations item? text).map (fun d => d.line)
      ↔ (item? line).isSome = true := by
    rw [List.mem_map, Option.isSome_iff_exists]
    constructor
    · rintro ⟨d, hd, hdk⟩
      obtain ⟨j, line', item, hline', hitem, rfl⟩ := mem_declarations.1 hd
      have hjk : j = k := by
        have hdk : (j + 1 : Int) = k + 1 := hdk
        omega
      rw [hjk, hline] at hline'
      exact ⟨item, Option.some.inj hline' ▸ hitem⟩
    · rintro ⟨item, hitem⟩
      exact ⟨_, mem_declarations.2 ⟨k, line, item, hline, hitem, rfl⟩, rfl⟩
  rw [hnodup.count]
  exact if_congr hmem rfl rfl

end Lines

theorem Row.line_eq (r : Row) : r.line = (r.node?.map Node.line).getD (-1) := by
  obtain ⟨text, _ | m⟩ := r <;> rfl

namespace Forest

variable {f g : Forest} {n : NodeId} {style : String} {spacing : Int} {s : Style}
  {label : Node → String}

theorem Owned.map_line_render (h : f.Owned) (s : Style) (label : Node → String) (hideRoot : Bool)
    (n : NodeId) :
    ((f.tree n).render s label hideRoot).map Row.line
      = (if hideRoot then (f.shown n).tail else f.shown n).map fun m => (f.node m).line := by
  have hlines := congrArg (List.map fun m? : Option Node => (m?.map Node.line).getD (-1))
    (h.map_node?_render s label hideRoot n)
  rw [List.map_map, List.map_map] at hlines
  refine (List.map_congr_left fun r _ => ?_).trans hlines
  exact r.line_eq

/-- Where the top level is in the order of the buckets, a navbar shows what the flat view shows. -/
theorem Owned.older_navbar_eq_flat (h : f.Owned) (hopen : f.closed n = false)
    (hbucketed : f.bucketed n = f.children n) (s : Style) (label : Node → String) :
    (((f.bucketize n).1.renderAll f.addBuckets.2.toList s label).filter
        (Row.showsOlder f.size)).map Row.node?
      = ((f.tree n).render s label true).map Row.node? := by
  rw [h.older_navbar, h.map_node?_render, if_pos rfl, h.shown_eq, List.tail_cons, hopen,
    if_neg Bool.false_ne_true, hbucketed]

/-- After any run of operations that open and close nodes and leave the root of an outline open, its
navbar shows the nodes that the flat view shows, in the same order, and five more rows: the buckets and
the separators. If every node is open, each line that declares something has one row among them. -/
theorem navbar_nodes_eq_flat (h : f.Reached) (text : String) {ops : List Operation}
    (hops : ∀ op ∈ ops, op.Folds) (hstyle : style ∈ Style.names) (hspacing : 0 ≤ spacing)
    (label : Node → String) :
    let g := ops.foldl (fun g op => op.run g) (f.addOutline (declarations Line.item? text))
    g.closed f.size = false →
      ∃ s rows g', Style.resolve style spacing = .ok s ∧
        g.renderNavbar f.size style spacing label = (.ok rows, g') ∧
        let flat := (g.tree f.size).render s label true
        (rows.filter (Row.showsOlder g.size)).map Row.node? = flat.map Row.node? ∧
        rows.length = flat.length + 5 ∧
        ((∀ m ∈ g.walk f.size, g.closed m = false) →
          (∀ (k : Nat) line, (Text.lines text)[k]? = some line →
            (flat.map Row.line).count (k + 1 : Int) = if (Line.item? line).isSome then 1 else 0) ∧
          rows.length = ((Text.lines text).filterMap Line.item?).length + 5) := by
  intro g hroot
  have hg := nested_addOutline h (declarations Line.item? text)
  have hrefolded : Refolded _ g := refolded_foldl hops _
  have howned : g.Owned := hrefolded.owned hg.reached.owned
  obtain ⟨s, hs⟩ := Style.exists_resolve hstyle hspacing
  have hbucketed : g.bucketed f.size = g.children f.size := by
    rw [hrefolded.bucketed_eq, bucketed_addOutline h, hrefolded.children]
  have hflat := howned.older_navbar_eq_flat hroot hbucketed s label
  have hlength : ((g.bucketize f.size).1.renderAll g.addBuckets.2.toList s label).length
      = ((g.tree f.size).render s label true).length + 5 := by
    have hlen := congrArg List.length hflat
    rw [howned.older_navbar, List.length_map, List.length_map] at hlen
    rw [howned.length_navbar, hlen]
  refine ⟨s, _, _, hs, howned.renderNavbar_eq hs, hflat, hlength, fun hopen => ?_⟩
  have hlines : (((g.tree f.size).render s label true).map Row.line).Perm
      ((declarations Line.item? text).map fun d => d.line) := by
    rw [howned.map_line_render, if_pos rfl, howned.shown_eq_walk hopen,
      hrefolded.walk_eq hg.reached.owned]
    simp only [hrefolded.node]
    exact hg.perm_lines h.owned
  refine ⟨fun k line hline => ?_, ?_⟩
  · rw [hlines.count_eq, count_line_declarations hline]
  · have hlen := hlines.length_eq
    rw [List.length_map, List.length_map, length_declarations] at hlen
    rw [hlength, hlen]

/-- A method is hidden and shown again, in a source that is not in the order of the kinds. -/
theorem navbar_nodes_eq_flat_reexpanded :
    let text := "x = 1\ndef f():\nclass A:\n  def m():\n\ny == 2"
    let ops := [Operation.collapse 3, .expand 3]
    let g := ops.foldl (fun g op => op.run g) (empty.addOutline (declarations Line.item? text))
    (∀ op ∈ ops, op.Folds) ∧ g.closed 0 = false ∧
      ∃ s rows g', Style.resolve "box" 1 = .ok s ∧
        g.renderNavbar 0 "box" 1 Node.markedName = (.ok rows, g') ∧
        (rows.filter (Row.showsOlder g.size)).map Row.node?
          = ((g.tree 0).render s Node.markedName true).map Row.node? ∧
        rows.length = 9 := by
  intro text ops g
  have hops : ∀ op ∈ ops, op.Folds := by simp [ops, Operation.Folds]
  have hlen : ((Text.lines text).filterMap Line.item?).length = 4 := by decide
  have hnested := nested_addOutline .empty (declarations Line.item? text)
  have hsame : g = empty.addOutline (declarations Line.item? text) :=
    expand_collapse (hnested.closed 2 (by rw [length_declarations, hlen]; decide))
  have hroot : g.closed 0 = false := by
    rw [hsame]
    exact closed_addOutline_root .empty _
  have hopen : ∀ m ∈ g.walk 0, g.closed m = false := by
    intro m hm
    rw [hsame] at hm ⊢
    rcases (hnested.mem_walk .empty).1 hm with rfl | ⟨j, hj, rfl⟩
    · exact closed_addOutline_root .empty _
    · exact hnested.closed j hj
  obtain ⟨s, rows, g', hs, hrows, hnodes, -, hall⟩ :=
    navbar_nodes_eq_flat .empty text hops (by decide : "box" ∈ Style.names) (by decide : (0 : Int) ≤ 1)
      Node.markedName hroot
  refine ⟨hops, hroot, s, rows, g', hs, hrows, hnodes, ?_⟩
  rw [(hall hopen).2, hlen]

end Forest

end Outliner
