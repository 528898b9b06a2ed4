import Outliner.Proofs.NavbarRows

/-!
# Toggling rows of a navbar

The rows of a navbar outlive its buckets, which are empty when a row is toggled. So the rows that can be
toggled are those of nodes of the tree that have children (`Owned.foldable?_navbar`).

A toggled node changes one stretch of the rows of its bucket, its own row and what follows it
(`Owned.changes_navbar`), and every navbar that is rendered later shows the forest of the first one with
that change (`Extends`). The main statement, `toggleRow_renderNavbar`, follows three navbars in a row.
-/

namespace Outliner

namespace Forest

open Outliner.Tree

variable {f g : Forest} {c e m n p : NodeId} {k : Kind} {b : Bool} {i : Int} {rows : List Row}
  {row : Row} {s : Style} {label : Node → String} {style : String} {spacing : Int}
  {part part' whole whole' : List Row}

/-! ### What can be toggled -/

theorem foldable?_eq_some_iff : f.foldable? rows i = some m ↔
    0 ≤ i ∧ (∃ a, (rows[i.toNat]?).bind Row.node? = some a ∧ a.id = m) ∧ f.children m ≠ [] := by
  unfold foldable?
  rcases Int.lt_or_le i 0 with hi | hi
  · simp [hi]
  · simp only [if_neg (Int.not_lt.2 hi), hi, true_and, Option.bind_eq_some_iff, List.isEmpty_iff,
      Option.ite_none_left_eq_some, Option.some.injEq]
    constructor
    · rintro ⟨a, ha, hchildren, rfl⟩
      exact ⟨⟨a, ha, rfl⟩, hchildren⟩
    · rintro ⟨⟨a, ha, rfl⟩, hchildren⟩
      exact ⟨a, ha, hchildren, rfl⟩

theorem toggleRow_of_none (h : f.foldable? rows i = none) : f.toggleRow rows i = (false, f) := by
  simp only [toggleRow, h]

theorem toggleRow_of_some (h : f.foldable? rows i = some m) :
    f.toggleRow rows i = (true, f.toggle m) := by
  simp only [toggleRow, h]

theorem toggleRow_fst_iff : (f.toggleRow rows i).1 = true ↔ ∃ m, f.foldable? rows i = some m := by
  cases hm : f.foldable? rows i with
  | none => simp [toggleRow_of_none hm]
  | some m => simp [toggleRow_of_some hm]

/-- A row of a navbar that shows a node of the forest shows it below one of the children in the buckets. -/
theorem Owned.exists_shown_of_row (h : f.Owned)
    (hrow : row ∈ (f.bucketize n).1.renderAll f.addBuckets.2.toList s label) {a : Node}
    (ha : row.node? = some a) (hlt : a.id < f.size) :
    ∃ c ∈ f.bucketed n, f.Shown c a.id ∧ a = f.node a.id := by
  rcases h.node?_of_mem_navbar hrow with hnode | ⟨k, p, hp, hnode⟩ | ⟨c, hc, m, hm, hnode⟩
  · rw [hnode] at ha
    cases ha
  · rw [hnode] at ha
    cases ha
    exact absurd (bucket_bounds hp).1 (Nat.not_le.2 hlt)
  · rw [hnode] at ha
    cases ha
    exact ⟨c, hc, h.mem_shown.1 hm, rfl⟩

theorem Owned.foldable?_navbar (h : f.Owned) :
    f.addBuckets.1.foldable? ((f.bucketize n).1.renderAll f.addBuckets.2.toList s label) i = some m ↔
      0 ≤ i ∧ (((f.bucketize n).1.renderAll f.addBuckets.2.toList s label)[i.toNat]?).bind Row.node?
        = some (f.node m) ∧ f.children m ≠ [] := by
  rw [foldable?_eq_some_iff, children_addBuckets]
  refine and_congr_right fun _ => and_congr_left fun hchildren => ?_
  have hlt : m < f.size := lt_size_of_children_ne hchildren
  constructor
  · rintro ⟨a, ha, rfl⟩
    obtain ⟨row, hrow, hnode⟩ := Option.bind_eq_some_iff.1 ha
    obtain ⟨-, -, -, heq⟩ := h.exists_shown_of_row (List.mem_of_getElem? hrow) hnode hlt
    rw [ha, ← heq]
  · intro hnode
    exact ⟨f.node m, hnode, rfl⟩

theorem Owned.toggleRow_navbar_iff (h : f.Owned) :
    (f.addBuckets.1.toggleRow ((f.bucketize n).1.renderAll f.addBuckets.2.toList s label) i).1 = true ↔
      ∃ m, m ∈ f.walk n ∧ f.children m ≠ [] ∧ 0 ≤ i ∧
        (((f.bucketize n).1.renderAll f.addBuckets.2.toList s label)[i.toNat]?).bind Row.node?
          = some (f.node m) := by
  rw [toggleRow_fst_iff]
  constructor
  · rintro ⟨m, hm⟩
    obtain ⟨hi, hnode, hchildren⟩ := h.foldable?_navbar.1 hm
    have hlt : m < f.size := lt_size_of_children_ne hchildren
    obtain ⟨row, hrow, hrownode⟩ := Option.bind_eq_some_iff.1 hnode
    obtain ⟨c, hc, (hshown : f.Shown c m), -⟩ :=
      h.exists_shown_of_row (List.mem_of_getElem? hrow) hrownode hlt
    have hwalk := h.mem_walk.2 (.head (h.parent?_of_mem (mem_bucketed.1 hc).1) hshown.1)
    exact ⟨m, hwalk, hchildren, hi, hnode⟩
  · rintro ⟨m, -, hchildren, hi, hnode⟩
    exact ⟨m, h.foldable?_navbar.2 ⟨hi, hnode, hchildren⟩⟩

/-! ### Setting a state -/

theorem setClosed_closed : f.setClosed m (f.closed m) = f := by
  refine eq_of_reads size_setClosed (fun _ => node_setClosed) (fun a => ?_)
    (fun _ => parent?_setClosed) fun _ => children_setClosed
  rw [closed_setClosed]
  split
  · next ha => rw [ha.1]
  · rfl

theorem setClosed_setClosed {b' : Bool} : (f.setClosed m b).setClosed m b' = f.setClosed m b' := by
  refine eq_of_reads ?_ (fun a => ?_) (fun a => ?_) (fun a => ?_) fun a => ?_
  · rw [size_setClosed, size_setClosed, size_setClosed]
  · rw [node_setClosed, node_setClosed, node_setClosed]
  · rw [closed_setClosed, closed_setClosed, closed_setClosed, size_setClosed]
    split <;> rfl
  · rw [parent?_setClosed, parent?_setClosed, parent?_setClosed]
  · rw [children_setClosed, children_setClosed, children_setClosed]

theorem Extends.setClosed (h : Extends f g) (m : NodeId) (b : Bool) :
    Extends (f.setClosed m b) (g.setClosed m b) where
  owned := h.owned.setClosed m b
  size := by rw [size_setClosed, size_setClosed]; exact h.size
  node a ha := by
    rw [size_setClosed] at ha
    rw [node_setClosed, node_setClosed, h.node a ha]
  closed a ha := by
    rw [size_setClosed] at ha
    rw [closed_setClosed, closed_setClosed, h.closed a ha]
    simp [ha, Nat.lt_of_lt_of_le ha h.size]
  children a := by rw [children_setClosed, children_setClosed, h.children]

/-- The rows of a node with children, whatever its state is set to. -/
theorem Owned.rows_setClosed (h : f.Owned) (hm : f.children m ≠ []) (b : Bool) (s : Style)
    (label : Node → String) (padding : String) (place : Place) :
    Tree.rows s label padding place ((f.setClosed m b).tree m)
      = ⟨padding ++ (s.lead place).pick (.of true b) ++ label (f.node m), some (f.node m)⟩
        :: if b then [] else
          rowsAll s label (padding ++ s.filler place) false ((f.children m).map f.tree) := by
  have hlt : m < f.size := lt_size_of_children_ne hm
  have hclosed : (f.setClosed m b).closed m = b := closed_setClosed.trans (if_pos ⟨rfl, hlt⟩)
  have hbelow : (f.children m).map (f.setClosed m b).tree = (f.children m).map f.tree :=
    List.map_congr_left fun c hc => h.tree_setClosed (h.not_above_of_mem hc)
  rw [rows_eq_cons, (h.setClosed m b).fold_tree, (h.setClosed m b).node_tree,
    (h.setClosed m b).rowsBelow_tree, hclosed, node_setClosed, children_setClosed, hbelow,
    List.isEmpty_eq_false_iff.2 hm, Bool.not_false]

/-! ### The rows of a navbar -/

theorem Spliced.within (h : f.Spliced n part part' whole whole') (pre post : List Row)
    (hout : ∀ row ∈ pre ++ post, ∀ m, row.node? = some m → ¬ f.Above n m.id) :
    f.Spliced n part part' (pre ++ whole ++ post) (pre ++ whole' ++ post) :=
  Spliced.trans ⟨pre, post, rfl, rfl, hout⟩ h

theorem addBuckets_snd_setClosed : (f.setClosed m b).addBuckets.2 = f.addBuckets.2 := by
  simp [addBuckets]

theorem ofKind?_setClosed :
    (f.setClosed m b).addBuckets.2.ofKind? k = f.addBuckets.2.ofKind? k := by
  rw [addBuckets_snd_setClosed]

theorem node_bucket_setClosed (hp : f.addBuckets.2.ofKind? k = some p) :
    (f.setClosed m b).addBuckets.1.node p = f.addBuckets.1.node p := by
  have hp' : (f.setClosed m b).addBuckets.2.ofKind? k = some p := ofKind?_setClosed.trans hp
  exact congrArg (Node.mk p) (congrArg Cell.content ((cell_bucket hp').trans (cell_bucket hp).symm))

theorem treesOfKind_setClosed : (f.setClosed m b).treesOfKind n k
    = ((f.children n).filter fun c => (f.node c).kind = k).map (f.setClosed m b).tree := by
  simp only [treesOfKind, children_setClosed, node_setClosed]

theorem Owned.not_above_bucket (h : f.Owned) (hp : f.addBuckets.2.ofKind? k = some p)
    (hc : c ∈ f.children n) (hm : f.Above c m) : ¬ f.Above m p := by
  intro hmp
  have hlt := Above.lt_size (hm.trans hmp) (h.child_lt hc)
  exact Nat.not_lt.2 (bucket_bounds hp).1 hlt

/-- The rows of a bucket show nothing that lies below a node in another one. -/
theorem Owned.not_above_of_mem_bucket (h : f.Owned) (hp : f.addBuckets.2.ofKind? k = some p)
    (hc : c ∈ f.children n) (hk : (f.node c).kind ≠ k) (hm : f.Above c m)
    (hrow : row ∈ ((f.bucketize n).1.tree p).render s label false) :
    ∀ a, row.node? = some a → ¬ f.Above m a.id := by
  intro a ha hma
  have hnode := List.mem_map_of_mem (f := Row.node?) hrow
  rw [h.map_node?_bucket hp, ha] at hnode
  rcases List.mem_cons.1 hnode with hbucket | hnode
  · cases hbucket
    exact h.not_above_bucket hp hc hm hma
  · obtain ⟨e, he, hnode⟩ := List.mem_flatMap.1 hnode
    obtain ⟨a', ha', hnode⟩ := List.mem_map.1 hnode
    cases hnode
    obtain ⟨he, hek⟩ := List.mem_filter.1 he
    cases h.eq_of_above hc he (hm.trans hma) (h.mem_shown.1 ha').1
    exact hk (of_decide_eq_true hek)

theorem Owned.render_bucket_setClosed_of_ne (h : f.Owned) (hp : f.addBuckets.2.ofKind? k = some p)
    (hc : c ∈ f.children n) (hk : (f.node c).kind ≠ k) (hm : f.Above c m) :
    (((f.setClosed m b).bucketize n).1.tree p).render s label false
      = ((f.bucketize n).1.tree p).render s label false := by
  have hp' : (f.setClosed m b).addBuckets.2.ofKind? k = some p := ofKind?_setClosed.trans hp
  have htrees : (f.setClosed m b).treesOfKind n k = f.treesOfKind n k := by
    rw [treesOfKind_setClosed]
    refine List.map_congr_left fun e he => h.tree_setClosed fun hem => ?_
    obtain ⟨he, hek⟩ := List.mem_filter.1 he
    cases h.eq_of_above hc he hm hem
    exact hk (of_decide_eq_true hek)
  rw [(h.setClosed m b).render_bucket hp', h.render_bucket hp, htrees, node_bucket_setClosed hp]

theorem Owned.changes_bucket (h : f.Owned) (hp : f.addBuckets.2.ofKind? k = some p)
    (hc : c ∈ f.children n) (hk : (f.node c).kind = k) (hm : f.Shown c m) (b : Bool)
    (s : Style) (label : Node → String) :
    f.Changes m b s label (((f.bucketize n).1.tree p).render s label false)
      ((((f.setClosed m b).bucketize n).1.tree p).render s label false) := by
  have hp' : (f.setClosed m b).addBuckets.2.ofKind? k = some p := ofKind?_setClosed.trans hp
  have hc' : c ∈ (f.children n).filter fun c => (f.node c).kind = k :=
    List.mem_filter.2 ⟨hc, decide_eq_true hk⟩
  obtain ⟨place, hsplice⟩ := h.spliced_among ((h.nodup n).filter _) List.filter_sublist.subset hc' hm.1 b
    s label s.empty true
  obtain ⟨padding', place', hrow⟩ := h.changes_rows hm.1 hm.2 b s label s.empty place
  refine ⟨padding', place', ?_⟩
  rw [h.render_bucket hp, (h.setClosed m b).render_bucket hp', node_bucket_setClosed hp,
    treesOfKind_setClosed, treesOfKind, List.isEmpty_map, List.isEmpty_map]
  refine (hsplice.trans hrow).cons fun a ha => ?_
  cases ha
  exact h.not_above_bucket hp hc hm.1

/-- One of three parts with separators between them may change. -/
theorem exists_splice {bs : Buckets} (hp : bs.ofKind? k = some p) (R R' : NodeId → List Row)
    (hsame : ∀ j q, j ≠ k → bs.ofKind? j = some q → R' q = R q) :
    let join (R : NodeId → List Row) := R bs.classes ++ Row.separator ::
      (R bs.functions ++ Row.separator :: R bs.constants)
    ∃ pre post, join R = pre ++ R p ++ post ∧ join R' = pre ++ R' p ++ post ∧
      ∀ row ∈ pre ++ post,
        row = .separator ∨ ∃ j q, j ≠ k ∧ bs.ofKind? j = some q ∧ row ∈ R q := by
  intro join
  cases k with
  | kindless => cases hp
  | classDef =>
    cases hp
    refine ⟨[], .separator :: (R bs.functions ++ .separator :: R bs.constants), rfl, ?_, ?_⟩
    · simp [join, hsame .function _ nofun rfl, hsame .constant _ nofun rfl]
    · intro row hrow
      simp only [List.nil_append, List.mem_cons, List.mem_append] at hrow
      rcases hrow with hrow | hrow | hrow | hrow
      · exact .inl hrow
      · exact .inr ⟨.function, _, nofun, rfl, hrow⟩
      · exact .inl hrow
      · exact .inr ⟨.constant, _, nofun, rfl, hrow⟩
  | function =>
    cases hp
    refine ⟨R bs.classes ++ [.separator], .separator :: R bs.constants, ?_, ?_, ?_⟩
    · simp [join]
    · simp [join, hsame .classDef _ nofun rfl, hsame .constant _ nofun rfl]
    · intro row hrow
      simp only [List.append_assoc, List.mem_append, List.mem_cons, List.not_mem_nil,
        or_false] at hrow
      rcases hrow with hrow | hrow | hrow | hrow
      · exact .inr ⟨.classDef, _, nofun, rfl, hrow⟩
      · exact .inl hrow
      · exact .inl hrow
      · exact .inr ⟨.constant, _, nofun, rfl, hrow⟩
  | constant =>
    cases hp
    refine ⟨R bs.classes ++ .separator :: (R bs.functions ++ [.separator]), [], ?_, ?_, ?_⟩
    · simp [join]
    · simp [join, hsame .classDef _ nofun rfl, hsame .function _ nofun rfl]
    · intro row hrow
      simp only [List.append_nil, List.mem_append, List.mem_cons, List.not_mem_nil, or_false] at hrow
      rcases hrow with hrow | hrow | hrow | hrow
      · exact .inr ⟨.classDef, _, nofun, rfl, hrow⟩
      · exact .inl hrow
      · exact .inr ⟨.function, _, nofun, rfl, hrow⟩
      · exact .inl hrow

/-- Setting the state of a node that is shown changes one stretch of a navbar. -/
theorem Owned.changes_navbar (h : f.Owned) (hc : c ∈ f.bucketed n) (hm : f.Shown c m) (b : Bool)
    (s : Style) (label : Node → String) :
    f.Changes m b s label ((f.bucketize n).1.renderAll f.addBuckets.2.toList s label)
      (((f.setClosed m b).bucketize n).1.renderAll (f.setClosed m b).addBuckets.2.toList s label) := by
  obtain ⟨hc, hkind⟩ := mem_bucketed.1 hc
  obtain ⟨p, hp⟩ := exists_bucket (b := f.addBuckets.2) hkind
  obtain ⟨padding, place, hbucket⟩ := h.changes_bucket hp hc rfl hm b s label
  -- the buckets without `c` stay as they are
  obtain ⟨pre, post, hrows, hrows', hout⟩ := exists_splice hp
    (fun p => ((f.bucketize n).1.tree p).render s label false)
    (fun p => (((f.setClosed m b).bucketize n).1.tree p).render s label false)
    fun j q hj hq => h.render_bucket_setClosed_of_ne hq hc hj.symm hm.1
  beta_reduce at hrows hrows'
  rw [addBuckets_snd_setClosed, renderAll_buckets, renderAll_buckets, hrows, hrows']
  refine ⟨padding, place, ?_⟩
  refine hbucket.within pre post fun row hrow a ha => ?_
  rcases hout row hrow with rfl | ⟨j, q, hj, hq, hrow⟩
  · cases ha
  · exact h.not_above_of_mem_bucket hq hc hj.symm hm.1 hrow a ha

/-! ### Three navbars -/

/-- A node that one row shows is found where that row is. -/
theorem length_eq_of_getElem? {before after : List Row} {own : Row} {a : Node} {j : Nat}
    (hj : ((before ++ own :: after)[j]?).bind Row.node? = some a)
    (hout : ∀ row ∈ before ++ after, row.node? ≠ some a) : before.length = j := by
  obtain ⟨row, hrow, hnode⟩ := Option.bind_eq_some_iff.1 hj
  rcases Nat.lt_trichotomy j before.length with hlt | rfl | hgt
  · rw [List.getElem?_append_left hlt] at hrow
    exact absurd hnode (hout row (List.mem_append_left after (List.mem_of_getElem? hrow)))
  · rfl
  · obtain ⟨l, rfl⟩ := Nat.exists_eq_add_of_lt hgt
    have hl : before.length + l + 1 - before.length = l + 1 := by omega
    rw [List.getElem?_append_right (by omega), hl, List.getElem?_cons_succ] at hrow
    exact absurd hnode (hout row (List.mem_append_right before (List.mem_of_getElem? hrow)))

theorem node?_of_repeats {size j : Nat} {rows' : List Row} {a : Node}
    (h : List.Forall₂ (Row.Repeats size) rows rows') (ha : a.id < size)
    (hj : (rows[j]?).bind Row.node? = some a) : (rows'[j]?).bind Row.node? = some a := by
  induction h generalizing j with
  | nil => cases hj
  | cons hrow _ ih =>
    cases j with
    | zero =>
      refine (hrow.node? fun b hb => ?_).trans hj
      cases hb.symm.trans hj
      exact ha
    | succ j => exact ih hj

theorem Owned.map_node?_rowsAll_children (h : f.Owned) (s : Style) (label : Node → String)
    (padding : String) (marked : Bool) (m : NodeId) :
    (rowsAll s label padding marked ((f.children m).map f.tree)).map Row.node?
      = ((f.children m).flatMap f.shown).map fun d => some (f.node d) := by
  rw [Tree.map_node?_rowsAll, List.flatMap_map, List.map_flatMap, List.map_flatMap]
  refine List.flatMap_congr fun c _ => ?_
  rw [h.shown_tree, List.map_map]
  rfl

/-- A row of a navbar and what follows it, before and after the state of its node is set. -/
theorem Owned.splice_navbar (h : f.Owned) (hm : f.children m ≠ []) {j : Nat}
    (hj : (((f.bucketize n).1.renderAll f.addBuckets.2.toList s label)[j]?).bind Row.node?
      = some (f.node m)) (b : Bool) :
    ∃ padding place before after,
      let part (closed : Bool) : List Row :=
        ⟨padding ++ (s.lead place).pick (.of true closed) ++ label (f.node m), some (f.node m)⟩
          :: if closed then [] else
            rowsAll s label (padding ++ s.filler place) false ((f.children m).map f.tree)
      before.length = j ∧
        (f.bucketize n).1.renderAll f.addBuckets.2.toList s label
          = before ++ part (f.closed m) ++ after ∧
        ((f.setClosed m b).bucketize n).1.renderAll (f.setClosed m b).addBuckets.2.toList s label
          = before ++ part b ++ after := by
  have hlt : m < f.size := lt_size_of_children_ne hm
  obtain ⟨row, hrow, hnode⟩ := Option.bind_eq_some_iff.1 hj
  obtain ⟨c, hc, (hshown : f.Shown c m), -⟩ :=
    h.exists_shown_of_row (List.mem_of_getElem? hrow) hnode hlt
  obtain ⟨padding, place, before, after, hrows, hrows', hout⟩ :=
    h.changes_navbar hc hshown b s label
  have hpart : rows s label padding place (f.tree m) = _ :=
    setClosed_closed (f := f) (m := m) ▸ h.rows_setClosed hm (f.closed m) s label padding place
  rw [hpart] at hrows
  rw [h.rows_setClosed hm b] at hrows'
  refine ⟨padding, place, before, after, ?_, hrows, hrows'⟩
  rw [hrows, List.append_assoc, List.cons_append] at hj
  refine length_eq_of_getElem? hj fun row hrow hnode => ?_
  simp only [List.mem_append] at hrow hout
  rcases hrow with hrow | hrow | hrow
  · exact hout row (.inl hrow) _ hnode .refl
  · cases hclosed : f.closed m with
    | true =>
      rw [hclosed] at hrow
      cases hrow
    | false =>
      -- the rows after that of `m` show nodes below its children
      rw [hclosed] at hrow
      have hmem := List.mem_map_of_mem (f := Row.node?) hrow
      rw [if_neg Bool.false_ne_true, h.map_node?_rowsAll_children, hnode] at hmem
      obtain ⟨d, hd, hdm⟩ := List.mem_map.1 hmem
      cases hdm
      obtain ⟨e, he, hd⟩ := List.mem_flatMap.1 hd
      exact h.not_above_of_mem he (h.mem_shown.1 hd).1
  · exact hout row (.inr hrow) _ hnode .refl

theorem toggle_addBuckets (hm : m < f.size) :
    f.addBuckets.1.toggle m = f.addBuckets.1.setClosed m (!f.closed m) := by
  rw [toggle, closed_addBuckets hm]

section

variable (h : f.Owned) (hs : Style.resolve style spacing = .ok s)
  (hlabel : ∀ a b : Node, f.size ≤ a.id → f.size ≤ b.id → a.content = b.content →
    label a = label b)

include h hs hlabel

theorem Extends.renderNavbar (hg : Extends f g) :
    ∃ rows, g.renderNavbar n style spacing label = (.ok rows, g.addBuckets.1) ∧
      List.Forall₂ (Row.Repeats f.size)
        ((f.bucketize n).1.renderAll f.addBuckets.2.toList s label) rows :=
  ⟨_, hg.owned.renderNavbar_eq hs, h.repeats_navbar hg hlabel⟩

/-- The navbars after a node was toggled once and twice. -/
theorem Owned.renderNavbar_toggle (hm : f.children m ≠ []) (hi : 0 ≤ i)
    (hj : (((f.setClosed m (!f.closed m)).bucketize n).1.renderAll
      (f.setClosed m (!f.closed m)).addBuckets.2.toList s label)[i.toNat]?.bind Row.node?
        = some (f.node m)) :
    ∃ rows g, (f.addBuckets.1.toggle m).renderNavbar n style spacing label = (.ok rows, g) ∧
      List.Forall₂ (Row.Repeats f.size) (((f.setClosed m (!f.closed m)).bucketize n).1.renderAll
        (f.setClosed m (!f.closed m)).addBuckets.2.toList s label) rows ∧
      (g.toggleRow rows i).1 = true ∧
      ∃ rows' g', (g.toggleRow rows i).2.renderNavbar n style spacing label = (.ok rows', g') ∧
        List.Forall₂ (Row.Repeats f.size)
          ((f.bucketize n).1.renderAll f.addBuckets.2.toList s label) rows' := by
  have hlt : m < f.size := lt_size_of_children_ne hm
  have hlt' : m < (f.setClosed m (!f.closed m)).size := by rwa [size_setClosed]
  have hlabel' : ∀ a b : Node, (f.setClosed m (!f.closed m)).size ≤ a.id →
      (f.setClosed m (!f.closed m)).size ≤ b.id → a.content = b.content → label a = label b := by
    rwa [size_setClosed]
  have hx : Extends (f.setClosed m (!f.closed m)) (f.addBuckets.1.toggle m) := by
    rw [toggle_addBuckets hlt]
    exact (Extends.refl h).addBuckets.setClosed m _
  obtain ⟨rows, hrows, hrepeats⟩ :=
    Extends.renderNavbar (n := n) (h.setClosed m (!f.closed m)) hs hlabel' hx
  have hnode := node?_of_repeats hrepeats hlt' hj
  rw [size_setClosed] at hrepeats
  have hfold : (f.addBuckets.1.toggle m).addBuckets.1.foldable? rows i = some m :=
    foldable?_eq_some_iff.2 ⟨hi, ⟨_, hnode, rfl⟩, by rwa [hx.addBuckets.children, children_setClosed]⟩
  refine ⟨rows, _, hrows, hrepeats, ?_⟩
  rw [toggleRow_of_some hfold]
  -- the state is what it was at first
  have hback : (f.setClosed m (!f.closed m)).setClosed m
      (!(f.addBuckets.1.toggle m).addBuckets.1.closed m) = f := by
    rw [hx.addBuckets.closed m hlt', closed_setClosed, if_pos ⟨rfl, hlt⟩, Bool.not_not,
      setClosed_setClosed, setClosed_closed]
  have hx' := hx.addBuckets.setClosed m (!(f.addBuckets.1.toggle m).addBuckets.1.closed m)
  rw [hback] at hx'
  obtain ⟨rows', hrows', hrepeats'⟩ := Extends.renderNavbar (n := n) h hs hlabel hx'
  exact ⟨rfl, rows', _, hrows', hrepeats'⟩

end

/-- In a navbar the rows of nodes that have children can be toggled, and no others. That flips the
state of the node and nothing else. In the next navbar its row has the other lead, and the rows of the
visible nodes below it are gone or have come after it. Toggling that row brings the old texts back. -/
theorem toggleRow_renderNavbar (h : f.Reached)
    (hrows : f.renderNavbar n style spacing label = (.ok rows, g))
    (hlabel : ∀ a b : Node, f.size ≤ a.id → f.size ≤ b.id → a.content = b.content →
      label a = label b) (i : Int) :
    let toggles (m : NodeId) : Prop := m ∈ f.walk n ∧ f.children m ≠ [] ∧ 0 ≤ i ∧
      (rows[i.toNat]?).bind Row.node? = some (f.node m)
    ((g.toggleRow rows i).1 = true ↔ ∃ m, toggles m) ∧
      ((g.toggleRow rows i).1 = false → (g.toggleRow rows i).2 = g) ∧
      ∀ m, toggles m →
        let g₁ := (g.toggleRow rows i).2
        Refolded g g₁ ∧ (∀ a, g₁.closed a = if a = m then !g.closed m else g.closed a) ∧
          ∃ s padding place before after rows' g₂, Style.resolve style spacing = .ok s ∧
            let block := rowsAll s label (padding ++ s.filler place) false ((f.children m).map f.tree)
            let part (closed : Bool) : List Row :=
              ⟨padding ++ (s.lead place).pick (.of true closed) ++ label (f.node m), some (f.node m)⟩
                :: if closed then [] else block
            block.map Row.node? = ((f.children m).flatMap f.shown).map (fun d => some (f.node d)) ∧
              (before.length : Int) = i ∧ rows = before ++ part (f.closed m) ++ after ∧
              g₁.renderNavbar n style spacing label = (.ok rows', g₂) ∧
              List.Forall₂ (Row.Repeats f.size) (before ++ part (!f.closed m) ++ after) rows' ∧
              (g₂.toggleRow rows' i).1 = true ∧
              ∃ rows'' g₃, (g₂.toggleRow rows' i).2.renderNavbar n style spacing label
                  = (.ok rows'', g₃) ∧
                List.Forall₂ (Row.Repeats f.size) rows rows'' := by
  intro toggles
  have howned := h.owned
  obtain ⟨s, hs⟩ : ∃ s, Style.resolve style spacing = .ok s := by
    cases hs : Style.resolve style spacing with
    | ok s => exact ⟨s, rfl⟩
    | error e =>
      rw [renderNavbar_of_error hs] at hrows
      cases hrows
  rw [howned.renderNavbar_eq hs] at hrows
  cases hrows
  refine ⟨howned.toggleRow_navbar_iff, fun hfalse => ?_, fun m ⟨_, hchildren, hi, hnode⟩ => ?_⟩
  · cases hm : f.addBuckets.1.foldable? _ i with
    | none => rw [toggleRow_of_none hm]
    | some m =>
      rw [toggleRow_of_some hm] at hfalse
      cases hfalse
  · have hlt : m < f.size := lt_size_of_children_ne hchildren
    rw [toggleRow_of_some (howned.foldable?_navbar.2 ⟨hi, hnode, hchildren⟩)]
    obtain ⟨padding, place, before, after, hbefore, hwhole, hwhole'⟩ :=
      howned.splice_navbar hchildren hnode (!f.closed m)
    have hnode' : (((f.setClosed m (!f.closed m)).bucketize n).1.renderAll
        (f.setClosed m (!f.closed m)).addBuckets.2.toList s label)[i.toNat]?.bind Row.node?
          = some (f.node m) := by
      rw [hwhole', ← hbefore]
      simp
    obtain ⟨rows', g₂, hrows', hrepeats, htoggles, rows'', g₃, hrows'', hrepeats'⟩ :=
      howned.renderNavbar_toggle hs hlabel hchildren hi hnode'
    refine ⟨.setClosed _ m _, fun a => ?_, s, padding, place, before, after, rows', g₂, hs, ?_⟩
    · have hlt' : m < f.addBuckets.1.size := by
        rw [size_addBuckets]
        exact Nat.lt_add_right 3 hlt
      show (f.addBuckets.1.setClosed m _).closed a = _
      rw [closed_setClosed]
      by_cases ha : a = m
      · rw [if_pos ⟨ha.symm, ha ▸ hlt'⟩, if_pos ha]
      · rw [if_neg fun h => ha h.1.symm, if_neg ha]
    · refine ⟨howned.map_node?_rowsAll_children .., ?_, hwhole, hrows', hwhole' ▸ hrepeats, htoggles,
        rows'', g₃, hrows'', hrepeats'⟩
      rw [hbefore, Int.toNat_of_nonneg hi]

/-- The class of `oneMethod` is closed by its row, the second one, and opened again. -/
theorem toggleRow_renderNavbar_method :
    let f := oneMethod
    ∃ rows g, f.renderNavbar 0 "box" 0 Node.markedName = (.ok rows, g) ∧
      (g.toggleRow rows 1).1 = true ∧ (g.toggleRow rows 1).2.closed 1 = true ∧
      ∃ rows' g₂, (g.toggleRow rows 1).2.renderNavbar 0 "box" 0 Node.markedName = (.ok rows', g₂) ∧
        rows.length = rows'.length + 1 ∧ (g₂.toggleRow rows' 1).1 = true ∧
        ∃ rows'' g₃, (g₂.toggleRow rows' 1).2.renderNavbar 0 "box" 0 Node.markedName
            = (.ok rows'', g₃) ∧
          List.Forall₂ (Row.Repeats f.size) rows rows'' := by
  intro f
  obtain ⟨s, hs⟩ := Style.exists_resolve (by decide : "box" ∈ Style.names) (by decide : (0 : Int) ≤ 0)
  have howned : f.Owned := oneMethod_reached.owned
  have hrows : f.renderNavbar 0 "box" 0 Node.markedName = (.ok _, _) := howned.renderNavbar_eq hs
  have hlabel : ∀ a b : Node, f.size ≤ a.id → f.size ≤ b.id → a.content = b.content →
      a.markedName = b.markedName := by
    intro a b _ _ hab
    rw [Node.markedName, Node.markedName, Node.kind, Node.kind, Node.name, Node.name, hab]
  have hnode : (((f.bucketize 0).1.renderAll f.addBuckets.2.toList s Node.markedName)[1]?).bind
      Row.node? = some (f.node 1) := by
    have hfirst : (((f.bucketize 0).1.renderAll f.addBuckets.2.toList s Node.markedName).map
        Row.node?)[1]? = some (some (f.node 1)) := by
      rw [howned.map_node?_navbar]
      decide
    rw [List.getElem?_map] at hfirst
    obtain ⟨row, hrow, hnode⟩ := Option.map_eq_some_iff.1 hfirst
    rw [hrow, Option.bind_some, hnode]
  obtain ⟨htoggles, -, hall⟩ := toggleRow_renderNavbar oneMethod_reached hrows hlabel 1
  obtain ⟨-, hclosed, s', padding, place, before, after, rows', g₂, -, hblock, -, hwhole, hrows',
    hrepeats, htoggles', hback⟩ := hall 1 ⟨by decide, by decide, by decide, hnode⟩
  refine ⟨_, _, hrows, htoggles.2 ⟨1, by decide, by decide, by decide, hnode⟩, ?_, rows', g₂, hrows',
    ?_, htoggles', hback⟩
  · rw [hclosed]
    decide
  · have hopen : oneMethod.closed 1 = false := by decide
    have hlen := hrepeats.length_eq
    have hone := congrArg List.length hblock
    have hshown : ((f.children 1).flatMap f.shown).length = 1 := by decide
    rw [List.length_map, List.length_map, hshown] at hone
    rw [hwhole]
    simp only [List.length_append, List.length_cons, hopen, Bool.false_eq_true, if_false, hone,
      Bool.not_false, if_true, List.length_nil] at hlen ⊢
    omega

end Forest

end Outliner
