import Mathlib.Data.List.Forall2
import Outliner.Proofs.Descent
import Outliner.Proofs.Navbar

/-!
# Rendering a navbar again

A navbar that succeeds adds three empty buckets to the forest and changes nothing else
(`Owned.renderNavbar_eq`). While it is rendered, each bucket holds the trees that the children of its
kind had before (`Owned.tree_bucket`). So a second navbar shows the same rows but for its own buckets
(`renderNavbar_repeatable`).
-/

namespace Outliner

theorem Style.exists_resolve {style : String} {spacing : Int} (hstyle : style ∈ names)
    (hspacing : 0 ≤ spacing) : ∃ s, resolve style spacing = .ok s := by
  cases hs : resolve style spacing with
  | ok s => exact ⟨s, rfl⟩
  | error e =>
    rcases resolve_error_cause hs with hnone | hneg
    · obtain ⟨s, hmem, rfl⟩ := List.mem_map.1 hstyle
      have hmiss := List.find?_eq_none.1 hnone s hmem
      simp at hmiss
    · omega

namespace Forest

variable {f g : Forest} {c m n p q : Nat} {k : Kind} {style : String} {spacing : Int} {s : Style}
  {label : Node → String}

/-! ### What a navbar leaves behind -/

theorem bucketize_keeps {α : Type} (read : Forest → α)
    (h : ∀ g p c, read (g.append p c) = read g) : read (f.bucketize n).1 = read f.addBuckets.1 := by
  rw [bucketize_eq]
  refine List.foldlRecOn (motive := fun g => read g = read f.addBuckets.1) _ _ rfl fun g hg c _ => ?_
  rw [← hg]
  unfold moveToBucket
  split
  · rfl
  · exact h ..

theorem node_bucketize (hm : m < f.size) : (f.bucketize n).1.node m = f.node m :=
  (bucketize_keeps (·.node m) fun _ _ _ => node_append).trans (node_addBuckets hm)

theorem closed_bucketize (hm : m < f.size) : (f.bucketize n).1.closed m = f.closed m :=
  (bucketize_keeps (·.closed m) fun _ _ _ => closed_append).trans (closed_addBuckets hm)

theorem renderNavbar_keeps {α : Type} (read : Forest → α)
    (h : ∀ g p c, read (g.append p c) = read g) (hs : Style.resolve style spacing = .ok s) :
    read (f.renderNavbar n style spacing label).2 = read f.addBuckets.1 := by
  rw [renderNavbar_of_ok hs]
  exact List.foldlRecOn (motive := fun g => read g = read f.addBuckets.1) _ _
    (bucketize_keeps read h) fun g hg c _ => (h g n c).trans hg

theorem Owned.parent?_congr (h : f.Owned) (hg : g.Owned) (hc : ∀ p, g.children p = f.children p)
    (m : NodeId) : g.parent? m = f.parent? m :=
  Option.ext fun p => by rw [← hg.mem_children, ← h.mem_children, hc]

theorem Owned.renderNavbar_eq (h : f.Owned) (hs : Style.resolve style spacing = .ok s) :
    f.renderNavbar n style spacing label
      = (.ok ((f.bucketize n).1.renderAll f.addBuckets.2.toList s label), f.addBuckets.1) := by
  have hkept : Kept (f.children n) f.addBuckets.1 (f.renderNavbar n style spacing label).2 :=
    h.kept_renderNavbar n
  have hchildren : ∀ p, (f.renderNavbar n style spacing label).2.children p
      = f.addBuckets.1.children p := by
    intro p
    rw [renderNavbar_of_ok hs, h.children_moveBack, children_addBuckets]
  -- the children tell the parents, so nothing is left to compare but contents and states
  have hforest : (f.renderNavbar n style spacing label).2 = f.addBuckets.1 :=
    eq_of_reads hkept.size
      (fun m => renderNavbar_keeps (·.node m) (fun _ _ _ => node_append) hs)
      (fun m => renderNavbar_keeps (·.closed m) (fun _ _ _ => closed_append) hs)
      (h.addBuckets.parent?_congr hkept.owned hchildren) hchildren
  exact Prod.ext (by rw [renderNavbar_of_ok hs]) hforest

/-! ### What the buckets hold -/

/-- The trees below the children of `n` that have kind `k`. -/
def treesOfKind (f : Forest) (n : NodeId) (k : Kind) : List Tree :=
  ((f.children n).filter fun c => (f.node c).kind = k).map f.tree

theorem bucket_injective {j : Kind} (hj : f.addBuckets.2.ofKind? j = some p)
    (hk : f.addBuckets.2.ofKind? k = some p) : j = k := by
  have hjk := hj.trans hk.symm
  cases j <;> cases k <;> simp [addBuckets, Buckets.ofKind?] at hj hjk ⊢

theorem bucketOf?_eq_some_iff (hp : f.addBuckets.2.ofKind? k = some p) :
    f.bucketOf? c = some p ↔ (f.node c).kind = k :=
  ⟨fun hc => bucket_injective hc hp, fun hk => by rw [bucketOf?, hk, hp]⟩

theorem Owned.children_bucketize_of_ne (h : f.Owned) (hm : m < f.size) (hne : m ≠ n) :
    (f.bucketize n).1.children m = f.children m := by
  have hstay : ∀ c ∈ f.children m, c ∉ f.children n := fun c hc => h.not_mem_children hc hne
  have hold : ∀ c, f.bucketOf? c ≠ some m := fun c hc => Nat.not_lt.2 (bucket_bounds hc).1 hm
  rw [h.children_bucketize, List.filter_eq_self.2 fun c hc => by simp [hstay c hc],
    List.filter_eq_nil_iff.2 fun c _ => by simp [hold c], List.append_nil]

theorem Owned.children_bucket (h : f.Owned) (hp : f.addBuckets.2.ofKind? k = some p) :
    (f.bucketize n).1.children p = (f.children n).filter fun c => (f.node c).kind = k := by
  rw [h.children_bucketize, children_of_size_le (bucket_bounds hp).1, List.filter_nil, List.nil_append]
  exact List.filter_congr fun c _ => decide_eq_decide.2 (bucketOf?_eq_some_iff hp)

theorem Owned.tree_bucketize (h : f.Owned) (hc : c ∈ f.children n) :
    (f.bucketize n).1.tree c = f.tree c := by
  -- only `n` and the buckets get other children, and none of them lies below `c`
  refine h.tree_congr (h.kept_bucketize n).owned fun m hm => ?_
  have hlt : m < f.size := hm.lt_size (h.child_lt hc)
  have hne : m ≠ n := fun he => h.not_above_of_mem hc (he ▸ hm)
  exact ⟨node_bucketize hlt, closed_bucketize hlt, h.children_bucketize_of_ne hlt hne⟩

/-- The name of the bucket for nodes of kind `k`. -/
def bucketName : Kind → String
  | .kindless => ""
  | .classDef => "Classes"
  | .function => "Functions"
  | .constant => "Variables"

theorem cell_bucket (hp : f.addBuckets.2.ofKind? k = some p) :
    f.addBuckets.1.cell p = ⟨.declared (.synthetic (bucketName k)), false, none, []⟩ := by
  cases k <;> simp only [addBuckets, Buckets.ofKind?, Option.some.injEq, reduceCtorEq] at hp ⊢
  all_goals
    subst hp
    simp [cell_add, Nat.add_assoc, bucketName]

theorem Owned.tree_bucket (h : f.Owned) (hp : f.addBuckets.2.ofKind? k = some p) :
    (f.bucketize n).1.tree p
      = .mk (f.addBuckets.1.node p) (f.addBuckets.1.closed p) (f.treesOfKind n k) := by
  have hnode : (f.bucketize n).1.node p = f.addBuckets.1.node p :=
    bucketize_keeps (·.node p) fun _ _ _ => node_append
  have hclosed : (f.bucketize n).1.closed p = f.addBuckets.1.closed p :=
    bucketize_keeps (·.closed p) fun _ _ _ => closed_append
  rw [(h.kept_bucketize n).owned.tree_eq, hnode, hclosed, h.children_bucket hp]
  exact congrArg _ (List.map_congr_left fun c hc => h.tree_bucketize (List.mem_of_mem_filter hc))

/-- `g` has the nodes of `f`, and newer ones that have no children. -/
structure Extends (f g : Forest) : Prop where
  owned : g.Owned
  size : f.size ≤ g.size
  node : ∀ m < f.size, g.node m = f.node m
  closed : ∀ m < f.size, g.closed m = f.closed m
  children : ∀ m, g.children m = f.children m

namespace Extends

theorem refl (h : f.Owned) : Extends f f :=
  ⟨h, Nat.le_refl _, fun _ _ => rfl, fun _ _ => rfl, fun _ => rfl⟩

theorem addBuckets (h : Extends f g) : Extends f g.addBuckets.1 where
  owned := h.owned.addBuckets
  size := by
    rw [size_addBuckets]
    exact Nat.le_add_right_of_le h.size
  node m hm := (node_addBuckets (Nat.lt_of_lt_of_le hm h.size)).trans (h.node m hm)
  closed m hm := (closed_addBuckets (Nat.lt_of_lt_of_le hm h.size)).trans (h.closed m hm)
  children m := children_addBuckets.trans (h.children m)

theorem treesOfKind (h : Extends f g) (hf : f.Owned) (n : NodeId) (k : Kind) :
    g.treesOfKind n k = f.treesOfKind n k := by
  have hfilter : (f.children n).filter (fun c => (g.node c).kind = k)
      = (f.children n).filter fun c => (f.node c).kind = k :=
    List.filter_congr fun c hc => by rw [h.node c (hf.child_lt hc)]
  rw [Forest.treesOfKind, h.children, hfilter]
  refine List.map_congr_left fun c hc => hf.tree_congr h.owned fun m hm => ?_
  have hlt : m < f.size := hm.lt_size (hf.child_lt (List.mem_of_mem_filter hc))
  exact ⟨h.node m hlt, h.closed m hlt, h.children m⟩

end Extends

end Forest

/-! ### The same rows again -/

/-- `r'` shows the text of `r` and, unless `r` stands for a node from `size` on, the same node. -/
structure Row.Repeats (size : Nat) (r r' : Row) : Prop where
  text : r'.text = r.text
  node? : (∀ b, r.node? = some b → b.id < size) → r'.node? = r.node?

theorem Row.Repeats.refl (size : Nat) (r : Row) : Repeats size r r :=
  ⟨rfl, fun _ => rfl⟩

theorem Row.forall₂_repeats_refl (size : Nat) (rows : List Row) :
    List.Forall₂ (Repeats size) rows rows :=
  List.forall₂_same.2 fun r _ => .refl size r

/-- Exchanging the root for another node with the same label. -/
theorem Tree.repeats_render {size : Nat} {s : Style} {label : Node → String} {a b : Node}
    {closed : Bool} {ts : List Tree} (ha : size ≤ a.id) (hlabel : label b = label a) :
    List.Forall₂ (Row.Repeats size) ((Tree.mk a closed ts).render s label false)
      ((Tree.mk b closed ts).render s label false) := by
  simp only [render, Bool.false_eq_true, if_false]
  refine .cons ⟨by rw [hlabel], fun hold => ?_⟩ (Row.forall₂_repeats_refl ..)
  exact absurd (hold a rfl) (Nat.not_lt.2 ha)

namespace Forest

variable {f g : Forest} {n p q : Nat} {k : Kind} {style : String} {spacing : Int} {s : Style}
  {label : Node → String}

theorem renderAll_buckets (b : Buckets) :
    f.renderAll b.toList s label
      = (f.tree b.classes).render s label false ++ .separator ::
        ((f.tree b.functions).render s label false ++ .separator ::
          (f.tree b.constants).render s label false) := by
  simp [renderAll, Buckets.toList]

section

variable (h : f.Owned) (hg : Extends f g)
  (hlabel : ∀ a b : Node, f.size ≤ a.id → f.size ≤ b.id → a.content = b.content → label a = label b)

include h hg hlabel

theorem Owned.repeats_bucket (hp : f.addBuckets.2.ofKind? k = some p)
    (hq : g.addBuckets.2.ofKind? k = some q) :
    List.Forall₂ (Row.Repeats f.size) (((f.bucketize n).1.tree p).render s label false)
      (((g.bucketize n).1.tree q).render s label false) := by
  have hp' : f.size ≤ p := (bucket_bounds hp).1
  have hq' : f.size ≤ q := hg.size.trans (bucket_bounds hq).1
  have hcell := (cell_bucket hq).trans (cell_bucket hp).symm
  have hclosed : g.addBuckets.1.closed q = f.addBuckets.1.closed p := congrArg Cell.closed hcell
  rw [h.tree_bucket hp, hg.owned.tree_bucket hq, hg.treesOfKind h, hclosed]
  exact Tree.repeats_render hp' (hlabel _ _ hq' hp' (congrArg Cell.content hcell))

/-- A navbar in the greater forest shows the same. -/
theorem Owned.repeats_navbar :
    List.Forall₂ (Row.Repeats f.size) ((f.bucketize n).1.renderAll f.addBuckets.2.toList s label)
      ((g.bucketize n).1.renderAll g.addBuckets.2.toList s label) := by
  have hsep := Row.Repeats.refl f.size .separator
  rw [renderAll_buckets, renderAll_buckets]
  refine List.rel_append (h.repeats_bucket hg hlabel (k := .classDef) rfl rfl) (.cons hsep ?_)
  refine List.rel_append (h.repeats_bucket hg hlabel (k := .function) rfl rfl) (.cons hsep ?_)
  exact h.repeats_bucket hg hlabel (k := .constant) rfl rfl

end

theorem Owned.repeats_renderAll (h : f.Owned)
    (hlabel : ∀ a b : Node, f.size ≤ a.id → f.size ≤ b.id → a.content = b.content →
      label a = label b) :
    List.Forall₂ (Row.Repeats f.size) ((f.bucketize n).1.renderAll f.addBuckets.2.toList s label)
      ((f.addBuckets.1.bucketize n).1.renderAll f.addBuckets.1.addBuckets.2.toList s label) :=
  h.repeats_navbar (Extends.refl h).addBuckets hlabel

/-- In a style that exists a navbar succeeds, whatever the kinds of the children and their order. It
keeps the children, the parent and the state of every node, and its buckets are empty afterwards. The
same navbar again has rows with the same texts, and with the same nodes where these are not
buckets. A label may tell all nodes of the forest apart, but must give newer ones with the same content
the same text. -/
theorem renderNavbar_repeatable (h : f.Reached) (hstyle : style ∈ Style.names)
    (hspacing : 0 ≤ spacing)
    (hlabel : ∀ a b : Node, f.size ≤ a.id → f.size ≤ b.id → a.content = b.content →
      label a = label b) :
    ∃ rows g, f.renderNavbar n style spacing label = (.ok rows, g) ∧ Unchanged f g ∧
      (∀ r ∈ rows, ∀ b, r.node? = some b → f.size ≤ b.id → g.children b.id = []) ∧
      ∃ rows' g', g.renderNavbar n style spacing label = (.ok rows', g') ∧
        List.Forall₂ (Row.Repeats f.size) rows rows' := by
  obtain ⟨s, hs⟩ := Style.exists_resolve hstyle hspacing
  refine ⟨_, _, h.owned.renderNavbar_eq hs, unchanged_addBuckets f, fun r _ b _ hb => ?_, _, _,
    h.owned.addBuckets.renderNavbar_eq hs, h.owned.repeats_renderAll hlabel⟩
  rw [children_addBuckets, children_of_size_le hb]

/-- A class with a method, a remark and a function below a root. -/
def interleaved : Forest :=
  let nodes := ((((empty.add (.declared (.synthetic "/")) false).add
    (.declared ⟨⟨"A", .classDef, 0⟩, 1⟩) true).add (.plain "remark") false).add
    (.declared ⟨⟨"g", .function, 0⟩, 4⟩) false).add (.declared ⟨⟨"f", .function, 2⟩, 2⟩) false
  (((nodes.append 1 4).append 0 1).append 0 2).append 0 3

theorem interleaved_reached : interleaved.Reached := by
  refine ((((((((Reached.empty.step (.create _ _) trivial).step (.create _ _) trivial).step
    (.create _ _) trivial).step (.create _ _) trivial).step
    (.create _ _) trivial).append_of_parentless (n := 1) (c := 4) ?_ ?_ ?_ ?_).append_of_parentless
    ?_ ?_ ?_ ?_).append_of_parentless ?_ ?_ ?_ ?_).append_of_parentless ?_ ?_ ?_ ?_
  all_goals decide

theorem renderNavbar_repeatable_interleaved :
    interleaved.Reached ∧ interleaved.children 0 = [1, 2, 3] ∧ "rounded" ∈ Style.names ∧
      ∃ rows g, interleaved.renderNavbar 0 "rounded" 1 Node.markedName = (.ok rows, g) ∧
        Unchanged interleaved g ∧
        (∀ r ∈ rows, ∀ b, r.node? = some b → interleaved.size ≤ b.id → g.children b.id = []) ∧
        ∃ rows' g', g.renderNavbar 0 "rounded" 1 Node.markedName = (.ok rows', g') ∧
          List.Forall₂ (Row.Repeats interleaved.size) rows rows' := by
  have hstyle : "rounded" ∈ Style.names := by decide
  refine ⟨interleaved_reached, by decide, hstyle,
    renderNavbar_repeatable interleaved_reached hstyle (by decide) fun a b _ _ hab => ?_⟩
  rw [Node.markedName, Node.markedName, Node.kind, Node.kind, Node.name, Node.name, hab]

end Forest

end Outliner
