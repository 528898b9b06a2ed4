import Outliner.Proofs.Glyphs
import Outliner.Proofs.Levels
import Outliner.Proofs.NavbarRows

/-!
# How deep a row is drawn

A row that shows a node below the root has a filler for each level above the node, then a lead that tells
whether the node is a leaf, open or closed, and then the label (`Row.Drawn`). For a tree on its own the levels
count from its root (`Owned.drawn_of_mem_render`). In a navbar they count from the buckets, which stand where
the root stood, so a node has the same level there (`Owned.drawn_of_mem_navbar`).
-/

namespace Outliner

/-- The row shows `m`: it has `k` fillers, a lead for `fold` and the label. -/
structure Row.Drawn (s : Style) (label : Node → String) (k : Nat) (fold : Fold) (m : Node) (row : Row) :
    Prop where
  node? : row.node? = some m
  text : ∃ (fillers : List String) (place : Place), fillers.length = k ∧
    (∀ x ∈ fillers, x = s.link ∨ x = s.empty) ∧
    row.text = String.join fillers ++ (s.lead place).pick fold ++ label m

namespace Tree

variable {s : Style} {t u : Tree} {path : List Nat}

theorem exists_fillers_paddingAt (s : Style) (t : Tree) (path : List Nat) :
    ∃ fillers : List String, fillers.length = path.length - 1 ∧
      (∀ x ∈ fillers, x = s.link ∨ x = s.empty) ∧ t.paddingAt s path = String.join fillers := by
  refine ⟨_, ?_, ?_, rfl⟩
  · simp
  · intro x hx
    obtain ⟨i, -, rfl⟩ := List.mem_map.1 hx
    split
    · exact .inr rfl
    · exact .inl rfl

/-- A root that is shown takes up one level. -/
theorem drawn_textAt (s : Style) (label : Node → String) (hideRoot : Bool) (t : Tree) (u : Tree)
    (hpath : path ≠ []) :
    Row.Drawn s label (if hideRoot then path.length - 1 else path.length) u.fold u.node
      ⟨t.textAt s label hideRoot path u, some u.node⟩ := by
  obtain ⟨fillers, hlen, hfillers, hpadding⟩ := t.exists_fillers_paddingAt s path
  obtain ⟨place, hplace⟩ := t.exists_leadAt_eq s hideRoot path
  have hpos : 0 < path.length := List.length_pos_iff.2 hpath
  refine ⟨rfl, ?_⟩
  rw [textAt, if_neg hpath, hpadding, hplace]
  cases hideRoot with
  | true => exact ⟨fillers, place, hlen, hfillers, by simp⟩
  | false =>
    refine ⟨s.empty :: fillers, place, ?_, ?_, by simp [String.join_cons]⟩
    · rw [List.length_cons, hlen, if_neg Bool.false_ne_true]
      omega
    · intro x hx
      rcases List.mem_cons.1 hx with rfl | hx
      · exact .inr rfl
      · exact hfillers x hx

end Tree

namespace Forest

variable {f : Forest} {c m n p r : NodeId} {k : Kind} {l : Nat} {path : List Nat} {t : Tree}
  {s : Style} {label : Node → String} {row : Row} {hideRoot : Bool}

theorem Owned.exists_of_at? (h : f.Owned) (hat : (f.tree r).at? path = some t) :
    ∃ m, t = f.tree m ∧ f.AtLevel r path.length m := by
  induction path generalizing r with
  | nil => exact ⟨r, (Option.some.inj hat).symm, .root⟩
  | cons i path ih =>
    rw [Tree.at?, h.children_tree, List.getElem?_map, Option.bind_map, Option.bind_eq_some_iff] at hat
    obtain ⟨c, hc, hat⟩ := hat
    obtain ⟨m, rfl, hm⟩ := ih hat
    exact ⟨m, rfl, hm.of_child (List.mem_of_getElem? hc)⟩

theorem Owned.drawn_of_mem_render (h : f.Owned) (hrow : row ∈ (f.tree r).render s label hideRoot)
    (hnode : row.node? = some (f.node m)) (hne : m ≠ r) :
    ∃ l, f.AtLevel r l m ∧
      row.Drawn s label (if hideRoot then l - 1 else l) (f.tree m).fold (f.node m) := by
  rw [Tree.render_eq] at hrow
  obtain ⟨⟨path, u⟩, hv, rfl⟩ := List.mem_map.1 hrow
  obtain ⟨m', rfl, hm⟩ := h.exists_of_at? (Tree.mem_displayed.1 hv).1.at?_eq
  obtain rfl : m' = m := by
    have hid := congrArg Node.id (Option.some.inj hnode)
    rwa [h.node_tree] at hid
  have hpath : path ≠ [] := by
    rintro rfl
    cases hm
    exact hne rfl
  refine ⟨path.length, hm, ?_⟩
  rw [← h.node_tree]
  exact Tree.drawn_textAt s label hideRoot _ _ hpath

/-! ### In a navbar -/

theorem Owned.atLevel_bucketize (h : f.Owned) (hc : c ∈ f.children n)
    (hl : (f.bucketize n).1.AtLevel c l m) : f.AtLevel c l m := by
  induction hl with
  | root => exact .root
  | @child l p m _ hm ih =>
    have hcp := h.above_of_atLevel ih
    have hne : p ≠ n := fun he => h.not_above_of_mem hc (he ▸ hcp)
    rw [h.children_bucketize_of_ne (hcp.lt_size (h.child_lt hc)) hne] at hm
    exact .child ih hm

theorem Owned.atLevel_of_bucket (h : f.Owned) (hp : f.addBuckets.2.ofKind? k = some p)
    (hl : (f.bucketize n).1.AtLevel p l m) (hne : m ≠ p) : f.AtLevel n l m ∧ m ≠ n := by
  rcases atLevel_iff_cases.1 hl with ⟨-, rfl⟩ | ⟨c, hc, l, rfl, hcm⟩
  · exact absurd rfl hne
  · rw [h.children_bucket hp] at hc
    have hc := List.mem_of_mem_filter hc
    have hcm := h.atLevel_bucketize hc hcm
    exact ⟨hcm.of_child hc, fun he => h.not_above_of_mem hc (he ▸ h.above_of_atLevel hcm)⟩

theorem Owned.drawn_of_mem_bucket (h : f.Owned) (hp : f.addBuckets.2.ofKind? k = some p)
    (hrow : row ∈ ((f.bucketize n).1.tree p).render s label false)
    (hnode : row.node? = some (f.node m)) (hm : m < f.size) :
    ∃ l, f.AtLevel n l m ∧ row.Drawn s label l (f.tree m).fold (f.node m) := by
  have hb := (h.kept_bucketize n).owned
  have hmp : m ≠ p := Nat.ne_of_lt (Nat.lt_of_lt_of_le hm (bucket_bounds hp).1)
  rw [← node_bucketize (n := n) hm] at hnode ⊢
  obtain ⟨l, hl, hdrawn⟩ := hb.drawn_of_mem_render hrow hnode hmp
  obtain ⟨hl, hmn⟩ := h.atLevel_of_bucket hp hl hmp
  have hfold : ((f.bucketize n).1.tree m).fold = (f.tree m).fold := by
    rw [hb.fold_tree, h.fold_tree, h.children_bucketize_of_ne hm hmn, closed_bucketize hm]
  exact ⟨l, hl, hfold ▸ hdrawn⟩

theorem Owned.drawn_of_mem_navbar (h : f.Owned)
    (hrow : row ∈ (f.bucketize n).1.renderAll f.addBuckets.2.toList s label)
    (hnode : row.node? = some (f.node m)) (hm : m < f.size) :
    ∃ l, f.AtLevel n l m ∧ row.Drawn s label l (f.tree m).fold (f.node m) := by
  rw [renderAll_buckets] at hrow
  simp only [List.mem_append, List.mem_cons] at hrow
  rcases hrow with hrow | rfl | hrow | rfl | hrow
  · exact h.drawn_of_mem_bucket (k := .classDef) rfl hrow hnode hm
  · cases hnode
  · exact h.drawn_of_mem_bucket (k := .function) rfl hrow hnode hm
  · cases hnode
  · exact h.drawn_of_mem_bucket (k := .constant) rfl hrow hnode hm

end Forest

end Outliner
