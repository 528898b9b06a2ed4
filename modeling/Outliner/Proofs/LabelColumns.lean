import Outliner.Proofs.DrawnRows

/-!
# The columns of the labels

If all glyphs of a style have one width, each level of a tree takes up that width: what is drawn before the
label of a node is one glyph for its level and one for each level above it (`Style.Uniform.length_glyphsAt`).
All presets are such styles, and a style stays one when its glyphs are widened (`Style.Uniform.widen`).

In a navbar the buckets have level 0 and a node the level that it has below the node of the navbar
(`NavbarLevel`), so the same holds of its rows (`Owned.labelAt_of_mem_navbar`). The main statement is
`Style.Uniform.labels_in_columns`.
-/

namespace Outliner

/-! ### Styles of one width -/

theorem length_join_of_forall {xs : List String} {w : Nat} (h : ∀ x ∈ xs, x.length = w) :
    (String.join xs).length = w * xs.length := by
  rw [String.length_join, List.map_congr_left h, List.map_const', List.sum_replicate_nat, Nat.mul_comm]

namespace Style

variable {s : Style} {w : Nat}

/-- All glyphs of the style have `w` characters. -/
def Uniform (s : Style) (w : Nat) : Prop :=
  ∀ x ∈ s.glyphs, x.length = w

instance : Decidable (s.Uniform w) :=
  inferInstanceAs (Decidable (∀ x ∈ s.glyphs, x.length = w))

theorem uniform_of_mem_presets (hs : s ∈ presets) : ∃ w, 0 < w ∧ s.Uniform w := by
  simp only [presets, List.mem_cons, List.not_mem_nil, or_false] at hs
  rcases hs with rfl | rfl | rfl | rfl
  · exact ⟨3, by decide, by decide⟩
  · exact ⟨2, by decide, by decide⟩
  · exact ⟨3, by decide, by decide⟩
  · exact ⟨3, by decide, by decide⟩

theorem Uniform.widen (h : s.Uniform w) (n : Nat) : (s.widen n).Uniform (w + s.fill.length * n) := by
  intro x hx
  rw [glyphs_widen] at hx
  obtain ⟨y, hy, rfl⟩ := List.mem_map.1 hx
  have hfill : ∀ x ∈ List.replicate n s.fill, x.length = s.fill.length := fun x hx => by
    rw [List.eq_of_mem_replicate hx]
  rw [String.length_append, h y hy, length_join_of_forall hfill, List.length_replicate]

/-- One glyph for each level, the root's included if it is shown. -/
theorem Uniform.length_glyphsAt (h : s.Uniform w) {hideRoot : Bool} (t u : Tree) {path : List Nat}
    (hpath : hideRoot = true → path ≠ []) :
    (t.glyphsAt s hideRoot path u).length
      = w * if hideRoot then path.length else path.length + 1 := by
  unfold Tree.glyphsAt
  cases path with
  | nil =>
    have hshown : hideRoot = false := Bool.eq_false_of_not_eq_true fun hhide => hpath hhide rfl
    rw [if_pos rfl, h _ (s.pick_root_mem_glyphs u.fold), hshown]
    simp
  | cons i path =>
    obtain ⟨fillers, hlen, hfillers, hpadding⟩ := t.exists_fillers_paddingAt s (i :: path)
    obtain ⟨place, hplace⟩ := t.exists_leadAt_eq s hideRoot (i :: path)
    have hwidth : ∀ x ∈ fillers, x.length = w := by
      intro x hx
      rcases hfillers x hx with rfl | rfl
      · exact h _ s.link_mem_glyphs
      · exact h _ s.empty_mem_glyphs
    rw [if_neg (List.cons_ne_nil i path), hpadding, hplace, String.length_append, String.length_append,
      length_join_of_forall hwidth, hlen, h _ (s.pick_lead_mem_glyphs place u.fold), List.length_cons,
      Nat.add_sub_cancel]
    cases hideRoot with
    | true => simp [Nat.mul_add]
    | false =>
      simp only [if_false, Bool.false_eq_true, h _ s.empty_mem_glyphs, Nat.mul_add]
      omega

end Style

/-! ### Where a label starts -/

namespace Row

variable {label : Node → String} {row row' : Row} {c c' : Nat} {m m' : Node}

/-- The row shows `m`, and `c` characters stand before its label. -/
structure LabelAt (label : Node → String) (c : Nat) (m : Node) (row : Row) : Prop where
  node? : row.node? = some m
  text : ∃ before : String, before.length = c ∧ row.text = before ++ label m

/-- The labels of the two rows start in one column. -/
def Aligned (label : Node → String) (row row' : Row) : Prop :=
  ∃ c m m', row.LabelAt label c m ∧ row'.LabelAt label c m'

theorem LabelAt.unique (h : row.LabelAt label c m) (h' : row.LabelAt label c' m') : c = c' := by
  obtain rfl : m = m' := Option.some.inj (h.node?.symm.trans h'.node?)
  obtain ⟨before, rfl, htext⟩ := h.text
  obtain ⟨before', rfl, htext'⟩ := h'.text
  rw [(String.append_left_inj _).1 (htext.symm.trans htext')]

theorem LabelAt.aligned_iff (h : row.LabelAt label c m) (h' : row'.LabelAt label c' m') :
    row.Aligned label row' ↔ c = c' := by
  constructor
  · rintro ⟨d, _, _, hd, hd'⟩
    exact (h.unique hd).trans (hd'.unique h')
  · rintro rfl
    exact ⟨c, m, m', h, h'⟩

end Row

/-- The row for a visible node of `t` with its path. -/
def Tree.rowAt (s : Style) (label : Node → String) (hideRoot : Bool) (t : Tree) (v : List Nat × Tree) :
    Row :=
  ⟨t.textAt s label hideRoot v.1 v.2, some v.2.node⟩

theorem Style.Uniform.labelAt_rowAt {s : Style} {w : Nat} (h : s.Uniform w) (label : Node → String)
    {hideRoot : Bool} {t : Tree} {v : List Nat × Tree} (hv : v ∈ t.displayed hideRoot) :
    (t.rowAt s label hideRoot v).LabelAt label
      (w * if hideRoot then v.1.length else v.1.length + 1) v.2.node where
  node? := rfl
  text := ⟨t.glyphsAt s hideRoot v.1 v.2, h.length_glyphsAt t v.2 (Tree.mem_displayed.1 hv).2,
    t.textAt_eq s label hideRoot v.1 v.2⟩

/-- The rows of `t` are those of its displayed nodes. Their labels start after one width for each level, the
root's included if it is shown, and two labels start in one column exactly if the levels are the same. -/
structure Tree.Columns (s : Style) (label : Node → String) (hideRoot : Bool) (w : Nat) (t : Tree) :
    Prop where
  rows : t.render s label hideRoot = (t.displayed hideRoot).map (t.rowAt s label hideRoot)
  column : ∀ v ∈ t.displayed hideRoot, (t.rowAt s label hideRoot v).LabelAt label
    (w * if hideRoot then v.1.length else v.1.length + 1) v.2.node
  aligned : 0 < w → ∀ v ∈ t.displayed hideRoot, ∀ v' ∈ t.displayed hideRoot,
    ((t.rowAt s label hideRoot v).Aligned label (t.rowAt s label hideRoot v') ↔
      v.1.length = v'.1.length)

theorem Style.Uniform.columns {s : Style} {w : Nat} (h : s.Uniform w) (label : Node → String)
    (hideRoot : Bool) (t : Tree) : t.Columns s label hideRoot w where
  rows := t.render_eq s label hideRoot
  column _ hv := h.labelAt_rowAt label hv
  aligned hw v hv v' hv' := by
    rw [(h.labelAt_rowAt label hv).aligned_iff (h.labelAt_rowAt label hv'),
      Nat.mul_right_inj (Nat.ne_of_gt hw)]
    cases hideRoot with
    | true => exact Iff.rfl
    | false => exact Nat.add_left_inj

/-! ### The rows of a navbar -/

namespace Forest

variable {f : Forest} {n p : NodeId} {k : Kind} {l l' w : Nat} {m m' : Node} {s : Style}
  {label : Node → String} {row : Row}

/-- The level of a node that a navbar of `n` shows. -/
inductive NavbarLevel (f : Forest) (n : NodeId) : Nat → Node → Prop where
  | bucket {k : Kind} {p : NodeId} : f.addBuckets.2.ofKind? k = some p →
      NavbarLevel f n 0 (f.addBuckets.1.node p)
  | below {l : Nat} {m : NodeId} : m < f.size → f.AtLevel n l m → NavbarLevel f n l (f.node m)

theorem Owned.navbarLevel_unique (h : f.Owned) (hm : f.NavbarLevel n l m)
    (hm' : f.NavbarLevel n l' m') (hid : m.id = m'.id) : l = l' := by
  -- the id of a node that was read is the place that it was read from
  rcases hm with ⟨hp⟩ | ⟨hlt, hl⟩ <;> rcases hm' with ⟨hp'⟩ | ⟨hlt', hl'⟩
  · rfl
  · exact absurd (Nat.lt_of_le_of_lt (Nat.le_of_eq hid) hlt') (Nat.not_lt.2 (bucket_bounds hp).1)
  · exact absurd (Nat.lt_of_le_of_lt (Nat.le_of_eq hid.symm) hlt) (Nat.not_lt.2 (bucket_bounds hp').1)
  · cases hid
    have hdepth := (h.depth_of_atLevel hl).symm.trans (h.depth_of_atLevel hl')
    omega

theorem Owned.labelAt_of_mem_bucket (h : f.Owned) (hs : s.Uniform w)
    (hp : f.addBuckets.2.ofKind? k = some p)
    (hrow : row ∈ ((f.bucketize n).1.tree p).render s label false) :
    ∃ l m, f.NavbarLevel n l m ∧ row.LabelAt label (w * (l + 1)) m := by
  have hb := (h.kept_bucketize n).owned
  rw [Tree.render_eq] at hrow
  obtain ⟨v, hv, rfl⟩ := List.mem_map.1 hrow
  obtain ⟨m, hvm, hm⟩ := hb.exists_of_at? (Tree.mem_displayed.1 hv).1.at?_eq
  have hlabel := hs.labelAt_rowAt label hv
  rw [if_neg Bool.false_ne_true] at hlabel
  refine ⟨v.1.length, v.2.node, ?_, hlabel⟩
  rw [hvm, hb.node_tree]
  -- the bucket is new, and what lies below it has the level that it had below `n`
  by_cases hmp : m = p
  · subst hmp
    have hroot := hb.depth_of_atLevel hm
    have hzero : v.1.length = 0 := by omega
    have hnode : (f.bucketize n).1.node m = f.addBuckets.1.node m :=
      bucketize_keeps (·.node m) fun _ _ _ => node_append
    rw [hzero, hnode]
    exact .bucket hp
  · obtain ⟨hl, hmn⟩ := h.atLevel_of_bucket hp hm hmp
    have hlt : m < f.size := by
      rcases atLevel_iff_cases.1 hl with ⟨-, he⟩ | ⟨c, hc, l, -, hcm⟩
      · exact absurd he hmn
      · exact (h.above_of_atLevel hcm).lt_size (h.child_lt hc)
    rw [node_bucketize hlt]
    exact .below hlt hl

theorem Owned.labelAt_of_mem_navbar (h : f.Owned) (hs : s.Uniform w)
    (hrow : row ∈ (f.bucketize n).1.renderAll f.addBuckets.2.toList s label)
    (hnode : row.node? = some m) :
    ∃ l, f.NavbarLevel n l m ∧ row.LabelAt label (w * (l + 1)) m := by
  have hpart : ∀ k p, f.addBuckets.2.ofKind? k = some p →
      row ∈ ((f.bucketize n).1.tree p).render s label false →
        ∃ l, f.NavbarLevel n l m ∧ row.LabelAt label (w * (l + 1)) m := by
    intro k p hp hrow
    obtain ⟨l, m', hl, hlabel⟩ := h.labelAt_of_mem_bucket hs hp hrow
    obtain rfl : m' = m := Option.some.inj (hlabel.node?.symm.trans hnode)
    exact ⟨l, hl, hlabel⟩
  rw [renderAll_buckets] at hrow
  simp only [List.mem_append, List.mem_cons] at hrow
  rcases hrow with hrow | rfl | hrow | rfl | hrow
  · exact hpart .classDef _ rfl hrow
  · cases hnode
  · exact hpart .function _ rfl hrow
  · cases hnode
  · exact hpart .constant _ rfl hrow

/-- In the rows of a navbar of `n`, the label of a node at level `l` starts after `l + 1` widths, and two
labels start in one column exactly if their nodes have the same level. -/
structure NavbarColumns (f : Forest) (n : NodeId) (label : Node → String) (w : Nat) (rows : List Row) :
    Prop where
  level : ∀ row ∈ rows, ∀ m, row.node? = some m → ∃ l, f.NavbarLevel n l m
  column : ∀ row ∈ rows, ∀ m l, row.node? = some m → f.NavbarLevel n l m →
    row.LabelAt label (w * (l + 1)) m
  aligned : 0 < w → ∀ row ∈ rows, ∀ row' ∈ rows, ∀ m m' l l', row.node? = some m →
    row'.node? = some m' → f.NavbarLevel n l m → f.NavbarLevel n l' m' →
      (row.Aligned label row' ↔ l = l')

theorem Owned.navbarColumns (h : f.Owned) (hs : s.Uniform w) (n : NodeId) (label : Node → String) :
    f.NavbarColumns n label w ((f.bucketize n).1.renderAll f.addBuckets.2.toList s label) := by
  have hcolumn : ∀ row ∈ (f.bucketize n).1.renderAll f.addBuckets.2.toList s label, ∀ m l,
      row.node? = some m → f.NavbarLevel n l m → row.LabelAt label (w * (l + 1)) m := by
    intro row hrow m l hnode hl
    obtain ⟨l', hl', hlabel⟩ := h.labelAt_of_mem_navbar hs hrow hnode
    rwa [h.navbarLevel_unique hl hl' rfl]
  constructor
  · intro row hrow m hnode
    obtain ⟨l, hl, -⟩ := h.labelAt_of_mem_navbar hs hrow hnode
    exact ⟨l, hl⟩
  · exact hcolumn
  · intro hw row hrow row' hrow' m m' l l' hnode hnode' hl hl'
    rw [(hcolumn row hrow m l hnode hl).aligned_iff (hcolumn row' hrow' m' l' hnode' hl'),
      Nat.mul_right_inj (Nat.ne_of_gt hw), Nat.add_left_inj]

end Forest

/-- Let all glyphs of a style have one width, as they have in all presets. With `spacing` more fills behind
each glyph, what stands before the label of a row takes up the new width once for each level, the root's
included if it is shown. In a navbar it is the width for a bucket and one more for each level below the
node of the navbar. If that width is not zero, the labels of two rows of one rendering start in one column
exactly if their nodes have the same level. -/
theorem Style.Uniform.labels_in_columns {s : Style} {g : Nat} (hs : s.Uniform g) {spacing : Int}
    (hspacing : 0 ≤ spacing) (label : Node → String) :
    (∀ p ∈ Style.presets, ∃ w, 0 < w ∧ p.Uniform w) ∧
    ∃ s', s.padded spacing = .ok s' ∧
      let w := g + s.fill.length * spacing.toNat
      (∀ (t : Tree) (hideRoot : Bool), t.Columns s' label hideRoot w) ∧
      ∀ (f : Forest) (n : NodeId) (style : String), f.Reached → Style.preset? style = some s →
        ∃ rows f', f.renderNavbar n style spacing label = (.ok rows, f') ∧
          f.NavbarColumns n label w rows := by
  have hw := hs.widen spacing.toNat
  have hpadded : s.padded spacing = .ok (s.widen spacing.toNat) := by
    rw [padded, if_neg (Int.not_lt.2 hspacing)]
  refine ⟨fun p => uniform_of_mem_presets, _, hpadded, fun t hideRoot => hw.columns label hideRoot t,
    fun f n style h hstyle => ?_⟩
  have hresolve : resolve style spacing = .ok (s.widen spacing.toNat) := by
    rw [resolve, hstyle]
    exact hpadded
  exact ⟨_, _, h.owned.renderNavbar_eq hresolve, h.owned.navbarColumns hw n label⟩

/-- A class below the first bucket, with one more blank behind each glyph. -/
theorem Style.Uniform.labels_in_columns_class :
    Style.box.Uniform 3 ∧ (0 : Int) ≤ 1 ∧ ∃ s', Style.box.padded 1 = .ok s' ∧
      (∀ (t : Tree) (hideRoot : Bool), t.Columns s' Node.markedName hideRoot 4) ∧
      ∃ rows f', Forest.interleaved.renderNavbar 0 "box" 1 Node.markedName = (.ok rows, f') ∧
        ∃ row, rows[1]? = some row ∧
          row.LabelAt Node.markedName 8 (Forest.interleaved.node 1) := by
  have hbox : Style.box.Uniform 3 := by decide
  obtain ⟨-, s', hs', htree, hnavbar⟩ :=
    hbox.labels_in_columns (by decide : (0 : Int) ≤ 1) Node.markedName
  obtain ⟨rows, f', hrows, hcolumns⟩ :=
    hnavbar Forest.interleaved 0 "box" Forest.interleaved_reached (by decide)
  have hnode : (Forest.interleaved.renderNavbar 0 "box" 1 Node.markedName).1.map
      (·[1]?.bind Row.node?) = .ok (some (Forest.interleaved.node 1)) := by decide +kernel
  rw [hrows] at hnode
  obtain ⟨row, hrow, hnode⟩ := Option.bind_eq_some_iff.1 (Except.ok.inj hnode)
  have hlevel : Forest.interleaved.NavbarLevel 0 1 (Forest.interleaved.node 1) :=
    .below (by decide) (.child .root (by decide))
  exact ⟨hbox, by decide, s', hs', htree, rows, f', hrows, row, hrow,
    hcolumns.column row (List.mem_of_getElem? hrow) _ 1 hnode hlevel⟩

end Outliner
