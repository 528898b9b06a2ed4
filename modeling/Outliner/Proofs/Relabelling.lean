import Outliner.Proofs.Glyphs
import Outliner.Proofs.NavbarRows

/-!
# The same rows under another label

A label changes nothing in a view but the end of each text: whatever it is, the rows show the same nodes
behind the same margins (`Row.Relabelled`, `relabelled_viewRowsIn`). A margin is made of the glyphs of a
preset, so it has no escape character in it and is on one line (`Style.clean_glyphs`). The names in a view
are those of the tree and of the buckets (`Owned.clean_of_mem_viewRowsIn`).
-/

namespace Outliner

/-! ### Plain text on one line -/

/-- There is neither an escape character nor a line feed in the text. -/
def Clean (s : String) : Prop :=
  ∀ c ∈ s.toList, c ≠ '\x1b' ∧ c ≠ '\n'

instance : DecidablePred Clean := fun s =>
  List.decidableBAll (fun c => c ≠ '\x1b' ∧ c ≠ '\n') s.toList

namespace Clean

variable {s t : String}

theorem escape (h : Clean s) : '\x1b' ∉ s.toList := fun hc => (h _ hc).1 rfl

theorem newline (h : Clean s) : '\n' ∉ s.toList := fun hc => (h _ hc).2 rfl

theorem append (hs : Clean s) (ht : Clean t) : Clean (s ++ t) := by
  intro c hc
  rw [String.toList_append, List.mem_append] at hc
  exact hc.elim (hs c) (ht c)

theorem join {ss : List String} (h : ∀ s ∈ ss, Clean s) : Clean (String.join ss) := by
  intro c hc
  rw [String.toList_join, List.mem_flatMap] at hc
  obtain ⟨s, hs, hc⟩ := hc
  exact h s hs c hc

end Clean

theorem clean_marker (k : Kind) : Clean k.marker := by
  cases k <;> decide

theorem Style.clean_glyphs {s : Style} {style : String} {spacing : Int}
    (hs : resolve style spacing = .ok s) : ∀ g ∈ s.glyphs, Clean g := by
  have hpresets : ∀ p ∈ presets, Clean p.fill ∧ ∀ g ∈ p.glyphs, Clean g := by decide
  obtain ⟨p, hp, rfl⟩ := exists_preset_of_resolve hs
  obtain ⟨hfill, hglyphs⟩ := hpresets p hp
  rw [glyphs_widen, List.forall_mem_map]
  intro g hg
  exact (hglyphs g hg).append (.join fun x hx => List.eq_of_mem_replicate hx ▸ hfill)

theorem Tree.clean_glyphsAt {s : Style} (hs : ∀ g ∈ s.glyphs, Clean g) (hideRoot : Bool) (t : Tree)
    (path : List Nat) (u : Tree) : Clean (t.glyphsAt s hideRoot path u) := by
  intro c hc
  obtain ⟨g, hg, hc⟩ := exists_glyph_of_mem hc
  exact hs g hg c hc

/-! ### Rows under two labels -/

/-- Two rows that differ in the label only: both are separators, or they show one node behind one margin. -/
inductive Row.Relabelled (label label' : Node → String) : Row → Row → Prop where
  | separator : Relabelled label label' .separator .separator
  | node (margin : String) (n : Node) (hmargin : Clean margin) :
      Relabelled label label' ⟨margin ++ label n, some n⟩ ⟨margin ++ label' n, some n⟩

theorem Row.Relabelled.node?_eq {label label' : Node → String} {r r' : Row}
    (h : Relabelled label label' r r') : r.node? = r'.node? := by
  cases h <;> rfl

theorem Row.map_node?_eq {label label' : Node → String} {rows rows' : List Row}
    (h : List.Forall₂ (Relabelled label label') rows rows') :
    rows.map Row.node? = rows'.map Row.node? := by
  induction h with
  | nil => rfl
  | cons hr _ ih => rw [List.map_cons, List.map_cons, hr.node?_eq, ih]

theorem Row.Relabelled.clean_text {label label' : Node → String} {r r' : Row}
    (h : Relabelled label label' r r') (hlabel : ∀ n, r.node? = some n → Clean (label' n)) :
    Clean r'.text := by
  cases h with
  | separator => decide
  | node margin n hmargin => exact hmargin.append (hlabel n rfl)

theorem Tree.relabelled_render {s : Style} (hs : ∀ g ∈ s.glyphs, Clean g) (label label' : Node → String)
    (hideRoot : Bool) (t : Tree) :
    List.Forall₂ (Row.Relabelled label label') (t.render s label hideRoot)
      (t.render s label' hideRoot) := by
  rw [render_eq, render_eq, List.forall₂_map_left_iff, List.forall₂_map_right_iff, List.forall₂_same]
  intro v _
  rw [textAt_eq, textAt_eq]
  exact .node _ _ (clean_glyphsAt hs hideRoot t v.1 v.2)

/-! ### Views -/

/-- A tree is shown flat, with or without its root, or as a navbar. -/
inductive View where
  | flat (hideRoot : Bool)
  | navbar

namespace Forest

variable {f : Forest} {n : NodeId} {style : String} {spacing : Int} {s : Style}
  {label label' : Node → String} {view : View} {r : Row} {m : Node}

/-- The rows that show `n`, or the error in the style. -/
def viewRows (f : Forest) (n : NodeId) (view : View) (style : String) (spacing : Int)
    (label : Node → String) : Except StyleError (List Row) :=
  match view with
  | .flat hideRoot => (Style.resolve style spacing).map fun s => (f.tree n).render s label hideRoot
  | .navbar => (f.renderNavbar n style spacing label).1

/-- The rows that show `n` in a style that is resolved. -/
def viewRowsIn (f : Forest) (n : NodeId) (s : Style) (label : Node → String) : View → List Row
  | .flat hideRoot => (f.tree n).render s label hideRoot
  | .navbar => (f.bucketize n).1.renderAll f.addBuckets.2.toList s label

theorem Owned.viewRows_eq (h : f.Owned) (hs : Style.resolve style spacing = .ok s) :
    f.viewRows n view style spacing label = .ok (f.viewRowsIn n s label view) := by
  cases view with
  | flat hideRoot =>
    rw [viewRows, hs]
    rfl
  | navbar => exact congrArg Prod.fst (h.renderNavbar_eq hs)

theorem relabelled_viewRowsIn (hs : ∀ g ∈ s.glyphs, Clean g) (label label' : Node → String) :
    List.Forall₂ (Row.Relabelled label label') (f.viewRowsIn n s label view)
      (f.viewRowsIn n s label' view) := by
  cases view with
  | flat hideRoot => exact Tree.relabelled_render hs label label' hideRoot _
  | navbar =>
    have hbucket := Tree.relabelled_render hs label label' false
    rw [viewRowsIn, viewRowsIn, renderAll_buckets, renderAll_buckets]
    exact List.rel_append (hbucket _) (.cons .separator
      (List.rel_append (hbucket _) (.cons .separator (hbucket _))))

theorem Owned.walk_subset (h : f.Owned) {c : NodeId} (hc : c ∈ f.children n) :
    f.walk c ⊆ f.walk n := by
  rw [h.walk_eq n]
  exact fun m hm => List.mem_cons_of_mem n (List.mem_flatMap.2 ⟨c, hc, hm⟩)

theorem clean_name_bucket {k : Kind} {p : NodeId} (hp : f.addBuckets.2.ofKind? k = some p) :
    Clean (f.addBuckets.1.node p).name := by
  rw [Node.name, node, cell_bucket hp]
  show Clean (bucketName k)
  cases k <;> decide

/-- The names in a view are those of the tree and of the buckets. -/
theorem Owned.clean_of_mem_viewRowsIn (h : f.Owned) (hclean : ∀ m ∈ f.walk n, Clean (f.node m).name)
    (hr : r ∈ f.viewRowsIn n s label view) (hm : r.node? = some m) : Clean m.name := by
  cases view with
  | flat hideRoot =>
    have hnode := List.mem_map_of_mem (f := Row.node?) hr
    rw [viewRowsIn, h.map_node?_render, hm] at hnode
    obtain ⟨i, hi, hi'⟩ := List.mem_map.1 hnode
    cases hi'
    refine hclean i ((h.shown_sublist_walk n).subset ?_)
    split at hi
    · exact List.mem_of_mem_tail hi
    · exact hi
  | navbar =>
    rcases h.node?_of_mem_navbar hr with hnone | ⟨k, p, hp, hbucket⟩ | ⟨c, hc, i, hi, hnode⟩
    · cases hm.symm.trans hnone
    · cases hm.symm.trans hbucket
      exact clean_name_bucket hp
    · cases hm.symm.trans hnode
      have hc := (mem_bucketed.1 hc).1
      exact hclean i (h.walk_subset hc ((h.shown_sublist_walk c).subset hi))

end Forest

end Outliner
