import Outliner.Proofs.Glyphs

/-!
# Reading a tree off its rows

In a legible style the padding, the lead and the label of a row can be told apart, whatever the label is:
all glyphs below the root have one width, no lead is a filler, and a lead shows whether its node is a
leaf, open or closed (`Style.Legible`). So the text of a row gives the level, the state and the label of
its node (`Style.Legible.textAt_inj`).

What is visible of a tree is its `Sketch`. The levels of its nodes in pre-order determine it
(`Sketch.levelsAll_append_inj`), so the texts of the rows do (`render_faithful`).
-/

namespace Outliner

/-! ### Legible styles -/

instance {p : Fold → Prop} [DecidablePred p] : Decidable (∀ fold, p fold) :=
  decidable_of_iff (p .leaf ∧ p .opened ∧ p .closed)
    ⟨fun h fold => by cases fold <;> simp [h], fun h => ⟨h _, h _, h _⟩⟩

instance {p : Place → Prop} [DecidablePred p] : Decidable (∀ place, p place) :=
  decidable_of_iff (p .last ∧ p .first ∧ p .nth)
    ⟨fun h place => by cases place <;> simp [h], fun h => ⟨h _, h _, h _⟩⟩

namespace Style

/-- The leads and fillers of the style can be told apart, and a lead shows the state of its node. -/
structure Legible (s : Style) : Prop where
  link_width : s.link.length = s.empty.length
  lead_width : ∀ place fold, ((s.lead place).pick fold).length = s.empty.length
  lead_ne : ∀ place fold, (s.lead place).pick fold ≠ s.link ∧ (s.lead place).pick fold ≠ s.empty
  fold_eq : ∀ place place' fold fold',
    (s.lead place).pick fold = (s.lead place').pick fold' → fold = fold'
  root_width : ∀ fold, (s.root.pick fold).length = s.root.leaf.length
  root_fold_eq : ∀ fold fold', s.root.pick fold = s.root.pick fold' → fold = fold'

instance : DecidablePred Legible := fun _ =>
  decidable_of_iff (_ ∧ _ ∧ _ ∧ _ ∧ _ ∧ _)
    ⟨fun ⟨h₁, h₂, h₃, h₄, h₅, h₆⟩ => ⟨h₁, h₂, h₃, h₄, h₅, h₆⟩,
      fun h => ⟨h.1, h.2, h.3, h.4, h.5, h.6⟩⟩

theorem legible_ascii : ascii.Legible := by decide

theorem legible_box : box.Legible := by decide

theorem legible_rounded : rounded.Legible := by decide

-- the lead of a leaf is a filler here
example : ¬ bare.Legible := by decide

variable {s : Style} {place : Place} {fold : Fold} {n : Nat}

theorem pick_lead_widen :
    ((s.widen n).lead place).pick fold
      = (s.lead place).pick fold ++ String.join (List.replicate n s.fill) := by
  cases place <;> cases fold <;> rfl

theorem pick_root_widen :
    (s.widen n).root.pick fold
      = s.root.pick fold ++ String.join (List.replicate n s.fill) := by
  cases fold <;> rfl

/-- Wider glyphs are as legible as narrow ones. -/
theorem Legible.widen (h : s.Legible) (n : Nat) : (s.widen n).Legible where
  link_width := by
    show (s.link ++ _).length = (s.empty ++ _).length
    rw [String.length_append, String.length_append, h.link_width]
  lead_width place fold := by
    show _ = (s.empty ++ _).length
    rw [pick_lead_widen, String.length_append, String.length_append, h.lead_width]
  lead_ne place fold := by
    show _ ≠ s.link ++ _ ∧ _ ≠ s.empty ++ _
    rw [pick_lead_widen, Ne, String.append_left_inj, Ne, String.append_left_inj]
    exact h.lead_ne place fold
  fold_eq place place' fold fold' heq := by
    rw [pick_lead_widen, pick_lead_widen, String.append_left_inj] at heq
    exact h.fold_eq _ _ _ _ heq
  root_width fold := by
    show _ = (s.root.leaf ++ _).length
    rw [pick_root_widen, String.length_append, String.length_append, h.root_width]
  root_fold_eq fold fold' heq := by
    rw [pick_root_widen, pick_root_widen, String.append_left_inj] at heq
    exact h.root_fold_eq _ _ heq

theorem exists_resolve_legible {name : String} {spacing : Int}
    (hname : name ∈ ["ascii", "box", "rounded"]) (hspacing : 0 ≤ spacing) :
    ∃ s, resolve name spacing = .ok s ∧ s.Legible := by
  have hpadded : ∀ s : Style, s.padded spacing = .ok (s.widen spacing.toNat) := fun s =>
    if_neg (Int.not_lt.2 hspacing)
  simp only [List.mem_cons, List.not_mem_nil, or_false] at hname
  rcases hname with rfl | rfl | rfl
  · exact ⟨_, hpadded ascii, legible_ascii.widen _⟩
  · exact ⟨_, hpadded box, legible_box.widen _⟩
  · exact ⟨_, hpadded rounded, legible_rounded.widen _⟩

/-! ### Reading a row -/

theorem append_inj_of_length {a b x y : String} (h : a ++ x = b ++ y)
    (hlen : a.length = b.length) : a = b ∧ x = y := by
  rw [← String.toList_inj, String.toList_append, String.toList_append] at h
  obtain ⟨hab, hxy⟩ := List.append_inj h (by rwa [String.length_toList, String.length_toList])
  exact ⟨String.toList_inj.1 hab, String.toList_inj.1 hxy⟩

variable {place' : Place} {fold' : Fold} {xs ys : List String} {a b : String}

/-- The fillers before a lead are known by their width, and the lead ends them. -/
theorem Legible.join_inj (h : s.Legible) (hxs : ∀ x ∈ xs, x = s.link ∨ x = s.empty)
    (hys : ∀ y ∈ ys, y = s.link ∨ y = s.empty)
    (heq : String.join xs ++ ((s.lead place).pick fold ++ a)
      = String.join ys ++ ((s.lead place').pick fold' ++ b)) :
    xs.length = ys.length ∧ fold = fold' ∧ a = b := by
  have filler_width : ∀ x, x = s.link ∨ x = s.empty → x.length = s.empty.length := by
    rintro x (rfl | rfl)
    · exact h.link_width
    · rfl
  have lead_ne : ∀ place fold x, x = s.link ∨ x = s.empty → (s.lead place).pick fold ≠ x := by
    rintro place fold x (rfl | rfl)
    · exact (h.lead_ne place fold).1
    · exact (h.lead_ne place fold).2
  induction xs generalizing ys with
  | nil =>
    cases ys with
    | nil =>
      rw [String.join_nil, String.empty_append, String.empty_append] at heq
      have hwidth := (h.lead_width place fold).trans (h.lead_width place' fold').symm
      obtain ⟨hlead, hab⟩ := append_inj_of_length heq hwidth
      exact ⟨rfl, h.fold_eq _ _ _ _ hlead, hab⟩
    | cons y ys =>
      have hy := hys y List.mem_cons_self
      rw [String.join_nil, String.empty_append, String.join_cons, String.append_assoc] at heq
      have hwidth := (h.lead_width place fold).trans (filler_width y hy).symm
      exact absurd (append_inj_of_length heq hwidth).1 (lead_ne place fold y hy)
  | cons x xs ih =>
    have hx := hxs x List.mem_cons_self
    cases ys with
    | nil =>
      rw [String.join_nil, String.empty_append, String.join_cons, String.append_assoc] at heq
      have hwidth := (filler_width x hx).trans (h.lead_width place' fold').symm
      exact absurd (append_inj_of_length heq hwidth).1.symm (lead_ne place' fold' x hx)
    | cons y ys =>
      have hy := hys y List.mem_cons_self
      rw [String.join_cons, String.append_assoc, String.join_cons, String.append_assoc] at heq
      have hwidth := (filler_width x hx).trans (filler_width y hy).symm
      obtain ⟨hlen, hfold, hab⟩ := ih (fun z hz => hxs z (List.mem_cons_of_mem x hz))
        (fun z hz => hys z (List.mem_cons_of_mem y hz)) (append_inj_of_length heq hwidth).2
      exact ⟨congrArg (· + 1) hlen, hfold, hab⟩

end Style

section Rows

variable {s : Style} {label : Node → String} {hideRoot : Bool} {t t' u u' : Tree}
  {path path' : List Nat}

/-- The row of a node below the root tells its level, its state and its label. -/
theorem Style.Legible.textAt_inj (h : s.Legible) (hpath : path ≠ []) (hpath' : path' ≠ [])
    (heq : t.textAt s label hideRoot path u = t'.textAt s label hideRoot path' u') :
    path.length = path'.length ∧ u.fold = u'.fold ∧ label u.node = label u'.node := by
  obtain ⟨place, hplace⟩ := t.exists_leadAt_eq s hideRoot path
  obtain ⟨place', hplace'⟩ := t'.exists_leadAt_eq s hideRoot path'
  have hfillers : ∀ (t : Tree) (path : List Nat),
      ∀ x ∈ (List.range' 1 (path.length - 1)).map fun i =>
        if t.isLast (path.take i) then s.empty else s.link, x = s.link ∨ x = s.empty := by
    intro t path x hx
    obtain ⟨i, -, rfl⟩ := List.mem_map.1 hx
    split
    · exact .inr rfl
    · exact .inl rfl
  rw [Tree.textAt, if_neg hpath, Tree.textAt, if_neg hpath', hplace, hplace'] at heq
  simp only [String.append_assoc, String.append_right_inj, Tree.paddingAt] at heq
  obtain ⟨hlen, hfold, hlabel⟩ := h.join_inj (hfillers t path) (hfillers t' path') heq
  rw [List.length_map, List.length_range', List.length_map, List.length_range'] at hlen
  have hpos := List.length_pos_iff.2 hpath
  have hpos' := List.length_pos_iff.2 hpath'
  exact ⟨by omega, hfold, hlabel⟩

theorem Style.Legible.textAt_root_inj (h : s.Legible)
    (heq : t.textAt s label hideRoot [] u = t'.textAt s label hideRoot [] u') :
    u.fold = u'.fold ∧ label u.node = label u'.node := by
  rw [Tree.textAt, if_pos rfl, Tree.textAt, if_pos rfl] at heq
  have hwidth := (h.root_width u.fold).trans (h.root_width u'.fold).symm
  obtain ⟨hroot, hlabel⟩ := Style.append_inj_of_length heq hwidth
  exact ⟨h.root_fold_eq _ _ hroot, hlabel⟩

end Rows

/-! ### What is visible of a tree -/

/-- The visible part of a tree: the label and the state of each node. A closed node shows no
children. -/
inductive Sketch where
  | mk (label : String) (fold : Fold) (children : List Sketch)

namespace Sketch

def children : Sketch → List Sketch
  | mk _ _ children => children

mutual

/-- The nodes in pre-order with their levels, where the sketch itself has the level `d`. -/
def levels (d : Nat) : Sketch → List (Nat × Fold × String)
  | mk label fold children => (d, fold, label) :: levelsAll (d + 1) children

def levelsAll (d : Nat) : List Sketch → List (Nat × Fold × String)
  | [] => []
  | x :: xs => levels d x ++ levelsAll d xs

end

/-- The list does not go on at the level `d` or deeper. -/
def EndsAbove (d : Nat) (r : List (Nat × Fold × String)) : Prop :=
  ∀ e ∈ r.head?, e.1 < d

theorem head?_levels (x : Sketch) (d : Nat) (r : List (Nat × Fold × String)) :
    ∃ e, (x.levels d ++ r).head? = some e ∧ e.1 = d := by
  cases x
  exact ⟨_, rfl, rfl⟩

theorem EndsAbove.levelsAll_append {d : Nat} {r : List (Nat × Fold × String)} (h : EndsAbove d r)
    (xs : List Sketch) : EndsAbove (d + 1) (levelsAll d xs ++ r) := by
  intro e he
  cases xs with
  | nil => exact Nat.lt_succ_of_lt (h e he)
  | cons x xs =>
    rw [levelsAll, List.append_assoc] at he
    obtain ⟨e', he', hd⟩ := head?_levels x d (levelsAll d xs ++ r)
    cases he'.symm.trans he
    omega

mutual

/-- The nodes of a sketch end where the level falls back to its own. -/
theorem levels_append_inj : ∀ (x y : Sketch) (d : Nat) (r r' : List (Nat × Fold × String)),
    EndsAbove (d + 1) r → EndsAbove (d + 1) r' → x.levels d ++ r = y.levels d ++ r' →
      x = y ∧ r = r'
  | mk label fold xs, mk label' fold' ys, d, r, r', hr, hr', h => by
    rw [levels, levels, List.cons_append, List.cons_append, List.cons.injEq] at h
    obtain ⟨hown, hbelow⟩ := h
    obtain ⟨rfl, hrest⟩ := levelsAll_append_inj xs ys (d + 1) r r' hr hr' hbelow
    cases hown
    exact ⟨rfl, hrest⟩

theorem levelsAll_append_inj : ∀ (xs ys : List Sketch) (d : Nat) (r r' : List (Nat × Fold × String)),
    EndsAbove d r → EndsAbove d r' → levelsAll d xs ++ r = levelsAll d ys ++ r' → xs = ys ∧ r = r'
  | [], [], _, _, _, _, _, h => ⟨rfl, h⟩
  | [], y :: ys, d, r, r', hr, _, h => by
    simp only [levelsAll, List.nil_append, List.append_assoc] at h
    obtain ⟨e, he, hd⟩ := head?_levels y d (levelsAll d ys ++ r')
    have hlt := hr e (h ▸ he)
    omega
  | x :: xs, [], d, r, r', _, hr', h => by
    simp only [levelsAll, List.nil_append, List.append_assoc] at h
    obtain ⟨e, he, hd⟩ := head?_levels x d (levelsAll d xs ++ r)
    have hlt := hr' e (h ▸ he)
    omega
  | x :: xs, y :: ys, d, r, r', hr, hr', h => by
    simp only [levelsAll, List.append_assoc] at h
    obtain ⟨rfl, hrest⟩ :=
      levels_append_inj x y d _ _ (hr.levelsAll_append xs) (hr'.levelsAll_append ys) h
    obtain ⟨rfl, hrr⟩ := levelsAll_append_inj xs ys d r r' hr hr' hrest
    exact ⟨rfl, hrr⟩

end

theorem levelsAll_inj {xs ys : List Sketch} {d : Nat} (h : levelsAll d xs = levelsAll d ys) :
    xs = ys := by
  refine (levelsAll_append_inj xs ys d [] [] ?_ ?_ ?_).1
  · simp [EndsAbove]
  · simp [EndsAbove]
  · rw [h]

end Sketch

namespace Tree

variable {s : Style} {label : Node → String} {hideRoot : Bool} {t t' : Tree} {ts : List Tree}
  {d i : Nat}

mutual

/-- What a tree shows under the labels of its nodes. -/
def sketch (label : Node → String) : Tree → Sketch
  | mk node closed children =>
    .mk (label node) (.of (!children.isEmpty) closed)
      (if closed then [] else sketchAll label children)

def sketchAll (label : Node → String) : List Tree → List Sketch
  | [] => []
  | t :: ts => sketch label t :: sketchAll label ts

end

theorem children_sketch (label : Node → String) (t : Tree) :
    (t.sketch label).children = if t.closed then [] else sketchAll label t.children := by
  cases t
  rw [sketch]
  rfl

theorem sketch_eq (label : Node → String) (t : Tree) :
    t.sketch label = .mk (label t.node) t.fold (t.sketch label).children := by
  cases t
  rw [sketch]
  rfl

/-- What the row of a visible node tells. -/
def entry (label : Node → String) (d : Nat) (v : List Nat × Tree) : Nat × Fold × String :=
  (d + v.1.length, v.2.fold, label v.2.node)

theorem levelsAll_sketchAll
    (ih : ∀ t ∈ ts, ∀ d, t.visible.map (entry label d) = (t.sketch label).levels d) :
    (visibleFrom i ts).map (entry label d) = Sketch.levelsAll (d + 1) (sketchAll label ts) := by
  induction ts generalizing i with
  | nil => rfl
  | cons t ts ihts =>
    have hdeeper : ∀ v : List Nat × Tree, entry label d (i :: v.1, v.2) = entry label (d + 1) v := by
      intro v
      rw [entry, entry, List.length_cons, Nat.add_right_comm, Nat.add_assoc]
    rw [visibleFrom, List.map_append, List.map_map, sketchAll, Sketch.levelsAll,
      ← ih t List.mem_cons_self, ihts fun c hc => ih c (List.mem_cons_of_mem t hc)]
    simp only [Function.comp_def, hdeeper]

theorem levels_sketch (label : Node → String) (t : Tree) (d : Nat) :
    t.visible.map (entry label d) = (t.sketch label).levels d := by
  induction t using induct generalizing d with
  | step node closed children ih =>
    rw [visible_eq, sketch_eq, children_sketch, Sketch.levels, List.map_cons]
    cases closed with
    | true => rfl
    | false => exact congrArg (_ :: ·) (levelsAll_sketchAll ih)

theorem levelsAll_children_sketch (label : Node → String) (t : Tree) :
    t.visible.tail.map (entry label 0) = Sketch.levelsAll 1 (t.sketch label).children := by
  rw [List.map_tail, levels_sketch, sketch_eq]
  rfl

/-! ### Reading the rows -/

/-- The rows below the root determine the sketches of its children. -/
theorem children_sketch_eq (h : s.Legible)
    (heq : t.visible.tail.map (fun v => t.textAt s label hideRoot v.1 v.2)
      = t'.visible.tail.map fun v => t'.textAt s label hideRoot v.1 v.2) :
    (t.sketch label).children = (t'.sketch label).children := by
  have hentry : ∀ v ∈ t.visible.tail, ∀ v' ∈ t'.visible.tail,
      t.textAt s label hideRoot v.1 v.2 = t'.textAt s label hideRoot v'.1 v'.2 →
        entry label 0 v = entry label 0 v' := by
    intro v hv v' hv' htext
    obtain ⟨hlen, hfold, hlabel⟩ :=
      h.textAt_inj (ne_nil_of_mem_tail hv) (ne_nil_of_mem_tail hv') htext
    rw [entry, entry, hlen, hfold, hlabel]
  refine Sketch.levelsAll_inj (d := 1) ?_
  rw [← levelsAll_children_sketch, ← levelsAll_children_sketch]
  have hlen := congrArg List.length heq
  rw [List.length_map, List.length_map] at hlen
  refine List.ext_getElem (by rw [List.length_map, List.length_map, hlen]) fun k hk hk' => ?_
  rw [List.length_map] at hk hk'
  have htext := List.getElem_of_eq heq (i := k) (by rwa [List.length_map])
  rw [List.getElem_map, List.getElem_map] at htext
  rw [List.getElem_map, List.getElem_map]
  exact hentry _ (List.getElem_mem hk) _ (List.getElem_mem hk') htext

theorem sketch_eq_of_rows (h : s.Legible)
    (heq : t.visible.map (fun v => t.textAt s label hideRoot v.1 v.2)
      = t'.visible.map fun v => t'.textAt s label hideRoot v.1 v.2) :
    t.sketch label = t'.sketch label := by
  rw [visible_eq t, visible_eq t', ← tail_visible, ← tail_visible, List.map_cons, List.map_cons,
    List.cons.injEq] at heq
  obtain ⟨hfold, hlabel⟩ : t.fold = t'.fold ∧ label t.node = label t'.node :=
    h.textAt_root_inj heq.1
  have hchildren := children_sketch_eq h heq.2
  calc t.sketch label
      = .mk (label t.node) t.fold (t.sketch label).children := sketch_eq label t
    _ = .mk (label t'.node) t'.fold (t'.sketch label).children := by rw [hlabel, hfold, hchildren]
    _ = t'.sketch label := (sketch_eq label t').symm

theorem map_text_render (s : Style) (label : Node → String) (hideRoot : Bool) (t : Tree) :
    (t.render s label hideRoot).map Row.text
      = (t.displayed hideRoot).map fun v => t.textAt s label hideRoot v.1 v.2 := by
  rw [render_eq, List.map_map]
  rfl

/-- In the styles `ascii`, `box` and `rounded`, at any spacing, the texts of the rows determine what
is visible of the tree: the order, the labels and the states of its nodes, or of the nodes below the
root if that is hidden. -/
theorem render_faithful (name : String) (spacing : Int)
    (hname : name ∈ ["ascii", "box", "rounded"]) (hspacing : 0 ≤ spacing) :
    ∃ s, Style.resolve name spacing = .ok s ∧
      ∀ (label : Node → String) (t t' : Tree),
        ((t.render s label false).map Row.text = (t'.render s label false).map Row.text →
          t.sketch label = t'.sketch label) ∧
        ((t.render s label true).map Row.text = (t'.render s label true).map Row.text →
          (t.sketch label).children = (t'.sketch label).children) := by
  obtain ⟨s, hs, hlegible⟩ := Style.exists_resolve_legible hname hspacing
  refine ⟨s, hs, fun label t t' => ⟨fun heq => ?_, fun heq => ?_⟩⟩
  · rw [map_text_render, map_text_render] at heq
    exact sketch_eq_of_rows hlegible heq
  · rw [map_text_render, map_text_render] at heq
    exact children_sketch_eq hlegible heq

/-- A closed node hides its child, so the rows do not tell `b` from `c`; a label like a glyph does no
harm. -/
theorem render_faithful_hidden :
    let t : Tree := .mk ⟨0, .plain "/"⟩ false
      [.mk ⟨1, .plain "├─  a"⟩ true [.mk ⟨2, .plain "b"⟩ false []], .mk ⟨3, .plain "│"⟩ true []]
    let t' : Tree := .mk ⟨4, .plain "/"⟩ false
      [.mk ⟨5, .plain "├─  a"⟩ true [.mk ⟨6, .plain "c"⟩ false []], .mk ⟨7, .plain "│"⟩ false []]
    ∃ s, Style.resolve "rounded" 1 = .ok s ∧
      (t.render s Node.name false).map Row.text = (t'.render s Node.name false).map Row.text ∧
      t.sketch Node.name = t'.sketch Node.name ∧
      (t.render s Node.name true).map Row.text = (t'.render s Node.name true).map Row.text ∧
      (t.sketch Node.name).children = (t'.sketch Node.name).children := by
  intro t t'
  obtain ⟨s, hs, hread⟩ := render_faithful "rounded" 1 (by decide) (by decide)
  have hshown : (t.render s Node.name false).map Row.text
      = (t'.render s Node.name false).map Row.text := rfl
  have hhidden : (t.render s Node.name true).map Row.text
      = (t'.render s Node.name true).map Row.text := rfl
  obtain ⟨hroot, hbelow⟩ := hread Node.name t t'
  exact ⟨s, hs, hshown, hroot hshown, hhidden, hbelow hhidden⟩

end Tree

end Outliner
