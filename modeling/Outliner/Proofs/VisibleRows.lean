import Mathlib.Data.List.Basic
import Outliner.Row

/-!
# The rows of visible nodes

A path leads from the root of a tree to a node: it lists which child to take at each step
(`Tree.at?`). A node is visible if no node above it is closed (`Tree.VisibleAt`). `Tree.visible` lists the
visible nodes with their paths, in the lexicographic order of the paths, which is pre-order.

`Tree.render` has no paths: it hands the padding down and the place of each child over. The text of a row
can be told from the path alone (`Tree.textAt`), and the main statement, `render_eq_visible`, says that
rendering gives the row of that text for each visible node.
-/

namespace Outliner.Tree

variable {s : Style} {label : Node → String} {t u c : Tree} {ts : List Tree} {path : List Nat}
  {i j : Nat}

theorem induct {motive : Tree → Prop}
    (step : ∀ node closed children, (∀ t ∈ children, motive t) → motive (mk node closed children)) :
    ∀ t, motive t
  | mk node closed children => step node closed children fun t ht =>
    have : sizeOf t < sizeOf (mk node closed children) :=
      Nat.lt_trans (List.sizeOf_lt_of_mem ht) (by simp)
    induct step t

/-! ### Paths -/

/-- The subtree that a path leads to. -/
def at? (t : Tree) : List Nat → Option Tree
  | [] => some t
  | i :: path => t.children[i]?.bind fun c => c.at? path

theorem at?_cons (h : t.children[i]? = some c) : t.at? (i :: path) = c.at? path := by
  rw [at?, h, Option.bind_some]

/-- The path leads to `u`, and all nodes above `u` are open. -/
structure VisibleAt (t : Tree) (path : List Nat) (u : Tree) : Prop where
  at?_eq : t.at? path = some u
  opened : ∀ i < path.length, ∀ a, t.at? (path.take i) = some a → a.closed = false

theorem visibleAt_nil : t.VisibleAt [] u ↔ u = t :=
  ⟨fun h => (Option.some.inj h.at?_eq).symm, fun h => ⟨h ▸ rfl, by simp⟩⟩

theorem visibleAt_cons :
    t.VisibleAt (i :: path) u
      ↔ t.closed = false ∧ ∃ c, t.children[i]? = some c ∧ c.VisibleAt path u := by
  constructor
  · rintro ⟨hat, hopened⟩
    obtain ⟨c, hc, hu⟩ := Option.bind_eq_some_iff.1 hat
    refine ⟨hopened 0 (by simp) t rfl, c, hc, hu, fun j hj a ha => ?_⟩
    exact hopened (j + 1) (by simpa using hj) a (by rwa [List.take_succ_cons, at?_cons hc])
  · rintro ⟨ht, c, hc, hat, hopened⟩
    refine ⟨by rwa [at?_cons hc], fun j hj a ha => ?_⟩
    cases j with
    | zero => exact Option.some.inj ha ▸ ht
    | succ j =>
      rw [List.take_succ_cons, at?_cons hc] at ha
      exact hopened j (by simpa using hj) a ha

/-! ### The list of visible nodes -/

mutual

/-- The visible nodes with their paths. -/
def visible : Tree → List (List Nat × Tree)
  | mk node closed children =>
    ([], mk node closed children) :: if closed then [] else visibleFrom 0 children

/-- The visible nodes of siblings, the first of which is child number `i`. -/
def visibleFrom (i : Nat) : List Tree → List (List Nat × Tree)
  | [] => []
  | t :: ts => (visible t).map (fun v => (i :: v.1, v.2)) ++ visibleFrom (i + 1) ts

end

theorem visible_eq (t : Tree) :
    t.visible = ([], t) :: if t.closed then [] else visibleFrom 0 t.children := by
  cases t
  rw [visible]
  rfl

theorem mem_visibleFrom :
    (path, u) ∈ visibleFrom i ts
      ↔ ∃ j t rest, path = (i + j) :: rest ∧ ts[j]? = some t ∧ (rest, u) ∈ t.visible := by
  induction ts generalizing i with
  | nil => simp [visibleFrom]
  | cons t ts ih =>
    rw [visibleFrom, List.mem_append, ih, List.mem_map]
    constructor
    · rintro (⟨⟨rest, w⟩, hw, heq⟩ | ⟨j, c, rest, rfl, hc, hu⟩)
      · cases heq
        exact ⟨0, t, rest, rfl, rfl, hw⟩
      · exact ⟨j + 1, c, rest, by rw [Nat.add_right_comm, Nat.add_assoc], hc, hu⟩
    · rintro ⟨j, c, rest, rfl, hc, hu⟩
      cases j with
      | zero =>
        cases hc
        exact .inl ⟨(rest, u), hu, rfl⟩
      | succ j => exact .inr ⟨j, c, rest, by rw [Nat.add_right_comm, Nat.add_assoc], hc, hu⟩

theorem ne_nil_of_mem_visibleFrom (h : (path, u) ∈ visibleFrom i ts) : path ≠ [] := by
  obtain ⟨j, c, rest, rfl, -, -⟩ := mem_visibleFrom.1 h
  exact List.cons_ne_nil _ _

theorem mem_visible : (path, u) ∈ t.visible ↔ t.VisibleAt path u := by
  induction path generalizing t with
  | nil =>
    rw [visible_eq, visibleAt_nil, List.mem_cons]
    refine ⟨fun h => ?_, fun h => .inl (h ▸ rfl)⟩
    rcases h with h | h
    · exact congrArg Prod.snd h
    · split at h
      · cases h
      · exact absurd rfl (ne_nil_of_mem_visibleFrom h)
  | cons i path ih =>
    rw [visible_eq, visibleAt_cons, List.mem_cons]
    cases t.closed with
    | true => simp
    | false =>
      simp only [Prod.mk.injEq, reduceCtorEq, false_and, false_or, Bool.false_eq_true, if_false,
        mem_visibleFrom, true_and]
      constructor
      · rintro ⟨j, c, rest, heq, hc, hu⟩
        rw [Nat.zero_add, List.cons.injEq] at heq
        obtain ⟨rfl, rfl⟩ := heq
        exact ⟨c, hc, ih.1 hu⟩
      · rintro ⟨c, hc, hu⟩
        exact ⟨i, c, path, by rw [Nat.zero_add], hc, ih.2 hu⟩

theorem pairwise_visibleFrom
    (h : ∀ t ∈ ts, t.visible.Pairwise fun v w => v.1 < w.1) :
    (visibleFrom i ts).Pairwise fun v w => v.1 < w.1 := by
  induction ts generalizing i with
  | nil => exact .nil
  | cons t ts ih =>
    rw [visibleFrom, List.pairwise_append, List.pairwise_map]
    refine ⟨(h t List.mem_cons_self).imp fun hlt => List.cons_lt_cons_self.2 hlt,
      ih fun c hc => h c (List.mem_cons_of_mem t hc), ?_⟩
    rintro v hv ⟨path, w⟩ hw
    obtain ⟨v, -, rfl⟩ := List.mem_map.1 hv
    obtain ⟨j, c, rest, rfl, -, -⟩ := mem_visibleFrom.1 hw
    exact List.cons_lt_cons_iff.2 (.inl (by omega))

/-- Pre-order: a node comes before those below it, and these before those below later siblings. -/
theorem pairwise_visible (t : Tree) : t.visible.Pairwise fun v w => v.1 < w.1 := by
  induction t using induct with
  | step node closed children ih =>
    rw [visible, List.pairwise_cons]
    cases closed with
    | true => simp
    | false =>
      refine ⟨?_, pairwise_visibleFrom ih⟩
      rintro ⟨path, w⟩ hw
      obtain ⟨j, c, rest, rfl, -, -⟩ := mem_visibleFrom.1 hw
      exact List.nil_lt_cons _ _

/-! ### The text of a row -/

/-- Whether the path leads to a last child. -/
def isLast (t : Tree) (path : List Nat) : Bool :=
  match t.at? path.dropLast, path.getLast? with
  | some parent, some i => i + 1 == parent.children.length
  | _, _ => false

/-- What is drawn below the nodes on the way to a node, the root and the node itself left out. -/
def paddingAt (s : Style) (t : Tree) (path : List Nat) : String :=
  String.join ((List.range' 1 (path.length - 1)).map fun i =>
    if t.isLast (path.take i) then s.empty else s.link)

/-- The lead of a node other than the root. -/
def leadAt (s : Style) (hideRoot : Bool) (t : Tree) (path : List Nat) : Lead :=
  if t.isLast path then s.last else if path = [0] ∧ hideRoot = false then s.first else s.nth

/-- The text of the row for the node `u` that the path leads to. -/
def textAt (s : Style) (label : Node → String) (hideRoot : Bool) (t : Tree) (path : List Nat)
    (u : Tree) : String :=
  if path = [] then s.root.pick u.fold ++ label u.node
  else
    (if hideRoot then "" else s.empty) ++ t.paddingAt s path
      ++ (t.leadAt s hideRoot path).pick u.fold ++ label u.node

theorem isLast_singleton : t.isLast [i] = (i + 1 == t.children.length) := rfl

theorem isLast_cons_cons (h : t.children[i]? = some c) :
    t.isLast (i :: j :: path) = c.isLast (j :: path) := by
  rw [isLast, List.dropLast_cons_cons, at?_cons h, List.getLast?_cons_cons, isLast]

theorem paddingAt_singleton : t.paddingAt s [i] = "" := rfl

theorem paddingAt_cons_cons (h : t.children[i]? = some c) :
    t.paddingAt s (i :: j :: path)
      = (if t.isLast [i] then s.empty else s.link) ++ c.paddingAt s (j :: path) := by
  have hlater : ∀ k ∈ List.range' 1 path.length,
      t.isLast ((i :: j :: path).take (1 + k)) = c.isLast ((j :: path).take k) := by
    intro k hk
    obtain ⟨k, rfl⟩ := Nat.exists_eq_add_of_le (List.mem_range'_1.1 hk).1
    rw [Nat.add_comm 1 k, Nat.add_comm, List.take_succ_cons, List.take_succ_cons, isLast_cons_cons h]
  simp only [paddingAt, List.length_cons, Nat.add_sub_cancel]
  rw [List.range'_succ, List.map_cons, String.join_cons, List.take_succ_cons, List.take_zero,
    ← List.map_add_range', List.map_map]
  refine congrArg (_ ++ String.join ·) (List.map_congr_left fun k hk => ?_)
  rw [Function.comp_apply, hlater k hk]

theorem leadAt_cons_cons {hideRoot : Bool} (h : t.children[i]? = some c) :
    t.leadAt s hideRoot (i :: j :: path) = c.leadAt s true (j :: path) := by
  simp [leadAt, isLast_cons_cons h]

/-! ### Rendering -/

/-- The row for a node below `t`, where `padding` is drawn left of the children of `t`. -/
def rowBelow (s : Style) (label : Node → String) (padding : String) (hideRoot : Bool) (t : Tree)
    (v : List Nat × Tree) : Row :=
  ⟨padding ++ t.paddingAt s v.1 ++ (t.leadAt s hideRoot v.1).pick v.2.fold ++ label v.2.node,
    some v.2.node⟩

theorem rows_eq (s : Style) (label : Node → String) (padding : String) (place : Place) (t : Tree) :
    rows s label padding place t
      = ⟨padding ++ (s.lead place).pick t.fold ++ label t.node, some t.node⟩
        :: if t.closed then [] else
          rowsAll s label (padding ++ s.filler place) false t.children := by
  cases t
  rw [rows]
  rfl

theorem rowBelow_cons_cons {padding : String} {hideRoot : Bool} (h : t.children[i]? = some c) :
    t.rowBelow s label padding hideRoot (i :: j :: path, u)
      = c.rowBelow s label (padding ++ if t.isLast [i] then s.empty else s.link) true
          (j :: path, u) := by
  simp only [rowBelow, paddingAt_cons_cons h, leadAt_cons_cons h, String.append_assoc]

section Places

variable {last marked : Bool}

theorem lead_place :
    s.lead (if last then .last else if marked then .first else .nth)
      = if last then s.last else if marked then s.first else s.nth := by
  cases last <;> cases marked <;> rfl

theorem filler_place :
    s.filler (if last then .last else if marked then .first else .nth)
      = if last then s.empty else s.link := by
  cases last <;> cases marked <;> rfl

end Places

theorem leadAt_singleton {hideRoot : Bool} :
    t.leadAt s hideRoot [i]
      = if t.isLast [i] then s.last else if i == 0 && !hideRoot then s.first else s.nth := by
  simp [leadAt]

theorem rows_child {padding : String} {hideRoot : Bool} (hc : t.children[i]? = some c)
    (ih : ∀ padding, rowsAll s label padding false c.children
      = (visibleFrom 0 c.children).map (c.rowBelow s label padding true)) :
    rows s label padding
        (if t.isLast [i] then .last else if i == 0 && !hideRoot then .first else .nth) c
      = c.visible.map fun v => t.rowBelow s label padding hideRoot (i :: v.1, v.2) := by
  have hown : t.rowBelow s label padding hideRoot ([i], c)
      = ⟨padding ++ (t.leadAt s hideRoot [i]).pick c.fold ++ label c.node, some c.node⟩ := by
    rw [rowBelow, paddingAt_singleton, String.append_empty]
  have hbelow : ∀ v ∈ visibleFrom 0 c.children,
      t.rowBelow s label padding hideRoot (i :: v.1, v.2)
        = c.rowBelow s label (padding ++ if t.isLast [i] then s.empty else s.link) true v := by
    rintro ⟨path, u⟩ hv
    obtain ⟨j, _, rest, rfl, -, -⟩ := mem_visibleFrom.1 hv
    exact rowBelow_cons_cons hc
  rw [rows_eq, visible_eq, List.map_cons, hown, leadAt_singleton, lead_place, filler_place, ih]
  cases c.closed with
  | true => rfl
  | false => exact congrArg (_ :: ·) (List.map_congr_left fun v hv => (hbelow v hv).symm)

theorem rowsAll_eq {padding : String} (hideRoot : Bool) (hts : t.children.drop i = ts)
    (ih : ∀ c ∈ ts, ∀ padding, rowsAll s label padding false c.children
      = (visibleFrom 0 c.children).map (c.rowBelow s label padding true)) :
    rowsAll s label padding (i == 0 && !hideRoot) ts
      = (visibleFrom i ts).map (t.rowBelow s label padding hideRoot) := by
  induction ts generalizing i with
  | nil => rfl
  | cons c ts ihts =>
    have hlen := congrArg List.length hts
    rw [List.length_drop, List.length_cons] at hlen
    have hi : i < t.children.length := by omega
    rw [List.drop_eq_getElem_cons hi, List.cons.injEq] at hts
    have hc : t.children[i]? = some c := by rw [List.getElem?_eq_getElem hi, hts.1]
    have hlast : ts.isEmpty = t.isLast [i] := by
      rw [isLast_singleton, Bool.eq_iff_iff, List.isEmpty_iff_length_eq_zero, beq_iff_eq]
      omega
    have hrest := ihts hts.2 fun d hd => ih d (List.mem_cons_of_mem c hd)
    rw [rowsAll, hlast, rows_child hc (ih c List.mem_cons_self), visibleFrom, List.map_append,
      List.map_map, ← hrest]
    rfl

theorem rowsAll_children (s : Style) (label : Node → String) (t : Tree) (padding : String) :
    rowsAll s label padding false t.children
      = (visibleFrom 0 t.children).map (t.rowBelow s label padding true) := by
  induction t using induct generalizing padding with
  | step node closed children ih =>
    exact rowsAll_eq (i := 0) true List.drop_zero fun c hc padding => ih c hc padding

/-- The nodes that get a row. -/
def displayed (t : Tree) (hideRoot : Bool) : List (List Nat × Tree) :=
  if hideRoot then t.visible.tail else t.visible

theorem tail_visible (t : Tree) :
    t.visible.tail = if t.closed then [] else visibleFrom 0 t.children := by
  rw [visible_eq, List.tail_cons]

theorem ne_nil_of_mem_tail (h : (path, u) ∈ t.visible.tail) : path ≠ [] := by
  rw [tail_visible] at h
  split at h
  · cases h
  · exact ne_nil_of_mem_visibleFrom h

theorem mem_displayed {hideRoot : Bool} :
    (path, u) ∈ t.displayed hideRoot ↔ t.VisibleAt path u ∧ (hideRoot = true → path ≠ []) := by
  rw [← mem_visible]
  cases hideRoot with
  | false => simp [displayed]
  | true =>
    simp only [displayed, if_true, forall_const]
    refine ⟨fun h => ⟨List.mem_of_mem_tail h, ne_nil_of_mem_tail h⟩, fun ⟨h, hne⟩ => ?_⟩
    rw [visible_eq, List.mem_cons, ← tail_visible] at h
    exact h.resolve_left fun he => hne (congrArg Prod.fst he)

theorem rows_tail (s : Style) (label : Node → String) (hideRoot : Bool) (t : Tree) :
    (if t.closed then [] else
        rowsAll s label (if hideRoot then "" else s.empty) (!hideRoot) t.children)
      = t.visible.tail.map fun v => ⟨t.textAt s label hideRoot v.1 v.2, some v.2.node⟩ := by
  have hrows : rowsAll s label (if hideRoot then "" else s.empty) (!hideRoot) t.children
      = (visibleFrom 0 t.children).map
          (t.rowBelow s label (if hideRoot then "" else s.empty) hideRoot) :=
    rowsAll_eq (i := 0) hideRoot List.drop_zero fun c _ => rowsAll_children s label c
  rw [tail_visible]
  cases t.closed with
  | true => rfl
  | false =>
    refine hrows.trans (List.map_congr_left fun ⟨path, u⟩ hv => ?_)
    rw [rowBelow, textAt, if_neg (ne_nil_of_mem_visibleFrom hv)]

theorem render_eq (s : Style) (label : Node → String) (hideRoot : Bool) (t : Tree) :
    t.render s label hideRoot
      = (t.displayed hideRoot).map
          fun v => ⟨t.textAt s label hideRoot v.1 v.2, some v.2.node⟩ := by
  have htail := rows_tail s label hideRoot t
  cases hideRoot with
  | true =>
    rw [displayed, if_pos rfl, ← htail]
    cases t
    rfl
  | false =>
    rw [displayed, if_neg Bool.false_ne_true, visible_eq, ← tail_visible, List.map_cons, ← htail]
    cases t
    rfl

/-- Rendering lists the visible nodes in pre-order, without the root if that is hidden, and each
with the text that its path tells. Which nodes these are depends neither on the style nor on the
label. -/
theorem render_eq_visible (t : Tree) (hideRoot : Bool) :
    ∃ shown : List (List Nat × Tree),
      (shown.Pairwise fun v w => v.1 < w.1) ∧
      (∀ path u, (path, u) ∈ shown ↔ t.VisibleAt path u ∧ (hideRoot = true → path ≠ [])) ∧
      (∀ s label, t.render s label hideRoot
        = shown.map fun v => ⟨t.textAt s label hideRoot v.1 v.2, some v.2.node⟩) ∧
      ∀ s s' label label', (t.render s label hideRoot).map Row.node?
        = (t.render s' label' hideRoot).map Row.node? := by
  have hsorted : (t.displayed hideRoot).Pairwise fun v w => v.1 < w.1 := by
    cases hideRoot with
    | false => exact pairwise_visible t
    | true => exact (pairwise_visible t).tail
  refine ⟨t.displayed hideRoot, hsorted, fun _ _ => mem_displayed,
    fun s label => render_eq s label hideRoot t, fun s s' label label' => ?_⟩
  rw [render_eq, render_eq, List.map_map, List.map_map]
  rfl

end Outliner.Tree
