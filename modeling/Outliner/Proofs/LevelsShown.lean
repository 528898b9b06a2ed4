import Outliner.Proofs.DrawnRows

/-!
# The levels that a depth shows

If all nodes below `r` are open and the forest is then collapsed below level `d`, a node at level `l` shows
what lies below it down to level `max d l` (`Owned.shown_collapseBelow`): a node at level `d` or deeper is
itself a limit. From the root that makes the levels from 0 to `d`. A navbar starts with the children of the
root, which are in buckets that are open in any case, so it shows the levels from 1 to `max d 1`, even where
`d` is 0 and the root is closed. The main statement is `collapseBelow_shows_levels`.
-/

namespace Outliner.Forest

variable {f g : Forest} {c m n r : NodeId} {d l lo hi : Nat} {style : String} {spacing : Int} {s : Style}
  {label : Node → String} {row : Row} {hideRoot : Bool}

/-! ### Stretches of levels -/

/-- The nodes from `r` downwards with a depth from `lo` to `hi`, in pre-order. -/
def walkBetween (f : Forest) (r : NodeId) (lo hi : Nat) : List NodeId :=
  (f.walk r).filter fun m => lo ≤ f.depth m ∧ f.depth m ≤ hi

theorem Owned.depth_lt_of_mem_below (h : f.Owned) (hm : m ∈ (f.children n).flatMap f.walk) :
    f.depth n < f.depth m := by
  obtain ⟨c, hc, hm⟩ := List.mem_flatMap.1 hm
  obtain ⟨l, hl⟩ := h.exists_atLevel (h.mem_walk.1 hm)
  rw [h.depth_of_atLevel hl, h.depth_of_parent? (h.parent?_of_mem hc)]
  omega

theorem Owned.walkBetween_zero (h : f.Owned) (hr : f.depth r = 0) :
    f.walkBetween r 0 hi = r :: f.walkBetween r 1 hi := by
  simp only [walkBetween, h.walk_eq r]
  rw [List.filter_cons_of_pos (by simp [hr]), List.filter_cons_of_neg (by simp [hr])]
  refine congrArg (r :: ·) (List.filter_congr fun m hm => decide_eq_decide.2 ?_)
  have hlt := h.depth_lt_of_mem_below hm
  omega

theorem Owned.walkBetween_one (h : f.Owned) (hr : f.depth r = 0) :
    f.walkBetween r 1 hi = (f.children r).flatMap fun c => (f.walk c).filter fun m => f.depth m ≤ hi := by
  rw [walkBetween, h.walk_eq, List.filter_cons_of_neg (by simp [hr]), ← List.filter_flatMap]
  refine List.filter_congr fun m hm => decide_eq_decide.2 ?_
  have hlt := h.depth_lt_of_mem_below hm
  omega

/-! ### What is shown below a level -/

theorem Owned.closed_collapseBelow_of_open (h : f.Owned) (hr : r < f.size)
    (hopen : ∀ m ∈ f.walk r, f.closed m = false) (hl : f.AtLevel r l m) :
    (f.collapseBelow r d).closed m = true ↔ d ≤ l ∧ f.children m ≠ [] := by
  rw [h.closed_collapseBelow hr, hopen m (h.mem_walk.2 (h.above_of_atLevel hl))]
  constructor
  · rintro (hclosed | ⟨k, hk, hd, hm⟩)
    · cases hclosed
    · have hsame := (h.depth_of_atLevel hk).symm.trans (h.depth_of_atLevel hl)
      exact ⟨by omega, hm⟩
  · rintro ⟨hd, hm⟩
    exact .inr ⟨l, hl, Int.ofNat_le.2 hd, hm⟩

/-- From a node at level `l` the levels down to `max d l` are shown. -/
theorem Owned.shown_collapseBelow (h : f.Owned) (hr : r < f.size)
    (hopen : ∀ m ∈ f.walk r, f.closed m = false) (hl : f.AtLevel r l n) :
    (f.collapseBelow r d).shown n
      = (f.walk n).filter fun m => f.depth m ≤ f.depth r + max d l := by
  have hrefolded := refolded_collapseBelow f r d
  induction n using h.descend generalizing l with
  | step n ih =>
    have hdepth := h.depth_of_atLevel hl
    have hclosed := h.closed_collapseBelow_of_open (d := d) hr hopen hl
    have hself : f.depth n ≤ f.depth r + max d l := by omega
    rw [(hrefolded.owned h).shown_eq, hrefolded.children, h.walk_eq,
      List.filter_cons_of_pos (by simp [hself])]
    refine congrArg (n :: ·) ?_
    rcases Nat.lt_or_ge l d with hlt | hge
    · -- the node stays open, and for its children the limit is the same
      have hsame : max d (l + 1) = max d l := by omega
      rw [if_neg fun hc => Nat.not_le.2 hlt (hclosed.1 hc).1, List.filter_flatMap]
      refine List.flatMap_congr fun c hc => ?_
      rw [ih c hc (.child hl hc), hsame]
    · have hnone : ((f.children n).flatMap f.walk).filter
          (fun m => f.depth m ≤ f.depth r + max d l) = [] := by
        refine List.filter_eq_nil_iff.2 fun m hm => ?_
        have hbelow := h.depth_lt_of_mem_below hm
        rw [decide_eq_true_eq]
        omega
      rw [hnone]
      by_cases hc : f.children n = []
      · simp [hc]
      · rw [if_pos (hclosed.2 ⟨hge, hc⟩)]

/-- A node is drawn closed if it has children and lies at level `d` or deeper. -/
theorem Owned.fold_collapseBelow (h : f.Owned) (hr : r < f.size)
    (hopen : ∀ m ∈ f.walk r, f.closed m = false) (hl : f.AtLevel r l m) :
    ((f.collapseBelow r d).tree m).fold = .of (!(f.children m).isEmpty) (d ≤ l) := by
  have hrefolded := refolded_collapseBelow f r d
  have hclosed := h.closed_collapseBelow_of_open (d := d) hr hopen hl
  rw [(hrefolded.owned h).fold_tree, hrefolded.children]
  by_cases hc : f.children m = []
  · rw [hc]
    rfl
  · refine congrArg _ ?_
    rw [Bool.eq_iff_iff, hclosed, decide_eq_true_eq, and_iff_left hc]

section Views

variable (h : f.Owned) (hr : r < f.size) (hroot : f.depth r = 0)
  (hopen : ∀ m ∈ f.walk r, f.closed m = false)

include h hr hroot hopen

theorem Owned.shown_collapseBelow_root :
    (f.collapseBelow r d).shown r = f.walkBetween r 0 d := by
  rw [h.shown_collapseBelow hr hopen .root, walkBetween]
  refine List.filter_congr fun m _ => decide_eq_decide.2 ?_
  omega

theorem Owned.map_node?_render_collapseBelow :
    (((f.collapseBelow r d).tree r).render s label hideRoot).map Row.node?
      = (f.walkBetween r (if hideRoot then 1 else 0) d).map fun m => some (f.node m) := by
  have hrefolded := refolded_collapseBelow f r d
  rw [(hrefolded.owned h).map_node?_render, h.shown_collapseBelow_root hr hroot hopen]
  simp only [hrefolded.node]
  cases hideRoot with
  | true => rw [if_pos rfl, if_pos rfl, h.walkBetween_zero hroot, List.tail_cons]
  | false => rw [if_neg Bool.false_ne_true, if_neg Bool.false_ne_true]

theorem Owned.flatMap_shown_collapseBelow :
    (f.children r).flatMap (f.collapseBelow r d).shown = f.walkBetween r 1 (max d 1) := by
  rw [h.walkBetween_one hroot]
  refine List.flatMap_congr fun c hc => ?_
  rw [h.shown_collapseBelow hr hopen (.child .root hc), hroot, Nat.zero_add, Nat.zero_add]

/-- A row that is drawn by its level after the collapse is drawn by its depth. -/
theorem Owned.drawn_of_collapseBelow {k : Nat → Nat}
    (hdrawn : ∃ l, (f.collapseBelow r d).AtLevel r l m ∧ row.Drawn s label (k l)
      ((f.collapseBelow r d).tree m).fold ((f.collapseBelow r d).node m)) :
    row.Drawn s label (k (f.depth m)) (.of (!(f.children m).isEmpty) (d ≤ f.depth m))
      (f.node m) := by
  have hrefolded := refolded_collapseBelow f r d
  obtain ⟨l, hl, hdrawn⟩ := hdrawn
  rw [hrefolded.atLevel_iff] at hl
  have hdepth : f.depth m = l := by rw [h.depth_of_atLevel hl, hroot, Nat.zero_add]
  rwa [h.fold_collapseBelow hr hopen hl, hrefolded.node, ← hdepth] at hdrawn

theorem Owned.drawn_of_mem_render_collapseBelow
    (hrow : row ∈ ((f.collapseBelow r d).tree r).render s label hideRoot)
    (hnode : row.node? = some (f.node m)) (hne : m ≠ r) :
    row.Drawn s label (if hideRoot then f.depth m - 1 else f.depth m)
      (.of (!(f.children m).isEmpty) (d ≤ f.depth m)) (f.node m) := by
  have hrefolded := refolded_collapseBelow f r d
  rw [← hrefolded.node] at hnode
  exact h.drawn_of_collapseBelow hr hroot hopen (k := fun l => if hideRoot then l - 1 else l)
    ((hrefolded.owned h).drawn_of_mem_render hrow hnode hne)

theorem Owned.drawn_of_mem_navbar_collapseBelow
    (hrow : row ∈ ((f.collapseBelow r d).bucketize r).1.renderAll
      (f.collapseBelow r d).addBuckets.2.toList s label)
    (hnode : row.node? = some (f.node m)) (hm : m < f.size) :
    row.Drawn s label (f.depth m) (.of (!(f.children m).isEmpty) (d ≤ f.depth m)) (f.node m) := by
  have hrefolded := refolded_collapseBelow f r d
  rw [← hrefolded.node] at hnode
  exact h.drawn_of_collapseBelow hr hroot hopen (k := id)
    ((hrefolded.owned h).drawn_of_mem_navbar hrow hnode (hrefolded.size.symm ▸ hm))

end Views

/-! ### In an outline -/

theorem Nested.depth_root {ds : List Declaration} {k : Nat} (h : Nested f g ds k) :
    g.depth f.size = 0 :=
  depth_of_parentless h.parentless

theorem open_of_mem_walk_addOutline (h : f.Reached) (ds : List Declaration)
    (hm : m ∈ (f.addOutline ds).walk f.size) : (f.addOutline ds).closed m = false := by
  have hg := nested_addOutline h ds
  rcases (hg.mem_walk h.owned).1 hm with rfl | ⟨j, hj, rfl⟩
  · exact closed_addOutline_root h ds
  · exact hg.closed j hj

/-- With the outline of a text collapsed below level `d`, its tree shows the nodes of the levels from 0 to `d`
in pre-order, without the root if that is hidden, and the navbar the nodes of the levels from 1 to `max d 1`
in the same order, each once. The level is the depth, since the root has depth 0. In either view a row has a
filler for each level above it. Its lead is that of a closed node if the node has children and its level is
`d` or more, and that of an open one if it has children and its level is less. -/
theorem collapseBelow_shows_levels (h : f.Reached) (text : String) (d : Nat)
    (hstyle : style ∈ Style.names) (hspacing : 0 ≤ spacing) (label : Node → String) :
    let g := f.addOutline (declarations Line.item? text)
    let g' := g.collapseBelow f.size d
    g.depth f.size = 0 ∧ (g.walk f.size).Nodup ∧ ∃ s, Style.resolve style spacing = .ok s ∧
      (∀ hideRoot : Bool,
        let rows := (g'.tree f.size).render s label hideRoot
        rows.map Row.node?
          = (g.walkBetween f.size (if hideRoot then 1 else 0) d).map (fun m => some (g.node m)) ∧
        ∀ row ∈ rows, ∀ m, row.node? = some (g.node m) → m ≠ f.size →
          row.Drawn s label (if hideRoot then g.depth m - 1 else g.depth m)
            (.of (!(g.children m).isEmpty) (d ≤ g.depth m)) (g.node m)) ∧
      ∃ rows g'', g'.renderNavbar f.size style spacing label = (.ok rows, g'') ∧
        (rows.filter (Row.showsOlder g.size)).map Row.node?
          = (g.walkBetween f.size 1 (max d 1)).map (fun m => some (g.node m)) ∧
        ∀ row ∈ rows, ∀ m < g.size, row.node? = some (g.node m) →
          row.Drawn s label (g.depth m) (.of (!(g.children m).isEmpty) (d ≤ g.depth m)) (g.node m) := by
  intro g g'
  have hg := nested_addOutline h (declarations Line.item? text)
  have howned : g.Owned := hg.reached.owned
  have hr : f.size < g.size := hg.root_lt
  have hroot : g.depth f.size = 0 := hg.depth_root
  have hopen : ∀ m ∈ g.walk f.size, g.closed m = false := fun m hm => open_of_mem_walk_addOutline h _ hm
  have hrefolded : Refolded g g' := refolded_collapseBelow g f.size d
  have howned' : g'.Owned := hrefolded.owned howned
  obtain ⟨s, hs⟩ := Style.exists_resolve hstyle hspacing
  refine ⟨hroot, howned.nodup_walk f.size, s, hs, fun hideRoot => ⟨?_, fun row hrow m hnode hne => ?_⟩,
    _, _, howned'.renderNavbar_eq hs, ?_, fun row hrow m hm hnode => ?_⟩
  · exact howned.map_node?_render_collapseBelow hr hroot hopen
  · exact howned.drawn_of_mem_render_collapseBelow hr hroot hopen hrow hnode hne
  · have hbucketed : g'.bucketed f.size = g.children f.size := by
      rw [hrefolded.bucketed_eq, bucketed_addOutline h]
    rw [← hrefolded.size, howned'.older_navbar, hbucketed,
      howned.flatMap_shown_collapseBelow hr hroot hopen]
    simp only [hrefolded.node]
  · exact howned.drawn_of_mem_navbar_collapseBelow hr hroot hopen hrow hnode hm

def innerClass : String :=
  "class A:\n  class B:\n    def m():\nx = 1"

/-- Collapsed below level 0 the tree shows its root at most, but the navbar still shows level 1. -/
theorem collapseBelow_shows_levels_innerClass :
    let g := empty.addOutline (declarations Line.item? innerClass)
    let g' := g.collapseBelow 0 (0 : Nat)
    ∃ s, Style.resolve "box" 1 = .ok s ∧
      ((g'.tree 0).render s Node.markedName false).map Row.node? = [some (g.node 0)] ∧
      (g'.tree 0).render s Node.markedName true = [] ∧
      ∃ rows g'', g'.renderNavbar 0 "box" 1 Node.markedName = (.ok rows, g'') ∧
        (rows.filter (Row.showsOlder g.size)).map Row.node? = [some (g.node 1), some (g.node 4)] ∧
        ∀ row ∈ rows, row.node? = some (g.node 1) →
          row.Drawn s Node.markedName 1 .closed (g.node 1) := by
  intro g g'
  have hg := nested_addOutline .empty (declarations Line.item? innerClass)
  have howned : g.Owned := hg.reached.owned
  have hlength : (declarations Line.item? innerClass).length = 4 := by decide +kernel
  have hchildren : ∀ (q? : Option Nat) (js : List Nat), (∀ q ∈ q?, q < 4) →
      js.Perm (Declaration.members (declarations Line.item? innerClass) q?) →
      js.Pairwise (Precedes (Declaration.kindNameLEAt (declarations Line.item? innerClass))) →
      g.children (outlineNode 0 q?) = js.map (1 + ·) := fun q? js hq =>
    children_addOutline_of_perm .empty q? js (hlength ▸ hq)
  have hroot : g.children 0 = [1, 4] := hchildren none [0, 3] nofun (by decide +kernel) (by decide +kernel)
  have houter : g.children 1 = [2] := hchildren (some 0) [1] (by simp) (by decide +kernel) (by decide +kernel)
  have hinner : g.children 2 = [3] := hchildren (some 1) [2] (by simp) (by decide +kernel) (by decide +kernel)
  have hmethod : g.children 3 = [] := hchildren (some 2) [] (by simp) (by decide +kernel) .nil
  have hvariable : g.children 4 = [] := hchildren (some 3) [] (by simp) (by decide +kernel) .nil
  have hwalk : g.walk 0 = [0, 1, 2, 3, 4] := by
    simp [howned.walk_eq, hroot, houter, hinner, hmethod, hvariable]
  have hdepth : ∀ {n c}, c ∈ g.children n → g.depth c = g.depth n + 1 := fun hc =>
    howned.depth_of_parent? (howned.parent?_of_mem hc)
  have hzero : g.depth 0 = 0 := hg.depth_root
  have hone : g.depth 1 = 1 := by rw [hdepth (n := 0) (by simp [hroot]), hzero]
  have htwo : g.depth 2 = 2 := by rw [hdepth (n := 1) (by simp [houter]), hone]
  have hthree : g.depth 3 = 3 := by rw [hdepth (n := 2) (by simp [hinner]), htwo]
  have hfour : g.depth 4 = 1 := by rw [hdepth (n := 0) (by simp [hroot]), hzero]
  have htop : g.walkBetween 0 0 0 = [0] := by simp [walkBetween, hwalk, hzero, hone, htwo, hthree, hfour]
  have hnone : g.walkBetween 0 1 0 = [] := by simp [walkBetween, hwalk, hzero, hone, htwo, hthree, hfour]
  have hnext : g.walkBetween 0 1 1 = [1, 4] := by simp [walkBetween, hwalk, hzero, hone, htwo, hthree, hfour]
  have hlt : 1 < g.size := by rw [hg.size, hlength]; decide
  obtain ⟨-, -, s, hs, htree, rows, g'', hrows, hnodes, hdrawn⟩ :=
    collapseBelow_shows_levels .empty innerClass 0 (by decide : "box" ∈ Style.names)
      (by decide : (0 : Int) ≤ 1) Node.markedName
  refine ⟨s, hs, (htree false).1.trans ?_, List.map_eq_nil_iff.1 ((htree true).1.trans ?_),
    rows, g'', hrows, hnodes.trans ?_, fun row hrow hnode => ?_⟩
  · exact congrArg _ htop
  · exact congrArg _ hnone
  · exact congrArg _ hnext
  · have hrow := hdrawn row hrow 1 hlt hnode
    rw [hone, houter] at hrow
    exact hrow

end Outliner.Forest
