import Outliner.Proofs.Enclosing
import Outliner.Proofs.NavbarRows
import Outliner.Proofs.RowSearch

/-!
# The row of a line

In an outline whose dedents return into open blocks, what lies below a node has consecutive lines. So
no visible node comes between a declaration and the outermost closed node above it, or the declaration
itself if it is visible (`Nested.position_le`): of the visible nodes up to a line that one has the greatest
line, which is what `rowIndexForLine` looks for (`nearestRow_of_rowIndexForLine`). The main statement,
`rowIndexForLine_of_wellDedented`, says that its row is the one that is found.
-/

namespace Outliner

namespace Forest

open Nesting Relation

variable {f g g' : Forest} {ds : List Declaration} {d : Declaration} {rows : List Row} {r : Row}
  {s : Style} {label : Node → String} {style : String} {spacing line : Int} {i j k l : Nat}
  {m n t v : NodeId}

/-! ### Rows that show an outline -/

/-- The rows show the visible nodes below `t`, and no other row stands for a line. -/
structure Displays (g : Forest) (t : NodeId) (rows : List Row) : Prop where
  exists_row : ∀ m ∈ g.shown t, m ≠ t → ∃ r ∈ rows, r.node? = some (g.node m)
  exists_node : ∀ r ∈ rows, 1 ≤ r.line → ∃ m ∈ g.shown t, m ≠ t ∧ r.node? = some (g.node m)

theorem Owned.mem_tail_shown (h : g.Owned) : m ∈ (g.shown t).tail ↔ m ∈ g.shown t ∧ m ≠ t := by
  have hnodup := h.nodup_shown t
  rw [h.shown_eq, List.nodup_cons] at hnodup
  rw [h.shown_eq, List.tail_cons, List.mem_cons]
  constructor
  · intro hm
    exact ⟨.inr hm, fun he => hnodup.1 (he ▸ hm)⟩
  · rintro ⟨hm, hne⟩
    exact hm.resolve_left hne

theorem Owned.displays_render (h : g.Owned) (ht : (g.node t).line < 1) (s : Style)
    (label : Node → String) (hideRoot : Bool) :
    g.Displays t ((g.tree t).render s label hideRoot) := by
  have hnodes := h.map_node?_render s label hideRoot t
  have hsub : ∀ m ∈ g.shown t, m ≠ t → m ∈ if hideRoot then (g.shown t).tail else g.shown t := by
    intro m hm hne
    split
    · exact h.mem_tail_shown.2 ⟨hm, hne⟩
    · exact hm
  constructor
  · intro m hm hne
    have hrow := List.mem_map_of_mem (f := fun m => some (g.node m)) (hsub m hm hne)
    rw [← hnodes] at hrow
    exact List.mem_map.1 hrow
  · intro r hr hline
    have hnode := List.mem_map_of_mem (f := Row.node?) hr
    rw [hnodes] at hnode
    obtain ⟨m, hm, hmr⟩ := List.mem_map.1 hnode
    have hne : m ≠ t := by
      rintro rfl
      rw [Row.line_eq, ← hmr] at hline
      exact Int.not_lt.2 hline ht
    refine ⟨m, ?_, hne, hmr.symm⟩
    split at hm
    · exact List.mem_of_mem_tail hm
    · exact hm

theorem Owned.displays_navbar (h : g.Owned) (hopen : g.closed t = false)
    (hbucketed : g.bucketed t = g.children t) :
    g.Displays t ((g.bucketize t).1.renderAll g.addBuckets.2.toList s label) := by
  have hnodes := h.older_navbar_eq_flat hopen hbucketed s label
  rw [h.map_node?_render, if_pos rfl] at hnodes
  constructor
  · intro m hm hne
    have hrow := List.mem_map_of_mem (f := fun m => some (g.node m)) (h.mem_tail_shown.2 ⟨hm, hne⟩)
    rw [← hnodes] at hrow
    obtain ⟨r, hr, hmr⟩ := List.mem_map.1 hrow
    exact ⟨r, List.mem_of_mem_filter hr, hmr⟩
  · intro r hr hline
    rw [Row.line_eq] at hline
    rcases h.node?_of_mem_navbar hr with hnode | ⟨k, p, hp, hnode⟩ | ⟨c, hc, m, hm, hnode⟩
    · rw [hnode] at hline
      exact absurd hline (by decide)
    · rw [hnode, Option.map_some, line_bucket hp] at hline
      exact absurd hline (by decide)
    · have hmem : m ∈ (g.shown t).tail := by
        rw [h.shown_eq, List.tail_cons, hopen]
        exact List.mem_flatMap.2 ⟨c, hbucketed ▸ hc, hm⟩
      obtain ⟨hm, hne⟩ := h.mem_tail_shown.1 hmem
      exact ⟨m, hm, hne, hnode⟩

/-- The rows with which the tree below `t` is shown, flat in any style or as a navbar. -/
def ShownBy (g : Forest) (t : NodeId) (rows : List Row) : Prop :=
  (∃ s label hideRoot, rows = (g.tree t).render s label hideRoot) ∨
    ∃ style spacing label, (g.renderNavbar t style spacing label).1 = .ok rows

theorem Owned.displays (h : g.Owned) (ht : (g.node t).line < 1) (hopen : g.closed t = false)
    (hbucketed : g.bucketed t = g.children t) (hrows : g.ShownBy t rows) : g.Displays t rows := by
  rcases hrows with ⟨s, label, hideRoot, rfl⟩ | ⟨style, spacing, label, hrows⟩
  · exact h.displays_render ht s label hideRoot
  · cases hs : Style.resolve style spacing with
    | error e =>
      rw [renderNavbar_of_error hs] at hrows
      cases hrows
    | ok s =>
      rw [renderNavbar_of_ok hs] at hrows
      cases hrows
      exact h.displays_navbar hopen hbucketed

/-! ### The visible node that stands in for another -/

/-- `m` is `n` itself if that is visible from `t`, and otherwise the outermost closed node above it. -/
structure StandsIn (g : Forest) (t n m : NodeId) : Prop where
  shown : g.Shown t m
  above : g.Above m n
  closed : m ≠ n → g.closed m = true

theorem StandsIn.eq_of_shown (h : g.StandsIn t n m) (hn : g.Shown t n) : m = n := by
  by_contra hne
  have hopen := hn.2 m h.shown.1 h.above hne
  rw [h.closed hne] at hopen
  cases hopen

theorem Owned.exists_standsIn (h : g.Owned) (hn : g.Above t n) : ∃ m, g.StandsIn t n m := by
  induction hn using ReflTransGen.head_induction_on with
  | refl => exact ⟨n, h.shown_self n, .refl, fun hne => absurd rfl hne⟩
  | @head t c hp hc ih =>
    cases ht : g.closed t with
    | true => exact ⟨t, h.shown_self t, .head hp hc, fun _ => ht⟩
    | false =>
      obtain ⟨m, hm⟩ := ih
      exact ⟨m, ((h.shown_cons hp).2 ⟨ht, hm.shown⟩).1, hm.above, hm.closed⟩

/-- No visible node comes between a node and the one that stands in for it. -/
theorem Nested.position_le (h : Nested f g ds k) (hw : WellDedented (indents ds))
    (hfold : Refolded g g') (hm : g'.StandsIn t (f.size + 1 + i) (f.size + 1 + j)) (hi : i < k)
    (hl : g'.Shown t (f.size + 1 + l)) (hli : l ≤ i) : l ≤ j := by
  refine Nat.le_of_not_lt fun hjl => ?_
  have hji : f.size + 1 + j ≠ f.size + 1 + i := by omega
  have hjl' : f.size + 1 + j ≠ f.size + 1 + l := by omega
  have hwithin := (h.above_iff hw hi).1 (hfold.above_iff.1 hm.above)
  -- the node in between would lie below a closed node
  have habove : g'.Above (f.size + 1 + j) (f.size + 1 + l) :=
    hfold.above_iff.2 ((h.above_iff hw (Nat.lt_of_le_of_lt hli hi)).2 (hwithin.mono hjl.le hli))
  have hopen := hl.2 _ hm.shown.1 habove hjl'
  rw [hm.closed hji] at hopen
  cases hopen

/-! ### The row of a declaration -/

theorem Refolded.standsFor_iff (h : Refolded g g') (hg : g.Owned) {root : NodeId} :
    g'.StandsFor root n d ↔ g.StandsFor root n d := by
  rw [StandsFor, StandsFor, h.walk_eq hg, h.node]

section Lines

variable {item? : List Char → Option Item} {text : String} {e : Declaration}

theorem one_le_line (hd : d ∈ declarations item? text) : 1 ≤ d.line := by
  obtain ⟨k, _, _, _, _, rfl⟩ := mem_declarations.1 hd
  show (1 : Int) ≤ k + 1
  omega

/-- The visible nodes other than the root are nodes of declarations. -/
theorem Nested.exists_line (h : Nested f g ds ds.length) (hf : f.Owned) (hfold : Refolded g g')
    (hm : m ∈ g'.shown f.size) (hne : m ≠ f.size) :
    ∃ j d, ds[j]? = some d ∧ m = f.size + 1 + j ∧ (g'.node m).line = d.line := by
  have howned := hfold.owned h.reached.owned
  have hwalk := (howned.shown_sublist_walk f.size).subset hm
  rw [hfold.walk_eq h.reached.owned] at hwalk
  obtain ⟨d, -, hd⟩ := h.standsFor_of_mem hf hwalk hne
  obtain ⟨j, hj, rfl⟩ := (h.standsFor_iff hf).1 hd
  refine ⟨j, d, hj, rfl, ?_⟩
  rw [hfold.node, Node.line, hd.2.2]
  rfl

/-- Up to the line of a declaration there is a row: that of the node that stands in for its node. -/
theorem Nested.exists_row_standsIn
    (h : Nested f g (declarations item? text) (declarations item? text).length) (hf : f.Owned)
    (hw : WellDedented (indents (declarations item? text))) (hfold : Refolded g g')
    (hopen : g'.closed f.size = false) (hrows : g'.Displays f.size rows)
    (hi : (declarations item? text)[i]? = some d) (hm : g'.StandsIn f.size (f.size + 1 + i) m) :
    ∃ j e r, (declarations item? text)[j]? = some e ∧ m = f.size + 1 + j ∧ j ≤ i ∧
      r ∈ rows ∧ r.node? = some (g'.node m) ∧ r.line = e.line := by
  have howned := hfold.owned h.reached.owned
  have hne : m ≠ f.size := by
    rintro rfl
    have hroot : f.size ≠ f.size + 1 + i := by omega
    rw [hm.closed hroot] at hopen
    cases hopen
  have hshown := howned.mem_shown.2 hm.shown
  obtain ⟨j, e, hj, rfl, hline⟩ := h.exists_line hf hfold hshown hne
  obtain ⟨r, hr, hnode⟩ := hrows.exists_row _ hshown hne
  have hlen := (List.getElem?_eq_some_iff.1 hi).1
  have hji := ((h.above_iff hw hlen).1 (hfold.above_iff.1 hm.above)).1
  refine ⟨j, e, r, hj, rfl, hji, hr, hnode, ?_⟩
  rw [Row.line_eq, hnode, ← hline]
  rfl

theorem Nested.rowIndexForLine_eq_none_iff
    (h : Nested f g (declarations item? text) (declarations item? text).length) (hf : f.Owned)
    (hw : WellDedented (indents (declarations item? text))) (hfold : Refolded g g')
    (hopen : g'.closed f.size = false) (hrows : g'.Displays f.size rows) :
    rowIndexForLine rows line = none ↔ ∀ d ∈ declarations item? text, line < d.line := by
  have howned := hfold.owned h.reached.owned
  rw [Outliner.rowIndexForLine_eq_none_iff]
  constructor
  · intro hout d hd
    obtain ⟨i, hi⟩ := List.mem_iff_getElem?.1 hd
    have hn := (hfold.standsFor_iff h.reached.owned).2 ((h.standsFor_iff hf).2 ⟨i, hi, rfl⟩)
    obtain ⟨m, hm⟩ := howned.exists_standsIn (howned.mem_walk.1 hn.1)
    obtain ⟨j, e, r, hj, -, hji, hr, -, hre⟩ :=
      h.exists_row_standsIn hf hw hfold hopen hrows hi hm
    have hpos := one_le_line (List.mem_of_getElem? hj)
    have hle := (Outliner.line_le_iff hj hi).2 hji
    have hlt := hout r hr (by omega)
    omega
  · intro hout r hr hpos
    obtain ⟨m, hm, hne, hnode⟩ := hrows.exists_node r hr hpos
    obtain ⟨j, e, hj, -, hre⟩ := h.exists_line hf hfold hm hne
    rw [Row.line_eq, hnode, Option.map_some, Option.getD_some, hre]
    exact hout e (List.mem_of_getElem? hj)

/-- The row that is found is that of the node that stands in for the node of the last declaration. -/
theorem Nested.node?_of_rowIndexForLine
    (h : Nested f g (declarations item? text) (declarations item? text).length) (hf : f.Owned)
    (hw : WellDedented (indents (declarations item? text))) (hfold : Refolded g g')
    (hopen : g'.closed f.size = false) (hrows : g'.Displays f.size rows)
    (hi : (declarations item? text)[i]? = some d) (hm : g'.StandsIn f.size (f.size + 1 + i) m)
    (hdl : d.line ≤ line) (hlast : ∀ e ∈ declarations item? text, e.line ≤ line → e.line ≤ d.line)
    (hfound : rowIndexForLine rows line = some k) :
    ∃ r, rows[k]? = some r ∧ r.node? = some (g'.node m) := by
  have howned := hfold.owned h.reached.owned
  obtain ⟨j, e, r, hj, rfl, hji, hr, -, hre⟩ := h.exists_row_standsIn hf hw hfold hopen hrows hi hm
  obtain ⟨r', hnearest⟩ := nearestRow_of_rowIndexForLine hfound
  obtain ⟨m', hm', hne', hnode'⟩ :=
    hrows.exists_node r' (List.mem_of_getElem? hnearest.getElem?) hnearest.one_le
  obtain ⟨l, e', hl, rfl, hre'⟩ := h.exists_line hf hfold hm' hne'
  have hline' : r'.line = e'.line := by
    rw [Row.line_eq, hnode', Option.map_some, Option.getD_some, hre']
  -- the row that is found stands neither after nor before the expected one
  have hlj : l ≤ j := by
    have hel := hlast e' (List.mem_of_getElem? hl) (hline' ▸ hnearest.le)
    have hlen := (List.getElem?_eq_some_iff.1 hi).1
    exact h.position_le hw hfold hm hlen (howned.mem_shown.1 hm') ((Outliner.line_le_iff hl hi).1 hel)
  have hjl : j ≤ l := by
    have hpos := one_le_line (List.mem_of_getElem? hj)
    have hle := (Outliner.line_le_iff hj hi).2 hji
    have hbest := hnearest.greatest r hr (by omega) (by omega)
    exact (Outliner.line_le_iff hj hl).1 (by omega)
  cases Nat.le_antisymm hlj hjl
  exact ⟨r', hnearest.getElem?, hnode'⟩

end Lines

/-- Let every dedent of a text return into an open block, let its outline be folded in any way that leaves
the root open, and take the rows of its flat view or of its navbar. For a line above all declarations no
row is found. Otherwise the last declaration that starts at or above the line has a node `n`, and the row
that is found is that of `n` if `n` is visible, and that of the outermost closed node above `n` if it is
hidden. -/
theorem rowIndexForLine_of_wellDedented (h : f.Reached) (text : String)
    (hw : WellDedented (indents (declarations Line.item? text)))
    (hfold : Refolded (f.addOutline (declarations Line.item? text)) g)
    (hopen : g.closed f.size = false) (hrows : g.ShownBy f.size rows) (line : Int) :
    let ds := declarations Line.item? text
    (rowIndexForLine rows line = none ↔ ∀ d ∈ ds, line < d.line) ∧
      ∀ d ∈ ds, d.line ≤ line → (∀ e ∈ ds, e.line ≤ line → e.line ≤ d.line) →
        (∃ n, g.StandsFor f.size n d) ∧ ∀ n, g.StandsFor f.size n d →
          ∃ i r m, rowIndexForLine rows line = some i ∧ rows[i]? = some r ∧
            r.node? = some (g.node m) ∧ (g.Shown f.size n → m = n) ∧
            (¬ g.Shown f.size n → m ≠ n ∧ g.Above m n ∧ g.closed m = true ∧ g.Shown f.size m) := by
  intro ds
  have hg : Nested f _ ds ds.length := nested_addOutline h ds
  have howned := hfold.owned hg.reached.owned
  have hline : (g.node f.size).line < 1 := by
    rw [hfold.node, Node.line, hg.root]
    decide
  have hbucketed : g.bucketed f.size = g.children f.size := by
    rw [hfold.bucketed_eq, bucketed_addOutline h, hfold.children]
  have hshow := howned.displays hline hopen hbucketed hrows
  have hnone : rowIndexForLine rows line = none ↔ ∀ d ∈ ds, line < d.line :=
    hg.rowIndexForLine_eq_none_iff h.owned hw hfold hopen hshow
  have hstands : ∀ n d, g.StandsFor f.size n d ↔ ∃ i, ds[i]? = some d ∧ n = f.size + 1 + i :=
    fun n d => (hfold.standsFor_iff hg.reached.owned).trans (hg.standsFor_iff h.owned)
  refine ⟨hnone, fun d hd hdl hlast => ⟨?_, fun n hn => ?_⟩⟩
  · obtain ⟨i, hi⟩ := List.mem_iff_getElem?.1 hd
    exact ⟨_, (hstands _ d).2 ⟨i, hi, rfl⟩⟩
  obtain ⟨m, hm⟩ := howned.exists_standsIn (howned.mem_walk.1 hn.1)
  obtain ⟨i, hi, rfl⟩ := (hstands n d).1 hn
  cases hfound : rowIndexForLine rows line with
  | none => exact absurd (hnone.1 hfound d hd) (Int.not_lt.2 hdl)
  | some j =>
    obtain ⟨r, hr, hnode⟩ :=
      hg.node?_of_rowIndexForLine h.owned hw hfold hopen hshow hi hm hdl hlast hfound
    refine ⟨j, r, m, rfl, hr, hnode, hm.eq_of_shown, fun hhidden => ?_⟩
    have hne : m ≠ f.size + 1 + i := by
      rintro rfl
      exact hhidden hm.shown
    exact ⟨hne, hm.above, hm.closed hne, hm.shown⟩

/-- The class `C` is closed in the navbar. The row of the line of its method `d` is that of `C`. -/
theorem rowIndexForLine_of_wellDedented_closed :
    let ds := declarations Line.item? indentedStart
    let g := (empty.addOutline ds).collapse 3
    WellDedented (indents ds) ∧ g.closed 0 = false ∧
      g.StandsFor 0 4 ⟨⟨"d", .function, 4⟩, 4⟩ ∧
      ∃ rows, (g.renderNavbar 0 "box" 0 Node.markedName).1 = .ok rows ∧
        ∃ i r, rowIndexForLine rows 4 = some i ∧ rows[i]? = some r ∧ r.node? = some (g.node 3) := by
  intro ds g
  have hds : ds = _ := declarations_indentedStart
  have hg : Nested empty (empty.addOutline ds) ds ds.length := nested_addOutline .empty ds
  have hfold : Refolded (empty.addOutline ds) g := .setClosed _ 3 true
  have howned := hfold.owned hg.reached.owned
  have hopen : g.closed 0 = false :=
    (closed_setClosed_of_ne (by decide)).trans (closed_addOutline_root .empty ds)
  have hstands : ∀ n d, ds[n]? = some d → g.StandsFor 0 (0 + 1 + n) d := fun n d hn =>
    (hfold.standsFor_iff hg.reached.owned).2 ((hg.standsFor_iff .empty).2 ⟨n, hn, rfl⟩)
  have hC := hstands 2 ⟨⟨"C", .classDef, 2⟩, 3⟩ (by rw [hds]; rfl)
  have hmem : ⟨⟨"d", .function, 4⟩, 4⟩ ∈ ds := by
    rw [hds]
    decide
  have hd := hstands 3 ⟨⟨"d", .function, 4⟩, 4⟩ (by rw [hds]; rfl)
  obtain ⟨s, hs⟩ := Style.exists_resolve (by decide : "box" ∈ Style.names) (by decide : (0 : Int) ≤ 0)
  have hrows : (g.renderNavbar 0 "box" 0 Node.markedName).1 = .ok _ :=
    congrArg Prod.fst (howned.renderNavbar_eq hs)
  refine ⟨wellDedented_indentedStart, hopen, hd, _, hrows, ?_⟩
  obtain ⟨i, r, m, hfound, hr, hnode, -, hclosed⟩ :=
    ((rowIndexForLine_of_wellDedented .empty indentedStart wellDedented_indentedStart hfold hopen
      (.inr ⟨"box", 0, Node.markedName, hrows⟩) 4).2 _ hmem (by decide) (fun e _ he => he)).2 4 hd
  -- `C` is the only closed node
  have hm : g.closed m = true → g.Above 0 m → m = 3 := by
    intro hm habove
    by_contra hne
    have hm' : (empty.addOutline ds).closed m = true := (closed_setClosed_of_ne hne).symm.trans hm
    rcases (hg.mem_walk .empty).1 (hg.reached.owned.mem_walk.2 (hfold.above_iff.1 habove)) with
      rfl | ⟨j, hj, rfl⟩
    · rw [closed_addOutline_root .empty ds] at hm'
      cases hm'
    · rw [hg.closed j hj] at hm'
      cases hm'
  have hhidden : ¬ g.Shown 0 4 := by
    intro hshown
    have hparent : g.parent? 4 = some 3 :=
      (hfold.parent? 4).trans ((hg.parent? 3 (by rw [hds]; decide)).trans (by rw [hds]; decide))
    have hopen := hshown.2 3 (howned.mem_walk.1 hC.1) (.single hparent) (by decide)
    have hlt : 3 < (empty.addOutline ds).size := by
      rw [hg.size, hds]
      decide
    have hclosed : g.closed 3 = true := closed_setClosed.trans (if_pos ⟨rfl, hlt⟩)
    rw [hclosed] at hopen
    cases hopen
  obtain ⟨-, -, hclosed, hshown⟩ := hclosed hhidden
  exact ⟨i, r, hfound, hr, hm hclosed hshown.1 ▸ hnode⟩

end Forest

end Outliner
