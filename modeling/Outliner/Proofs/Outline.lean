import Outliner.Line
import Outliner.Outline.Build
import Outliner.Proofs.Descent
import Outliner.Proofs.Nesting
import Outliner.Proofs.Runs

/-!
# The nodes of an outline

`Forest.addOutline` makes a node for the root and then one for each declaration, so the ids of an
outline are consecutive: the root has the id `f.size`, and `outlineNode f.size (some j)` is the node of
the declaration at position `j`. `Nested f g ds k` says what `g` looks like after `k` declarations;
each `addDeclaration` takes it from `k` to `k + 1` (`Nested.addDeclaration`) and sorting keeps it.

Since every parent is found among the nodes made before, all nodes of the outline lie below its root
(`Nested.mem_walk`). The main statement, `outline_nodes_of_matched_lines`, says that they stand for the
lines that declare something, one for each.
-/

namespace Outliner

/-! ### The declarations of a text -/

section Declarations

open Declaration

variable {d e : Declaration} {ds : List Declaration} {item? : List Char → Option Item} {text : String}
  {j k n : Nat} {items : List (Option Item)}

theorem Declaration.mem_ofItemsFrom :
    d ∈ ofItemsFrom n items
      ↔ ∃ (k : Nat) (item : Item), items[k]? = some (some item) ∧ d = { item with line := n + k } := by
  induction items generalizing n with
  | nil => simp [ofItemsFrom]
  | cons head items ih =>
    have hshift : (∃ (k : Nat) (item : Item), items[k]? = some (some item)
          ∧ d = { item with line := (n + 1 : Nat) + k })
        ↔ ∃ (k : Nat) (item : Item), (head :: items)[k + 1]? = some (some item)
            ∧ d = { item with line := n + (k + 1 : Nat) } := by
      refine exists_congr fun k => exists_congr fun item => ?_
      rw [List.getElem?_cons_succ, Int.natCast_add, Int.natCast_add, Int.add_assoc,
        Int.add_comm (1 : Nat)]
    cases head with
    | none =>
      rw [ofItemsFrom, ih, hshift]
      refine ⟨fun ⟨k, hk⟩ => ⟨k + 1, hk⟩, fun ⟨k, item, hk, hd⟩ => ?_⟩
      cases k with
      | zero => cases hk
      | succ k => exact ⟨k, item, hk, hd⟩
    | some head =>
      rw [ofItemsFrom, List.mem_cons, ih, hshift]
      constructor
      · rintro (rfl | ⟨k, hk⟩)
        · exact ⟨0, head, rfl, by simp⟩
        · exact ⟨k + 1, hk⟩
      · rintro ⟨k, item, hk, hd⟩
        cases k with
        | zero =>
          cases hk
          exact .inl (by simpa using hd)
        | succ k => exact .inr ⟨k, item, hk, hd⟩

theorem Declaration.le_line_of_mem (h : d ∈ ofItemsFrom n items) : n ≤ d.line := by
  obtain ⟨k, item, -, rfl⟩ := mem_ofItemsFrom.1 h
  show (n : Int) ≤ n + k
  omega

theorem Declaration.pairwise_line_lt (n : Nat) (items : List (Option Item)) :
    (ofItemsFrom n items).Pairwise fun d e => d.line < e.line := by
  induction items generalizing n with
  | nil => exact .nil
  | cons head items ih =>
    cases head with
    | none => exact ih (n + 1)
    | some head =>
      refine List.pairwise_cons.2 ⟨fun d hd => ?_, ih (n + 1)⟩
      have hle := le_line_of_mem hd
      show (n : Int) < d.line
      omega

/-- The declarations of a text are those of its lines, numbered from 1. -/
theorem mem_declarations :
    d ∈ declarations item? text
      ↔ ∃ (k : Nat) (line : List Char) (item : Item), (Text.lines text)[k]? = some line
          ∧ item? line = some item ∧ d = { item with line := k + 1 } := by
  rw [declarations, ofItems, mem_ofItemsFrom]
  refine exists_congr fun k => ?_
  rw [List.getElem?_map, Int.add_comm]
  constructor
  · rintro ⟨item, hitem, rfl⟩
    obtain ⟨line, hline, hitem⟩ := Option.map_eq_some_iff.1 hitem
    exact ⟨line, item, hline, hitem, rfl⟩
  · rintro ⟨line, item, hline, hitem, rfl⟩
    exact ⟨item, by rw [hline, Option.map_some, hitem], rfl⟩

/-- Declarations stand in the order of their lines. -/
theorem line_lt_iff (hj : (declarations item? text)[j]? = some d)
    (hk : (declarations item? text)[k]? = some e) : d.line < e.line ↔ j < k := by
  obtain ⟨hj', rfl⟩ := List.getElem?_eq_some_iff.1 hj
  obtain ⟨hk', rfl⟩ := List.getElem?_eq_some_iff.1 hk
  have hlt := List.pairwise_iff_getElem.1 (pairwise_line_lt 1 ((Text.lines text).map item?))
  refine ⟨fun h => ?_, hlt j k hj' hk'⟩
  rcases Nat.lt_trichotomy j k with hjk | rfl | hkj
  · exact hjk
  · exact absurd h (Int.lt_irrefl _)
  · exact absurd h (Int.lt_asymm (hlt k j hk' hj' hkj))

theorem line_le_iff (hj : (declarations item? text)[j]? = some d)
    (hk : (declarations item? text)[k]? = some e) : d.line ≤ e.line ↔ j ≤ k := by
  rw [← Int.not_lt, line_lt_iff hk hj, Nat.not_lt]

theorem line_inj (hj : (declarations item? text)[j]? = some d)
    (hk : (declarations item? text)[k]? = some e) (h : d.line = e.line) : j = k := by
  have hjk := (line_le_iff hj hk).1 (Int.le_of_eq h)
  have hkj := (line_le_iff hk hj).1 (Int.le_of_eq h.symm)
  exact Nat.le_antisymm hjk hkj

end Declarations

/-- The indents of declarations, in their order. -/
def indents (ds : List Declaration) : List Int := ds.map fun d => d.indent

theorem getElem!_indents {ds : List Declaration} {d : Declaration} {k : Nat} (h : ds[k]? = some d) :
    (indents ds)[k]! = d.indent := by
  rw [List.getElem!_eq_getElem?_getD, indents, List.getElem?_map, h]
  rfl

namespace Forest

open Nesting

variable {f g : Forest} {ds : List Declaration} {d : Declaration} {j k m n p : Nat}

/-! ### One declaration at a time -/

/-- The node for the declaration at a position, in the outline with the given root; `none` is the root
itself. -/
def outlineNode (root : NodeId) : Option Nat → NodeId
  | none => root
  | some position => root + 1 + position

theorem outlineNode_eq_some_iff {root : NodeId} {q? : Option Nat} :
    outlineNode root q? = root + 1 + j ↔ q? = some j := by
  cases q? with
  | none =>
    refine ⟨fun h => absurd h ?_, fun h => (nomatch h)⟩
    exact Nat.ne_of_lt (Nat.lt_add_right j (Nat.lt_succ_self root))
  | some q => rw [outlineNode, Nat.add_right_inj, Option.some.injEq]

theorem addDeclaration_eq (root : NodeId) (d : Declaration) (p : Placement) :
    f.addDeclaration root (d, p)
      = (f.add (.declared d) false).append (outlineNode root p.parent?) f.size := by
  obtain ⟨_ | position, stranded⟩ := p <;> rfl

theorem parent_lt_outlineNode (root : NodeId) (ds : List Declaration) (k : Nat) :
    outlineNode root (parentAt (indents ds) k) < root + 1 + k := by
  cases hp : parentAt (indents ds) k with
  | none => exact Nat.lt_add_right k (Nat.lt_succ_self root)
  | some p => exact Nat.add_lt_add_left (parentAt_lt hp).1 (root + 1)

/-- `g` is `f` with the root of an outline and the first `k` of `ds` in it. -/
structure Nested (f g : Forest) (ds : List Declaration) (k : Nat) : Prop where
  reached : g.Reached
  size : g.size = f.size + 1 + k
  parentless : g.parent? f.size = none
  root : (g.node f.size).content = .declared .root
  content : ∀ j d, j < k → ds[j]? = some d → (g.node (f.size + 1 + j)).content = .declared d
  closed : ∀ j, j < k → g.closed (f.size + 1 + j) = false
  parent? : ∀ j, j < k →
    g.parent? (f.size + 1 + j) = some (outlineNode f.size (parentAt (indents ds) j))
  outside : ∀ m, m < f.size → g.parent? m = f.parent? m

theorem Nested.root_lt (h : Nested f g ds k) : f.size < g.size := by
  rw [h.size]
  exact Nat.lt_add_right k (Nat.lt_succ_self f.size)

theorem Nested.outlineNode_lt (h : Nested f g ds k) (hj : j < k) : f.size + 1 + j < g.size :=
  h.size ▸ Nat.add_lt_add_left hj (f.size + 1)

theorem Nested.start (h : f.Reached) (ds : List Declaration) :
    Nested f (f.add (.declared .root) false) ds 0 where
  reached := h.step (.create _ _) trivial
  size := size_add ..
  parentless := by rw [parent?_add, parent?_of_size_le (Nat.le_refl _)]
  root := by rw [node_add_self]
  content j d hj _ := absurd hj (Nat.not_lt_zero j)
  closed j hj := absurd hj (Nat.not_lt_zero j)
  parent? j hj := absurd hj (Nat.not_lt_zero j)
  outside m _ := parent?_add ..

theorem Nested.parent?_eq_some_iff (h : Nested f g ds k) (hj : j < k) :
    g.parent? (f.size + 1 + j) = some (f.size + 1 + p) ↔ parentAt (indents ds) j = some p := by
  rw [h.parent? j hj, Option.some.injEq, outlineNode_eq_some_iff]

/-- The next declaration gets the next id, and its parent is there already. -/
theorem Nested.addDeclaration (h : Nested f g ds k) (hd : ds[k]? = some d) :
    Nested f (g.addDeclaration f.size (d, placementAt (indents ds) k)) ds (k + 1) := by
  have hparent : outlineNode f.size (parentAt (indents ds) k) < g.size :=
    h.size ▸ parent_lt_outlineNode f.size ds k
  have hallowed : (Operation.append (outlineNode f.size (parentAt (indents ds) k)) g.size).Allowed
      (g.add (.declared d) false) := by
    refine ⟨lt_size_add hparent, ?_, fun habove => ?_⟩
    · rw [size_add]
      exact Nat.lt_succ_self g.size
    -- nothing lies below the new node yet
    · have habove := Above.of_agree (fun m _ => parent?_add ..) habove
      exact absurd (h.reached.owned.above_lt hparent habove) (Nat.lt_irrefl g.size)
  rw [addDeclaration_eq]
  refine ⟨(h.reached.step (.create _ _) trivial).step (.append _ _) hallowed,
    ?_, ?_, ?_, ?_, ?_, ?_, ?_⟩
  · rw [size_append, size_add, h.size, Nat.add_assoc]
  · rw [parent?_append_of_ne (Nat.ne_of_gt h.root_lt), parent?_add, h.parentless]
  · rw [node_append, node_add_of_lt _ _ h.root_lt, h.root]
  · intro j e hj he
    rw [node_append]
    rcases Nat.lt_succ_iff_lt_or_eq.1 hj with hj | rfl
    · rw [node_add_of_lt _ _ (h.outlineNode_lt hj), h.content j e hj he]
    · rw [← h.size, node_add_self, ← Option.some.inj (hd.symm.trans he)]
  · intro j hj
    rw [closed_append]
    rcases Nat.lt_succ_iff_lt_or_eq.1 hj with hj | rfl
    · rw [closed_add_of_lt _ _ (h.outlineNode_lt hj), h.closed j hj]
    · rw [← h.size, closed_add_self]
  · intro j hj
    rcases Nat.lt_succ_iff_lt_or_eq.1 hj with hj | rfl
    · rw [parent?_append_of_ne (Nat.ne_of_gt (h.outlineNode_lt hj)), parent?_add, h.parent? j hj]
    · rw [← h.size, parent?_append_self (by rw [size_add]; exact Nat.lt_succ_self g.size)]
      rfl
  · intro m hm
    rw [parent?_append_of_ne (Nat.ne_of_gt (hm.trans h.root_lt)), parent?_add, h.outside m hm]

theorem Nested.sortBelow (h : Nested f g ds k) (le : Node → Node → Bool) :
    Nested f (g.sortBelow f.size le) ds k where
  reached := h.reached.step (.sortBelow _ _) trivial
  size := by rw [size_sortBelow, h.size]
  parentless := by rw [parent?_sortBelow, h.parentless]
  root := by rw [node_sortBelow, h.root]
  content j d hj hd := by rw [node_sortBelow, h.content j d hj hd]
  closed j hj := by rw [closed_sortBelow, h.closed j hj]
  parent? j hj := by rw [parent?_sortBelow, h.parent? j hj]
  outside m hm := by rw [parent?_sortBelow, h.outside m hm]

theorem getElem_zip_placements (hk : k < (ds.zip (Declaration.placements ds)).length) :
    ds[k]? = some (ds.zip (Declaration.placements ds))[k].1
      ∧ (ds.zip (Declaration.placements ds))[k].2 = placementAt (indents ds) k := by
  rw [List.getElem_zip]
  refine ⟨List.getElem?_eq_getElem _, ?_⟩
  simp only [Declaration.placements, placements_eq_map, List.getElem_map, List.getElem_range]
  rfl

/-- What holds at the start of a loop over the placed declarations and is kept by each pass holds at the
end. -/
theorem foldl_placed_induction {α : Type} {motive : Nat → α → Prop} {pass : α → Declaration × Placement → α}
    {a : α} (start : motive 0 a)
    (step : ∀ k d x, ds[k]? = some d → motive k x →
      motive (k + 1) (pass x (d, placementAt (indents ds) k))) :
    motive ds.length ((ds.zip (Declaration.placements ds)).foldl pass a) := by
  have hlen : (ds.zip (Declaration.placements ds)).length = ds.length := by
    simp [Declaration.placements, length_placements]
  have hloop : motive (ds.zip (Declaration.placements ds)).toArray.size
      ((ds.zip (Declaration.placements ds)).toArray.foldl pass a) := by
    refine Array.foldl_induction motive start fun k x hx => ?_
    obtain ⟨hd, hplace⟩ := getElem_zip_placements k.2
    have hstep := step k _ x hd hx
    rw [← hplace] at hstep
    exact hstep
  rw [List.foldl_toArray, List.size_toArray, hlen] at hloop
  exact hloop

/-- What holds of the root alone and is kept by each declaration holds of the whole outline. -/
theorem addNested_induction {motive : Nat → Forest → Prop}
    (start : motive 0 (f.add (.declared .root) false))
    (step : ∀ k d g, ds[k]? = some d → motive k g →
      motive (k + 1) (g.addDeclaration f.size (d, placementAt (indents ds) k))) :
    motive ds.length (f.addNested ds) :=
  foldl_placed_induction start step

theorem nested_addNested (h : f.Reached) (ds : List Declaration) :
    Nested f (f.addNested ds) ds ds.length :=
  addNested_induction (motive := fun k g => Nested f g ds k) (.start h ds)
    fun _ _ _ hd hg => hg.addDeclaration hd

/-- An outline is made by a run of creations and moves; its nodes are consecutive. -/
theorem nested_addOutline (h : f.Reached) (ds : List Declaration) :
    Nested f (f.addOutline ds) ds ds.length :=
  (nested_addNested h ds).sortBelow _

theorem closed_addOutline_root (h : f.Reached) (ds : List Declaration) :
    (f.addOutline ds).closed f.size = false := by
  have hloop : Nested f (f.addNested ds) ds ds.length ∧ (f.addNested ds).closed f.size = false := by
    refine addNested_induction (motive := fun k g => Nested f g ds k ∧ g.closed f.size = false) ?_ ?_
    · exact ⟨.start h ds, closed_add_self _ _⟩
    · intro k d g hd hg
      refine ⟨hg.1.addDeclaration hd, ?_⟩
      rw [addDeclaration_eq, closed_append, closed_add_of_lt _ _ hg.1.root_lt, hg.2]
  rw [addOutline, closed_sortBelow, hloop.2]

/-! ### The nodes below the root -/

theorem Nested.above (h : Nested f g ds k) (hj : j < k) : g.Above f.size (f.size + 1 + j) := by
  induction j using Nat.strong_induction_on with
  | h j ih =>
    have hp := h.parent? j hj
    cases hq : parentAt (indents ds) j with
    | none =>
      rw [hq] at hp
      exact .single hp
    | some p =>
      rw [hq] at hp
      have hpj : p < j := (parentAt_lt hq).1
      exact (ih p hpj (hpj.trans hj)).tail hp

theorem Nested.mem_walk (h : Nested f g ds k) (hf : f.Owned) :
    n ∈ g.walk f.size ↔ n = f.size ∨ ∃ j, j < k ∧ n = f.size + 1 + j := by
  rw [h.reached.owned.mem_walk]
  constructor
  · intro habove
    rcases Nat.lt_trichotomy n f.size with hlt | heq | hgt
    -- the older nodes have only older nodes above them
    · have hold : f.Above f.size n :=
        .of_agree (fun m hm => h.outside m (hf.above_lt hlt hm)) habove
      exact absurd (hf.above_lt hlt hold) (Nat.lt_irrefl f.size)
    · exact .inl heq
    · obtain ⟨j, rfl⟩ := Nat.exists_eq_add_of_le (Nat.succ_le_of_lt hgt)
      refine .inr ⟨j, Nat.lt_of_not_le fun hle => ?_, rfl⟩
      have hnone : g.parent? (f.size + 1 + j) = none :=
        parent?_of_size_le (h.size ▸ Nat.add_le_add_left hle (f.size + 1))
      exact Nat.ne_of_lt hgt (habove.eq_of_parentless hnone)
  · rintro (rfl | ⟨j, hj, rfl⟩)
    · exact .refl
    · exact h.above hj

theorem Nested.exists_outlineNode (h : Nested f g ds ds.length) (hf : f.Owned)
    (hn : n ∈ g.walk f.size) :
    ∃ q? : Option Nat, n = outlineNode f.size q? ∧ ∀ q ∈ q?, q < ds.length := by
  rcases (h.mem_walk hf).1 hn with rfl | ⟨j, hj, rfl⟩
  · exact ⟨none, rfl, by simp⟩
  · exact ⟨some j, rfl, by simpa using hj⟩

/-- `n` is the node of `d` in the outline with the given root. -/
def StandsFor (g : Forest) (root n : NodeId) (d : Declaration) : Prop :=
  n ∈ g.walk root ∧ n ≠ root ∧ (g.node n).content = .declared d

theorem Nested.standsFor_iff (h : Nested f g ds ds.length) (hf : f.Owned) :
    g.StandsFor f.size n d ↔ ∃ j, ds[j]? = some d ∧ n = f.size + 1 + j := by
  constructor
  · rintro ⟨hn, hne, hd⟩
    rcases (h.mem_walk hf).1 hn with rfl | ⟨j, hj, rfl⟩
    · exact absurd rfl hne
    · refine ⟨j, ?_, rfl⟩
      rw [h.content j ds[j] hj (List.getElem?_eq_getElem hj), Content.declared.injEq] at hd
      rw [← hd, List.getElem?_eq_getElem hj]
  · rintro ⟨j, hj, rfl⟩
    obtain ⟨hjk, -⟩ := List.getElem?_eq_some_iff.1 hj
    refine ⟨(h.mem_walk hf).2 (.inr ⟨j, hjk, rfl⟩), ?_, h.content j d hjk hj⟩
    exact Nat.ne_of_gt (Nat.lt_add_right j (Nat.lt_succ_self f.size))

theorem Nested.standsFor_of_mem (h : Nested f g ds ds.length) (hf : f.Owned)
    (hn : n ∈ g.walk f.size) (hne : n ≠ f.size) : ∃ d ∈ ds, g.StandsFor f.size n d := by
  rcases (h.mem_walk hf).1 hn with rfl | ⟨j, hj, rfl⟩
  · exact absurd rfl hne
  · have hd := List.getElem?_eq_getElem hj
    exact ⟨ds[j], List.getElem_mem hj, (h.standsFor_iff hf).2 ⟨j, hd, rfl⟩⟩

theorem Nested.standsFor_open (h : Nested f g ds ds.length) (hf : f.Owned)
    (hn : g.StandsFor f.size n d) : g.closed n = false := by
  obtain ⟨j, hj, rfl⟩ := (h.standsFor_iff hf).1 hn
  exact h.closed j (List.getElem?_eq_some_iff.1 hj).1

theorem Nested.standsFor_parent (h : Nested f g ds ds.length) (hf : f.Owned)
    (hn : g.StandsFor f.size n d) : ∃ p ∈ g.walk f.size, g.parent? n = some p := by
  obtain ⟨j, hj, rfl⟩ := (h.standsFor_iff hf).1 hn
  have hp := h.parent? j (List.getElem?_eq_some_iff.1 hj).1
  have howned := h.reached.owned
  rcases (howned.mem_walk.1 hn.1).eq_or_above hp with heq | habove
  · exact absurd heq.symm hn.2.1
  · exact ⟨_, howned.mem_walk.2 habove, hp⟩

/-- No two nodes of an outline have the same line. -/
theorem Nested.eq_of_line {item? : List Char → Option Item} {text : String}
    (h : Nested f g (declarations item? text) (declarations item? text).length) (hf : f.Owned)
    (hn : g.StandsFor f.size n d) (hm : m ∈ g.walk f.size) (hline : (g.node m).line = d.line) :
    m = n := by
  have hd : d ∈ declarations item? text := by
    obtain ⟨j, hj, -⟩ := (h.standsFor_iff hf).1 hn
    exact List.mem_of_getElem? hj
  have hne : m ≠ f.size := by
    rintro rfl
    obtain ⟨k, _, _, _, _, rfl⟩ := mem_declarations.1 hd
    rw [Node.line, h.root] at hline
    -- the root stands for line -1
    exact absurd hline (show ¬ (-1 : Int) = k + 1 by omega)
  obtain ⟨e, -, he⟩ := h.standsFor_of_mem hf hm hne
  rw [Node.line, he.2.2] at hline
  obtain ⟨i, hi, rfl⟩ := (h.standsFor_iff hf).1 he
  obtain ⟨j, hj, rfl⟩ := (h.standsFor_iff hf).1 hn
  rw [line_inj hi hj hline]

/-- The walk through the outline of a text lists the root and a node for every line that declares
something, each once and all of them open, and nothing else. -/
theorem outline_nodes_of_matched_lines (h : f.Reached) (item? : List Char → Option Item)
    (text : String) :
    let g := f.addOutline (declarations item? text)
    (g.walk f.size).Nodup ∧
      (∀ (k : Nat) (line : List Char) (item : Item), (Text.lines text)[k]? = some line →
        item? line = some item →
          ∃ n ∈ g.walk f.size, n ≠ f.size ∧
            (g.node n).content = .declared { item with line := k + 1 } ∧
            ∀ m ∈ g.walk f.size, (g.node m).line = k + 1 → m = n) ∧
      (∀ n ∈ g.walk f.size, n ≠ f.size →
        (∃ (k : Nat) (line : List Char) (item : Item), (Text.lines text)[k]? = some line ∧
          item? line = some item ∧ (g.node n).content = .declared { item with line := k + 1 }) ∧
        g.closed n = false ∧ ∃ p ∈ g.walk f.size, g.parent? n = some p) ∧
      ∀ p c, c ∈ g.children p ↔ g.parent? c = some p := by
  intro g
  have hg : Nested f g (declarations item? text) (declarations item? text).length :=
    nested_addOutline h _
  have howned := hg.reached.owned
  refine ⟨howned.nodup_walk f.size, ?_, ?_, fun p c => howned.mem_children⟩
  · intro k line item hline hitem
    have hd := mem_declarations.2 ⟨k, line, item, hline, hitem, rfl⟩
    obtain ⟨j, hj⟩ := List.mem_iff_getElem?.1 hd
    have hn := (hg.standsFor_iff h.owned).2 ⟨j, hj, rfl⟩
    exact ⟨_, hn.1, hn.2.1, hn.2.2, fun m hm hk => hg.eq_of_line h.owned hn hm hk⟩
  · intro n hn hne
    obtain ⟨d, hd, hstands⟩ := hg.standsFor_of_mem h.owned hn hne
    refine ⟨?_, hg.standsFor_open h.owned hstands, hg.standsFor_parent h.owned hstands⟩
    obtain ⟨k, line, item, hline, hitem, rfl⟩ := mem_declarations.1 hd
    exact ⟨k, line, item, hline, hitem, hstands.2.2⟩

/-- Of a class with a method and a comment the walk shows the class and the method. -/
theorem outline_nodes_of_matched_lines_method :
    let text := "class A:\n  # note\n  def m():"
    let g := empty.addOutline (declarations Line.item? text)
    ∃ n ∈ g.walk 0, n ≠ 0 ∧ (g.node n).content = .declared ⟨⟨"m", .function, 2⟩, 3⟩ ∧
      ∀ m ∈ g.walk 0, (g.node m).line = 3 → m = n := by
  intro text g
  have hlines := (outline_nodes_of_matched_lines .empty Line.item? text).2.1
  exact hlines 2 "  def m():".toList ⟨"m", .function, 2⟩ (by decide) (by decide)

end Forest

end Outliner
