import Mathlib.Data.List.GetD
import Outliner.Proofs.Siblings

/-!
# Text appended to a source

Appended lines declare later items, and no later item has a say in where an earlier one goes: the pass
over the indents has placed it already (`Nesting.parentAt_append`). Sorting a longer list of siblings
keeps the earlier ones in their order, since no two siblings are tied (`Declaration.siblings_append`). So
the old outline is what is left of the new one without the nodes for appended lines
(`outline_of_appended`), and that is a tree, since all below such a node stands for appended lines too.
-/

namespace Outliner

namespace Nesting

variable {is : List Int} {k : Nat}

theorem getElem!_append (js : List Int) (h : k < is.length) : (is ++ js)[k]! = is[k]! := by
  have hk : k < (is ++ js).length := List.length_append ▸ Nat.lt_add_right js.length h
  rw [getElem!_pos (is ++ js) k hk, getElem!_pos is k h, List.getElem_append_left h]

theorem before_append (js : List Int) (h : k ≤ is.length) : before (is ++ js) k = before is k := by
  induction k with
  | zero => rfl
  | succ k ih => rw [before, before, ih (Nat.le_of_lt h), getElem!_append js h]

theorem parentAt_append (js : List Int) (h : k < is.length) :
    parentAt (is ++ js) k = parentAt is k := by
  rw [parentAt, placementAt, before_append js (Nat.le_of_lt h), getElem!_append js h]
  rfl

end Nesting

/-! ### The declarations of a longer text -/

namespace Declaration

open Nesting

variable {ds : List Declaration} {q? : Option Nat} {i j : Nat}

theorem ofItemsFrom_append (n : Nat) (items items' : List (Option Item)) :
    ofItemsFrom n (items ++ items')
      = ofItemsFrom n items ++ ofItemsFrom (n + items.length) items' := by
  induction items generalizing n with
  | nil => rfl
  | cons head items ih =>
    rw [List.length_cons, ← Nat.add_assoc, Nat.add_right_comm]
    cases head with
    | none => exact ih (n + 1)
    | some item => exact congrArg (_ :: ·) (ih (n + 1))

theorem exists_declarations_append (item? : List Char → Option Item) (s t : String) :
    ∃ es, declarations item? (s ++ "\n" ++ t) = declarations item? s ++ es ∧
      (∀ d ∈ declarations item? s, d.line ≤ (Text.lines s).length) ∧
      ∀ e ∈ es, (Text.lines s).length < e.line := by
  refine ⟨ofItemsFrom (1 + ((Text.lines s).map item?).length) ((Text.lines t).map item?), ?_, ?_, ?_⟩
  · rw [declarations, Text.lines_append, List.map_append, ofItems, ofItemsFrom_append]
    rfl
  · intro d hd
    obtain ⟨k, line, item, hline, -, rfl⟩ := mem_declarations.1 hd
    obtain ⟨hk, -⟩ := List.getElem?_eq_some_iff.1 hline
    show (k + 1 : Int) ≤ _
    omega
  · intro e he
    have hle := le_line_of_mem he
    rw [List.length_map] at hle
    omega

theorem parentAt_indents_append (es : List Declaration) (hj : j < ds.length) :
    parentAt (indents (ds ++ es)) j = parentAt (indents ds) j := by
  rw [indents, List.map_append]
  exact parentAt_append _ (by rwa [List.length_map])

theorem kindNameLEAt_append (es : List Declaration) (hi : i < ds.length) (hj : j < ds.length) :
    kindNameLEAt (ds ++ es) i j = kindNameLEAt ds i j := by
  rw [kindNameLEAt, List.getD_append _ _ _ _ hi, List.getD_append _ _ _ _ hj, kindNameLEAt]

/-- The earlier siblings among all, in the order they had before. -/
theorem siblings_append (ds es : List Declaration) (q? : Option Nat) :
    (siblings (ds ++ es) q?).filter (· < ds.length) = siblings ds q? := by
  have hold : ((siblings (ds ++ es) q?).filter (· < ds.length)).Pairwise
      (Precedes (kindNameLEAt ds)) := by
    refine ((pairwise_siblings (ds ++ es) q?).filter _).imp_of_mem fun {i j} hi hj hij => ?_
    have hi' : i < ds.length := of_decide_eq_true (List.mem_filter.1 hi).2
    have hj' : j < ds.length := of_decide_eq_true (List.mem_filter.1 hj).2
    rw [Precedes, kindNameLEAt_append es hi' hj', kindNameLEAt_append es hj' hi'] at hij
    exact hij
  refine eq_of_perm_precedes hold (pairwise_siblings ds q?) ?_
  refine (List.perm_ext_iff_of_nodup ((nodup_siblings _ q?).filter _) (nodup_siblings ds q?)).2 ?_
  intro j
  rw [List.mem_filter, mem_siblings, mem_siblings, decide_eq_true_eq, List.length_append]
  constructor
  · rintro ⟨⟨-, hparent⟩, hj⟩
    exact ⟨hj, parentAt_indents_append es hj ▸ hparent⟩
  · rintro ⟨hj, hparent⟩
    exact ⟨⟨Nat.lt_add_right es.length hj, (parentAt_indents_append es hj).trans hparent⟩, hj⟩

end Declaration

/-! ### Trees without some of their nodes -/

namespace Tree

variable {keep : Node → Bool}

mutual

/-- The tree without the nodes below its root that are not to be kept and without all below those. -/
def prune (keep : Node → Bool) : Tree → Tree
  | mk node closed children => mk node closed (pruneAll keep children)

def pruneAll (keep : Node → Bool) : List Tree → List Tree
  | [] => []
  | t :: ts => if keep t.node then t.prune keep :: pruneAll keep ts else pruneAll keep ts

end

theorem pruneAll_eq (ts : List Tree) :
    pruneAll keep ts = (ts.filter fun t => keep t.node).map (prune keep) := by
  induction ts with
  | nil => rfl
  | cons t ts ih =>
    rw [pruneAll, ih, List.filter_cons]
    split <;> rfl

end Tree

namespace Forest

open Nesting Declaration

variable {f g g' : Forest} {ds es : List Declaration} {q? : Option Nat} {j k : Nat}
  {m n p r : NodeId}

/-- Where the lists of one forest are those of another with some nodes left out, the trees are the
pruned ones. -/
theorem Owned.tree_eq_prune (h : g.Owned) (h' : g'.Owned) (keep : Node → Bool)
    (hsame : ∀ m ∈ g.walk r, g.node m = g'.node m ∧ g.closed m = g'.closed m ∧
      g.children m = (g'.children m).filter fun c => keep (g'.node c)) :
    g.tree r = (g'.tree r).prune keep := by
  induction r using h.descend with
  | step r ih =>
    obtain ⟨hnode, hclosed, hchildren⟩ := hsame r (h.mem_walk.2 .refl)
    have hkept : ((g'.children r).map g'.tree).filter (fun t => keep t.node)
        = (g.children r).map g'.tree := by
      rw [List.filter_map, hchildren]
      refine congrArg _ (List.filter_congr fun c _ => ?_)
      rw [Function.comp_apply, h'.node_tree]
    rw [h.tree_eq, h'.tree_eq, Tree.prune, Tree.pruneAll_eq, hnode, hclosed, hkept, List.map_map]
    refine congrArg _ (List.map_congr_left fun c hc => ih c hc fun m hm => hsame m ?_)
    exact h.mem_walk.2 (.head (h.parent?_of_mem hc) (h.mem_walk.1 hm))

/-! ### The outline of a longer text -/

theorem Nested.root_line_le (h : Nested f g ds j) (k : Nat) : (g.node f.size).line ≤ k := by
  rw [Node.line, h.root]
  exact Int.le_trans (by decide) (Int.natCast_nonneg k)

section Longer

variable (hds : ∀ d ∈ ds, d.line ≤ k) (hes : ∀ e ∈ es, k < e.line)

include hds hes

theorem Nested.line_le_iff (h' : Nested f g' (ds ++ es) (ds ++ es).length)
    (hj : j < (ds ++ es).length) : (g'.node (f.size + 1 + j)).line ≤ k ↔ j < ds.length := by
  rw [Node.line, h'.content j _ hj (List.getElem?_eq_getElem hj)]
  show (ds ++ es)[j].line ≤ k ↔ _
  rcases Nat.lt_or_ge j ds.length with hlt | hge
  · rw [List.getElem_append_left hlt]
    exact iff_of_true (hds _ (List.getElem_mem hlt)) hlt
  · rw [List.getElem_append_right hge]
    exact iff_of_false (Int.not_le.2 (hes _ (List.getElem_mem _))) (Nat.not_lt.2 hge)

/-- A child of a node for an appended line is for an appended line. -/
theorem Nested.lt_line_of_parent? (h' : Nested f g' (ds ++ es) (ds ++ es).length) (hf : f.Owned)
    (hm : m ∈ g'.walk f.size) (hp : g'.IsParent p m) (hlater : k < (g'.node p).line) :
    k < (g'.node m).line := by
  rcases (h'.mem_walk hf).1 hm with rfl | ⟨j, hj, rfl⟩
  · rw [IsParent, h'.parentless] at hp
    cases hp
  · rw [IsParent, h'.parent? j hj, Option.some.injEq] at hp
    cases hq : parentAt (indents (ds ++ es)) j with
    | none =>
      rw [← hp, hq] at hlater
      exact absurd hlater (Int.not_lt.2 (h'.root_line_le k))
    | some i =>
      have hij : i < j := (parentAt_lt hq).1
      rw [← hp, hq] at hlater
      have hi := mt (h'.line_le_iff hds hes (hij.trans hj)).2 (Int.not_le.2 hlater)
      refine Int.not_le.1 fun hle => hi (hij.trans ?_)
      exact (h'.line_le_iff hds hes hj).1 hle

theorem Nested.lt_line_of_mem_walk (h' : Nested f g' (ds ++ es) (ds ++ es).length) (hf : f.Owned)
    (hp : p ∈ g'.walk f.size) (hlater : k < (g'.node p).line) (hm : m ∈ g'.walk p) :
    k < (g'.node m).line := by
  have howned := h'.reached.owned
  rw [howned.mem_walk] at hp hm
  induction hm with
  | refl => exact hlater
  | tail hpm hparent ih =>
    have hc := howned.mem_walk.2 ((hp.trans hpm).tail hparent)
    exact h'.lt_line_of_parent? hds hes hf hc hparent ih

theorem Nested.mem_walk_append (h : Nested f g ds ds.length)
    (h' : Nested f g' (ds ++ es) (ds ++ es).length) (hf : f.Owned) :
    m ∈ g.walk f.size ↔ m ∈ g'.walk f.size ∧ (g'.node m).line ≤ k := by
  rw [h.mem_walk hf, h'.mem_walk hf]
  constructor
  · rintro (rfl | ⟨j, hj, rfl⟩)
    · exact ⟨.inl rfl, h'.root_line_le k⟩
    · have hj' : j < (ds ++ es).length := List.length_append ▸ Nat.lt_add_right es.length hj
      exact ⟨.inr ⟨j, hj', rfl⟩, (h'.line_le_iff hds hes hj').2 hj⟩
  · rintro ⟨rfl | ⟨j, hj, rfl⟩, hle⟩
    · exact .inl rfl
    · exact .inr ⟨j, (h'.line_le_iff hds hes hj).1 hle, rfl⟩

theorem children_addOutline_append (h : f.Reached) (hq : ∀ q ∈ q?, q < ds.length) :
    (f.addOutline ds).children (outlineNode f.size q?)
      = ((f.addOutline (ds ++ es)).children (outlineNode f.size q?)).filter
          fun c => ((f.addOutline (ds ++ es)).node c).line ≤ k := by
  have h' := nested_addOutline h (ds ++ es)
  have hq' : ∀ q ∈ q?, q < (ds ++ es).length := fun q hmem =>
    List.length_append ▸ Nat.lt_add_right es.length (hq q hmem)
  rw [children_addOutline h hq, children_addOutline h hq', List.filter_map, ← siblings_append ds es]
  refine congrArg _ (List.filter_congr fun j hj => ?_)
  rw [Function.comp_apply, decide_eq_decide, h'.line_le_iff hds hes (mem_siblings.1 hj).1]

end Longer

theorem node_eq_of_content (h : (g.node n).content = (g'.node n).content) : g.node n = g'.node n :=
  congrArg (Node.mk n) h

theorem addOutline_append_reads (h : f.Reached) (es : List Declaration) (hq : ∀ q ∈ q?, q < ds.length) :
    (f.addOutline ds).node (outlineNode f.size q?)
        = (f.addOutline (ds ++ es)).node (outlineNode f.size q?) ∧
      (f.addOutline ds).closed (outlineNode f.size q?)
        = (f.addOutline (ds ++ es)).closed (outlineNode f.size q?) ∧
      (f.addOutline ds).parent? (outlineNode f.size q?)
        = (f.addOutline (ds ++ es)).parent? (outlineNode f.size q?) := by
  have hg := nested_addOutline h ds
  have hg' := nested_addOutline h (ds ++ es)
  cases q? with
  | none =>
    refine ⟨node_eq_of_content (hg.root.trans hg'.root.symm), ?_, ?_⟩
    · exact (closed_addOutline_root h ds).trans (closed_addOutline_root h (ds ++ es)).symm
    · exact hg.parentless.trans hg'.parentless.symm
  | some j =>
    have hj : j < ds.length := hq j rfl
    have hj' : j < (ds ++ es).length := List.length_append ▸ Nat.lt_add_right es.length hj
    have hd := List.getElem?_eq_getElem hj
    have hd' : (ds ++ es)[j]? = some ds[j] := (List.getElem?_append_left hj).trans hd
    refine ⟨node_eq_of_content ?_, ?_, ?_⟩
    · exact (hg.content j _ hj hd).trans (hg'.content j _ hj' hd').symm
    · exact (hg.closed j hj).trans (hg'.closed j hj').symm
    · show (f.addOutline ds).parent? (f.size + 1 + j) = (f.addOutline (ds ++ es)).parent? (f.size + 1 + j)
      rw [hg.parent? j hj, hg'.parent? j hj', parentAt_indents_append es hj]

/-- Let `n` be the number of lines of a text, and let more text follow. In the outline of the whole, all
below a node for a line after `n` is for such a line. Without these nodes it is the outline of the
first text: its nodes are those for lines up to `n`, each with the same content, parent and collapse
state, the lists of children are what is left of the longer ones, and the tree is what is left of the
larger one. -/
theorem outline_of_appended (h : f.Reached) (item? : List Char → Option Item) (s t : String) :
    let n := (Text.lines s).length
    let g := f.addOutline (declarations item? s)
    let g' := f.addOutline (declarations item? (s ++ "\n" ++ t))
    (∀ p ∈ g'.walk f.size, n < (g'.node p).line → ∀ m ∈ g'.walk p, n < (g'.node m).line) ∧
      (∀ m, m ∈ g.walk f.size ↔ m ∈ g'.walk f.size ∧ (g'.node m).line ≤ n) ∧
      (∀ m ∈ g.walk f.size, g.node m = g'.node m ∧ g.closed m = g'.closed m ∧
        g.parent? m = g'.parent? m ∧
        g.children m = (g'.children m).filter fun c => (g'.node c).line ≤ n) ∧
      g.tree f.size = (g'.tree f.size).prune fun m => m.line ≤ n := by
  intro n g g'
  obtain ⟨es, happend, hds, hes⟩ := exists_declarations_append item? s t
  have hg : Nested f g _ _ := nested_addOutline h (declarations item? s)
  have hg' : Nested f g' _ _ := nested_addOutline h (declarations item? (s ++ "\n" ++ t))
  have hreads : ∀ m ∈ g.walk f.size, g.node m = g'.node m ∧ g.closed m = g'.closed m ∧
      g.parent? m = g'.parent? m ∧
      g.children m = (g'.children m).filter fun c => (g'.node c).line ≤ n := by
    intro m hm
    obtain ⟨q?, rfl, hq⟩ := hg.exists_outlineNode h.owned hm
    have hreads := addOutline_append_reads h es hq
    have hchildren := children_addOutline_append hds hes h hq
    rw [← happend] at hreads hchildren
    exact ⟨hreads.1, hreads.2.1, hreads.2.2, hchildren⟩
  have howned := hg.reached.owned
  have hprune := howned.tree_eq_prune hg'.reached.owned (fun m => m.line ≤ n)
    fun m hm => ⟨(hreads m hm).1, (hreads m hm).2.1, (hreads m hm).2.2.2⟩
  rw [happend] at hg'
  refine ⟨fun p hp hlater m hm => ?_, fun m => ?_, hreads, hprune⟩
  · exact hg'.lt_line_of_mem_walk hds hes h.owned hp hlater hm
  · exact hg.mem_walk_append hds hes hg' h.owned

/-- Of two classes of one name the second gets a method, and a third one follows. -/
theorem outline_of_appended_tied :
    let text := "class A:\n  def m():\nclass A:"
    let more := "  def a():\n def b():\nclass A:"
    let ds := declarations Line.item? (text ++ "\n" ++ more)
    let g := empty.addOutline (declarations Line.item? text)
    let g' := empty.addOutline ds
    ds.map (fun d => d.line) = [1, 2, 3, 4, 5, 6] ∧
      g.children 0 = (g'.children 0).filter (fun c => (g'.node c).line ≤ 3) ∧
      g.tree 0 = (g'.tree 0).prune fun m => m.line ≤ 3 := by
  intro text more ds g g'
  have hlines : (Text.lines text).length = 3 := by decide
  obtain ⟨-, -, hreads, htree⟩ := outline_of_appended .empty Line.item? text more
  rw [hlines] at hreads htree
  have hroot : 0 ∈ g.walk 0 := (nested_addOutline .empty _).reached.owned.mem_walk.2 .refl
  exact ⟨by decide, (hreads 0 hroot).2.2.2, htree⟩

end Forest

end Outliner
