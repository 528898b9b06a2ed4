import Outliner.Proofs.Outline

/-!
# Where declarations are attached

The pass over the indents has a state, but its result can be told without one: `AttachmentRule` gives the
parent of an item from the item before it and from the last earlier one at the same indent, whatever
integers the indents are. The outline of any declarations follows the rule (`parent?_of_rule`).

The rule takes many parents over from older items instead of comparing indents. That a parent is less
indented all the same (`Nesting.parentAt_lt`) carries over to whole paths: from a top-level node downwards
lines and indents grow with every step (`ancestors_increasing`).
-/

namespace Outliner

namespace Nesting

variable {is : List Int} {parent parent' : Nat → Option Nat} {k : Nat}

/-- `parent` gives each item the parent that the indents `is` demand: the item before it if that is less
indented, else the root at indent 0, else the parent of the last earlier item at the same indent, and the
root if there is none. -/
structure AttachmentRule (is : List Int) (parent : Nat → Option Nat) : Prop where
  first : parent 0 = none
  deeper : ∀ k, k + 1 < is.length → is[k]! < is[k + 1]! → parent (k + 1) = some k
  margin : ∀ k, k + 1 < is.length → is[k + 1]! ≤ is[k]! → is[k + 1]! = 0 → parent (k + 1) = none
  level : ∀ k j, k + 1 < is.length → is[k + 1]! ≤ is[k]! → is[k + 1]! ≠ 0 →
    LastAt is is[k + 1]! (k + 1) j → parent (k + 1) = parent j
  unseen : ∀ k, k + 1 < is.length → is[k + 1]! ≤ is[k]! → is[k + 1]! ≠ 0 →
    (∀ j < k + 1, is[j]! ≠ is[k + 1]!) → parent (k + 1) = none

theorem attachmentRule_parentAt (is : List Int) : AttachmentRule is (parentAt is) where
  first := parentAt_zero is
  deeper _ _ hlt := parentAt_of_deeper hlt
  margin _ _ hge h0 := parentAt_of_margin hge h0
  level _ _ _ hge h0 hj := parentAt_of_return hge h0 hj
  unseen _ _ hge h0 hunseen := parentAt_of_unseen hge h0 hunseen

/-- The rule leaves no choice. -/
theorem AttachmentRule.unique (h : AttachmentRule is parent) (h' : AttachmentRule is parent')
    (hk : k < is.length) : parent k = parent' k := by
  induction k using Nat.strong_induction_on with
  | h k ih =>
    cases k with
    | zero => rw [h.first, h'.first]
    | succ k =>
      rcases lt_or_ge is[k]! is[k + 1]! with hlt | hge
      · rw [h.deeper k hk hlt, h'.deeper k hk hlt]
      by_cases h0 : is[k + 1]! = 0
      · rw [h.margin k hk hge h0, h'.margin k hk hge h0]
      rcases exists_lastAt_or_unseen is is[k + 1]! (k + 1) with ⟨j, hj⟩ | hunseen
      · rw [h.level k j hk hge h0 hj, h'.level k j hk hge h0 hj]
        exact ih j hj.1 (hj.1.trans hk)
      · rw [h.unseen k hk hge h0 hunseen, h'.unseen k hk hge h0 hunseen]

end Nesting

namespace Forest

open Nesting

variable {f g : Forest} {ds : List Declaration} {k n p : Nat}

/-! ### The parents in an outline -/

/-- Whatever their indents, the declarations of an outline get their parents by the rule. The rule leaves no
choice, and sorting changes no parent. -/
theorem parent?_of_rule (h : f.Reached) (ds : List Declaration) :
    let g := f.addOutline ds
    ∃ parent, AttachmentRule (indents ds) parent ∧
      (∀ parent', AttachmentRule (indents ds) parent' → ∀ k < ds.length, parent' k = parent k) ∧
      (∀ k d, ds[k]? = some d →
        (g.node (outlineNode f.size (some k))).content = .declared d ∧
          g.parent? (outlineNode f.size (some k)) = some (outlineNode f.size (parent k))) ∧
      ∀ m, g.parent? m = (f.addNested ds).parent? m := by
  intro g
  have hg : Nested f g ds ds.length := nested_addOutline h ds
  have hrule := attachmentRule_parentAt (indents ds)
  refine ⟨parentAt (indents ds), hrule, fun parent' hrule' k hk => ?_, fun k d hd => ?_,
    fun m => parent?_sortBelow⟩
  · exact hrule'.unique hrule (by rwa [indents, List.length_map])
  · have hk : k < ds.length := (List.getElem?_eq_some_iff.1 hd).1
    exact ⟨hg.content k d hk hd, hg.parent? k hk⟩

/-- The indent -2 is negative, 5 is not there when `f` returns to it, and 6 is there when `h` does. -/
def ragged : List Declaration :=
  [⟨⟨"a", .function, 4⟩, 1⟩, ⟨⟨"b", .function, -2⟩, 2⟩, ⟨⟨"c", .function, 7⟩, 3⟩,
    ⟨⟨"d", .function, 4⟩, 4⟩, ⟨⟨"e", .function, 6⟩, 5⟩, ⟨⟨"f", .function, 5⟩, 6⟩,
    ⟨⟨"g", .function, 7⟩, 7⟩, ⟨⟨"h", .function, 6⟩, 8⟩]

/-- `h` lies in `d`, as `e` does, and `f` under the root. -/
theorem parent?_of_rule_ragged :
    let g := empty.addOutline ragged
    (g.node 8).content = .declared ⟨⟨"h", .function, 6⟩, 8⟩ ∧ g.parent? 8 = some 4 ∧
      g.parent? 5 = some 4 ∧ g.parent? 6 = some 0 := by
  intro g
  obtain ⟨parent, hrule, -, hparent, -⟩ := parent?_of_rule .empty ragged
  have hlast : LastAt (indents ragged) 6 7 4 := by
    refine ⟨by decide, by decide, fun l hl hl' => ?_⟩
    have hcases : l = 5 ∨ l = 6 := by omega
    rcases hcases with rfl | rfl <;> decide
  have he : parent 4 = some 3 := hrule.deeper 3 (by decide) (by decide)
  have hf : parent 5 = none := hrule.unseen 4 (by decide) (by decide) (by decide) (by decide)
  have hh : parent 7 = parent 4 := hrule.level 6 4 (by decide) (by decide) (by decide) hlast
  refine ⟨(hparent 7 _ rfl).1, (hparent 7 _ rfl).2.trans ?_, (hparent 4 _ rfl).2.trans ?_,
    (hparent 5 _ rfl).2.trans ?_⟩
  · rw [hh, he]
    rfl
  · rw [he]
    rfl
  · rw [hf]
    rfl

/-! ### The path to a declaration -/

theorem Nested.ancestors_root (h : Nested f g ds k) : g.ancestors f.size = [] :=
  ancestorsWithin_of_parentless h.parentless

/-- Above a declaration lie declarations, each before the one below it and less indented, and then the
root. -/
theorem Nested.exists_ancestors_eq (h : Nested f g ds ds.length) (hk : k < ds.length) :
    ∃ qs : List Nat, g.ancestors (f.size + 1 + k) = qs.map (f.size + 1 + ·) ++ [f.size] ∧
      (k :: qs).Pairwise fun i j => j < i ∧ (indents ds)[j]! < (indents ds)[i]! := by
  induction k using Nat.strong_induction_on with
  | h k ih =>
    have hp := h.parent? k hk
    rw [h.reached.owned.ancestors_of_parent? hp]
    cases hq : parentAt (indents ds) k with
    | none => exact ⟨[], congrArg _ h.ancestors_root, List.pairwise_singleton _ _⟩
    | some q =>
      obtain ⟨hqk, hindent⟩ := parentAt_lt hq
      obtain ⟨qs, hqs, hpairwise⟩ := ih q hqk (hqk.trans hk)
      refine ⟨q :: qs, congrArg _ hqs, List.pairwise_cons.2 ⟨fun j hj => ?_, hpairwise⟩⟩
      rcases List.mem_cons.1 hj with rfl | hj
      · exact ⟨hqk, hindent⟩
      · obtain ⟨hjq, hlt⟩ := (List.pairwise_cons.1 hpairwise).1 j hj
        exact ⟨hjq.trans hqk, hlt.trans hindent⟩

section Lines

variable {item? : List Char → Option Item} {text : String}

theorem Nested.standsFor_getD (h : Nested f g ds ds.length) (hf : f.Owned) (hk : k < ds.length) :
    ds[k]? = some (ds.getD k .root) ∧ g.StandsFor f.size (f.size + 1 + k) (ds.getD k .root) := by
  have hget : ds[k]? = some (ds.getD k .root) := by
    rw [List.getD_eq_getElem?_getD, List.getElem?_eq_getElem hk, Option.getD_some]
  exact ⟨hget, (h.standsFor_iff hf).2 ⟨k, hget, rfl⟩⟩

theorem indent_line_lt {d e : Declaration} {i j : Nat} (hi : (declarations item? text)[i]? = some d)
    (hj : (declarations item? text)[j]? = some e)
    (h : j < i ∧ (indents (declarations item? text))[j]! < (indents (declarations item? text))[i]!) :
    e.indent < d.indent ∧ e.line < d.line := by
  obtain ⟨hji, hlt⟩ := h
  rw [getElem!_indents hi, getElem!_indents hj] at hlt
  exact ⟨hlt, (line_lt_iff hj hi).2 hji⟩

theorem Nested.parent_increasing
    (h : Nested f g (declarations item? text) (declarations item? text).length) (hf : f.Owned)
    (hn : n ∈ g.walk f.size) (hp : g.parent? n = some p) (hroot : p ≠ f.size) :
    ∃ d e, g.StandsFor f.size n d ∧ g.StandsFor f.size p e ∧ e.indent < d.indent ∧
      e.line < d.line := by
  rcases (h.mem_walk hf).1 hn with rfl | ⟨i, hi, rfl⟩
  · rw [h.parentless] at hp
    cases hp
  rw [h.parent? i hi] at hp
  cases hq : parentAt (indents (declarations item? text)) i with
  | none =>
    rw [hq] at hp
    cases hp
    exact absurd rfl hroot
  | some q =>
    rw [hq] at hp
    cases hp
    have hlt := parentAt_lt hq
    obtain ⟨hdi, hni⟩ := h.standsFor_getD hf hi
    obtain ⟨hdq, hnq⟩ := h.standsFor_getD hf (hlt.1.trans hi)
    exact ⟨_, _, hni, hnq, indent_line_lt hdi hdq hlt⟩

theorem Nested.path_increasing
    (h : Nested f g (declarations item? text) (declarations item? text).length) (hf : f.Owned)
    (hk : k < (declarations item? text).length) :
    ∃ above chain, g.ancestors (f.size + 1 + k) = above ++ [f.size] ∧
      List.Forall₂ (g.StandsFor f.size) ((f.size + 1 + k) :: above) chain ∧
      chain.Pairwise fun d e => e.indent < d.indent ∧ e.line < d.line := by
  obtain ⟨qs, hqs, hpairwise⟩ := h.exists_ancestors_eq hk
  have hbound : ∀ j ∈ k :: qs, j < (declarations item? text).length := by
    intro j hj
    rcases List.mem_cons.1 hj with rfl | hj
    · exact hk
    · exact ((List.pairwise_cons.1 hpairwise).1 j hj).1.trans hk
  refine ⟨_, (k :: qs).map ((declarations item? text).getD · .root), hqs, ?_, List.pairwise_map.2 ?_⟩
  · rw [← List.map_cons (f := (f.size + 1 + ·)), List.forall₂_map_left_iff, List.forall₂_map_right_iff,
      List.forall₂_same]
    exact fun j hj => (h.standsFor_getD hf (hbound j hj)).2
  · refine hpairwise.imp_of_mem fun {i j} hi hj hij => ?_
    exact indent_line_lt (h.standsFor_getD hf (hbound i hi)).1 (h.standsFor_getD hf (hbound j hj)).1 hij

end Lines

/-- In an outline each declaration comes after its parent and is more indented, unless its parent is the
root. So the declarations on the path from the root down to a declaration come one after the other and are
each more indented than the one before. -/
theorem ancestors_increasing (h : f.Reached) (item? : List Char → Option Item) (text : String) :
    let g := f.addOutline (declarations item? text)
    (∀ n ∈ g.walk f.size, ∀ p, g.parent? n = some p → p ≠ f.size →
      ∃ d e, g.StandsFor f.size n d ∧ g.StandsFor f.size p e ∧ e.indent < d.indent ∧
        e.line < d.line) ∧
      ∀ n ∈ g.walk f.size, n ≠ f.size → ∃ above chain, g.ancestors n = above ++ [f.size] ∧
        List.Forall₂ (g.StandsFor f.size) (n :: above) chain ∧
        chain.Pairwise fun d e => e.indent < d.indent ∧ e.line < d.line := by
  intro g
  have hg : Nested f g (declarations item? text) (declarations item? text).length :=
    nested_addOutline h _
  refine ⟨fun n hn p hp hroot => hg.parent_increasing h.owned hn hp hroot, fun n hn hroot => ?_⟩
  rcases (hg.mem_walk h.owned).1 hn with rfl | ⟨k, hk, rfl⟩
  · exact absurd rfl hroot
  · exact hg.path_increasing h.owned hk

/-- A tab counts as one blank. The indents are 1, 3, 2, 4, 3. -/
def mixedIndents : String :=
  " class A:\n   def b():\n\t\tclass C:\n\t\t\t\tdef d():\n   def e():"

/-- `e` has the indent of `b` and goes under `A`, although `C` came in between. -/
theorem ancestors_increasing_mixed :
    let g := empty.addOutline (declarations Line.item? mixedIndents)
    g.parent? 5 = some 1 ∧
      (∃ d e, g.StandsFor 0 5 d ∧ g.StandsFor 0 1 e ∧ e.indent < d.indent ∧ e.line < d.line) ∧
      ∃ above chain, g.ancestors 5 = above ++ [0] ∧ List.Forall₂ (g.StandsFor 0) (5 :: above) chain ∧
        chain.Pairwise fun d e => e.indent < d.indent ∧ e.line < d.line := by
  intro g
  have hds : declarations Line.item? mixedIndents
      = [⟨⟨"A", .classDef, 1⟩, 1⟩, ⟨⟨"b", .function, 3⟩, 2⟩, ⟨⟨"C", .classDef, 2⟩, 3⟩,
        ⟨⟨"d", .function, 4⟩, 4⟩, ⟨⟨"e", .function, 3⟩, 5⟩] := by
    decide
  have hg : Nested empty g (declarations Line.item? mixedIndents)
      (declarations Line.item? mixedIndents).length := nested_addOutline .empty _
  have hlen : 4 < (declarations Line.item? mixedIndents).length := by
    rw [hds]
    decide
  have hparent : g.parent? 5 = some 1 := by
    refine (hg.parent?_eq_some_iff (p := 0) hlen).2 ?_
    rw [hds]
    decide
  have hwalk : 5 ∈ g.walk 0 := (hg.mem_walk .empty).2 (.inr ⟨4, hlen, rfl⟩)
  obtain ⟨hedge, hpath⟩ := ancestors_increasing .empty Line.item? mixedIndents
  exact ⟨hparent, hedge 5 hwalk 1 hparent (by decide), hpath 5 hwalk (by decide)⟩

end Forest

end Outliner
