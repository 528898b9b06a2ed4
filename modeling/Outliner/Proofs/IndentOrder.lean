import Mathlib.Data.List.Forall2
import Outliner.Proofs.Siblings

/-!
# Indents matter by their order only

Where no indent is negative, the parent of an item is the foot of the last step to its indent, and
`Foot` only compares indents. So two sources whose indents compare alike nest alike (`SameOrder.parentAt_eq`),
although `Nesting` treats indent 0 and the start of the source in ways of their own. With the same kinds
and names the siblings come out in the same order too (`siblings_eq`), and `outline_of_sameOrder` says that
the outlines are the same tree.
-/

namespace Outliner

namespace Nesting

variable {is js : List Int} {k l m p : Nat}

/-- The indents at any two positions compare alike in both lists. -/
structure SameOrder (is js : List Int) : Prop where
  length : is.length = js.length
  lt_iff : ∀ k < is.length, ∀ l < is.length, is[k]! < is[l]! ↔ js[k]! < js[l]!

namespace SameOrder

theorem symm (h : SameOrder is js) : SameOrder js is :=
  ⟨h.length.symm, fun k hk l hl => (h.lt_iff k (h.length ▸ hk) l (h.length ▸ hl)).symm⟩

/-- So it is with another tab width, and when everything is shifted to the right. -/
theorem map {φ : Int → Int} (hφ : ∀ i j, i < j ↔ φ i < φ j) (is : List Int) :
    SameOrder is (is.map φ) := by
  refine ⟨(List.length_map φ).symm, fun k hk l hl => ?_⟩
  have hmap : ∀ k < is.length, (is.map φ)[k]! = φ is[k]! := by
    intro k hk
    rw [getElem!_pos is k hk, getElem!_pos _ k (by rwa [List.length_map]), List.getElem_map]
  rw [hmap k hk, hmap l hl, ← hφ]

theorem le_iff (h : SameOrder is js) (hk : k < is.length) (hl : l < is.length) :
    is[k]! ≤ is[l]! ↔ js[k]! ≤ js[l]! := by
  have hlt := h.lt_iff l hl k hk
  omega

theorem eq_iff (h : SameOrder is js) (hk : k < is.length) (hl : l < is.length) :
    is[k]! = is[l]! ↔ js[k]! = js[l]! := by
  have hkl := h.lt_iff k hk l hl
  have hlk := h.lt_iff l hl k hk
  omega

theorem foot (h : SameOrder is js) (hk : k < is.length) (hp : Foot is p k) : Foot js p k := by
  obtain ⟨hpk, hdeep, hip, hstep⟩ := hp
  refine ⟨hpk, ?_, ?_, fun l hl hlk hil => ?_⟩
  · exact (h.lt_iff p (by omega) (p + 1) (by omega)).1 hdeep
  · exact (h.eq_iff (by omega) hk).1 hip
  · have hle := hstep l hl hlk ((h.eq_iff (by omega) hk).2 hil)
    exact (h.le_iff (by omega) (by omega)).1 hle

theorem parentAt_eq (h : SameOrder is js) (his : ∀ i ∈ is, 0 ≤ i) (hjs : ∀ j ∈ js, 0 ≤ j)
    (hk : k < is.length) : parentAt is k = parentAt js k := by
  refine Option.ext fun p => ?_
  rw [parentAt_eq_some_iff (getElem!_nonneg his), parentAt_eq_some_iff (getElem!_nonneg hjs)]
  exact ⟨h.foot hk, h.symm.foot (h.length ▸ hk)⟩

end SameOrder

end Nesting

namespace Declaration

open Nesting

variable {d e : Declaration} {ds es : List Declaration}

/-- The declarations agree in kind and name. -/
def Alike (d e : Declaration) : Prop := d.kind = e.kind ∧ d.name = e.name

theorem kindNameLEAt_eq (h : List.Forall₂ Alike ds es) : kindNameLEAt ds = kindNameLEAt es := by
  have hat : ∀ i, Alike (ds.getD i .root) (es.getD i .root) := by
    induction h with
    | nil => exact fun i => ⟨rfl, rfl⟩
    | cons hde _ ih =>
      intro i
      cases i with
      | zero => exact hde
      | succ i => exact ih i
  funext i j
  rw [kindNameLEAt, kindNameLEAt, kindNameLE, kindNameLE, (hat i).1, (hat i).2, (hat j).1, (hat j).2]

theorem siblings_eq (h : List.Forall₂ Alike ds es)
    (hparent : ∀ j < ds.length, parentAt (indents ds) j = parentAt (indents es) j) (q? : Option Nat) :
    siblings ds q? = siblings es q? := by
  have hmembers : members ds q? = members es q? := by
    rw [members, members, membersBefore, membersBefore, ← h.length_eq]
    refine List.filter_congr fun j hj => ?_
    rw [hparent j (List.mem_range.1 hj)]
  rw [siblings, siblings, hmembers, kindNameLEAt_eq h]

end Declaration

namespace Forest

open Nesting Declaration

variable {f f' g g' : Forest} {ds es : List Declaration} {q? : Option Nat} {j k : Nat} {n : NodeId}

/-! ### Two outlines of one shape -/

/-- The node of the outline made in `f'` that has the position of `n` in the outline made in `f`. -/
def counterpart (f f' : Forest) (n : NodeId) : NodeId :=
  f'.size + (n - f.size)

theorem counterpart_add (f f' : Forest) (k : Nat) :
    counterpart f f' (f.size + 1 + k) = f'.size + 1 + k := by
  rw [counterpart, Nat.add_assoc, Nat.add_sub_cancel_left, Nat.add_assoc]

theorem counterpart_outlineNode (f f' : Forest) (q? : Option Nat) :
    counterpart f f' (outlineNode f.size q?) = outlineNode f'.size q? := by
  cases q? with
  | none =>
    show f'.size + (f.size - f.size) = f'.size
    rw [Nat.sub_self, Nat.add_zero]
  | some q => exact counterpart_add f f' q

theorem Nested.parent?_counterpart (h : Nested f g ds ds.length) (h' : Nested f' g' es es.length)
    (hlen : ds.length = es.length)
    (hparent : ∀ j < ds.length, parentAt (indents ds) j = parentAt (indents es) j)
    (hq : ∀ q ∈ q?, q < ds.length) :
    g'.parent? (outlineNode f'.size q?)
      = (g.parent? (outlineNode f.size q?)).map (counterpart f f') := by
  cases q? with
  | none =>
    show g'.parent? f'.size = (g.parent? f.size).map _
    rw [h.parentless, h'.parentless]
    rfl
  | some j =>
    have hj : j < ds.length := hq j rfl
    show g'.parent? (f'.size + 1 + j) = (g.parent? (f.size + 1 + j)).map _
    rw [h.parent? j hj, h'.parent? j (hlen ▸ hj), Option.map_some, counterpart_outlineNode, hparent j hj]

theorem children_counterpart (h : f.Reached) (h' : f'.Reached) (hlen : ds.length = es.length)
    (hsiblings : ∀ q?, siblings ds q? = siblings es q?) (hq : ∀ q ∈ q?, q < ds.length) :
    (f'.addOutline es).children (outlineNode f'.size q?)
      = ((f.addOutline ds).children (outlineNode f.size q?)).map (counterpart f f') := by
  rw [children_addOutline h hq, children_addOutline h' (hlen ▸ hq), hsiblings, List.map_map]
  exact List.map_congr_left fun k _ => (counterpart_add f f' k).symm

theorem walk_counterpart (h : g.Owned) (h' : g'.Owned) {φ : NodeId → NodeId}
    (hchildren : ∀ m ∈ g.walk n, g'.children (φ m) = (g.children m).map φ) :
    g'.walk (φ n) = (g.walk n).map φ := by
  induction n using h.descend with
  | step n ih =>
    have hn : n ∈ g.walk n := h.mem_walk.2 .refl
    rw [h.walk_eq, h'.walk_eq, hchildren n hn, List.map_cons, List.map_flatMap, List.flatMap_map]
    refine congrArg (φ n :: ·) (List.flatMap_congr fun c hc => ih c hc fun m hm => hchildren m ?_)
    exact h.mem_walk.2 (.head (h.parent?_of_mem hc) (h.mem_walk.1 hm))

/-- Let two texts declare as many items, pairwise alike in kind and name, at indents that are not
negative and compare alike; their line numbers may differ and so may all other lines. Then the
outlines are the same tree: taking the node of each declaration to that of the declaration at the same
position takes the root to the root, parents to parents and lists of children to lists of
children. -/
theorem outline_of_sameOrder (h : f.Reached) (h' : f'.Reached)
    (item? item?' : List Char → Option Item) (text text' : String) :
    let ds := declarations item? text
    let es := declarations item?' text'
    let g := f.addOutline ds
    let g' := f'.addOutline es
    (∀ d ∈ ds, 0 ≤ d.indent) → (∀ e ∈ es, 0 ≤ e.indent) → List.Forall₂ Alike ds es →
      SameOrder (indents ds) (indents es) →
        ∃ φ : NodeId → NodeId, φ f.size = f'.size ∧
          (∀ (k : Nat) d e n, ds[k]? = some d → es[k]? = some e → g.StandsFor f.size n d →
            g'.StandsFor f'.size (φ n) e) ∧
          (∀ n ∈ g.walk f.size, g'.parent? (φ n) = (g.parent? n).map φ ∧
            g'.children (φ n) = (g.children n).map φ) ∧
          g'.walk f'.size = (g.walk f.size).map φ := by
  intro ds es g g' hds hes halike horder
  have hg : Nested f g ds ds.length := nested_addOutline h ds
  have hg' : Nested f' g' es es.length := nested_addOutline h' es
  have hlen : ds.length = es.length := halike.length_eq
  have hparent : ∀ j < ds.length, parentAt (indents ds) j = parentAt (indents es) j := by
    intro j hj
    exact horder.parentAt_eq (by simpa [indents] using hds) (by simpa [indents] using hes)
      (by simpa [indents] using hj)
  have hroot : counterpart f f' f.size = f'.size := counterpart_outlineNode f f' none
  have hlists : ∀ n ∈ g.walk f.size,
      g'.parent? (counterpart f f' n) = (g.parent? n).map (counterpart f f') ∧
        g'.children (counterpart f f' n) = (g.children n).map (counterpart f f') := by
    intro n hn
    obtain ⟨q?, rfl, hq⟩ := hg.exists_outlineNode h.owned hn
    rw [counterpart_outlineNode]
    exact ⟨hg.parent?_counterpart hg' hlen hparent hq,
      children_counterpart h h' hlen (siblings_eq halike hparent) hq⟩
  refine ⟨counterpart f f', hroot, ?_, hlists, ?_⟩
  · intro k d e n hd he hn
    obtain ⟨j, hj, rfl⟩ := (hg.standsFor_iff h.owned).1 hn
    rw [line_inj hj hd rfl, counterpart_add]
    exact (hg'.standsFor_iff h'.owned).2 ⟨k, he, rfl⟩
  · have hwalk := walk_counterpart hg.reached.owned hg'.reached.owned fun m hm => (hlists m hm).2
    rwa [hroot] at hwalk

/-- Two blanks for each tab, and lines in between that declare nothing. The return to the indent of `k`
finds no item there in either text. -/
theorem outline_of_sameOrder_retabbed :
    let ds := declarations Line.item? "\tclass B:\n\t\t\tdef m():\n\t\tdef k():\n\tdef a():"
    let es := declarations Line.item?
      "# note\n  class B:\n      def m():\n\n    def k():\n  def a():"
    let g := empty.addOutline ds
    let g' := oneClass.addOutline es
    List.Forall₂ Alike ds es ∧ SameOrder (indents ds) (indents es) ∧
      ∃ φ : NodeId → NodeId, φ 0 = oneClass.size ∧
        (∀ n ∈ g.walk 0, g'.parent? (φ n) = (g.parent? n).map φ ∧
          g'.children (φ n) = (g.children n).map φ) ∧
        g'.walk oneClass.size = (g.walk 0).map φ := by
  intro ds es g g'
  have hds : ds = [⟨⟨"B", .classDef, 1⟩, 1⟩, ⟨⟨"m", .function, 3⟩, 2⟩, ⟨⟨"k", .function, 2⟩, 3⟩,
      ⟨⟨"a", .function, 1⟩, 4⟩] := by
    decide
  have hes : es = [⟨⟨"B", .classDef, 2⟩, 2⟩, ⟨⟨"m", .function, 6⟩, 3⟩, ⟨⟨"k", .function, 4⟩, 5⟩,
      ⟨⟨"a", .function, 2⟩, 6⟩] := by
    decide
  have halike : List.Forall₂ Alike ds es := by
    rw [hds, hes]
    exact .cons ⟨rfl, rfl⟩ (.cons ⟨rfl, rfl⟩ (.cons ⟨rfl, rfl⟩ (.cons ⟨rfl, rfl⟩ .nil)))
  have horder : SameOrder (indents ds) (indents es) := by
    have hmap : indents es = (indents ds).map (2 * ·) := by
      rw [hds, hes]
      rfl
    rw [hmap]
    exact .map (fun i j => by omega) _
  have hpos : (∀ d ∈ ds, 0 ≤ d.indent) ∧ ∀ e ∈ es, 0 ≤ e.indent := by
    rw [hds, hes]
    decide
  obtain ⟨φ, hroot, -, hlists, hwalk⟩ := outline_of_sameOrder .empty oneClass_reached Line.item?
    Line.item? _ _ hpos.1 hpos.2 halike horder
  exact ⟨halike, horder, φ, hroot, hlists, hwalk⟩

end Forest

end Outliner
