import Outliner.Proofs.Outline

/-!
# Members of closed blocks

The block of a declaration ends before the next one that is not deeper. `Nesting` remembers the last
item at every indent also after the block around it has ended, so a block can get another member
later. `parent?_after_close_iff` says exactly when: the block had a member at the same indent before
it ended, and since then nothing entered that indent by a step to the right. `reopening` is a text
where this happens.
-/

namespace Outliner

variable {dc dn : Declaration} {text : String} {c i : Nat}

/-! ### Indents -/

theorem indents_nonneg (text : String) (l : Nat) :
    0 ≤ (indents (declarations Line.item? text))[l]! := by
  refine Nesting.getElem!_nonneg (fun i hi => ?_) l
  obtain ⟨d, hd, rfl⟩ := List.mem_map.1 hi
  obtain ⟨k, line, item, -, hitem, rfl⟩ := mem_declarations.1 hd
  exact Line.item?_indent_nonneg hitem

/-- From one line up to another no declaration enters the indent of the latter by a step to the
right. -/
theorem steps_iff {item? : List Char → Option Item}
    (hc : (declarations item? text)[c]? = some dc) (hi : (declarations item? text)[i]? = some dn) :
    (∀ l, c ≤ l → l < i →
        (indents (declarations item? text))[l + 1]! = (indents (declarations item? text))[i]! →
        (indents (declarations item? text))[l + 1]! ≤ (indents (declarations item? text))[l]!)
      ↔ ∀ k e d, (declarations item? text)[k]? = some e →
          (declarations item? text)[k + 1]? = some d → dc.line < d.line → d.line ≤ dn.line →
            d.indent = dn.indent → d.indent ≤ e.indent := by
  have hlen := (List.getElem?_eq_some_iff.1 hi).1
  constructor
  · intro hstep k e d he hd hcd hdn hind
    have hck : c < k + 1 := (line_lt_iff hc hd).1 hcd
    have hki : k + 1 ≤ i := (line_le_iff hd hi).1 hdn
    rw [← getElem!_indents hd, ← getElem!_indents hi] at hind
    rw [← getElem!_indents hd, ← getElem!_indents he]
    exact hstep k (Nat.le_of_lt_succ hck) hki hind
  · intro hstep l hcl hli hind
    have he := List.getElem?_eq_getElem (hli.trans hlen)
    have hd := List.getElem?_eq_getElem (Nat.lt_of_le_of_lt (Nat.succ_le_of_lt hli) hlen)
    rw [getElem!_indents hd, getElem!_indents hi] at hind
    rw [getElem!_indents hd, getElem!_indents he]
    have hcd := (line_lt_iff hc hd).2 (Nat.lt_succ_of_le hcl)
    have hdn := (line_le_iff hd hi).2 (Nat.succ_le_of_lt hli)
    exact hstep l _ _ he hd hcd hdn hind

namespace Forest

open Nesting

variable {f : Forest}

/-! ### A block that gets a member after its end -/

/-- The line of `if` declares nothing, so the last item at the indent of `h` is `m`, in the block
of `A`. -/
def reopening : String :=
  "class A:\n def m(): 0\ndef f():\n if 1:\n  def g(): 0\n def h(): 0"

theorem declarations_reopening :
    declarations Line.item? reopening
      = [⟨⟨"A", .classDef, 0⟩, 1⟩, ⟨⟨"m", .function, 1⟩, 2⟩, ⟨⟨"f", .function, 0⟩, 3⟩,
        ⟨⟨"g", .function, 2⟩, 5⟩, ⟨⟨"h", .function, 1⟩, 6⟩] := by
  decide

theorem nested_reopening :
    Nested empty (empty.addOutline (declarations Line.item? reopening))
      (declarations Line.item? reopening) (declarations Line.item? reopening).length :=
  nested_addOutline .empty _

theorem class_of_reopening :
    (empty.addOutline (declarations Line.item? reopening)).StandsFor 0 1
      ⟨⟨"A", .classDef, 0⟩, 1⟩ :=
  (nested_reopening.standsFor_iff .empty).2 ⟨0, by rw [declarations_reopening]; rfl, rfl⟩

theorem last_of_reopening :
    (empty.addOutline (declarations Line.item? reopening)).StandsFor 0 5
      ⟨⟨"h", .function, 1⟩, 6⟩ :=
  (nested_reopening.standsFor_iff .empty).2 ⟨4, by rw [declarations_reopening]; rfl, rfl⟩

theorem mem_reopening :
    ⟨⟨"f", .function, 0⟩, 3⟩ ∈ declarations Line.item? reopening := by
  rw [declarations_reopening]
  decide

theorem parent?_reopening :
    (empty.addOutline (declarations Line.item? reopening)).parent? 5 = some 1 := by
  refine (nested_reopening.parent?_eq_some_iff (p := 0) (j := 4) ?_).2 ?_
  · rw [declarations_reopening]
    decide
  · rw [declarations_reopening]
    decide

/-! ### When a block gets a member after its end -/

/-- Let a line after `p` and before `n` declare something that is not deeper than `p`. Then `n` is a
child of `p` exactly if `p` had a child with the indent of `n` before that line, and from that child on
no declaration with this indent is deeper than the one before it. -/
theorem parent?_after_close_iff (h : f.Reached) (text : String) (n p : NodeId)
    (dn dp dm : Declaration) :
    let ds := declarations Line.item? text
    let g := f.addOutline ds
    g.StandsFor f.size n dn → g.StandsFor f.size p dp → dm ∈ ds → dp.line < dm.line →
      dm.line < dn.line → dm.indent ≤ dp.indent →
        (g.parent? n = some p ↔
          ∃ c dc, g.StandsFor f.size c dc ∧ g.parent? c = some p ∧ dc.line < dm.line ∧
            dc.indent = dn.indent ∧
            ∀ k e d, ds[k]? = some e → ds[k + 1]? = some d → dc.line < d.line → d.line ≤ dn.line →
              d.indent = dn.indent → d.indent ≤ e.indent) := by
  intro ds g hn hp hm hpm hmn hclose
  have hg : Nested f g ds ds.length := nested_addOutline h ds
  obtain ⟨i, hi, rfl⟩ := (hg.standsFor_iff h.owned).1 hn
  obtain ⟨j, hj, rfl⟩ := (hg.standsFor_iff h.owned).1 hp
  obtain ⟨m, hm⟩ := List.mem_iff_getElem?.1 hm
  have hjm : j < m := (line_lt_iff hj hm).1 hpm
  have hmi : m < i := (line_lt_iff hm hi).1 hmn
  have hlen : i < ds.length := (List.getElem?_eq_some_iff.1 hi).1
  rw [← getElem!_indents hm, ← getElem!_indents hj] at hclose
  rw [hg.parent?_eq_some_iff hlen, parentAt_after_close_iff (indents_nonneg text) hjm hmi hclose]
  constructor
  · rintro ⟨c, -, hcm, hci, hparent, hstep⟩
    have hlen' : c < ds.length := (hcm.trans hmi).trans hlen
    have hc := List.getElem?_eq_getElem hlen'
    rw [getElem!_indents hc, getElem!_indents hi] at hci
    exact ⟨_, ds[c], (hg.standsFor_iff h.owned).2 ⟨c, hc, rfl⟩,
      (hg.parent?_eq_some_iff hlen').2 hparent, (line_lt_iff hc hm).2 hcm, hci,
      (steps_iff hc hi).1 hstep⟩
  · rintro ⟨_, dc, hstands, hparent, hcm, hci, hstep⟩
    obtain ⟨c, hc, rfl⟩ := (hg.standsFor_iff h.owned).1 hstands
    have hlen' : c < ds.length := (List.getElem?_eq_some_iff.1 hc).1
    have hparent := (hg.parent?_eq_some_iff hlen').1 hparent
    rw [← getElem!_indents hc, ← getElem!_indents hi] at hci
    exact ⟨c, (parentAt_lt hparent).1, (line_lt_iff hc hm).1 hcm, hci, hparent,
      (steps_iff hc hi).2 hstep⟩

/-- `A` gets the child `h` after its block has ended, since it had the child `m` at the same indent. -/
theorem parent?_after_close_iff_reopening :
    let ds := declarations Line.item? reopening
    let g := empty.addOutline ds
    ∃ c dc, g.StandsFor 0 c dc ∧ g.parent? c = some 1 ∧ dc.line < 3 ∧ dc.indent = 1 ∧
      ∀ k e d, ds[k]? = some e → ds[k + 1]? = some d → dc.line < d.line → d.line ≤ 6 →
        d.indent = 1 → d.indent ≤ e.indent := by
  intro ds g
  exact (parent?_after_close_iff .empty reopening 5 1 _ _ _ last_of_reopening class_of_reopening
    mem_reopening (by decide) (by decide) (by decide)).1 parent?_reopening

/-- The end of a block does not rule out further members. -/
theorem block_gets_member_after_close :
    ¬ ∀ (text : String) (n p : NodeId) (dn dp dm : Declaration),
      let ds := declarations Line.item? text
      let g := empty.addOutline ds
      g.StandsFor 0 n dn → g.StandsFor 0 p dp → g.parent? n = some p → dm ∈ ds →
        dp.line < dm.line → dm.line < dn.line → dp.indent < dm.indent := by
  intro hclaim
  have hdeeper := hclaim reopening 5 1 _ _ _ last_of_reopening class_of_reopening parent?_reopening
    mem_reopening (by decide) (by decide)
  exact absurd hdeeper (by decide)

end Forest

end Outliner
