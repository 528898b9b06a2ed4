import Mathlib.Data.Int.Order.Basic
import Mathlib.Data.Nat.Basic
import Mathlib.Order.Basic
import Outliner.Outline.Nesting

/-!
# The parent of each item

`Nesting` finds the parents in one pass over the indents and keeps a record of all items so far. Here
the pass is taken apart: `parentAt indents k` is the parent of the item at position `k`, and it obeys a
recurrence that mentions no state.

* An item deeper than the one before it has that one as its parent (`parentAt_of_deeper`).
* Any other item at indent 0 has the root (`parentAt_of_margin`).
* Any other item has the parent of the last item at its indent (`parentAt_of_return`), or the root
  if there is none (`parentAt_of_unseen`).

If no indent is negative, the recurrence comes to an end where the indent was last entered by a step to
the right: the parent is the foot of that step (`parentAt_eq_some_iff`).
-/

namespace Outliner.Nesting

variable {is : List Int} {i : Int} {j k l m p : Nat}

theorem getElem!_nonneg (h : ∀ i ∈ is, 0 ≤ i) (l : Nat) : 0 ≤ is[l]! := by
  rcases Nat.lt_or_ge l is.length with hl | hl
  · rw [getElem!_pos is l hl]
    exact h _ (List.getElem_mem hl)
  · simp [getElem!_neg is l (Nat.not_lt.2 hl)]

/-! ### The pass, position by position -/

/-- The state in which the item at position `k` is placed. -/
def before (is : List Int) : Nat → Nesting
  | 0 => start
  | k + 1 => (before is k).next k is[k]!

/-- The placement of the item at position `k`. -/
def placementAt (is : List Int) (k : Nat) : Placement :=
  (before is k).place is[k]!

def parentAt (is : List Int) (k : Nat) : Option Nat :=
  (placementAt is k).parent?

theorem placementsFrom_before (rest : List Int) (hrest : is.drop k = rest) :
    (before is k).placementsFrom k rest = (List.range' k rest.length).map (placementAt is) := by
  induction rest generalizing k with
  | nil => rfl
  | cons i rest ih =>
    have hk : k < is.length := by
      refine Nat.lt_of_not_le fun hle => ?_
      rw [List.drop_eq_nil_of_le hle] at hrest
      cases hrest
    rw [List.drop_eq_getElem_cons hk, List.cons.injEq] at hrest
    have hi : is[k]! = i := by rw [getElem!_pos is k hk, hrest.1]
    rw [placementsFrom, List.length_cons, List.range'_succ, List.map_cons, placementAt, hi, ← ih hrest.2,
      before, hi]

theorem placements_eq_map (is : List Int) :
    placements is = (List.range is.length).map (placementAt is) := by
  rw [List.range_eq_range']
  exact placementsFrom_before is List.drop_zero

@[simp] theorem indent_before_succ : (before is (k + 1)).indent = is[k]! := rfl

@[simp] theorem parent?_before_succ : (before is (k + 1)).parent? = parentAt is k := rfl

/-! ### The last item at an indent -/

/-- `j` is the last position before `k` at which the indent is `i`. -/
def LastAt (is : List Int) (i : Int) (k j : Nat) : Prop :=
  j < k ∧ is[j]! = i ∧ ∀ l, j < l → l < k → is[l]! ≠ i

theorem LastAt.self : LastAt is is[k]! (k + 1) k :=
  ⟨Nat.lt_succ_self k, rfl, fun _ hl hl' => absurd hl (Nat.not_lt.2 (Nat.le_of_lt_succ hl'))⟩

theorem LastAt.succ (h : LastAt is i k j) (hk : is[k]! ≠ i) : LastAt is i (k + 1) j := by
  obtain ⟨hj, hi, hlast⟩ := h
  refine ⟨Nat.lt_succ_of_lt hj, hi, fun l hl hl' => ?_⟩
  rcases Nat.lt_succ_iff_lt_or_eq.1 hl' with hlk | rfl
  · exact hlast l hl hlk
  · exact hk

theorem exists_lastAt_or_unseen (is : List Int) (i : Int) (k : Nat) :
    (∃ j, LastAt is i k j) ∨ ∀ j, j < k → is[j]! ≠ i := by
  induction k with
  | zero => exact .inr fun j hj => absurd hj (Nat.not_lt_zero j)
  | succ k ih =>
    by_cases hk : is[k]! = i
    · exact .inl ⟨k, hk ▸ .self⟩
    · rcases ih with ⟨j, hj⟩ | hunseen
      · exact .inl ⟨j, hj.succ hk⟩
      · refine .inr fun j hj => ?_
        rcases Nat.lt_succ_iff_lt_or_eq.1 hj with hjk | rfl
        · exact hunseen j hjk
        · exact hk

theorem last?_before_succ (is : List Int) (i : Int) (k : Nat) :
    (before is (k + 1)).last? i
      = if i = is[k]! then some ⟨k, parentAt is k⟩ else (before is k).last? i := by
  rw [last?, before, next, List.lookup_cons]
  by_cases hi : i = is[k]!
  · rw [if_pos hi, hi, beq_self_eq_true]
    rfl
  · rw [if_neg hi, beq_false_of_ne hi]
    rfl

theorem last?_of_lastAt (h : LastAt is i k j) :
    (before is k).last? i = some ⟨j, parentAt is j⟩ := by
  induction k with
  | zero => exact absurd h.1 (Nat.not_lt_zero j)
  | succ k ih =>
    obtain ⟨hj, hi, hlast⟩ := h
    rw [last?_before_succ]
    rcases Nat.lt_succ_iff_lt_or_eq.1 hj with hjk | rfl
    · rw [if_neg (hlast k hjk (Nat.lt_succ_self k)).symm]
      exact ih ⟨hjk, hi, fun l hl hl' => hlast l hl (Nat.lt_succ_of_lt hl')⟩
    · rw [if_pos hi.symm]

theorem last?_of_unseen (h : ∀ j, j < k → is[j]! ≠ i) : (before is k).last? i = none := by
  induction k with
  | zero => rfl
  | succ k ih =>
    rw [last?_before_succ, if_neg (h k (Nat.lt_succ_self k)).symm]
    exact ih fun j hj => h j (Nat.lt_succ_of_lt hj)

/-! ### The recurrence -/

theorem placementAt_zero (is : List Int) : placementAt is 0 = ⟨none, decide (is[0]! ≠ 0)⟩ := by
  rw [placementAt, before, place, start]
  rcases lt_trichotomy (0 : Int) is[0]! with hlt | heq | hgt
  · rw [if_pos hlt, decide_eq_true hlt.ne']
    rfl
  · rw [if_neg heq.not_lt, if_pos heq.symm, ← heq]
    rfl
  · rw [if_neg (lt_asymm hgt), if_neg hgt.ne, if_pos hgt, decide_eq_true hgt.ne]
    rfl

theorem placementAt_of_deeper (h : is[k]! < is[k + 1]!) :
    placementAt is (k + 1) = ⟨some k, false⟩ := by
  rw [placementAt, place, indent_before_succ, if_pos h, last?_of_lastAt .self]

theorem placementAt_of_margin (h : is[k + 1]! ≤ is[k]!) (h0 : is[k + 1]! = 0) :
    placementAt is (k + 1) = ⟨none, false⟩ := by
  rw [placementAt, place, indent_before_succ, if_neg (not_lt_of_ge h), if_pos h0]

theorem placementAt_of_return (h : is[k + 1]! ≤ is[k]!) (h0 : is[k + 1]! ≠ 0)
    (hj : LastAt is is[k + 1]! (k + 1) j) : placementAt is (k + 1) = ⟨parentAt is j, false⟩ := by
  rw [placementAt, place, indent_before_succ, if_neg (not_lt_of_ge h), if_neg h0]
  rcases lt_or_eq_of_le h with hlt | heq
  · rw [if_pos hlt, last?_of_lastAt hj]
  · rw [if_neg heq.not_lt, parent?_before_succ]
    -- the item before is itself the last one at this indent
    obtain ⟨hjk, -, hlast⟩ := hj
    rcases Nat.lt_succ_iff_lt_or_eq.1 hjk with hlt | rfl
    · exact absurd heq.symm (hlast k hlt (Nat.lt_succ_self k))
    · rfl

theorem placementAt_of_unseen (h : is[k + 1]! ≤ is[k]!) (h0 : is[k + 1]! ≠ 0)
    (hunseen : ∀ j, j < k + 1 → is[j]! ≠ is[k + 1]!) : placementAt is (k + 1) = ⟨none, true⟩ := by
  have hlt : is[k + 1]! < is[k]! := lt_of_le_of_ne h (hunseen k (Nat.lt_succ_self k)).symm
  rw [placementAt, place, indent_before_succ, if_neg (not_lt_of_ge h), if_neg h0,
    if_pos hlt, last?_of_unseen hunseen]

theorem parentAt_zero (is : List Int) : parentAt is 0 = none := by
  rw [parentAt, placementAt_zero]

theorem parentAt_of_deeper (h : is[k]! < is[k + 1]!) : parentAt is (k + 1) = some k := by
  rw [parentAt, placementAt_of_deeper h]

theorem parentAt_of_margin (h : is[k + 1]! ≤ is[k]!) (h0 : is[k + 1]! = 0) :
    parentAt is (k + 1) = none := by
  rw [parentAt, placementAt_of_margin h h0]

theorem parentAt_of_return (h : is[k + 1]! ≤ is[k]!) (h0 : is[k + 1]! ≠ 0)
    (hj : LastAt is is[k + 1]! (k + 1) j) : parentAt is (k + 1) = parentAt is j := by
  rw [parentAt, placementAt_of_return h h0 hj]

theorem parentAt_of_unseen (h : is[k + 1]! ≤ is[k]!) (h0 : is[k + 1]! ≠ 0)
    (hunseen : ∀ j, j < k + 1 → is[j]! ≠ is[k + 1]!) : parentAt is (k + 1) = none := by
  rw [parentAt, placementAt_of_unseen h h0 hunseen]

/-- A parent comes earlier and is less indented. -/
theorem parentAt_lt (h : parentAt is k = some p) : p < k ∧ is[p]! < is[k]! := by
  induction k using Nat.strong_induction_on generalizing p with
  | h k ih =>
    cases k with
    | zero =>
      rw [parentAt_zero] at h
      cases h
    | succ k =>
      rcases lt_or_ge is[k]! is[k + 1]! with hlt | hge
      · rw [parentAt_of_deeper hlt] at h
        cases h
        exact ⟨Nat.lt_succ_self p, hlt⟩
      · by_cases h0 : is[k + 1]! = 0
        · rw [parentAt_of_margin hge h0] at h
          cases h
        · rcases exists_lastAt_or_unseen is is[k + 1]! (k + 1) with ⟨j, hj⟩ | hunseen
          · rw [parentAt_of_return hge h0 hj] at h
            obtain ⟨hpj, hlt⟩ := ih j hj.1 h
            exact ⟨hpj.trans hj.1, hj.2.1 ▸ hlt⟩
          · rw [parentAt_of_unseen hge h0 hunseen] at h
            cases h

/-! ### The last step to the right -/

/-- The item after `p` is deeper than `p` and has the indent of `k`; no later item up to `k` enters
that indent by a step to the right. -/
def Foot (is : List Int) (p k : Nat) : Prop :=
  p < k ∧ is[p]! < is[p + 1]! ∧ is[p + 1]! = is[k]! ∧
    ∀ l, p < l → l < k → is[l + 1]! = is[k]! → is[l + 1]! ≤ is[l]!

theorem Foot.deeper_iff (h : is[k]! < is[k + 1]!) : Foot is p (k + 1) ↔ p = k := by
  constructor
  · rintro ⟨hpk, -, -, hstep⟩
    rcases Nat.lt_succ_iff_lt_or_eq.1 hpk with hlt | rfl
    · exact absurd (hstep k hlt (Nat.lt_succ_self k) rfl) (not_le_of_gt h)
    · rfl
  · rintro rfl
    exact ⟨Nat.lt_succ_self p, h, rfl, fun l hl hl' => absurd hl (Nat.not_lt.2 (Nat.le_of_lt_succ hl'))⟩

theorem Foot.return_iff (h : is[k + 1]! ≤ is[k]!) (hj : LastAt is is[k + 1]! (k + 1) j) :
    Foot is p (k + 1) ↔ Foot is p j := by
  obtain ⟨hjk, hij, hlast⟩ := hj
  constructor
  · rintro ⟨hpk, hdeep, hip, hstep⟩
    have hpk' : p ≠ k := by
      rintro rfl
      exact absurd hdeep (not_lt_of_ge h)
    have hpj : p < j := by
      refine Nat.lt_of_not_le fun hle => hlast (p + 1) (Nat.lt_succ_of_le hle) ?_ hip
      exact Nat.succ_lt_succ (Nat.lt_of_le_of_ne (Nat.le_of_lt_succ hpk) hpk')
    refine ⟨hpj, hdeep, hip.trans hij.symm, fun l hl hlj hil => ?_⟩
    exact hstep l hl (hlj.trans hjk) (hil.trans hij)
  · rintro ⟨hpj, hdeep, hip, hstep⟩
    refine ⟨hpj.trans hjk, hdeep, hip.trans hij, fun l hl hlk hil => ?_⟩
    rcases Nat.lt_or_ge l j with hlj | hjl
    · exact hstep l hl hlj (hil.trans hij.symm)
    · rcases Nat.lt_succ_iff_lt_or_eq.1 hlk with hlk | rfl
      · exact absurd hil (hlast (l + 1) (Nat.lt_succ_of_le hjl) (Nat.succ_lt_succ hlk))
      · exact h

theorem not_foot_of_unseen (h : is[k + 1]! ≤ is[k]!)
    (hunseen : ∀ j, j < k + 1 → is[j]! ≠ is[k + 1]!) : ¬ Foot is p (k + 1) := by
  rintro ⟨hpk, hdeep, hip, -⟩
  rcases Nat.lt_succ_iff_lt_or_eq.1 hpk with hlt | rfl
  · exact hunseen (p + 1) (Nat.succ_lt_succ hlt) hip
  · exact absurd hdeep (not_lt_of_ge h)

/-- Where no indent is negative, the parent of an item is the foot of the last step to its indent. -/
theorem parentAt_eq_some_iff (hpos : ∀ l : Nat, 0 ≤ is[l]!) : parentAt is k = some p ↔ Foot is p k := by
  induction k using Nat.strong_induction_on with
  | h k ih =>
    cases k with
    | zero => simp [parentAt_zero, Foot]
    | succ k =>
      rcases lt_or_ge is[k]! is[k + 1]! with hlt | hge
      · rw [parentAt_of_deeper hlt, Foot.deeper_iff hlt, Option.some.injEq, eq_comm]
      · by_cases h0 : is[k + 1]! = 0
        · rw [parentAt_of_margin hge h0]
          refine ⟨fun h => (nomatch h), fun ⟨_, hdeep, hip, _⟩ => ?_⟩
          exact absurd (hpos p) (not_le_of_gt (h0 ▸ hip ▸ hdeep))
        · rcases exists_lastAt_or_unseen is is[k + 1]! (k + 1) with ⟨j, hj⟩ | hunseen
          · rw [parentAt_of_return hge h0 hj, ih j hj.1, Foot.return_iff hge hj]
          · rw [parentAt_of_unseen hge h0 hunseen]
            exact ⟨fun h => (nomatch h), fun h => absurd h (not_foot_of_unseen hge hunseen)⟩

/-- Let `m` close the block of `p` before `k`. Then `k` is still put under `p` exactly if `p` had a child at
the indent of `k` before `m`, and from that child on nothing enters the indent by a step to the
right. -/
theorem parentAt_after_close_iff (hpos : ∀ l : Nat, 0 ≤ is[l]!) (hpm : p < m) (hmk : m < k)
    (hclose : is[m]! ≤ is[p]!) :
    parentAt is k = some p ↔
      ∃ c, p < c ∧ c < m ∧ is[c]! = is[k]! ∧ parentAt is c = some p ∧
        ∀ l, c ≤ l → l < k → is[l + 1]! = is[k]! → is[l + 1]! ≤ is[l]! := by
  rw [parentAt_eq_some_iff hpos]
  constructor
  · rintro ⟨hpk, hdeep, hip, hstep⟩
    have hne : p + 1 ≠ m := by
      rintro rfl
      exact absurd hdeep (not_lt_of_ge hclose)
    exact ⟨p + 1, Nat.lt_succ_self p, Nat.lt_of_le_of_ne hpm hne, hip, parentAt_of_deeper hdeep,
      fun l hl => hstep l hl⟩
  · rintro ⟨c, hpc, hcm, hic, hparent, hstep⟩
    obtain ⟨-, hdeep, hip, hstep'⟩ := (parentAt_eq_some_iff hpos).1 hparent
    refine ⟨hpm.trans hmk, hdeep, hip.trans hic, fun l hl hlk hil => ?_⟩
    rcases Nat.lt_or_ge l c with hlc | hcl
    · exact hstep' l hl hlc (hil.trans hic.symm)
    · exact hstep l hcl hlk hil

end Outliner.Nesting
