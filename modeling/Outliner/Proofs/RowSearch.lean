import Mathlib.Data.List.Induction
import Outliner.Navigation

/-!
# The search for the row of a line

`rowIndexForLine` goes through the rows once and compares nothing but their lines. What it has found
after some rows is the greatest line up to the given one, and the first row that starts there
(`IsNearest`); the next row is put behind these (`IsNearest.step`), so this holds after all rows
(`isNearest_foldl`). Rows that stand for no line have the number -1, which is never found.

So the row that is found is the `NearestRow`, wherever it stands, and there is none exactly if no row starts
from line 1 to the given one. A later line finds the same row or one that starts later. The main statement,
`rowIndexForLine_first_greatest`, says so.
-/

namespace Outliner

variable {line line' a : Int} {ls : List Int} {best? : Option (Nat × Int)} {rows : List Row}
  {r r' : Row} {i j : Nat}

/-! ### The loop -/

/-- What the search for `line` has found in `ls`: the greatest number from 1 to `line` and the first
position where it stands, or nothing if there is no such number. -/
def IsNearest (line : Int) (ls : List Int) : Option (Nat × Int) → Prop
  | none => ∀ l ∈ ls, 1 ≤ l → line < l
  | some (i, b) => ls[i]? = some b ∧ 1 ≤ b ∧ b ≤ line ∧
      ∀ (j : Nat) l, ls[j]? = some l → 1 ≤ l → l ≤ line → l ≤ b ∧ (l = b → i ≤ j)

theorem getElem?_concat {j : Nat} {l : Int} (h : (ls ++ [a])[j]? = some l) :
    ls[j]? = some l ∨ j = ls.length ∧ l = a := by
  rcases Nat.lt_trichotomy j ls.length with hlt | rfl | hgt
  · rw [List.getElem?_append_left hlt] at h
    exact .inl h
  · rw [List.getElem?_concat_length] at h
    exact .inr ⟨rfl, (Option.some.inj h).symm⟩
  · rw [List.getElem?_eq_none (by rw [List.length_append]; exact hgt)] at h
    cases h

theorem IsNearest.keep_none (h : IsNearest line ls none) (ha : 1 ≤ a → line < a) :
    IsNearest line (ls ++ [a]) none := by
  intro l hl
  rcases List.mem_append.1 hl with hl | hl
  · exact h l hl
  · exact List.mem_singleton.1 hl ▸ ha

theorem IsNearest.keep_some {b : Int} (h : IsNearest line ls (some (i, b)))
    (ha : 1 ≤ a → a ≤ line → a ≤ b) : IsNearest line (ls ++ [a]) (some (i, b)) := by
  obtain ⟨hi, hpos, hle, hmax⟩ := h
  have hlen := (List.getElem?_eq_some_iff.1 hi).1
  refine ⟨by rw [List.getElem?_append_left hlen, hi], hpos, hle, fun j l hj hl hlline => ?_⟩
  rcases getElem?_concat hj with hj | ⟨rfl, rfl⟩
  · exact hmax j l hj hl hlline
  · exact ⟨ha hl hlline, fun _ => Nat.le_of_lt hlen⟩

theorem isNearest_last (hpos : 1 ≤ a) (hle : a ≤ line)
    (hmax : ∀ l ∈ ls, 1 ≤ l → l ≤ line → l < a) :
    IsNearest line (ls ++ [a]) (some (ls.length, a)) := by
  refine ⟨List.getElem?_concat_length, hpos, hle, fun j l hj hl hlline => ?_⟩
  rcases getElem?_concat hj with hj | ⟨rfl, rfl⟩
  · have hlt := hmax l (List.mem_of_getElem? hj) hl hlline
    omega
  · exact ⟨Int.le_refl _, fun _ => Nat.le_refl _⟩

theorem IsNearest.step (h : IsNearest line ls best?) (a : Int) :
    IsNearest line (ls ++ [a]) (closerRow line best? (a, ls.length)) := by
  cases best? with
  | none =>
    by_cases hout : a < 1 ∨ line < a
    · rw [closerRow, if_pos hout]
      exact h.keep_none (by omega)
    · rw [closerRow, if_neg hout]
      refine isNearest_last (by omega) (by omega) fun l hl hpos hle => ?_
      have hlt := h l hl hpos
      omega
  | some best =>
    obtain ⟨i, b⟩ := best
    by_cases hout : a < 1 ∨ line < a
    · rw [closerRow, if_pos hout]
      exact h.keep_some (by omega)
    · rw [closerRow, if_neg hout]
      show IsNearest line (ls ++ [a]) (if b < a then some (ls.length, a) else some (i, b))
      split
      · next hlt =>
        refine isNearest_last (by omega) (by omega) fun l hl hpos hle => ?_
        obtain ⟨j, hj⟩ := List.mem_iff_getElem?.1 hl
        have hlb := (h.2.2.2 j l hj hpos hle).1
        omega
      · exact h.keep_some (by omega)

theorem isNearest_foldl (line : Int) (ls : List Int) :
    IsNearest line ls (ls.zipIdx.foldl (closerRow line) none) := by
  induction ls using List.reverseRecOn with
  | nil => simp [IsNearest]
  | append_singleton ls a ih =>
    have hstep := ih.step a
    rw [List.zipIdx_append, List.foldl_append]
    simpa using hstep

/-! ### The row that is found -/

/-- Row `i` is `r`, which starts at a line from 1 to `line`. Of the rows that do so none starts later, and
none that starts at the same line comes before it. -/
structure NearestRow (rows : List Row) (line : Int) (i : Nat) (r : Row) : Prop where
  getElem? : rows[i]? = some r
  one_le : 1 ≤ r.line
  le : r.line ≤ line
  greatest : ∀ r' ∈ rows, 1 ≤ r'.line → r'.line ≤ line → r'.line ≤ r.line
  first : ∀ (j : Nat) r', rows[j]? = some r' → r'.line = r.line → i ≤ j

theorem NearestRow.unique (h : NearestRow rows line i r) (h' : NearestRow rows line j r') : i = j := by
  have hle := h'.greatest r (List.mem_of_getElem? h.getElem?) h.one_le h.le
  have hge := h.greatest r' (List.mem_of_getElem? h'.getElem?) h'.one_le h'.le
  have hline := Int.le_antisymm hle hge
  exact Nat.le_antisymm (h.first j r' h'.getElem? hline.symm) (h'.first i r h.getElem? hline)

theorem rowIndexForLine_eq_none_iff :
    rowIndexForLine rows line = none ↔ ∀ r ∈ rows, 1 ≤ r.line → line < r.line := by
  have hnearest := isNearest_foldl line (rows.map Row.line)
  rw [rowIndexForLine, Option.map_eq_none_iff]
  constructor
  · intro hnone r hr hpos
    rw [hnone] at hnearest
    exact hnearest _ (List.mem_map_of_mem hr) hpos
  · intro hout
    cases hbest : (rows.map Row.line).zipIdx.foldl (closerRow line) none with
    | none => rfl
    | some best =>
      rw [hbest] at hnearest
      obtain ⟨hi, hpos, hle, -⟩ := hnearest
      obtain ⟨r, hr, hline⟩ := List.mem_map.1 (List.mem_of_getElem? hi)
      have hlt := hout r hr (by omega)
      omega

theorem nearestRow_of_rowIndexForLine (h : rowIndexForLine rows line = some i) :
    ∃ r, NearestRow rows line i r := by
  have hnearest := isNearest_foldl line (rows.map Row.line)
  obtain ⟨⟨i', b⟩, hbest, hi⟩ := Option.map_eq_some_iff.1 h
  cases hi
  rw [hbest] at hnearest
  obtain ⟨hi, hpos, hle, hmax⟩ := hnearest
  rw [List.getElem?_map] at hi
  obtain ⟨r, hr, rfl⟩ := Option.map_eq_some_iff.1 hi
  have hat : ∀ (j : Nat) r', rows[j]? = some r' → (rows.map Row.line)[j]? = some r'.line := by
    intro j r' hj
    rw [List.getElem?_map, hj, Option.map_some]
  refine ⟨r, hr, hpos, hle, fun r' hr' hpos' hle' => ?_, fun j r' hj hline => ?_⟩
  · obtain ⟨j, hj⟩ := List.mem_iff_getElem?.1 hr'
    exact (hmax j _ (hat j r' hj) hpos' hle').1
  · exact (hmax j _ (hat j r' hj) (hline ▸ hpos) (hline ▸ hle)).2 hline

theorem rowIndexForLine_eq_some_iff :
    rowIndexForLine rows line = some i ↔ ∃ r, NearestRow rows line i r := by
  refine ⟨nearestRow_of_rowIndexForLine, fun ⟨r, hr⟩ => ?_⟩
  cases hfound : rowIndexForLine rows line with
  | none =>
    have hlt := rowIndexForLine_eq_none_iff.1 hfound r (List.mem_of_getElem? hr.getElem?) hr.one_le
    exact absurd hr.le (Int.not_le.2 hlt)
  | some j =>
    obtain ⟨r', hr'⟩ := nearestRow_of_rowIndexForLine hfound
    rw [hr.unique hr']

/-- A row that is found for a line bounds from below what is found for later lines. -/
theorem NearestRow.exists_later (h : NearestRow rows line i r) (hline : line ≤ line') :
    ∃ j r', NearestRow rows line' j r' ∧ r.line ≤ r'.line := by
  have hr := List.mem_of_getElem? h.getElem?
  have hle := Int.le_trans h.le hline
  cases hfound : rowIndexForLine rows line' with
  | none =>
    have hlt := rowIndexForLine_eq_none_iff.1 hfound r hr h.one_le
    exact absurd hle (Int.not_le.2 hlt)
  | some j =>
    obtain ⟨r', hr'⟩ := nearestRow_of_rowIndexForLine hfound
    exact ⟨j, r', hr', hr'.greatest r hr h.one_le hle⟩

/-- For any rows, in any order, and any line: no row is found exactly if none starts from line 1 to the
given one, and otherwise the row that is found is the first of those that start at the greatest line up to the
given one. If a row is found for a line, one is found for each later line, and it does not start before. -/
theorem rowIndexForLine_first_greatest (rows : List Row) (line : Int) :
    (rowIndexForLine rows line = none ↔ ∀ r ∈ rows, ¬ (1 ≤ r.line ∧ r.line ≤ line)) ∧
      (∀ i, rowIndexForLine rows line = some i ↔ ∃ r, NearestRow rows line i r) ∧
      ∀ line', line ≤ line' → ∀ i r, rowIndexForLine rows line = some i → rows[i]? = some r →
        ∃ j r', rowIndexForLine rows line' = some j ∧ rows[j]? = some r' ∧ r.line ≤ r'.line := by
  refine ⟨?_, fun i => rowIndexForLine_eq_some_iff, fun line' hline i r hi hr => ?_⟩
  · simp only [rowIndexForLine_eq_none_iff, not_and, Int.not_le]
  · obtain ⟨r₀, hnearest⟩ := rowIndexForLine_eq_some_iff.1 hi
    obtain rfl : r₀ = r := Option.some.inj (hnearest.getElem?.symm.trans hr)
    obtain ⟨j, r', hr', hle⟩ := hnearest.exists_later hline
    exact ⟨j, r', rowIndexForLine_eq_some_iff.2 ⟨r', hr'⟩, hr'.getElem?, hle⟩

/-- Line 4 is shown twice, and not in the order of the lines. -/
theorem rowIndexForLine_first_greatest_repeated :
    let row (line : Int) : Row := ⟨"f", some ⟨0, .declared ⟨⟨"f", .function, 0⟩, line⟩⟩⟩
    let rows : List Row := [row (-1), row 9, .separator, row 4, ⟨"/", some ⟨1, .plain "/"⟩⟩, row 2, row 4]
    rowIndexForLine rows 8 = some 3 ∧ NearestRow rows 8 3 (row 4) ∧
      ∃ j r', rowIndexForLine rows 9 = some j ∧ rows[j]? = some r' ∧ 4 ≤ r'.line := by
  intro row rows
  obtain ⟨-, hsome, hlater⟩ := rowIndexForLine_first_greatest rows 8
  have hfound : rowIndexForLine rows 8 = some 3 := by decide
  obtain ⟨r, hr⟩ := (hsome 3).1 hfound
  obtain rfl : row 4 = r := Option.some.inj hr.getElem?
  exact ⟨hfound, hr, hlater 9 (by decide) 3 (row 4) hfound rfl⟩

end Outliner
