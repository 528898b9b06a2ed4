import Mathlib.Data.Int.Order.Basic
import Mathlib.Order.RelClasses
import Outliner.Navigation

/-!
# Stepping through declarations

A step forwards and a step backwards are one search in two orders: among the rows that stand for a source
line it takes the first one beyond the selected row (`Searches`). The rows ahead of a row are the one that a
step finds and the rows ahead of that (`Searches.ahead_of_cons`), so steps from one end of the rows pass every
declaration and stop at the other end (`Searches.passes`). `ScanLoop` is the search as a loop from row to row,
and it ends with what the step finds (`scanLoop_iff`). Nothing lies between a declaration and the one
that a step finds, whichever way one looks, so a step the other way leads back (`FirstBeyond.back`). The main
statement is `nextDeclaration_visits`.
-/

namespace Outliner

variable {rows : List Row} {i j k : Nat} {s start stop direction : Int} {is js js' : List Nat}
  {j? j?' : Option Nat} {r : Int → Int → Prop}

/-! ### Rows that stand for a source line -/

/-- Row `i` stands for a source line. -/
def DeclaresAt (rows : List Row) (i : Nat) : Prop :=
  ∃ row, rows[i]? = some row ∧ 1 ≤ row.line

theorem DeclaresAt.lt_length (h : DeclaresAt rows i) : i < rows.length := by
  obtain ⟨row, hrow, -⟩ := h
  exact (List.getElem?_eq_some_iff.1 hrow).1

theorem mem_declarationRows : i ∈ declarationRows rows ↔ DeclaresAt rows i := by
  have hline : (rows[i]?.map Row.line).any (1 ≤ ·) = true ↔ DeclaresAt rows i := by
    cases hrow : rows[i]? with
    | none => simp [DeclaresAt, hrow]
    | some row => simp [DeclaresAt, hrow]
  rw [declarationRows, List.mem_filter, List.mem_range, hline]
  exact ⟨fun h => h.2, fun h => ⟨h.lt_length, h⟩⟩

theorem pairwise_declarationRows (rows : List Row) : (declarationRows rows).Pairwise (· < ·) :=
  List.pairwise_lt_range.filter _

/-! ### One step -/

/-- Row `j` is the first declaration beyond `s` in the order `r`. -/
structure FirstBeyond (rows : List Row) (r : Int → Int → Prop) (s : Int) (j : Nat) : Prop where
  declares : DeclaresAt rows j
  beyond : r s j
  first : ∀ k, DeclaresAt rows k → r s k → k = j ∨ r j k

/-- A declaration is the first in the order `r` beyond the one that is first beyond it in the reverse order. -/
theorem FirstBeyond.back [IsStrictTotalOrder Int r] (h : FirstBeyond rows (Function.swap r) i j)
    (hi : DeclaresAt rows i) : FirstBeyond rows r j i := by
  refine ⟨hi, h.beyond, fun k hk hjk => ?_⟩
  rcases trichotomous_of r (k : Int) i with hki | heq | hik
  · rcases h.first k hk hki with rfl | hkj
    · exact absurd hjk (irrefl_of r _)
    · exact absurd hjk (asymm_of r hkj)
  · exact .inl (Int.ofNat.inj heq)
  · exact .inr hik

section Search

variable [DecidableRel r]

/-- Those of `is` that lie beyond `s` in the order `r`. -/
def ahead (r : Int → Int → Prop) [DecidableRel r] (is : List Nat) (s : Int) : List Nat :=
  is.filter fun i : Nat => r s i

/-- Steps in `direction` search the declarations `is`, which stand in the order `r`, for the first one beyond
the selected row. The rows lie between `start` and `stop`, and from a row that `start` lies beyond a step finds
nothing. Moving on by one goes to what comes next in the order, and nearer to `stop`. -/
structure Searches (rows : List Row) (direction start stop : Int) (r : Int → Int → Prop) [DecidableRel r]
    (is : List Nat) : Prop where
  sorted : is.Pairwise fun i j : Nat => r i j
  mem : ∀ i, i ∈ is ↔ DeclaresAt rows i
  next : ∀ s, nextDeclaration rows s direction
    = if r s start then none else is.find? fun i : Nat => r s i
  inside : ∀ i, r start i ∧ r i stop ↔ 0 ≤ i ∧ i < rows.length
  covers : ∀ s i, r s i ↔ i = s + direction.sign ∨ r (s + direction.sign) i
  nearer : ∀ s, r s stop → (stop - (s + direction.sign)).natAbs < (stop - s).natAbs

theorem searches_forwards (rows : List Row) (h : 0 < direction) :
    Searches rows direction (-1) rows.length (· < ·) (declarationRows rows) where
  sorted := (pairwise_declarationRows rows).imp Int.ofNat_lt.2
  mem _ := mem_declarationRows
  next s := by rw [nextDeclaration, if_pos h]
  inside i := by omega
  covers s i := by rw [Int.sign_eq_one_of_pos h]; omega
  nearer s hs := by rw [Int.sign_eq_one_of_pos h]; omega

theorem searches_backwards (rows : List Row) (h : direction < 0) :
    Searches rows direction rows.length (-1) (· > ·) (declarationRows rows).reverse where
  sorted := List.pairwise_reverse.2 ((pairwise_declarationRows rows).imp Int.ofNat_lt.2)
  mem _ := List.mem_reverse.trans mem_declarationRows
  next s := by rw [nextDeclaration, if_neg (Int.lt_asymm h), if_pos h]
  inside i := by omega
  covers s i := by rw [Int.sign_eq_neg_one_of_neg h]; omega
  nearer s hs := by rw [Int.sign_eq_neg_one_of_neg h]; omega

namespace Searches

theorem inside_of_declares (h : Searches rows direction start stop r is) (hi : DeclaresAt rows i) :
    r start i ∧ r i stop :=
  (h.inside i).2 ⟨Int.natCast_nonneg i, Int.ofNat_lt.2 hi.lt_length⟩

theorem beyond_start (h : Searches rows direction start stop r is) (hi : i ∈ is) : r start i :=
  (h.inside_of_declares ((h.mem i).1 hi)).1

theorem next_of_beyond_start (h : Searches rows direction start stop r is) (hs : r s start) :
    nextDeclaration rows s direction = none := by
  rw [h.next, if_pos hs]

theorem next_eq (h : Searches rows direction start stop r is) (hs : ¬ r s start) :
    nextDeclaration rows s direction = (ahead r is s).head? := by
  rw [h.next, if_neg hs, ahead, List.head?_filter]

theorem mem_ahead (h : Searches rows direction start stop r is) :
    k ∈ ahead r is s ↔ DeclaresAt rows k ∧ r s k := by
  rw [ahead, List.mem_filter, h.mem, decide_eq_true_eq]

theorem pairwise_ahead (h : Searches rows direction start stop r is) (s : Int) :
    (ahead r is s).Pairwise fun i j : Nat => r i j :=
  h.sorted.filter _

theorem ahead_start (h : Searches rows direction start stop r is) : ahead r is start = is :=
  List.filter_eq_self.2 fun _ hi => decide_eq_true (h.beyond_start hi)

variable [IsStrictTotalOrder Int r]

/-- The rows ahead of the one that a step finds are the others ahead of the selected one. -/
theorem ahead_of_cons (h : Searches rows direction start stop r is) (hjs : ahead r is s = j :: js) :
    ahead r is j = js := by
  have hj : r s j := (h.mem_ahead.1 (hjs ▸ List.mem_cons_self)).2
  have hsorted := h.pairwise_ahead s
  rw [hjs, List.pairwise_cons] at hsorted
  calc
    ahead r is j = (ahead r is s).filter fun i : Nat => r j i := by
      rw [ahead, ahead, List.filter_filter]
      -- what lies beyond `j` lies beyond `s` too
      refine List.filter_congr fun i _ => ?_
      by_cases hi : r j i
      · simp [hi, trans_of r hj hi]
      · simp [hi]
    _ = js := by
      rw [hjs, List.filter_cons_of_neg (by simpa using irrefl_of r (j : Int))]
      exact List.filter_eq_self.2 fun i hi => decide_eq_true (hsorted.1 i hi)

/-- A step finds the first declaration beyond the selected row, unless it begins before `start`. -/
theorem next_eq_some_iff (h : Searches rows direction start stop r is) :
    nextDeclaration rows s direction = some j ↔ ¬ r s start ∧ FirstBeyond rows r s j := by
  by_cases hs : r s start
  · simp [h.next_of_beyond_start hs, hs]
  have hsorted := h.pairwise_ahead s
  rw [h.next_eq hs, and_iff_right hs]
  constructor
  · intro hhead
    obtain ⟨js, hjs⟩ := List.head?_eq_some_iff.1 hhead
    obtain ⟨hj, hsj⟩ := h.mem_ahead.1 (hjs ▸ List.mem_cons_self)
    refine ⟨hj, hsj, fun k hk hsk => ?_⟩
    have hmem := h.mem_ahead.2 ⟨hk, hsk⟩
    rw [hjs] at hmem hsorted
    exact (List.mem_cons.1 hmem).imp id fun hk => List.rel_of_pairwise_cons hsorted hk
  · intro hfirst
    have hmem := h.mem_ahead.2 ⟨hfirst.declares, hfirst.beyond⟩
    cases hjs : ahead r is s with
    | nil =>
      rw [hjs] at hmem
      cases hmem
    | cons k js =>
      obtain ⟨hk, hsk⟩ := h.mem_ahead.1 (hjs ▸ List.mem_cons_self)
      rw [hjs] at hmem hsorted
      rcases List.mem_cons.1 hmem with rfl | hj
      · rfl
      · have hkj : r k j := List.rel_of_pairwise_cons hsorted hj
        rcases hfirst.first k hk hsk with rfl | hjk
        · rfl
        · exact absurd hkj (asymm_of r hjk)

end Searches

end Search

/-! ### The scan of a step -/

/-- The loop of a step: it stands at `i`, ends there if this is a row that stands for a source line or is not a
row, and otherwise moves on by `unit`. -/
inductive ScanLoop (rows : List Row) (unit : Int) : Int → Option Nat → Prop where
  | out {i : Int} : ¬ (0 ≤ i ∧ i < rows.length) → ScanLoop rows unit i none
  | found {i : Int} : 0 ≤ i ∧ i < rows.length → DeclaresAt rows i.toNat → ScanLoop rows unit i (some i.toNat)
  | skip {i : Int} {j? : Option Nat} : 0 ≤ i ∧ i < rows.length → ¬ DeclaresAt rows i.toNat →
      ScanLoop rows unit (i + unit) j? → ScanLoop rows unit i j?

theorem ScanLoop.unique {unit s : Int} (h : ScanLoop rows unit s j?) (h' : ScanLoop rows unit s j?') :
    j?' = j? := by
  induction h with
  | out hout =>
    cases h' with
    | out _ => rfl
    | found hin _ => exact absurd hin hout
    | skip hin _ _ => exact absurd hin hout
  | found hin hd =>
    cases h' with
    | out hout => exact absurd hin hout
    | found _ _ => rfl
    | skip _ hnot _ => exact absurd hd hnot
  | skip hin hnot _ ih =>
    cases h' with
    | out hout => exact absurd hin hout
    | found _ hd => exact absurd hd hnot
    | skip _ _ h' => exact ih h'

namespace Searches

variable [DecidableRel r] [IsStrictTotalOrder Int r]

theorem inside_of_next (h : Searches rows direction start stop r is)
    (hj : nextDeclaration rows s direction = some j) :
    0 ≤ s + direction.sign ∧ s + direction.sign < rows.length := by
  obtain ⟨hs, hfirst⟩ := h.next_eq_some_iff.1 hj
  have hstep : r s (s + direction.sign) := (h.covers s _).2 (.inl rfl)
  refine (h.inside _).1 ⟨?_, ?_⟩
  · rcases trichotomous_of r s start with hlt | rfl | hgt
    · exact absurd hlt hs
    · exact hstep
    · exact trans_of r hgt hstep
  · have hjstop := (h.inside_of_declares hfirst.declares).2
    rcases (h.covers s j).1 hfirst.beyond with heq | hlt
    · exact heq ▸ hjstop
    · exact trans_of r hlt hjstop

theorem not_beyond_start_of_inside (h : Searches rows direction start stop r is)
    (hin : 0 ≤ s + direction.sign ∧ s + direction.sign < rows.length) : ¬ r s start := by
  have hstart : r start (s + direction.sign) := ((h.inside _).2 hin).1
  intro hs
  rcases (h.covers s start).1 hs with heq | hlt
  · exact irrefl_of r _ (heq ▸ hstart)
  · exact asymm_of r hstart hlt

theorem next_of_declares (h : Searches rows direction start stop r is)
    (hin : 0 ≤ s + direction.sign ∧ s + direction.sign < rows.length)
    (hd : DeclaresAt rows (s + direction.sign).toNat) :
    nextDeclaration rows s direction = some (s + direction.sign).toNat := by
  have hcast := Int.toNat_of_nonneg hin.1
  have hstep : r s (s + direction.sign) := (h.covers s _).2 (.inl rfl)
  refine h.next_eq_some_iff.2 ⟨h.not_beyond_start_of_inside hin, hd, hcast.symm ▸ hstep, fun k _ hsk => ?_⟩
  rcases (h.covers s k).1 hsk with heq | hlt
  · exact .inl (by rw [← heq, Int.toNat_natCast])
  · exact .inr (hcast.symm ▸ hlt)

/-- Moving on over a row that stands for no source line changes nothing. -/
theorem next_skip (h : Searches rows direction start stop r is)
    (hin : 0 ≤ s + direction.sign ∧ s + direction.sign < rows.length)
    (hnot : ¬ DeclaresAt rows (s + direction.sign).toNat) :
    nextDeclaration rows (s + direction.sign) direction = nextDeclaration rows s direction := by
  have hstart : r start (s + direction.sign) := ((h.inside _).2 hin).1
  rw [h.next_eq (h.not_beyond_start_of_inside hin), h.next_eq (asymm_of r hstart), ahead, ahead]
  refine congrArg List.head? (List.filter_congr fun i hi => ?_)
  have hne : (i : Int) ≠ s + direction.sign := by
    intro heq
    rw [← heq, Int.toNat_natCast] at hnot
    exact hnot ((h.mem i).1 hi)
  rw [decide_eq_decide, h.covers s i, or_iff_right hne]

theorem scanLoop (h : Searches rows direction start stop r is) (s : Int) :
    ScanLoop rows direction.sign (s + direction.sign) (nextDeclaration rows s direction) := by
  -- on what is left before the loop is past the last row
  induction s using (measure fun s : Int => (stop - s).natAbs).wf.induction with
  | h s ih =>
    by_cases hin : 0 ≤ s + direction.sign ∧ s + direction.sign < rows.length
    · by_cases hd : DeclaresAt rows (s + direction.sign).toNat
      · rw [h.next_of_declares hin hd]
        exact .found hin hd
      · have hstop : r s stop := (h.covers s stop).2 (.inr ((h.inside _).2 hin).2)
        rw [← h.next_skip hin hd]
        exact .skip hin hd (ih _ (h.nearer s hstop))
    · have hnone : nextDeclaration rows s direction = none :=
        Option.eq_none_iff_forall_ne_some.2 fun _ hj => hin (h.inside_of_next hj)
      rw [hnone]
      exact .out hin

end Searches

/-- The loop ends, with what the step gives. -/
theorem scanLoop_iff (h : direction ≠ 0) :
    ScanLoop rows direction.sign (s + direction.sign) j? ↔ j? = nextDeclaration rows s direction := by
  have hloop : ScanLoop rows direction.sign (s + direction.sign) (nextDeclaration rows s direction) := by
    rcases lt_or_gt_of_ne h with hneg | hpos
    · exact (searches_backwards rows hneg).scanLoop s
    · exact (searches_forwards rows hpos).scanLoop s
  exact ⟨hloop.unique, fun heq => heq ▸ hloop⟩

/-! ### Step after step -/

/-- Steps in `direction` from the row `s` find the rows `js`, one after the other, and then nothing. -/
inductive Passes (rows : List Row) (direction : Int) : Int → List Nat → Prop where
  | stop {s : Int} : nextDeclaration rows s direction = none → Passes rows direction s []
  | step {s : Int} {j : Nat} {js : List Nat} : nextDeclaration rows s direction = some j →
      Passes rows direction j js → Passes rows direction s (j :: js)

theorem Passes.unique (h : Passes rows direction s js) (h' : Passes rows direction s js') :
    js' = js := by
  induction h generalizing js' with
  | stop hnone =>
    cases h' with
    | stop _ => rfl
    | step hsome _ => cases hnone.symm.trans hsome
  | step hsome _ ih =>
    cases h' with
    | stop hnone => cases hnone.symm.trans hsome
    | step hsome' h' =>
      cases hsome.symm.trans hsome'
      rw [ih h']

section Search

variable [DecidableRel r] [IsStrictTotalOrder Int r]

theorem Searches.passes (h : Searches rows direction start stop r is) (hs : ¬ r s start) :
    Passes rows direction s (ahead r is s) := by
  -- on the rows that are still ahead, of which a step takes the first
  induction hjs : ahead r is s generalizing s with
  | nil => exact .stop (by rw [h.next_eq hs, hjs, List.head?_nil])
  | cons j js ih =>
    have hj : j ∈ is := (List.mem_filter.1 (hjs ▸ List.mem_cons_self)).1
    refine .step (by rw [h.next_eq hs, hjs, List.head?_cons]) (ih ?_ (h.ahead_of_cons hjs))
    exact asymm_of r (h.beyond_start hj)

theorem Searches.passes_iff (h : Searches rows direction start stop r is) :
    Passes rows direction start js ↔ js = is := by
  have hall := h.passes (irrefl_of r start)
  rw [h.ahead_start] at hall
  exact ⟨hall.unique, fun heq => heq ▸ hall⟩

/-- A step in `direction` leads back to a declaration from the one that a step the other way finds. -/
theorem Searches.next_back (h : Searches rows direction start stop r is) (hi : DeclaresAt rows i)
    (hj : FirstBeyond rows (Function.swap r) i j) : nextDeclaration rows j direction = some i :=
  have hstart : r start j := (h.inside_of_declares hj.declares).1
  h.next_eq_some_iff.2 ⟨asymm_of r hstart, hj.back hi⟩

end Search

/-- Let `is` be the indices of the rows that stand for a source line, in increasing order. Steps forwards from
just before the first row find these one after the other and then nothing; steps backwards from just after
the last row find them in the reverse order. A step from one of them to another is taken back by a step the
other way. Steps forwards from before the start and steps backwards from beyond the end find nothing. The
loop of a step ends, with what the step finds. -/
theorem nextDeclaration_visits (rows : List Row) :
    ∃ is : List Nat, is.Pairwise (· < ·) ∧
      (∀ i, i ∈ is ↔ ∃ row, rows[i]? = some row ∧ 1 ≤ row.line) ∧
      (∀ forth : Int, 0 < forth → ∀ js, Passes rows forth (-1) js ↔ js = is) ∧
      (∀ back : Int, back < 0 → ∀ js, Passes rows back rows.length js ↔ js = is.reverse) ∧
      (∀ i ∈ is, ∀ forth back : Int, 0 < forth → back < 0 → ∀ j : Nat,
        (nextDeclaration rows i forth = some j → nextDeclaration rows j back = some i) ∧
        (nextDeclaration rows i back = some j → nextDeclaration rows j forth = some i)) ∧
      (∀ s direction : Int, 0 < direction ∧ s < -1 ∨ direction < 0 ∧ rows.length < s →
        nextDeclaration rows s direction = none) ∧
      ∀ s direction : Int, direction ≠ 0 → ∀ j?,
        ScanLoop rows direction.sign (s + direction.sign) j? ↔ j? = nextDeclaration rows s direction := by
  refine ⟨declarationRows rows, pairwise_declarationRows rows, fun _ => mem_declarationRows, ?_, ?_, ?_, ?_, ?_⟩
  · exact fun forth hforth js => (searches_forwards rows hforth).passes_iff
  · exact fun back hback js => (searches_backwards rows hback).passes_iff
  · intro i hi forth back hforth hback j
    have hforwards := searches_forwards rows hforth
    have hbackwards := searches_backwards rows hback
    have hi := mem_declarationRows.1 hi
    exact ⟨fun hj => hbackwards.next_back hi (hforwards.next_eq_some_iff.1 hj).2,
      fun hj => hforwards.next_back hi (hbackwards.next_eq_some_iff.1 hj).2⟩
  · rintro s direction (⟨hdirection, hs⟩ | ⟨hdirection, hs⟩)
    · exact (searches_forwards rows hdirection).next_of_beyond_start hs
    · exact (searches_backwards rows hdirection).next_of_beyond_start hs
  · exact fun s direction hdirection j? => scanLoop_iff hdirection

/-- Two buckets with a separator between them, and a node without a line. -/
theorem nextDeclaration_visits_buckets :
    let row (line : Int) : Row := ⟨"f", some ⟨0, .declared ⟨⟨"f", .function, 0⟩, line⟩⟩⟩
    let rows : List Row := [row (-1), row 1, row 2, .separator, row (-1), ⟨"/", some ⟨1, .plain "/"⟩⟩, row 5]
    Passes rows 1 (-1) [1, 2, 6] ∧ Passes rows (-3) 7 [6, 2, 1] ∧
      nextDeclaration rows 2 4 = some 6 ∧ nextDeclaration rows 6 (-1) = some 2 ∧
      nextDeclaration rows (-2) 1 = none ∧ ScanLoop rows 1 3 (some 6) := by
  intro row rows
  obtain ⟨is, -, -, hforwards, hbackwards, hback, hout, hscan⟩ := nextDeclaration_visits rows
  have hstep : nextDeclaration rows 2 4 = some 6 := by decide
  have hforth : Passes rows 1 (-1) [1, 2, 6] :=
    .step (j := 1) (by decide) (.step (j := 2) (by decide) (.step (j := 6) (by decide) (.stop (by decide))))
  obtain rfl : [1, 2, 6] = is := (hforwards 1 (by decide) _).1 hforth
  exact ⟨hforth, (hbackwards (-3) (by decide) _).2 rfl, hstep,
    (hback 2 (by decide) 4 (-1) (by decide) (by decide) 6).1 hstep, hout (-2) 1 (.inl (by decide)),
    (hscan 2 4 (by decide) _).2 hstep.symm⟩

end Outliner
