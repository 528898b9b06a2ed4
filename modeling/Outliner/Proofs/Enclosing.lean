import Outliner.Proofs.Outline

/-!
# Enclosing items

By the textbook rule an item lies in the nearest earlier item that is less indented (`EnclosedBy`). A
stack of the items whose blocks are still open finds that item (`openBefore`, `addStacked`). `Nesting`
has no stack: it remembers the last item at every indent, also when the block around it has ended.

The two rules agree where every return to a smaller indent finds that indent in a block that is still
open (`WellDedented`, `enclosedBy_parentAt`). Then the outline is the one that the stack builds, and
the items below a node are consecutive (`outline_of_wellDedented`).
-/

namespace Outliner

namespace Nesting

variable {is : List Int} {ps : List Nat} {p? q? : Option Nat} {i j k p : Nat}

/-! ### The nearest less indented item -/

/-- No item after `p?`, or no item at all if that is `none`, comes before `k` and is less indented
than `k`. -/
def ClearSince (is : List Int) (k : Nat) (p? : Option Nat) : Prop :=
  (∀ p ∈ p?, p < k) ∧ ∀ l, l < k → (∀ p ∈ p?, p < l) → is[k]! ≤ is[l]!

/-- `p?` is the nearest item before `k` that is less indented, or `none` if there is none. -/
def EnclosedBy (is : List Int) (k : Nat) (p? : Option Nat) : Prop :=
  ClearSince is k p? ∧ ∀ p ∈ p?, is[p]! < is[k]!

theorem ClearSince.self : ClearSince is (k + 1) (some k) := by
  refine ⟨by simp, fun l hl hkl => ?_⟩
  have hkl := hkl k rfl
  omega

/-- Leaving the block of an item that is not less indented. -/
theorem ClearSince.pop (h : ClearSince is k (some p)) (hkp : is[k]! ≤ is[p]!)
    (hp : EnclosedBy is p q?) : ClearSince is k q? := by
  have hpk : p < k := h.1 p rfl
  refine ⟨fun q hq => (hp.1.1 q hq).trans hpk, fun l hl hql => ?_⟩
  rcases Nat.lt_trichotomy l p with hlt | rfl | hgt
  · exact hkp.trans (hp.1.2 l hlt hql)
  · exact hkp
  · exact h.2 l hl (by simpa using hgt)

theorem EnclosedBy.of_level (h : EnclosedBy is j p?) (hi : is[j]! = is[k]!)
    (hk : ClearSince is k (some j)) : EnclosedBy is k p? :=
  ⟨hk.pop hi.ge h, fun p hp => hi ▸ h.2 p hp⟩

theorem EnclosedBy.not_none (h : EnclosedBy is k (some p)) : ¬ EnclosedBy is k none := by
  intro hnone
  have hle := hnone.1.2 p (h.1.1 p rfl) (by simp)
  have hlt := h.2 p rfl
  omega

theorem EnclosedBy.le (h : EnclosedBy is k (some p)) (h' : EnclosedBy is k (some j)) : j ≤ p := by
  refine Nat.le_of_not_lt fun hpj => ?_
  have hle := h.1.2 j (h'.1.1 j rfl) (by simpa using hpj)
  have hlt := h'.2 j rfl
  omega

theorem EnclosedBy.unique (h : EnclosedBy is k p?) (h' : EnclosedBy is k q?) : p? = q? := by
  cases p? with
  | none =>
    cases q? with
    | none => rfl
    | some q => exact absurd h h'.not_none
  | some p =>
    cases q? with
    | none => exact absurd h' h.not_none
    | some q => rw [Nat.le_antisymm (h'.le h) (h.le h')]

/-! ### Indents that return into open blocks -/

/-- No indent is negative, and an item that is less indented than the one before it, but not at
indent 0, has an earlier item at its own indent with no less indented one in between. -/
structure WellDedented (is : List Int) : Prop where
  nonneg : ∀ i ∈ is, 0 ≤ i
  returns : ∀ k < is.length, 0 < is[k + 1]! → is[k + 1]! < is[k]! →
    ∃ j < k + 1, is[j]! = is[k + 1]! ∧ ∀ l < k + 1, j < l → is[k + 1]! ≤ is[l]!

instance : DecidablePred WellDedented := fun _ =>
  decidable_of_iff (_ ∧ _) ⟨fun h => ⟨h.1, h.2⟩, fun h => ⟨h.nonneg, h.returns⟩⟩

namespace WellDedented

theorem exists_return (h : WellDedented is) (hge : is[k + 1]! ≤ is[k]!) (h0 : is[k + 1]! ≠ 0) :
    ∃ j, LastAt is is[k + 1]! (k + 1) j ∧ ClearSince is (k + 1) (some j) := by
  have hpos : 0 < is[k + 1]! := lt_of_le_of_ne (getElem!_nonneg h.nonneg _) h0.symm
  have hlen : k < is.length := by
    refine Nat.lt_of_not_le fun hle => h0 ?_
    simp [getElem!_neg is (k + 1) (by omega)]
  obtain ⟨i, hi, hik, hclear⟩ : ∃ i < k + 1, is[i]! = is[k + 1]! ∧
      ∀ l < k + 1, i < l → is[k + 1]! ≤ is[l]! := by
    rcases lt_or_eq_of_le hge with hlt | heq
    · exact h.returns k hlen hpos hlt
    · exact ⟨k, by omega, heq.symm, by omega⟩
  rcases exists_lastAt_or_unseen is is[k + 1]! (k + 1) with ⟨j, hj⟩ | hunseen
  · have hij : i ≤ j := Nat.le_of_not_lt fun hji => hj.2.2 i hji hi hik
    refine ⟨j, hj, by simpa using hj.1, fun l hl hjl => hclear l hl ?_⟩
    exact Nat.lt_of_le_of_lt hij (hjl j rfl)
  · exact absurd hik (hunseen i hi)

end WellDedented

theorem enclosedBy_parentAt (h : WellDedented is) (k : Nat) : EnclosedBy is k (parentAt is k) := by
  induction k using Nat.strong_induction_on with
  | h k ih =>
    cases k with
    | zero =>
      rw [parentAt_zero]
      exact ⟨⟨by simp, by simp⟩, by simp⟩
    | succ k =>
      rcases lt_or_ge is[k]! is[k + 1]! with hlt | hge
      · rw [parentAt_of_deeper hlt]
        exact ⟨.self, by simpa using hlt⟩
      · by_cases h0 : is[k + 1]! = 0
        · rw [parentAt_of_margin hge h0]
          exact ⟨⟨by simp, fun l _ _ => h0 ▸ getElem!_nonneg h.nonneg l⟩, by simp⟩
        · obtain ⟨j, hj, hclear⟩ := h.exists_return hge h0
          rw [parentAt_of_return hge h0 hj]
          exact (ih j hj.1).of_level hj.2.1 hclear

/-! ### The stack of open items -/

/-- The items whose blocks are open before `k`, the innermost first. -/
def openBefore (is : List Int) : Nat → List Nat
  | 0 => []
  | k + 1 => k :: (openBefore is k).dropWhile fun p => is[k]! ≤ is[p]!

/-- Each of the items `ps` is enclosed by the next one. -/
def Ladder (is : List Int) : List Nat → Prop
  | [] => True
  | p :: ps => EnclosedBy is p ps.head? ∧ Ladder is ps

theorem Ladder.pops (h : Ladder is ps) (hk : ClearSince is k ps.head?) :
    EnclosedBy is k (ps.dropWhile fun p => is[k]! ≤ is[p]!).head? ∧
      Ladder is (ps.dropWhile fun p => is[k]! ≤ is[p]!) := by
  induction ps with
  | nil => exact ⟨⟨hk, by simp⟩, trivial⟩
  | cons p ps ih =>
    obtain ⟨hp, hps⟩ := h
    by_cases hkp : is[k]! ≤ is[p]!
    · rw [List.dropWhile_cons_of_pos (by simpa using hkp)]
      exact ih hps (hk.pop hkp hp)
    · rw [List.dropWhile_cons_of_neg (by simpa using hkp)]
      exact ⟨⟨hk, by simpa using hkp⟩, hp, hps⟩

theorem ladder_openBefore (is : List Int) (k : Nat) :
    Ladder is (openBefore is k) ∧ ClearSince is k (openBefore is k).head? := by
  induction k with
  | zero => exact ⟨trivial, by simp [openBefore], by simp⟩
  | succ k ih => exact ⟨ih.1.pops ih.2, .self⟩

/-- Popping the stack down to a less indented item leaves the parent on top. -/
theorem head?_openBefore (h : WellDedented is) (k : Nat) :
    ((openBefore is k).dropWhile fun p => is[k]! ≤ is[p]!).head? = parentAt is k := by
  obtain ⟨hladder, hclear⟩ := ladder_openBefore is k
  exact (hladder.pops hclear).1.unique (enclosedBy_parentAt h k)

/-! ### Blocks -/

/-- `i` is `j` itself or lies in the block that begins with `j`. -/
def Within (is : List Int) (j i : Nat) : Prop :=
  j ≤ i ∧ ∀ l, j < l → l ≤ i → is[j]! < is[l]!

theorem Within.refl : Within is j j :=
  ⟨Nat.le_refl j, fun _ hl hl' => absurd hl (Nat.not_lt.2 hl')⟩

theorem Within.mono (h : Within is j i) (hk : j ≤ k) (hki : k ≤ i) : Within is j k :=
  ⟨hk, fun l hl hl' => h.2 l hl (hl'.trans hki)⟩

theorem Within.of_enclosedBy (h : Within is j p) (hp : EnclosedBy is i (some p)) :
    Within is j i := by
  have hpi : p < i := hp.1.1 p rfl
  have hlt : is[p]! < is[i]! := hp.2 p rfl
  have hjp : is[j]! ≤ is[p]! := by
    rcases Nat.eq_or_lt_of_le h.1 with rfl | hjp
    · exact le_refl _
    · exact (h.2 p hjp (Nat.le_refl p)).le
  refine ⟨h.1.trans hpi.le, fun l hjl hli => ?_⟩
  rcases Nat.lt_or_ge p l with hpl | hlp
  · rcases Nat.eq_or_lt_of_le hli with rfl | hli
    · omega
    · have hil := hp.1.2 l hli (by simpa using hpl)
      omega
  · exact h.2 l hjl hlp

theorem Within.exists_enclosing (h : Within is j i) (hne : j ≠ i) (hp : EnclosedBy is i p?) :
    ∃ p, p? = some p ∧ Within is j p := by
  have hji : j < i := Nat.lt_of_le_of_ne h.1 hne
  have hlt : is[j]! < is[i]! := h.2 i hji (Nat.le_refl i)
  cases p? with
  | none =>
    have hle := hp.1.2 j hji (by simp)
    omega
  | some p =>
    have hjp : j ≤ p := by
      refine Nat.le_of_not_lt fun hpj => ?_
      have hle := hp.1.2 j hji (by simpa using hpj)
      omega
    exact ⟨p, rfl, h.mono hjp (hp.1.1 p rfl).le⟩

theorem exists_within_iff (is : List Int) (j n : Nat) :
    ∃ stop, ∀ i < n, Within is j i ↔ j ≤ i ∧ i < stop := by
  induction n with
  | zero => exact ⟨0, by omega⟩
  | succ n ih =>
    obtain ⟨stop, hstop⟩ := ih
    by_cases hn : Within is j n
    · refine ⟨n + 1, fun i hi => ⟨fun h => ⟨h.1, hi⟩, fun h => hn.mono h.1 ?_⟩⟩
      omega
    · refine ⟨min stop n, fun i hi => ?_⟩
      rcases Nat.lt_succ_iff_lt_or_eq.1 hi with hi | rfl
      · rw [hstop i hi]
        omega
      · refine ⟨fun h => absurd h hn, fun h => ?_⟩
        omega

end Nesting

namespace Forest

open Nesting

variable {f g : Forest} {ds : List Declaration} {d : Declaration} {i j k n : Nat}

/-! ### The outline of the stack -/

/-- Puts a declaration under the innermost open one that is less indented, and closes the blocks in
between. The stack holds the open declarations with their indents; below it is the root. -/
def stackDeclaration (root : NodeId) (s : Forest × List (Int × NodeId)) (d : Declaration) :
    Forest × List (Int × NodeId) :=
  let opened := s.2.dropWhile fun e => d.indent ≤ e.1
  let parent := (opened.head?.map Prod.snd).getD root
  ((s.1.add (.declared d) false).append parent s.1.size, (d.indent, s.1.size) :: opened)

/-- The outline that a stack of open declarations builds, before sorting. -/
def addStacked (f : Forest) (ds : List Declaration) : Forest :=
  (ds.foldl (stackDeclaration f.size) (f.add (.declared .root) false, [])).1

/-- The stack after `k` declarations. -/
def stackBefore (root : NodeId) (is : List Int) (k : Nat) : List (Int × NodeId) :=
  (openBefore is k).map fun p => (is[p]!, root + 1 + p)

theorem stackDeclaration_eq {root : NodeId} (h : WellDedented (indents ds)) (hd : ds[k]? = some d)
    (hsize : g.size = root + 1 + k) :
    stackDeclaration root (g, stackBefore root (indents ds) k) d
      = (g.addDeclaration root (d, placementAt (indents ds) k),
        stackBefore root (indents ds) (k + 1)) := by
  have hpop : ((stackBefore root (indents ds) k).dropWhile fun e => d.indent ≤ e.1)
      = ((openBefore (indents ds) k).dropWhile fun p => (indents ds)[k]! ≤ (indents ds)[p]!).map
          fun p => ((indents ds)[p]!, root + 1 + p) := by
    rw [stackBefore, List.dropWhile_map, getElem!_indents hd]
    rfl
  have hparent : ((((openBefore (indents ds) k).dropWhile fun p =>
        (indents ds)[k]! ≤ (indents ds)[p]!).map fun p => ((indents ds)[p]!, root + 1 + p)).head?.map
          Prod.snd).getD root = outlineNode root (parentAt (indents ds) k) := by
    rw [List.head?_map, head?_openBefore h]
    cases parentAt (indents ds) k <;> rfl
  rw [addDeclaration_eq]
  simp only [stackDeclaration, hpop, hparent]
  rw [stackBefore, openBefore, List.map_cons, getElem!_indents hd, hsize]
  rfl

theorem size_addDeclaration {root : NodeId} {p : Placement} :
    (g.addDeclaration root (d, p)).size = g.size + 1 := by
  rw [addDeclaration_eq, size_append, size_add]

theorem foldl_stackDeclaration {root : NodeId} (h : WellDedented (indents ds))
    (rest : List Declaration) (hrest : ds.drop k = rest) (hsize : g.size = root + 1 + k) :
    (rest.foldl (stackDeclaration root) (g, stackBefore root (indents ds) k)).1
      = (rest.zip ((List.range' k rest.length).map (placementAt (indents ds)))).foldl
          (addDeclaration root) g := by
  induction rest generalizing g k with
  | nil => rfl
  | cons d rest ih =>
    have hk : k < ds.length := by
      refine Nat.lt_of_not_le fun hle => ?_
      rw [List.drop_eq_nil_of_le hle] at hrest
      cases hrest
    rw [List.drop_eq_getElem_cons hk, List.cons.injEq] at hrest
    have hd : ds[k]? = some d := by rw [List.getElem?_eq_getElem hk, hrest.1]
    rw [List.foldl_cons, stackDeclaration_eq h hd hsize, List.length_cons, List.range'_succ,
      List.map_cons, List.zip_cons_cons, List.foldl_cons]
    exact ih hrest.2 (by rw [size_addDeclaration, hsize, Nat.add_assoc])

theorem addNested_eq_addStacked (h : WellDedented (indents ds)) :
    f.addNested ds = f.addStacked ds := by
  have hsize : (f.add (.declared .root) false).size = f.size + 1 + 0 := size_add ..
  have hloop := foldl_stackDeclaration h ds List.drop_zero hsize
  have hlen : (indents ds).length = ds.length := List.length_map ..
  have hplace : Declaration.placements ds
      = (List.range' 0 ds.length).map (placementAt (indents ds)) := by
    rw [← hlen, ← List.range_eq_range']
    exact placements_eq_map _
  rw [addNested, hplace, ← hloop]
  rfl

/-! ### Blocks in the outline -/

theorem Nested.above_iff (h : Nested f g ds k) (hw : WellDedented (indents ds)) (hi : i < k) :
    g.Above (f.size + 1 + j) (f.size + 1 + i) ↔ Within (indents ds) j i := by
  induction i using Nat.strong_induction_on with
  | h i ih =>
    have hp := h.parent? i hi
    have henclosed := enclosedBy_parentAt hw i
    constructor
    · intro habove
      rcases habove.eq_or_above hp with heq | habove
      · have hij : j = i := Nat.add_left_cancel heq
        exact hij ▸ .refl
      · cases hq : parentAt (indents ds) i with
        | none =>
          rw [hq] at habove
          have hroot : f.size + 1 + j = (f.size : Nat) := habove.eq_of_parentless h.parentless
          omega
        | some p =>
          rw [hq] at habove henclosed
          have hpi : p < i := henclosed.1.1 p rfl
          exact ((ih p hpi (hpi.trans hi)).1 habove).of_enclosedBy henclosed
    · intro hwithin
      by_cases hij : j = i
      · rw [hij]
      · obtain ⟨p, hq, hjp⟩ := hwithin.exists_enclosing hij henclosed
        rw [hq] at hp henclosed
        have hpi : p < i := henclosed.1.1 p rfl
        exact ((ih p hpi (hpi.trans hi)).2 hjp).tail hp

/-- The declarations below a node of the outline are consecutive. -/
theorem Nested.exists_mem_walk_iff (h : Nested f g ds ds.length) (hf : f.Owned)
    (hw : WellDedented (indents ds)) (hn : n ∈ g.walk f.size) :
    ∃ start stop : Nat, ∀ i < ds.length, f.size + 1 + i ∈ g.walk n ↔ start ≤ i ∧ i < stop := by
  rcases (h.mem_walk hf).1 hn with rfl | ⟨j, -, rfl⟩
  · refine ⟨0, ds.length, fun i hi => ⟨fun _ => ⟨Nat.zero_le i, hi⟩, fun _ => ?_⟩⟩
    exact (h.mem_walk hf).2 (.inr ⟨i, hi, rfl⟩)
  · obtain ⟨stop, hstop⟩ := exists_within_iff (indents ds) j ds.length
    refine ⟨j, stop, fun i hi => ?_⟩
    rw [h.reached.owned.mem_walk, h.above_iff hw hi, hstop i hi]

section Lines

variable {item? : List Char → Option Item} {text : String} {c : Declaration} {p? : Option Nat}

theorem indent_le_of_clearSince (h : ClearSince (indents (declarations item? text)) i p?)
    (hi : (declarations item? text)[i]? = some d) (hc : c ∈ declarations item? text)
    (hp : ∀ p ∈ p?, ∀ e, (declarations item? text)[p]? = some e → e.line < c.line)
    (hcd : c.line < d.line) : d.indent ≤ c.indent := by
  obtain ⟨l, hl⟩ := List.mem_iff_getElem?.1 hc
  have hli : l < i := (line_lt_iff hl hi).1 hcd
  have hlen := (List.getElem?_eq_some_iff.1 hi).1
  rw [← getElem!_indents hl, ← getElem!_indents hi]
  refine h.2 l hli fun p hmem => ?_
  have hps := List.getElem?_eq_getElem ((h.1 p hmem).trans hlen)
  exact (line_lt_iff hps hl).1 (hp p hmem _ hps)

theorem Nested.parent_encloses
    (h : Nested f g (declarations item? text) (declarations item? text).length) (hf : f.Owned)
    (hw : WellDedented (indents (declarations item? text))) (hn : g.StandsFor f.size n d) :
    (∃ p e, g.parent? n = some p ∧ g.StandsFor f.size p e ∧ e.line < d.line ∧
        e.indent < d.indent ∧
        ∀ c ∈ declarations item? text, e.line < c.line → c.line < d.line → d.indent ≤ c.indent) ∨
      (g.parent? n = some f.size ∧
        ∀ c ∈ declarations item? text, c.line < d.line → d.indent ≤ c.indent) := by
  obtain ⟨i, hi, rfl⟩ := (h.standsFor_iff hf).1 hn
  have hlen := (List.getElem?_eq_some_iff.1 hi).1
  have hp := h.parent? i hlen
  have henclosed := enclosedBy_parentAt hw i
  cases hq : parentAt (indents (declarations item? text)) i with
  | none =>
    rw [hq] at hp henclosed
    exact .inr ⟨hp, fun c hc => indent_le_of_clearSince henclosed.1 hi hc (by simp)⟩
  | some p =>
    rw [hq] at hp henclosed
    have hpi : p < i := henclosed.1.1 p rfl
    obtain ⟨e, he⟩ : ∃ e, (declarations item? text)[p]? = some e :=
      ⟨_, List.getElem?_eq_getElem (hpi.trans hlen)⟩
    have hstands : g.StandsFor f.size (f.size + 1 + p) e := (h.standsFor_iff hf).2 ⟨p, he, rfl⟩
    have hlt := henclosed.2 p rfl
    rw [getElem!_indents he, getElem!_indents hi] at hlt
    refine .inl ⟨_, e, hp, hstands, (line_lt_iff he hi).2 hpi, hlt, fun c hc hec => ?_⟩
    refine indent_le_of_clearSince henclosed.1 hi hc fun q hq e' he' => ?_
    cases hq
    cases he.symm.trans he'
    exact hec

end Lines

/-- Let every dedent of a text return into an open block. Then its outline before sorting is the one
that a stack builds, every declaration lies under the nearest earlier one that is less indented, or
under the root if there is none, and the declarations below a node are consecutive. -/
theorem outline_of_wellDedented (h : f.Reached) (item? : List Char → Option Item) (text : String) :
    let ds := declarations item? text
    let g := f.addOutline ds
    WellDedented (indents ds) →
      f.addNested ds = f.addStacked ds ∧
      (∀ n d, g.StandsFor f.size n d →
        (∃ p e, g.parent? n = some p ∧ g.StandsFor f.size p e ∧ e.line < d.line ∧
          e.indent < d.indent ∧
          ∀ c ∈ ds, e.line < c.line → c.line < d.line → d.indent ≤ c.indent) ∨
        (g.parent? n = some f.size ∧ ∀ c ∈ ds, c.line < d.line → d.indent ≤ c.indent)) ∧
      ∀ n ∈ g.walk f.size, ∃ start stop : Nat, ∀ (i : Nat) d m, ds[i]? = some d →
        g.StandsFor f.size m d → (m ∈ g.walk n ↔ start ≤ i ∧ i < stop) := by
  intro ds g hw
  have hg : Nested f g ds ds.length := nested_addOutline h ds
  refine ⟨addNested_eq_addStacked hw, fun n d hn => hg.parent_encloses h.owned hw hn, ?_⟩
  intro n hn
  obtain ⟨start, stop, hblock⟩ := hg.exists_mem_walk_iff h.owned hw hn
  refine ⟨start, stop, fun i d m hi hm => ?_⟩
  obtain ⟨j, hj, rfl⟩ := (hg.standsFor_iff h.owned).1 hm
  rw [line_inj hj hi rfl]
  exact hblock i (List.getElem?_eq_some_iff.1 hi).1

/-- The first item is indented, and the return to its indent skips a level. -/
def indentedStart : String :=
  "  def a():\n      def b():\n  class C:\n    def d():\ndef e():"

theorem declarations_indentedStart :
    declarations Line.item? indentedStart
      = [⟨⟨"a", .function, 2⟩, 1⟩, ⟨⟨"b", .function, 6⟩, 2⟩, ⟨⟨"C", .classDef, 2⟩, 3⟩,
        ⟨⟨"d", .function, 4⟩, 4⟩, ⟨⟨"e", .function, 0⟩, 5⟩] := by
  decide

theorem wellDedented_indentedStart :
    WellDedented (indents (declarations Line.item? indentedStart)) := by
  rw [declarations_indentedStart]
  decide

/-- `d` lies in `C`, the nearest declaration that is less indented. -/
theorem outline_of_wellDedented_indentedStart :
    let ds := declarations Line.item? indentedStart
    let g := empty.addOutline ds
    WellDedented (indents ds) ∧ empty.addNested ds = empty.addStacked ds ∧
      g.StandsFor 0 4 ⟨⟨"d", .function, 4⟩, 4⟩ ∧
      (∃ p e, g.parent? 4 = some p ∧ g.StandsFor 0 p e ∧ e.line < 4 ∧ e.indent < 4 ∧
        ∀ c ∈ ds, e.line < c.line → c.line < 4 → 4 ≤ c.indent) ∧
      ∃ start stop : Nat, ∀ (i : Nat) d m, ds[i]? = some d → g.StandsFor 0 m d →
        (m ∈ g.walk 3 ↔ start ≤ i ∧ i < stop) := by
  intro ds g
  have hds : ds = _ := declarations_indentedStart
  have hg : Nested empty g ds ds.length := nested_addOutline .empty ds
  obtain ⟨hstack, hparents, hblocks⟩ :=
    outline_of_wellDedented .empty Line.item? indentedStart wellDedented_indentedStart
  have hd : g.StandsFor 0 4 ⟨⟨"d", .function, 4⟩, 4⟩ :=
    (hg.standsFor_iff .empty).2 ⟨3, by rw [hds]; rfl, rfl⟩
  have hC : g.StandsFor 0 3 ⟨⟨"C", .classDef, 2⟩, 3⟩ :=
    (hg.standsFor_iff .empty).2 ⟨2, by rw [hds]; rfl, rfl⟩
  refine ⟨wellDedented_indentedStart, hstack, hd, ?_, hblocks 3 hC.1⟩
  rcases hparents 4 _ hd with hparent | ⟨-, hnone⟩
  · exact hparent
  · have hmem : ⟨⟨"C", .classDef, 2⟩, 3⟩ ∈ ds := by
      rw [hds]
      decide
    exact absurd (hnone _ hmem (by decide)) (by decide)

end Forest

end Outliner
