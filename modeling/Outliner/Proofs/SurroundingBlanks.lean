import Mathlib.Data.List.Forall2
import Outliner.Outline.Build
import Outliner.Proofs.LineForms

/-!
# Blanks around a line

Blanks behind a line change nothing: each form of a declaration ends in a character that is no blank, so
they can only be part of the rest, about which the grammar says nothing but how it begins
(`declares_append_blanks_iff`). Blanks before a line make functions and classes deeper and hide variables
(`item?_blanks_append`).

A carriage return is a blank. So an outline is the same whether the lines of its text end in a line feed or
in a carriage return and a line feed. The main statement is `outline_of_blanks`.
-/

namespace Outliner

namespace Text

/-- The text with a carriage return before every line feed. -/
def withReturns (text : String) : String :=
  String.ofList (text.toList.flatMap fun c => if c = '\n' then ['\r', '\n'] else [c])

theorem forall₂_pieces_returns (cs : List Char) :
    List.Forall₂ (fun l l' => l' = l ∨ l' = l ++ ['\r']) (pieces (· == '\n') cs)
      (pieces (· == '\n') (cs.flatMap fun c => if c = '\n' then ['\r', '\n'] else [c])) := by
  induction cs with
  | nil => exact .cons (.inl rfl) .nil
  | cons c cs ih =>
    rw [List.flatMap_cons]
    by_cases hc : c = '\n'
    · subst hc
      exact .cons (.inr rfl) ih
    · have hsep : ¬ (c == '\n') = true := fun h => hc (beq_iff_eq.1 h)
      rw [if_neg hc, List.singleton_append, pieces_cons, pieces_cons, if_neg hsep, if_neg hsep]
      obtain ⟨p, ps, hp⟩ := List.exists_cons_of_ne_nil (pieces_ne_nil (· == '\n') cs)
      rw [hp] at ih ⊢
      obtain ⟨p', ps', hhead, htail, hp'⟩ := List.forall₂_cons_left_iff.1 ih
      rw [hp']
      refine .cons ?_ htail
      rcases hhead with rfl | rfl
      · exact .inl rfl
      · exact .inr rfl

/-- Every line but the last gets a carriage return at its end. -/
theorem forall₂_lines_withReturns (text : String) :
    List.Forall₂ (fun l l' => l' = l ∨ l' = l ++ ['\r']) (lines text) (lines (withReturns text)) := by
  have hpieces := forall₂_pieces_returns text.toList
  rwa [lines, lines, withReturns, String.toList_ofList]

end Text

namespace Line

open Text

variable {s w p cs name rest : List Char} {c : Char} {keyword : String} {item : Item}

/-! ### Blanks behind a line -/

/-- What stands behind a character that is no blank takes up the blanks at the end. -/
theorem Blanks.exists_rest (hw : Blanks w) (hc : isBlank c = false) (h : s ++ w = p ++ c :: rest) :
    ∃ r, s = p ++ c :: r ∧ rest = r ++ w := by
  have hmem : c ∉ w := fun hcw => by
    rw [hw c hcw] at hc
    cases hc
  rcases List.append_eq_append_iff.1 h with ⟨a, -, rfl⟩ | ⟨a, rfl, ha⟩
  · exact absurd (List.mem_append_right a List.mem_cons_self) hmem
  · cases a with
    | nil =>
      rw [List.nil_append] at ha
      exact absurd (ha ▸ List.mem_cons_self) hmem
    | cons d a =>
      cases ha
      exact ⟨a, rfl, rfl⟩

theorem IsHeader.append (h : IsHeader keyword cs name rest) (w : List Char) :
    IsHeader keyword (cs ++ w) name (rest ++ w) := by
  obtain ⟨w₁, w₂, rfl, hrest⟩ := h
  exact ⟨w₁, w₂, List.append_assoc .., hrest⟩

theorem IsHeader.exists_of_append (h : IsHeader keyword cs name (c :: rest)) (hw : Blanks w)
    (hc : isBlank c = false) (hs : s ++ w = p ++ cs) :
    ∃ cs' r, s = p ++ cs' ∧ IsHeader keyword cs' name (c :: r) := by
  obtain ⟨w₁, w₂, rfl, hrest⟩ := h
  rw [← List.append_assoc] at hs
  obtain ⟨r, rfl, rfl⟩ := hw.exists_rest hc hs
  exact ⟨_, r, List.append_assoc .., w₁, w₂, rfl, hrest⟩

theorem declares_append_blanks_iff (hw : Blanks w) : Declares (s ++ w) item ↔ Declares s item := by
  constructor
  · intro h
    generalize hline : s ++ w = line at h
    cases h with
    | function hw₀ ha hheader =>
      obtain ⟨cs, r, rfl, hheader⟩ := hheader.exists_of_append hw (by decide) hline
      exact .function hw₀ ha hheader
    | classDef hw₀ hheader hc =>
      have hblank : ∀ c, c = '(' ∨ c = ':' → isBlank c = false := by
        rintro c (rfl | rfl)
        · decide
        · decide
      obtain ⟨cs, r, rfl, hheader⟩ := hheader.exists_of_append hw (hblank _ hc) hline
      exact .classDef hw₀ hheader hc
    | constant hname hw₀ hrest =>
      obtain ⟨r, rfl, rfl⟩ := hw.exists_rest (by decide) hline
      refine .constant hname hw₀ fun hr => hrest ?_
      rw [List.head?_append, hr, Option.some_or]
  · rintro (⟨hw₀, ha, hheader⟩ | ⟨hw₀, hheader, hc⟩ | ⟨hname, hw₀, hrest⟩)
    · rw [List.append_assoc]
      exact .function hw₀ ha (hheader.append w)
    · rw [List.append_assoc]
      exact .classDef hw₀ (hheader.append w) hc
    · rw [List.append_assoc, List.cons_append]
      refine .constant hname hw₀ fun hr => ?_
      -- a second `=` could only stand in `w`
      rw [List.head?_append, Option.or_eq_some_iff] at hr
      rcases hr with hr | ⟨-, hr⟩
      · exact hrest hr
      · exact absurd (hw _ (List.mem_of_head? hr)) (by decide)

theorem item?_append_blanks (hw : Blanks w) (s : List Char) : item? (s ++ w) = item? s := by
  refine Option.ext fun item => ?_
  rw [item?_eq_findSome?, item?_eq_findSome?, findSome?_forms_iff (.refl _),
    findSome?_forms_iff (.refl _), declares_append_blanks_iff hw]

/-! ### Blanks before a line -/

theorem indent_blanks_append (hw : Blanks w) (s : List Char) :
    indent (w ++ s) = w.length + indent s := by
  rw [indent, List.takeWhile_append_of_pos hw, List.length_append, indent]

theorem function?_blanks_append (hw : Blanks w) (s : List Char) :
    function? (w ++ s)
      = (function? s).map fun item => { item with indent := item.indent + w.length } := by
  rw [function?, List.dropWhile_append_of_pos hw, function?, indent_blanks_append hw]
  split
  · simp [Int.add_comm]
  · rfl

theorem class?_blanks_append (hw : Blanks w) (s : List Char) :
    class? (w ++ s) = (class? s).map fun item => { item with indent := item.indent + w.length } := by
  rw [class?, List.dropWhile_append_of_pos hw, class?, indent_blanks_append hw]
  split
  · split
    · simp [Int.add_comm]
    · rfl
  · rfl

/-- What a line declares once `n` blanks stand before it. Variables are found only at its start. -/
def indented (n : Nat) : Option Item → Option Item
  | some ⟨name, .function, indent⟩ => some ⟨name, .function, indent + n⟩
  | some ⟨name, .classDef, indent⟩ => some ⟨name, .classDef, indent + n⟩
  | some ⟨_, .constant, _⟩ => none
  | some ⟨_, .kindless, _⟩ => none
  | none => none

theorem item?_blanks_append (hw : Blanks w) (hne : w ≠ []) (s : List Char) :
    item? (w ++ s) = indented w.length (item? s) := by
  rw [item?, function?_blanks_append hw, class?_blanks_append hw, assignment?_of_indented hne hw, item?]
  cases hf : function? s with
  | some item =>
    obtain ⟨_, _, _, _, _, -, -, -, -, rfl⟩ := function?_eq_some_iff.1 hf
    rfl
  | none =>
    cases hc : class? s with
    | some item =>
      obtain ⟨_, _, _, _, _, -, -, -, -, rfl⟩ := class?_eq_some_iff.1 hc
      rfl
    | none =>
      cases ha : assignment? s with
      | none => rfl
      | some item =>
        obtain ⟨_, _, _, -, -, -, -, rfl⟩ := assignment?_eq_some_iff.1 ha
        rfl

end Line

/-! ### Other line ends -/

theorem declarations_withReturns (text : String) :
    declarations Line.item? (Text.withReturns text) = declarations Line.item? text := by
  have hreturn : Line.Blanks ['\r'] := List.all_eq_true.1 (by decide)
  have hitems : List.Forall₂ (· = ·) ((Text.lines text).map Line.item?)
      ((Text.lines (Text.withReturns text)).map Line.item?) := by
    rw [List.forall₂_map_left_iff, List.forall₂_map_right_iff]
    refine (Text.forall₂_lines_withReturns text).imp fun l l' hl => ?_
    rcases hl with rfl | rfl
    · rfl
    · exact (Line.item?_append_blanks hreturn l).symm
  rw [List.forall₂_eq_eq_eq] at hitems
  rw [declarations, declarations, hitems]

/-- Blanks behind a line never change what it declares, and blanks before it never change it but for
the indent of a function or a class, and for variables, which are no longer found. So a text has the
outline that it has with a carriage return before each line feed. -/
theorem Forest.outline_of_blanks (f : Forest) (text : String) :
    (∀ s w, Line.Blanks w → Line.item? (s ++ w) = Line.item? s) ∧
      (∀ s w, Line.Blanks w → w ≠ [] →
        Line.item? (w ++ s) = Line.indented w.length (Line.item? s)) ∧
      f.addOutline (declarations Line.item? (Text.withReturns text))
        = f.addOutline (declarations Line.item? text) := by
  refine ⟨fun s w hw => Line.item?_append_blanks hw s,
    fun s w hw hne => Line.item?_blanks_append hw hne s, ?_⟩
  rw [declarations_withReturns]

/-- The second line of the class starts with a tab, and the last line has no end. -/
theorem Forest.outline_of_blanks_lastLine :
    let text := "class A:\n\tdef m(self):\n  x = 1\ny =\u00a0"
    (Text.lines (Text.withReturns text)).map String.ofList
        = ["class A:\r", "\tdef m(self):\r", "  x = 1\r", "y =\u00a0"] ∧
      (declarations Line.item? text).map (fun d => (d.name, d.kind, d.indent, d.line))
        = [("A", .classDef, 0, 1), ("m", .function, 1, 2), ("y", .constant, 0, 4)] ∧
      Line.item? ("  ".toList ++ "\tdef m(self):".toList) = some ⟨"m", .function, 3⟩ ∧
      Line.item? ("\t".toList ++ "y =\u00a0".toList) = none ∧
      empty.addOutline (declarations Line.item? (Text.withReturns text))
        = empty.addOutline (declarations Line.item? text) := by
  intro text
  obtain ⟨-, hbefore, houtline⟩ := outline_of_blanks empty text
  have hblanks : Line.Blanks "  ".toList := List.all_eq_true.1 (by decide)
  have htab : Line.Blanks "\t".toList := List.all_eq_true.1 (by decide)
  refine ⟨by decide, by decide, ?_, ?_, houtline⟩
  · exact (hbefore "\tdef m(self):".toList _ hblanks (by decide)).trans (by decide)
  · exact (hbefore "y =\u00a0".toList _ htab (by decide)).trans (by decide)

end Outliner
