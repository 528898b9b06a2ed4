import Outliner.Proofs.Relabelling
import Outliner.Proofs.Terminal
import Outliner.Text.Pieces
import Outliner.Theme

/-!
# Colour

A printed line is a row. Its label may be coloured and all of it may be reversed, each by a sequence before
and the reset behind. `Theme.Dressing` says how such a line is cut into plain parts and sequences: the
plain parts are what the row is without a theme, and a reset ends the line if there is any sequence in it.

So colour only adds to the text (`Forest.print_coloured`): erasing the sequences gives what the plain
theme prints, and no line leaves a colour on.
-/

namespace Outliner

open Terminal

namespace Theme

variable {t : Theme} {base : Node → String} {q : String} {r r₀ : Row} {selected : Prop}
  {text line a z : List Char} {ss : List Segment}

/-! ### The sequences of a theme -/

def colors (t : Theme) : List String :=
  [t.bucket, t.classDef, t.function, t.constant]

/-- The sequences that turn a colour or the reversal on. -/
def openers (t : Theme) : List String :=
  t.reverse :: t.colors

theorem color_mem_colors (t : Theme) (k : Kind) : t.color k ∈ t.colors := by
  cases k <;> simp [color, colors]

theorem color_mem_openers (t : Theme) (k : Kind) : t.color k ∈ t.openers :=
  List.mem_cons_of_mem t.reverse (t.color_mem_colors k)

theorem reverse_mem_openers (t : Theme) : t.reverse ∈ t.openers :=
  List.mem_cons_self

/-- The sequence `q` as a part of a line. -/
def segment (q : String) : Segment :=
  .sequence (q.toList.drop 2).dropLast

theorem segment_spec : ∀ t ∈ selectable, ∀ q ∈ t.reset :: t.openers,
    (segment q).chars = q.toList ∧ (segment q).Formed := by
  decide

theorem opener_spec (ht : t ∈ selectable) (hq : q ∈ t.openers) :
    (segment q).chars = q.toList ∧ (segment q).Formed :=
  segment_spec t ht q (List.mem_cons_of_mem t.reset hq)

theorem reset_spec (ht : t ∈ selectable) :
    (segment t.reset).chars = t.reset.toList ∧ (segment t.reset).Formed :=
  segment_spec t ht t.reset List.mem_cons_self

theorem segment_ne_reset : ∀ t ∈ selectable, ∀ q ∈ t.openers, segment q ≠ segment t.reset := by
  decide

theorem segment_ne_reverse : ∀ t ∈ selectable, ∀ q ∈ t.colors, segment q ≠ segment t.reverse := by
  decide

theorem ne_empty (ht : t ∈ selectable) (hq : q ∈ t.openers) : q ≠ "" := by
  rintro rfl
  cases (opener_spec ht hq).1

theorem label_eq (ht : t ∈ selectable) (base : Node → String) (n : Node) :
    t.label base n = t.color n.kind ++ base n ++ t.reset := by
  have hcolor := ne_empty ht (t.color_mem_openers n.kind)
  simp only [label, beq_eq_false_iff_ne.2 hcolor, Bool.false_eq_true, if_false]

theorem rowText_eq (ht : t ∈ selectable) (selected : Bool) (r : Row) :
    t.rowText selected r = if selected then t.reverse ++ r.text ++ t.reset else r.text := by
  have hreverse : t.reverse ≠ "" := ne_empty ht t.reverse_mem_openers
  rw [rowText, bne_iff_ne.2 hreverse, Bool.and_true]

/-! ### Dressed lines -/

/-- The parts of `line`, which is `text` with sequences put in. A reset ends it if there is any
sequence in it, and it is reversed if it is selected. -/
structure Dressing (t : Theme) (selected : Prop) (text line : List Char) (ss : List Segment) :
    Prop where
  formed : ∀ s ∈ ss, s.Formed
  chars_eq : ss.flatMap Segment.chars = line
  shown_eq : ss.flatMap Segment.shown = text
  ends : ∀ s ∈ ss.getLast?, s = segment t.reset
  reversed : segment t.reverse ∈ ss ↔ selected

namespace Dressing

theorem erase_append (h : Dressing t selected text line ss) (cs : List Char) :
    erase (line ++ cs) = text ++ erase cs := by
  rw [← h.chars_eq, ← h.shown_eq, erase_flatMap h.formed]

theorem newline_not_mem (h : Dressing t selected text line ss) (htext : '\n' ∉ text) :
    '\n' ∉ line := by
  rw [← h.shown_eq, List.mem_flatMap] at htext
  rw [← h.chars_eq, List.mem_flatMap]
  rintro ⟨s, hs, hc⟩
  exact (h.formed s hs).newline_not_mem (fun hshown => htext ⟨s, hs, hshown⟩) hc

/-- The parts around an occurrence of a sequence. -/
theorem exists_segment (h : Dressing t selected text line ss) (ht : t ∈ selectable)
    (hq : q ∈ t.openers) (heq : line = a ++ q.toList ++ z) :
    ∃ l r, ss = l ++ segment q :: r ∧ r.flatMap Segment.chars = z := by
  obtain ⟨hchars, hformed⟩ := opener_spec ht hq
  rw [← h.chars_eq, ← hchars] at heq
  exact Terminal.exists_segment h.formed hformed heq

/-- A reset comes after every sequence that turns something on. -/
theorem reset_isInfix (h : Dressing t selected text line ss) (ht : t ∈ selectable)
    (hq : q ∈ t.openers) (heq : line = a ++ q.toList ++ z) : t.reset.toList <:+: z := by
  obtain ⟨l, r, rfl, rfl⟩ := h.exists_segment ht hq heq
  have hlast := h.ends
  rw [List.getLast?_append_cons] at hlast
  rcases List.eq_nil_or_concat r with rfl | ⟨r, s, rfl⟩
  · exact absurd (hlast _ rfl) (segment_ne_reset t ht q hq)
  · rw [List.concat_eq_append, ← List.cons_append, List.getLast?_concat] at hlast
    rw [hlast s rfl, List.concat_eq_append, List.flatMap_append, List.flatMap_singleton,
      (reset_spec ht).1]
    exact (List.suffix_append _ _).isInfix

theorem reverse_isInfix_iff (h : Dressing t selected text line ss) (ht : t ∈ selectable) :
    t.reverse.toList <:+: line ↔ selected := by
  rw [← h.reversed]
  constructor
  · rintro ⟨a, z, heq⟩
    obtain ⟨l, r, rfl, -⟩ := h.exists_segment ht t.reverse_mem_openers heq.symm
    simp
  · intro hmem
    obtain ⟨l, r, rfl⟩ := List.append_of_mem hmem
    rw [← h.chars_eq, List.flatMap_append, List.flatMap_cons,
      (opener_spec ht t.reverse_mem_openers).1]
    exact ⟨_, _, List.append_assoc ..⟩

theorem nil (t : Theme) : Dressing t False [] [] [] where
  formed := by simp
  chars_eq := rfl
  shown_eq := rfl
  ends := by simp
  reversed := by simp

/-- The text of a row whose label has the colour of its node. -/
theorem label (ht : t ∈ selectable) {margin : String} {n : Node} (hmargin : Clean margin)
    (hbase : Clean (base n)) :
    Dressing t False (margin ++ base n).toList (margin ++ t.label base n).toList
      [.text margin.toList, segment (t.color n.kind), .text (base n).toList, segment t.reset] := by
  obtain ⟨hcolor, hcolor'⟩ := opener_spec ht (t.color_mem_openers n.kind)
  obtain ⟨hreset, hreset'⟩ := reset_spec ht
  refine ⟨?_, ?_, ?_, ?_, ?_⟩
  · simp only [List.forall_mem_cons, List.not_mem_nil, false_imp_iff, implies_true, and_true]
    exact ⟨hmargin.escape, hcolor', hbase.escape, hreset'⟩
  · rw [label_eq ht]
    simp [hcolor, hreset]
  · simp [segment]
  · simp
  · have hne := (segment_ne_reverse t ht _ (t.color_mem_colors n.kind)).symm
    have hne' := segment_ne_reset t ht t.reverse t.reverse_mem_openers
    simp only [List.mem_cons, List.not_mem_nil, or_false, iff_false, not_or]
    exact ⟨nofun, hne, nofun, hne'⟩

/-- The whole line reversed. -/
theorem reverse (h : Dressing t False text line ss) (ht : t ∈ selectable) :
    Dressing t True text (t.reverse.toList ++ line ++ t.reset.toList)
      (segment t.reverse :: ss ++ [segment t.reset]) := by
  obtain ⟨hreverse, hreverse'⟩ := opener_spec ht t.reverse_mem_openers
  obtain ⟨hreset, hreset'⟩ := reset_spec ht
  refine ⟨?_, ?_, ?_, ?_, ?_⟩
  · rw [List.forall_mem_append, List.forall_mem_cons, List.forall_mem_singleton]
    exact ⟨⟨hreverse', h.formed⟩, hreset'⟩
  · rw [List.flatMap_append, List.flatMap_cons, List.flatMap_singleton, hreverse, hreset, h.chars_eq]
  · rw [List.flatMap_append, List.flatMap_cons, List.flatMap_singleton, h.shown_eq]
    exact List.append_nil text
  · rw [List.getLast?_concat]
    simp
  · simp

end Dressing

theorem exists_dressing (ht : t ∈ selectable) (h : Row.Relabelled (t.label base) base r r₀)
    (hbase : ∀ n, r.node? = some n → Clean (base n)) (selected : Bool) :
    ∃ ss, Dressing t (selected = true) r₀.text.toList (t.rowText selected r).toList ss := by
  have hrow : ∃ ss, Dressing t False r₀.text.toList r.text.toList ss := by
    cases h with
    | separator => exact ⟨_, .nil t⟩
    | node margin n hmargin => exact ⟨_, .label ht hmargin (hbase n rfl)⟩
  obtain ⟨ss, hss⟩ := hrow
  rw [rowText_eq ht]
  cases selected with
  | false => exact ⟨ss, by simpa using hss⟩
  | true => exact ⟨_, by simpa using hss.reverse ht⟩

/-! ### Printing -/

/-- The lines that are printed, without their ends. -/
def rowTexts (t : Theme) (rows : List Row) (selected? : Option Int) : List String :=
  rows.zipIdx.map fun (r, i) => t.rowText (selected? == some (i : Int)) r

theorem print_eq (t : Theme) (rows : List Row) (selected? : Option Int) :
    t.print rows selected? = String.join ((t.rowTexts rows selected?).map (· ++ "\n")) := by
  rw [rowTexts, List.map_map]
  rfl

theorem length_rowTexts (t : Theme) (rows : List Row) (selected? : Option Int) :
    (t.rowTexts rows selected?).length = rows.length := by
  rw [rowTexts, List.length_map, List.length_zipIdx]

theorem getElem_rowTexts {rows : List Row} {selected? : Option Int} {k : Nat}
    (hk : k < (t.rowTexts rows selected?).length) (hk' : k < rows.length) :
    (t.rowTexts rows selected?)[k] = t.rowText (selected? == some (k : Int)) rows[k] := by
  simp [rowTexts]

theorem rowTexts_plain (rows : List Row) (selected? : Option Int) :
    plain.rowTexts rows selected? = rows.map Row.text := by
  have hrow : ∀ selected r, plain.rowText selected r = r.text := fun selected _ => by
    cases selected <;> rfl
  simp only [rowTexts, hrow]
  calc rows.zipIdx.map (fun v => v.1.text) = (rows.zipIdx.map Prod.fst).map Row.text := List.map_map.symm
    _ = rows.map Row.text := by rw [List.zipIdx_map_fst]

/-- If the lines can be erased one by one, so can all that is printed. -/
theorem erase_join {xs ys : List String}
    (h : List.Forall₂ (fun x y => ∀ cs, erase (x.toList ++ cs) = y.toList ++ erase cs) xs ys) :
    erase (String.join (xs.map (· ++ "\n"))).toList = (String.join (ys.map (· ++ "\n"))).toList := by
  induction h with
  | nil => rw [List.map_nil, String.join_nil, String.toList_empty, erase_nil]
  | @cons x y xs ys hxy _ ih =>
    have hnewline : ∀ cs, erase ('\n' :: cs) = '\n' :: erase cs := erase_cons_of_ne (by decide)
    rw [List.map_cons, List.map_cons, String.join_cons, String.join_cons]
    simp only [String.toList_append, List.append_assoc, hxy]
    refine congrArg (_ ++ ·) ?_
    exact (hnewline _).trans (congrArg ('\n' :: ·) ih)

section Rows

variable {rows rows₀ : List Row} (ht : t ∈ selectable)
  (hrows : List.Forall₂ (Row.Relabelled (t.label base) base) rows rows₀)
  (hbase : ∀ r ∈ rows, ∀ n, r.node? = some n → Clean (base n)) (selected? : Option Int)

include ht hrows hbase

theorem exists_dressing_rowTexts {k : Nat} (hk : k < (t.rowTexts rows selected?).length)
    (hk₀ : k < rows₀.length) :
    ∃ ss, Dressing t (selected? = some (k : Int)) rows₀[k].text.toList
      (t.rowTexts rows selected?)[k].toList ss := by
  have hk' : k < rows.length := t.length_rowTexts rows selected? ▸ hk
  obtain ⟨ss, hss⟩ := exists_dressing ht (hrows.get hk' hk₀) (hbase _ (List.getElem_mem hk'))
    (selected? == some (k : Int))
  rw [beq_iff_eq] at hss
  rw [getElem_rowTexts hk hk']
  exact ⟨ss, hss⟩

theorem erase_print :
    erase (t.print rows selected?).toList = (plain.print rows₀ selected?).toList := by
  rw [print_eq, print_eq, rowTexts_plain]
  have hlength : (t.rowTexts rows selected?).length = rows₀.length :=
    (t.length_rowTexts rows selected?).trans hrows.length_eq
  refine erase_join (List.forall₂_map_right_iff.2 (List.forall₂_iff_get.2 ⟨hlength, ?_⟩))
  intro k hk hk₀ cs
  obtain ⟨ss, hss⟩ := exists_dressing_rowTexts ht hrows hbase selected? hk hk₀
  exact hss.erase_append cs

theorem lines_print :
    Text.lines (t.print rows selected?) = (t.rowTexts rows selected?).map String.toList ++ [[]] := by
  rw [print_eq, Text.lines_join]
  rw [List.forall_mem_iff_getElem]
  intro k hk
  have hk' : k < rows.length := t.length_rowTexts rows selected? ▸ hk
  have hk₀ : k < rows₀.length := hrows.length_eq ▸ hk'
  obtain ⟨ss, hss⟩ := exists_dressing_rowTexts ht hrows hbase selected? hk hk₀
  have hclean := (hrows.get hk' hk₀).clean_text (hbase _ (List.getElem_mem hk'))
  exact hss.newline_not_mem hclean.newline

/-- Each line that is printed is the text of a row, dressed, or the empty line at the end. -/
theorem exists_dressing_of_line {k : Nat} (hline : (Text.lines (t.print rows selected?))[k]? = some line) :
    ∃ text ss, Dressing t (k < rows.length ∧ selected? = some (k : Int)) text line ss ∧
      ∀ r, rows₀[k]? = some r → text = r.text.toList := by
  have hlength := t.length_rowTexts rows selected?
  rw [lines_print ht hrows hbase] at hline
  by_cases hk : k < rows.length
  · have hk' : k < (t.rowTexts rows selected?).length := hlength.symm ▸ hk
    have hk₀ : k < rows₀.length := hrows.length_eq ▸ hk
    obtain ⟨ss, hss⟩ := exists_dressing_rowTexts ht hrows hbase selected? hk' hk₀
    rw [List.getElem?_append_left (by rwa [List.length_map]), List.getElem?_map,
      List.getElem?_eq_getElem hk'] at hline
    cases hline
    refine ⟨_, ss, by simpa [hk] using hss, fun r hr => ?_⟩
    rw [List.getElem?_eq_getElem hk₀] at hr
    cases hr
    rfl
  · have hnil : line = [] := by
      rw [List.getElem?_append_right (by rw [List.length_map, hlength]; exact Nat.le_of_not_lt hk)] at hline
      exact List.mem_singleton.1 (List.mem_of_getElem? hline)
    subst hnil
    refine ⟨[], [], by simpa [hk] using Dressing.nil t, fun r hr => ?_⟩
    rw [List.getElem?_eq_none (hrows.length_eq ▸ Nat.le_of_not_lt hk)] at hr
    cases hr

end Rows

end Theme

namespace Forest

variable {f : Forest} {n : NodeId} {style : String} {spacing : Int} {base : Node → String} {t : Theme}

/-- Colour only adds to what is printed. The rows of a view show the same nodes under the coloured label
and without colour, and erasing the sequences of what is printed gives the texts of the rows without
colour, one on each line. On every line a reset follows each sequence that turns a colour or the reversal
on, and the reversal is on the line of the selected row and on no other. -/
theorem print_coloured (h : f.Reached) (hclean : ∀ m ∈ f.walk n, Clean (f.node m).name)
    (hstyle : style ∈ Style.names) (hspacing : 0 ≤ spacing)
    (hbase : base = Node.name ∨ base = Node.markedName) (ht : t ∈ Theme.selectable) (view : View)
    (selected? : Option Int) :
    ∃ rows rows₀, f.viewRows n view style spacing (t.label base) = .ok rows ∧
      f.viewRows n view style spacing base = .ok rows₀ ∧
      rows.map Row.node? = rows₀.map Row.node? ∧
      erase (t.print rows selected?).toList = (Theme.plain.print rows₀ selected?).toList ∧
      Theme.plain.print rows₀ selected? = String.join (rows₀.map fun r => r.text ++ "\n") ∧
      (Text.lines (t.print rows selected?)).length = rows.length + 1 ∧
      ∀ (k : Nat) line, (Text.lines (t.print rows selected?))[k]? = some line →
        (∀ r, rows₀[k]? = some r → erase line = r.text.toList) ∧
        (∀ q ∈ t.openers, ∀ a z, line = a ++ q.toList ++ z → t.reset.toList <:+: z) ∧
        (t.reverse.toList <:+: line ↔ k < rows.length ∧ selected? = some (k : Int)) := by
  obtain ⟨s, hs⟩ := Style.exists_resolve hstyle hspacing
  have hrows : List.Forall₂ (Row.Relabelled (t.label base) base)
      (f.viewRowsIn n s (t.label base) view) (f.viewRowsIn n s base view) :=
    relabelled_viewRowsIn (Style.clean_glyphs hs) (t.label base) base
  have hlabel : ∀ r ∈ f.viewRowsIn n s (t.label base) view, ∀ m, r.node? = some m →
      Clean (base m) := by
    intro r hr m hm
    have hname := h.owned.clean_of_mem_viewRowsIn hclean hr hm
    rcases hbase with rfl | rfl
    · exact hname
    · exact (clean_marker m.kind).append hname
  refine ⟨_, _, h.owned.viewRows_eq hs, h.owned.viewRows_eq hs, Row.map_node?_eq hrows, ?_, ?_, ?_,
    fun k line hline => ?_⟩
  · exact Theme.erase_print ht hrows hlabel selected?
  · rw [Theme.print_eq, Theme.rowTexts_plain, List.map_map]
    rfl
  · rw [Theme.lines_print ht hrows hlabel, List.length_append, List.length_map, Theme.length_rowTexts]
    rfl
  · obtain ⟨text, ss, hss, htext⟩ := Theme.exists_dressing_of_line ht hrows hlabel selected? hline
    refine ⟨fun r hr => ?_, fun q hq a z => hss.reset_isInfix ht hq, hss.reverse_isInfix_iff ht⟩
    have herase := hss.erase_append []
    rw [List.append_nil, erase_nil, List.append_nil] at herase
    rw [herase, htext r hr]

/-- The selected row is a separator between two buckets. -/
theorem print_coloured_separator :
    let label := Theme.ocean.label Node.markedName
    ∃ rows rows₀, interleaved.viewRows 0 .navbar "rounded" 1 label = .ok rows ∧
      interleaved.viewRows 0 .navbar "rounded" 1 Node.markedName = .ok rows₀ ∧
      rows[2]? = some .separator ∧
      erase (Theme.ocean.print rows (some 2)).toList = (Theme.plain.print rows₀ (some 2)).toList ∧
      ∀ (k : Nat) line, (Text.lines (Theme.ocean.print rows (some 2)))[k]? = some line →
        (Theme.ocean.reverse.toList <:+: line ↔ k = 2) := by
  intro label
  have hclean : ∀ m ∈ interleaved.walk 0, Clean (interleaved.node m).name := by decide
  obtain ⟨rows, rows₀, hrows, hrows₀, -, herase, -, -, hlines⟩ := print_coloured
    interleaved_reached hclean (by decide : "rounded" ∈ Style.names) (by decide : (0 : Int) ≤ 1)
    (.inr rfl) (by decide : Theme.ocean ∈ Theme.selectable) .navbar (some 2)
  have hsep : (interleaved.viewRows 0 .navbar "rounded" 1 label).map (·[2]?)
      = .ok (some .separator) := by decide
  rw [hrows] at hsep
  have hsep : rows[2]? = some .separator := Except.ok.inj hsep
  refine ⟨rows, rows₀, hrows, hrows₀, hsep, herase, fun k line hline => ?_⟩
  obtain ⟨-, -, hreverse⟩ := hlines k line hline
  have hlength := (List.getElem?_eq_some_iff.1 hsep).1
  rw [hreverse, Option.some.injEq]
  omega

end Forest

end Outliner
