import Outliner.Line
import Outliner.Outline.Log
import Outliner.Proofs.Outline

/-!
# The log of an outline and its tree

The log is written while an outline is built, and tells of every declaration under which node it was put
then. `Forest.addReporting` is the pass that builds the outline and writes each message from the forest as it
is at that moment; the log has the same messages (`snd_addReporting`). No later declaration moves a node and
sorting changes no parent, so the messages can be read off the finished outline as well (`Nested.report_eq`).

Before that the log says of some declarations that the root had to stand in for a node that is not there.
These are the declarations that are indented and have nothing to hang on: the first one, and a dedent to an
indent that no earlier one has (`stranded_placementAt_iff`). The main statement is `log_traces_outline`.
-/

namespace Outliner

namespace Nesting

variable {is : List Int} {k : Nat}

/-- The item at position `k` is indented, and it is the first one, or a step to the left to an indent that no
earlier item has. -/
def StrandedAt (is : List Int) (k : Nat) : Prop :=
  is[k]! ≠ 0 ∧ (k = 0 ∨ is[k]! < is[k - 1]! ∧ ∀ j < k, is[j]! ≠ is[k]!)

instance : Decidable (StrandedAt is k) :=
  inferInstanceAs (Decidable (_ ∧ (_ ∨ _ ∧ ∀ j < k, _)))

theorem stranded_placementAt_iff : (placementAt is k).stranded = true ↔ StrandedAt is k := by
  cases k with
  | zero => simp [placementAt_zero, StrandedAt]
  | succ k =>
    rw [StrandedAt, Nat.add_sub_cancel, or_iff_right (Nat.succ_ne_zero k)]
    rcases lt_or_ge is[k]! is[k + 1]! with hlt | hge
    · rw [placementAt_of_deeper hlt]
      exact iff_of_false Bool.false_ne_true fun h => lt_asymm hlt h.2.1
    by_cases h0 : is[k + 1]! = 0
    · rw [placementAt_of_margin hge h0]
      exact iff_of_false Bool.false_ne_true fun h => h.1 h0
    rcases exists_lastAt_or_unseen is is[k + 1]! (k + 1) with ⟨j, hj⟩ | hunseen
    · rw [placementAt_of_return hge h0 hj]
      exact iff_of_false Bool.false_ne_true fun h => h.2.2 j hj.1 hj.2.1
    · rw [placementAt_of_unseen hge h0 hunseen]
      have hlt : is[k + 1]! < is[k]! := lt_of_le_of_ne hge (hunseen k (Nat.lt_succ_self k)).symm
      exact iff_of_true rfl ⟨h0, hlt, hunseen⟩

theorem StrandedAt.parentAt (h : StrandedAt is k) : parentAt is k = none := by
  cases k with
  | zero => exact parentAt_zero is
  | succ k =>
    obtain ⟨hlt, hunseen⟩ := h.2.resolve_left (Nat.succ_ne_zero k)
    exact parentAt_of_unseen hlt.le h.1 hunseen

end Nesting

namespace Forest

open Nesting

variable {f g : Forest} {ds : List Declaration} {d : Declaration} {j k : Nat}

/-! ### Messages read off a forest -/

/-- What is written about `d`, which has become the node `n`: that the root had to stand in, if `d` is
stranded, and under which node it hangs in `g`. -/
def report (g : Forest) (n : NodeId) (d : Declaration) (stranded : Bool) : List String :=
  (if stranded then [(LogEntry.stranded d).message] else []) ++
    (g.parent? n).toList.map fun p =>
      d.kind.label ++ " " ++ d.describe ++ " added to " ++ (g.node p).content.describe

/-- The entries for the declaration at a position. -/
def entriesAt (ds : List Declaration) (k : Nat) : List LogEntry :=
  LogEntry.ofPlacement ds (ds.getD k .root) (placementAt (indents ds) k)

/-- The declaration that an outline has at a position; `none` is the root. -/
def declarationAt (ds : List Declaration) : Option Nat → Declaration
  | none => .root
  | some position => ds.getD position .root

theorem getD_of_getElem? (hd : ds[k]? = some d) : ds.getD k .root = d := by
  rw [List.getD_eq_getElem?_getD, hd, Option.getD_some]

theorem entriesAt_eq (hd : ds[k]? = some d) :
    entriesAt ds k = (if (placementAt (indents ds) k).stranded then [.stranded d] else [])
      ++ [.attached d (declarationAt ds (parentAt (indents ds) k))] := by
  rw [entriesAt, LogEntry.ofPlacement, getD_of_getElem? hd, parentAt]
  cases (placementAt (indents ds) k).parent? <;> rfl

theorem Nested.content_outlineNode {q? : Option Nat} (h : Nested f g ds k)
    (hq : ∀ q ∈ q?, q < k ∧ q < ds.length) :
    (g.node (outlineNode f.size q?)).content = .declared (declarationAt ds q?) := by
  cases q? with
  | none => exact h.root
  | some q =>
    obtain ⟨hqk, hlen⟩ := hq q rfl
    have hget := List.getElem?_eq_getElem hlen
    rw [declarationAt, getD_of_getElem? hget]
    exact h.content q _ hqk hget

/-- What is written about a declaration when it is added, or at any later moment, is what the log says. -/
theorem Nested.report_eq (h : Nested f g ds k) (hj : j < k) (hd : ds[j]? = some d) :
    g.report (f.size + 1 + j) d (placementAt (indents ds) j).stranded
      = (entriesAt ds j).map LogEntry.message := by
  have hearlier : ∀ q ∈ parentAt (indents ds) j, q < k ∧ q < ds.length := by
    intro q hq
    have hqj : q < j := (parentAt_lt hq).1
    exact ⟨hqj.trans hj, hqj.trans (List.getElem?_eq_some_iff.1 hd).1⟩
  rw [report, h.parent? j hj, Option.toList_some, List.map_singleton, h.content_outlineNode hearlier,
    entriesAt_eq hd, List.map_append]
  split <;> rfl

/-! ### Building and writing -/

/-- Adds a declaration, and writes where it hangs in the forest that results. -/
def addReported (root : NodeId) (s : Forest × List String) (d : Declaration × Placement) :
    Forest × List String :=
  let g := s.1.addDeclaration root d
  (g, s.2 ++ g.report s.1.size d.1 d.2.stranded)

/-- Builds an outline before sorting, and writes about every declaration when it is added. -/
def addReporting (f : Forest) (ds : List Declaration) : Forest × List String :=
  (ds.zip (Declaration.placements ds)).foldl (addReported f.size) (f.add (.declared .root) false, [])

theorem fst_addReporting (f : Forest) (ds : List Declaration) :
    (f.addReporting ds).1 = f.addNested ds :=
  (List.foldl_hom Prod.fst fun _ _ => rfl).symm

theorem log_eq (ds : List Declaration) :
    Declaration.log ds = (List.range ds.length).flatMap (entriesAt ds) := by
  rw [Declaration.log, List.flatMap_eq_foldl]
  refine foldl_placed_induction (motive := fun k entries =>
    entries = (List.range k).flatMap (entriesAt ds)) rfl fun k d entries hd hentries => ?_
  rw [hentries, List.range_succ, List.flatMap_append, List.flatMap_singleton, entriesAt,
    getD_of_getElem? hd]

/-- The messages that are written on the way are those of the log. -/
theorem snd_addReporting (h : f.Reached) (ds : List Declaration) :
    (f.addReporting ds).2 = (Declaration.log ds).map LogEntry.message := by
  have hloop : Nested f (f.addReporting ds).1 ds ds.length ∧ (f.addReporting ds).2
      = (List.range ds.length).flatMap fun k => (entriesAt ds k).map LogEntry.message := by
    refine foldl_placed_induction (motive := fun k (s : Forest × List String) => Nested f s.1 ds k ∧
      s.2 = (List.range k).flatMap fun k => (entriesAt ds k).map LogEntry.message) ?_ ?_
    · exact ⟨.start h ds, rfl⟩
    · intro k d s hd hs
      have hnext := hs.1.addDeclaration hd
      refine ⟨hnext, ?_⟩
      rw [addReported, hs.1.size, hnext.report_eq (Nat.lt_succ_self k) hd, hs.2, List.range_succ,
        List.flatMap_append, List.flatMap_singleton]
  rw [hloop.2, log_eq, List.map_flatMap]

/-- The log of an outline has the messages that are written while it is built. For each declaration of the
text, in order, it says under which node the declaration was put, and that is its parent in the finished
outline; just before that it says that the root had to stand in, exactly if the declaration is stranded, and
then it is a child of the root. -/
theorem log_traces_outline (h : f.Reached) (item? : List Char → Option Item) (text : String) :
    let ds := declarations item? text
    let g := f.addOutline ds
    let messages := (Declaration.log ds).map LogEntry.message
    f.addReporting ds = (f.addNested ds, messages) ∧
      ∃ reports : List (List String), reports.length = ds.length ∧ messages = reports.flatten ∧
        ∀ k d, ds[k]? = some d → ∃ n p, g.StandsFor f.size n d ∧ g.parent? n = some p ∧
          reports[k]? = some ((if StrandedAt (indents ds) k then [(LogEntry.stranded d).message] else [])
            ++ [d.kind.label ++ " " ++ d.describe ++ " added to " ++ (g.node p).content.describe]) ∧
          (StrandedAt (indents ds) k → p = f.size) := by
  intro ds g messages
  have hg : Nested f g ds ds.length := nested_addOutline h ds
  have hreport : ∀ k d, ds[k]? = some d →
      g.report (f.size + 1 + k) d (StrandedAt (indents ds) k) = (entriesAt ds k).map LogEntry.message := by
    intro k d hd
    have hstranded : decide (StrandedAt (indents ds) k) = (placementAt (indents ds) k).stranded := by
      rw [Bool.eq_iff_iff, decide_eq_true_eq, stranded_placementAt_iff]
    rw [hstranded, hg.report_eq (List.getElem?_eq_some_iff.1 hd).1 hd]
  refine ⟨Prod.ext (fst_addReporting f ds) (snd_addReporting h ds),
    (List.range ds.length).map fun k => (entriesAt ds k).map LogEntry.message, by simp, ?_, ?_⟩
  · rw [← List.flatMap_def, ← List.map_flatMap, ← log_eq]
  · intro k d hd
    have hk := (List.getElem?_eq_some_iff.1 hd).1
    have hparent := hg.parent? k hk
    refine ⟨_, _, (hg.standsFor_iff h.owned).2 ⟨k, hd, rfl⟩, hparent, ?_, fun hstranded => ?_⟩
    · rw [List.getElem?_map, List.getElem?_range hk, Option.map_some, ← hreport k d hd, report, hparent]
      simp
    · rw [hstranded.parentAt]
      rfl

/-- The indents are 2, 6, 4 and 2. -/
def unseenDedent : String :=
  "  def a():\n      def b():\n    def c():\n  class D:"

theorem declarations_unseenDedent :
    declarations Line.item? unseenDedent
      = [⟨⟨"a", .function, 2⟩, 1⟩, ⟨⟨"b", .function, 6⟩, 2⟩, ⟨⟨"c", .function, 4⟩, 3⟩,
        ⟨⟨"D", .classDef, 2⟩, 4⟩] := by
  decide

/-- No declaration before `c` has its indent, but `a` has that of `D`. -/
theorem log_traces_outline_unseenDedent :
    let ds := declarations Line.item? unseenDedent
    ∃ reports : List (List String), (empty.addReporting ds).2 = reports.flatten ∧
      reports[2]? = some
        ["no enclosing node for indent 4 at line 3; attaching OutlineNode(2, c, 3, 4) to root",
          "Function OutlineNode(2, c, 3, 4) added to OutlineNode(0, /, -1, 0)"] ∧
      reports[3]? = some ["Class OutlineNode(1, D, 4, 2) added to OutlineNode(0, /, -1, 0)"] := by
  intro ds
  have hds : ds = _ := declarations_unseenDedent
  have hc : ds[2]? = some ⟨⟨"c", .function, 4⟩, 3⟩ := by rw [hds]; rfl
  have hD : ds[3]? = some ⟨⟨"D", .classDef, 2⟩, 4⟩ := by rw [hds]; rfl
  have hg : Nested empty (empty.addOutline ds) ds ds.length := nested_addOutline .empty ds
  obtain ⟨hwritten, reports, -, hmessages, hreports⟩ :=
    log_traces_outline .empty Line.item? unseenDedent
  refine ⟨reports, (congrArg Prod.snd hwritten).trans hmessages, ?_, ?_⟩
  · obtain ⟨n, p, -, -, hreport, hroot⟩ := hreports 2 _ hc
    have hstranded : StrandedAt (indents ds) 2 := by
      rw [hds]
      decide
    rw [hreport, if_pos hstranded, hroot hstranded, hg.root]
    decide
  · obtain ⟨n, p, hn, hp, hreport, -⟩ := hreports 3 _ hD
    obtain ⟨j, hj, rfl⟩ := (hg.standsFor_iff .empty).1 hn
    obtain rfl : j = 3 := line_inj hj hD rfl
    have hparent : parentAt (indents ds) 3 = none := by
      rw [hds]
      decide
    have hnot : ¬ StrandedAt (indents ds) 3 := by
      rw [hds]
      decide
    rw [hg.parent? 3 (List.getElem?_eq_some_iff.1 hD).1, hparent] at hp
    cases hp
    rw [hreport, if_neg hnot, outlineNode, hg.root]
    decide

end Forest

end Outliner
