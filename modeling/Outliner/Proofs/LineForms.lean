import Mathlib.Data.List.Basic
import Mathlib.Data.List.TakeWhile
import Outliner.Line

/-!
# The grammar of declaring lines

`Line.item?` takes a line apart from the left: at each step it takes as many blanks or word characters as
there are. `Declares` says instead which lines declare which item, by the ways a line can be put together
from blanks, keywords, names and a rest.

A step of the reader can be undone by putting its pieces together again, if what follows a piece does not
go on with it (`Stops`). No blank is a word character, so the pieces of each form end where the reader
ends them. The main statement, `item?_eq_some_iff_declares`, says that the reader finds exactly the
items that the grammar gives, and that the forms may be tried in any order.
-/

namespace Outliner

namespace Text

variable {c : Char} {rs : Ranges} {p : Char → Bool} {cs r w : List Char}

theorem Ranges.mem_of_contains (h : rs.contains c = true) :
    c.toNat ∈ rs.flatMap fun r => List.range' r.1 (r.2 + 1 - r.1) := by
  obtain ⟨r, hr, hc⟩ := List.any_eq_true.1 h
  rw [Bool.and_eq_true, decide_eq_true_eq, decide_eq_true_eq] at hc
  refine List.mem_flatMap.2 ⟨r, hr, List.mem_range'_1.2 ?_⟩
  omega

theorem isWord_of_isBlank (h : isBlank c = true) : isWord c = false := by
  have hnone : ∀ n ∈ blankRanges.flatMap fun r => List.range' r.1 (r.2 + 1 - r.1),
      isWord (Char.ofNat n) = false := by
    decide +kernel
  have hc := hnone _ (Ranges.mem_of_contains h)
  rwa [Char.ofNat_toNat] at hc

theorem toNat_lt_of_isAlpha (h : c.isAlpha = true) : c.toNat < 0x80 := by
  have hz : c.val ≤ 'z'.val := by
    rcases Bool.or_eq_true_iff.1 h with hupper | hlower
    · have hZ : c.val ≤ 'Z'.val := (of_decide_eq_true hupper).2
      exact UInt32.le_trans hZ (by decide)
    · exact of_decide_eq_true (Bool.and_eq_true_iff.1 hlower).2
  exact Nat.lt_of_le_of_lt (UInt32.le_iff_toNat_le.1 hz) (by decide)

theorem isWord_of_isNameStart (h : isNameStart c = true) : isWord c = true := by
  rw [isNameStart, Bool.or_eq_true, beq_iff_eq] at h
  rcases h with h | rfl
  · rw [isWord, if_pos (toNat_lt_of_isAlpha h), Char.isAlphanum, h, Bool.true_or, Bool.true_or]
  · decide

theorem isBlank_of_isNameStart (h : isNameStart c = true) : isBlank c = false := by
  by_contra hb
  have hword := isWord_of_isNameStart h
  rw [isWord_of_isBlank (Bool.of_not_eq_false hb)] at hword
  cases hword

/-- `cs` does not begin with a character that satisfies `p`. -/
def Stops (p : Char → Bool) (cs : List Char) : Prop :=
  ∀ c ∈ cs.head?, p c = false

theorem stops_dropWhile (p : Char → Bool) (cs : List Char) : Stops p (cs.dropWhile p) := by
  intro c hc
  have hhead := List.head?_dropWhile_not p cs
  rw [hc] at hhead
  simpa using hhead

/-- A run of characters ends where the rest stops. -/
theorem span_iff :
    cs.takeWhile p = w ∧ cs.dropWhile p = r ↔ cs = w ++ r ∧ (∀ c ∈ w, p c = true) ∧ Stops p r := by
  constructor
  · rintro ⟨rfl, rfl⟩
    exact ⟨List.takeWhile_append_dropWhile.symm, fun c hc => List.mem_takeWhile_imp hc,
      stops_dropWhile p cs⟩
  · rintro ⟨rfl, hw, hr⟩
    rw [List.takeWhile_append_of_pos hw, List.dropWhile_append_of_pos hw]
    cases r with
    | nil => simp
    | cons c r =>
      have hc : p c = false := hr c rfl
      simp [hc]

end Text

namespace Line

open Text

variable {cs line name r rest w : List Char} {keyword : String} {item : Item}

/-! ### The forms -/

def Blanks (w : List Char) : Prop := ∀ c ∈ w, isBlank c = true

def IsName (name : List Char) : Prop :=
  ∃ c cs, name = c :: cs ∧ isNameStart c = true ∧ ∀ d ∈ cs, isWord d = true

/-- Nothing, or `async` and blanks. -/
def IsAsync (a : List Char) : Prop :=
  a = [] ∨ ∃ w, a = "async".toList ++ w ∧ w ≠ [] ∧ Blanks w

/-- `cs` is the keyword, blanks, the name, perhaps more blanks, and `rest`. -/
def IsHeader (keyword : String) (cs name rest : List Char) : Prop :=
  ∃ w₁ w₂, cs = keyword.toList ++ w₁ ++ name ++ w₂ ++ rest ∧
    w₁ ≠ [] ∧ Blanks w₁ ∧ IsName name ∧ Blanks w₂

/-- The line begins with a declaration of the item. -/
inductive Declares : List Char → Item → Prop where
  | function {w a cs name rest : List Char} (hw : Blanks w) (ha : IsAsync a)
      (h : IsHeader "def" cs name ('(' :: rest)) :
      Declares (w ++ a ++ cs) ⟨String.ofList name, .function, w.length⟩
  | classDef {w cs name rest : List Char} {c : Char} (hw : Blanks w)
      (h : IsHeader "class" cs name (c :: rest)) (hc : c = '(' ∨ c = ':') :
      Declares (w ++ cs) ⟨String.ofList name, .classDef, w.length⟩
  | constant {name w rest : List Char} (hname : IsName name) (hw : Blanks w)
      (hrest : rest.head? ≠ some '=') :
      Declares (name ++ w ++ '=' :: rest) ⟨String.ofList name, .constant, 0⟩

theorem IsName.stops (h : IsName name) (cs : List Char) : Stops isBlank (name ++ cs) := by
  obtain ⟨c, name, rfl, hc, -⟩ := h
  rintro d hd
  cases hd
  exact isBlank_of_isNameStart hc

/-- A name ends before blanks and before a character that is no word character. -/
theorem Blanks.stops_isWord (h : Blanks w) (hr : Stops isWord r) : Stops isWord (w ++ r) := by
  cases w with
  | nil => exact hr
  | cons c w =>
    rintro d hd
    cases hd
    exact isWord_of_isBlank (h c List.mem_cons_self)

/-! ### The steps of the reader -/

theorem after?_eq_some_iff : after? keyword cs = some r ↔ cs = keyword.toList ++ r :=
  List.isPrefixOf?_eq_some_iff_append_eq.trans eq_comm

theorem afterBlanks?_eq_some_iff :
    afterBlanks? cs = some r ↔ ∃ w, cs = w ++ r ∧ w ≠ [] ∧ Blanks w ∧ Stops isBlank r := by
  constructor
  · intro h
    cases cs with
    | nil => cases h
    | cons c cs =>
      rw [afterBlanks?] at h
      split at h
      · next hc =>
        cases h
        refine ⟨c :: cs.takeWhile isBlank, ?_, List.cons_ne_nil _ _, ?_, stops_dropWhile _ _⟩
        · rw [List.cons_append, List.takeWhile_append_dropWhile]
        · exact List.forall_mem_cons.2 ⟨hc, fun d hd => List.mem_takeWhile_imp hd⟩
      · cases h
  · rintro ⟨_ | ⟨c, w⟩, rfl, hne, hw, hr⟩
    · exact absurd rfl hne
    · obtain ⟨hc, hw⟩ := List.forall_mem_cons.1 hw
      rw [List.cons_append, afterBlanks?, if_pos hc, (span_iff.2 ⟨rfl, hw, hr⟩).2]

theorem name?_eq_some_iff :
    name? cs = some (name, r) ↔ cs = name ++ r ∧ IsName name ∧ Stops isWord r := by
  constructor
  · intro h
    cases cs with
    | nil => cases h
    | cons c cs =>
      rw [name?] at h
      split at h
      · next hc =>
        cases h
        refine ⟨?_, ⟨c, _, rfl, hc, fun d hd => List.mem_takeWhile_imp hd⟩, stops_dropWhile _ _⟩
        rw [List.cons_append, List.takeWhile_append_dropWhile]
      · cases h
  · rintro ⟨rfl, ⟨c, cs, rfl, hc, hcs⟩, hr⟩
    obtain ⟨htake, hdrop⟩ := span_iff.2 ⟨rfl, hcs, hr⟩
    rw [List.cons_append, name?, if_pos hc, htake, hdrop]

theorem header?_eq_some_iff (hblank : Stops isBlank rest) (hword : Stops isWord rest) :
    header? keyword cs = some (name, rest) ↔ IsHeader keyword cs name rest := by
  simp only [header?, Option.bind_eq_bind, Option.bind_eq_some_iff, after?_eq_some_iff,
    afterBlanks?_eq_some_iff, Prod.exists, name?_eq_some_iff, Option.pure_def, Option.some.injEq,
    Prod.mk.injEq]
  constructor
  · rintro ⟨_, rfl, _, ⟨w₁, rfl, hne, hw₁, -⟩, _, r, ⟨rfl, hname, -⟩, rfl, hr⟩
    obtain ⟨hsplit, hw₂, -⟩ := span_iff.1 ⟨rfl, hr⟩
    refine ⟨w₁, r.takeWhile isBlank, ?_, hne, hw₁, hname, hw₂⟩
    simp only [List.append_assoc, ← hsplit]
  · rintro ⟨w₁, w₂, rfl, hne, hw₁, hname, hw₂⟩
    refine ⟨w₁ ++ (name ++ (w₂ ++ rest)), by simp only [List.append_assoc], name ++ (w₂ ++ rest),
      ⟨w₁, rfl, hne, hw₁, hname.stops _⟩, name, w₂ ++ rest, ⟨rfl, hname, hw₂.stops_isWord hword⟩, rfl, ?_⟩
    exact (span_iff.2 ⟨rfl, hw₂, hblank⟩).2

theorem exists_eq_append_skipAsync (cs : List Char) : ∃ a, cs = a ++ skipAsync cs ∧ IsAsync a := by
  unfold skipAsync
  cases h : (after? "async" cs).bind afterBlanks? with
  | none => exact ⟨[], rfl, .inl rfl⟩
  | some r =>
    obtain ⟨_, hr, hw⟩ := Option.bind_eq_some_iff.1 h
    obtain ⟨w, rfl, hne, hw, -⟩ := afterBlanks?_eq_some_iff.1 hw
    refine ⟨"async".toList ++ w, ?_, .inr ⟨w, rfl, hne, hw⟩⟩
    rw [after?_eq_some_iff.1 hr, List.append_assoc]
    rfl

theorem skipAsync_append {a : List Char} (ha : IsAsync a) (hcs : after? "async" cs = none)
    (hblank : Stops isBlank cs) : skipAsync (a ++ cs) = cs := by
  unfold skipAsync
  rcases ha with rfl | ⟨w, rfl, hne, hw⟩
  · rw [List.nil_append, hcs]
    rfl
  · have hasync : after? "async" ("async".toList ++ w ++ cs) = some (w ++ cs) :=
      after?_eq_some_iff.2 (List.append_assoc ..)
    have hblanks : afterBlanks? (w ++ cs) = some cs :=
      afterBlanks?_eq_some_iff.2 ⟨w, rfl, hne, hw, hblank⟩
    rw [hasync, Option.bind_some, hblanks]
    rfl

/-! ### Each form is found -/

theorem stops_cons {p : Char → Bool} {c : Char} (h : p c = false) (cs : List Char) :
    Stops p (c :: cs) := by
  rintro d hd
  cases hd
  exact h

theorem IsAsync.stops {a : List Char} (ha : IsAsync a) (h : Stops isBlank cs) :
    Stops isBlank (a ++ cs) := by
  rcases ha with rfl | ⟨w, rfl, -, -⟩
  · exact h
  · exact stops_cons (by decide) _

theorem function?_eq_some_iff :
    function? line = some item ↔
      ∃ w a cs name rest, line = w ++ a ++ cs ∧ Blanks w ∧ IsAsync a ∧
        IsHeader "def" cs name ('(' :: rest) ∧ item = ⟨String.ofList name, .function, w.length⟩ := by
  have hstops : ∀ rest, Stops isBlank ('(' :: rest) ∧ Stops isWord ('(' :: rest) := fun rest =>
    ⟨stops_cons (by decide) rest, stops_cons (by decide) rest⟩
  constructor
  · intro h
    unfold function? at h
    split at h
    · next name rest hheader =>
      cases h
      obtain ⟨a, ha, hasync⟩ := exists_eq_append_skipAsync (line.dropWhile isBlank)
      refine ⟨line.takeWhile isBlank, a, _, name, rest, ?_, fun c hc => List.mem_takeWhile_imp hc, hasync,
        (header?_eq_some_iff (hstops rest).1 (hstops rest).2).1 hheader, rfl⟩
      rw [List.append_assoc, ← ha, List.takeWhile_append_dropWhile]
    · cases h
  · rintro ⟨w, a, cs, name, rest, rfl, hw, ha, hheader, rfl⟩
    have hfound := (header?_eq_some_iff (hstops rest).1 (hstops rest).2).2 hheader
    obtain ⟨w₁, w₂, rfl, -⟩ := hheader
    have hblank : Stops isBlank ("def".toList ++ w₁ ++ name ++ w₂ ++ '(' :: rest) :=
      stops_cons (by decide) _
    have hskip := skipAsync_append ha rfl hblank
    obtain ⟨htake, hdrop⟩ := span_iff.2 ⟨List.append_assoc w a _, hw, ha.stops hblank⟩
    rw [function?, indent, htake, hdrop, hskip, hfound]
    rfl

theorem class?_eq_some_iff :
    class? line = some item ↔
      ∃ w cs name c rest, line = w ++ cs ∧ Blanks w ∧ IsHeader "class" cs name (c :: rest) ∧
        (c = '(' ∨ c = ':') ∧ item = ⟨String.ofList name, .classDef, w.length⟩ := by
  have hstops : ∀ c rest, c = '(' ∨ c = ':' → Stops isBlank (c :: rest) ∧ Stops isWord (c :: rest) := by
    rintro c rest (rfl | rfl)
    · exact ⟨stops_cons (by decide) rest, stops_cons (by decide) rest⟩
    · exact ⟨stops_cons (by decide) rest, stops_cons (by decide) rest⟩
  constructor
  · intro h
    unfold class? at h
    split at h
    · next name c rest hheader =>
      split at h
      · next hc =>
        cases h
        obtain ⟨hblank, hword⟩ := hstops c rest hc
        exact ⟨line.takeWhile isBlank, _, name, c, rest, List.takeWhile_append_dropWhile.symm,
          fun d hd => List.mem_takeWhile_imp hd, (header?_eq_some_iff hblank hword).1 hheader, hc, rfl⟩
      · cases h
    · cases h
  · rintro ⟨w, cs, name, c, rest, rfl, hw, hheader, hc, rfl⟩
    obtain ⟨hblank, hword⟩ := hstops c rest hc
    have hfound := (header?_eq_some_iff hblank hword).2 hheader
    obtain ⟨w₁, w₂, rfl, -⟩ := hheader
    have hblank : Stops isBlank ("class".toList ++ w₁ ++ name ++ w₂ ++ c :: rest) :=
      stops_cons (by decide) _
    obtain ⟨htake, hdrop⟩ := span_iff.2 ⟨rfl, hw, hblank⟩
    rw [class?, indent, htake, hdrop, hfound]
    exact if_pos hc

theorem assignment?_eq_some_iff :
    assignment? line = some item ↔
      ∃ name w rest, line = name ++ w ++ '=' :: rest ∧ IsName name ∧ Blanks w ∧
        rest.head? ≠ some '=' ∧ item = ⟨String.ofList name, .constant, 0⟩ := by
  constructor
  · intro h
    unfold assignment? at h
    split at h
    · next name r hname =>
      obtain ⟨rfl, hname, -⟩ := name?_eq_some_iff.1 hname
      split at h
      · cases h
      · next rest hne hr =>
        cases h
        refine ⟨name, r.takeWhile isBlank, rest, ?_, hname, fun c hc => List.mem_takeWhile_imp hc, ?_, rfl⟩
        · rw [List.append_assoc, ← hr, List.takeWhile_append_dropWhile]
        · cases rest with
          | nil => simp
          | cons c rest =>
            intro hc
            cases hc
            exact hne rest rfl
      · cases h
    · cases h
  · rintro ⟨name, w, rest, rfl, hname, hw, hrest, rfl⟩
    have hfound : name? (name ++ w ++ '=' :: rest) = some (name, w ++ '=' :: rest) :=
      name?_eq_some_iff.2 ⟨List.append_assoc .., hname, hw.stops_isWord (stops_cons (by decide) rest)⟩
    have hdrop : (w ++ '=' :: rest).dropWhile isBlank = '=' :: rest :=
      (span_iff.2 ⟨rfl, hw, stops_cons (by decide) rest⟩).2
    rw [assignment?, hfound]
    simp only [hdrop]
    split
    · next heq =>
      cases heq
      exact absurd rfl hrest
    · rfl
    · next hother => exact absurd rfl (hother rest)

/-! ### No line has two forms -/

/-- A word and a name with blanks in between are no assignment. -/
theorem assignment?_of_two_names {word : List Char} (hword : IsName word) (hne : w ≠ [])
    (hw : Blanks w) (hname : IsName name) : assignment? (word ++ w ++ (name ++ r)) = none := by
  have hstops : Stops isWord (w ++ (name ++ r)) := by
    cases w with
    | nil => exact absurd rfl hne
    | cons c w => exact stops_cons (isWord_of_isBlank (hw c List.mem_cons_self)) _
  have hfound : name? (word ++ w ++ (name ++ r)) = some (word, w ++ (name ++ r)) :=
    name?_eq_some_iff.2 ⟨List.append_assoc .., hword, hstops⟩
  have hdrop : (w ++ (name ++ r)).dropWhile isBlank = name ++ r :=
    (span_iff.2 ⟨rfl, hw, hname.stops r⟩).2
  obtain ⟨c, cs, rfl, hc, -⟩ := hname
  have hne : c ≠ '=' := by
    rintro rfl
    exact absurd hc (by decide)
  rw [assignment?, hfound]
  simp only [hdrop]
  split
  · next heq => exact absurd (List.cons.inj heq).1 hne
  · next heq => exact absurd (List.cons.inj heq).1 hne
  · rfl

theorem assignment?_of_indented (hne : w ≠ []) (hw : Blanks w) : assignment? (w ++ r) = none := by
  cases w with
  | nil => exact absurd rfl hne
  | cons c w =>
    have hc : isNameStart c ≠ true := by
      intro hc
      exact absurd (hw c List.mem_cons_self) (by simp [isBlank_of_isNameStart hc])
    have hfound : name? (c :: w ++ r) = none := by rw [List.cons_append, name?, if_neg hc]
    simp only [assignment?, hfound]

theorem IsHeader.assignment? (h : IsHeader keyword cs name rest) (hword : IsName keyword.toList)
    (hw : Blanks w) : Line.assignment? (w ++ cs) = none := by
  by_cases hne : w = []
  · obtain ⟨w₁, w₂, rfl, hne₁, hw₁, hname, -⟩ := h
    have hnone := assignment?_of_two_names (r := w₂ ++ rest) hword hne₁ hw₁ hname
    rwa [hne, List.nil_append, List.append_assoc, List.append_assoc]
  · exact assignment?_of_indented hne hw

theorem assignment?_of_function? (h : function? line = some item) : assignment? line = none := by
  have hdef : IsName "def".toList := ⟨'d', _, rfl, by decide, List.all_eq_true.1 (by decide)⟩
  have hasync : IsName "async".toList := ⟨'a', _, rfl, by decide, List.all_eq_true.1 (by decide)⟩
  obtain ⟨w, a, cs, name, rest, rfl, hw, rfl | ⟨v, rfl, hne, hv⟩, hheader, -⟩ := function?_eq_some_iff.1 h
  · rw [List.append_nil]
    exact hheader.assignment? hdef hw
  · by_cases hw' : w = []
    · obtain ⟨w₁, w₂, rfl, -⟩ := hheader
      have hnone := assignment?_of_two_names (r := w₁ ++ (name ++ (w₂ ++ '(' :: rest))) hasync hne hv hdef
      simpa only [hw', List.nil_append, List.append_assoc] using hnone
    · rw [List.append_assoc]
      exact assignment?_of_indented hw' hw

theorem assignment?_of_class? (h : class? line = some item) : assignment? line = none := by
  obtain ⟨w, cs, name, c, rest, rfl, hw, hheader, -⟩ := class?_eq_some_iff.1 h
  exact hheader.assignment? ⟨'c', _, rfl, by decide, List.all_eq_true.1 (by decide)⟩ hw

theorem class?_of_function? (h : function? line = some item) : class? line = none := by
  obtain ⟨w, a, cs, name, rest, rfl, hw, ha, ⟨w₁, w₂, rfl, -⟩, -⟩ := function?_eq_some_iff.1 h
  have hdrop : (w ++ a ++ ("def".toList ++ w₁ ++ name ++ w₂ ++ '(' :: rest)).dropWhile isBlank
      = a ++ ("def".toList ++ w₁ ++ name ++ w₂ ++ '(' :: rest) :=
    (span_iff.2 ⟨List.append_assoc .., hw, ha.stops (stops_cons (by decide) _)⟩).2
  rw [class?, hdrop]
  rcases ha with rfl | ⟨v, rfl, -, -⟩
  · rfl
  · rfl

theorem declares_iff :
    Declares line item ↔
      function? line = some item ∨ class? line = some item ∨ assignment? line = some item := by
  rw [function?_eq_some_iff, class?_eq_some_iff, assignment?_eq_some_iff]
  constructor
  · rintro (⟨hw, ha, h⟩ | ⟨hw, h, hc⟩ | ⟨hname, hw, hrest⟩)
    · exact .inl ⟨_, _, _, _, _, rfl, hw, ha, h, rfl⟩
    · exact .inr (.inl ⟨_, _, _, _, _, rfl, hw, h, hc, rfl⟩)
    · exact .inr (.inr ⟨_, _, _, rfl, hname, hw, hrest, rfl⟩)
  · rintro (⟨w, a, cs, name, rest, rfl, hw, ha, h, rfl⟩ | ⟨w, cs, name, c, rest, rfl, hw, h, hc, rfl⟩ |
      ⟨name, w, rest, rfl, hname, hw, hrest, rfl⟩)
    · exact .function hw ha h
    · exact .classDef hw h hc
    · exact .constant hname hw hrest

/-- No line has two of the forms, nor one of them with two items. -/
theorem Declares.unique {item' : Item} (h : Declares line item) (h' : Declares line item') :
    item = item' := by
  rw [declares_iff] at h h'
  rcases h with h | h | h
  · rw [h, class?_of_function? h, assignment?_of_function? h] at h'
    simpa using h'
  · rw [h, assignment?_of_class? h] at h'
    rcases h' with h' | h' | h'
    · rw [class?_of_function? h'] at h
      cases h
    · exact Option.some.inj h'
    · cases h'
  · rcases h' with h' | h' | h'
    · rw [assignment?_of_function? h'] at h
      cases h
    · rw [assignment?_of_class? h'] at h
      cases h
    · exact Option.some.inj (h.symm.trans h')

/-- In whatever order the forms are tried, the first that fits gives the item. -/
theorem findSome?_forms_iff {forms : List (List Char → Option Item)}
    (h : forms.Perm [function?, class?, assignment?]) :
    forms.findSome? (fun form => form line) = some item ↔ Declares line item := by
  have hforms : ∀ item, Declares line item ↔ ∃ form ∈ forms, form line = some item := by
    intro item
    simp only [h.mem_iff, declares_iff, List.mem_cons, List.not_mem_nil, or_false, exists_eq_or_imp,
      exists_eq_left]
  constructor
  · intro hfound
    exact (hforms item).2 (List.exists_of_findSome?_eq_some hfound)
  · intro hdeclares
    obtain ⟨form, hform, hitem⟩ := (hforms item).1 hdeclares
    cases hfirst : forms.findSome? fun form => form line with
    | none =>
      have hnone := List.findSome?_eq_none_iff.1 hfirst form hform
      cases hitem.symm.trans hnone
    | some item' =>
      have hdeclares' := (hforms item').2 (List.exists_of_findSome?_eq_some hfirst)
      rw [hdeclares.unique hdeclares']

theorem item?_eq_findSome? (line : List Char) :
    item? line = [function?, class?, assignment?].findSome? fun form => form line := by
  simp only [item?, List.findSome?_cons, List.findSome?_nil]
  cases function? line <;> cases class? line <;> cases assignment? line <;> rfl

/-- A line is found to declare an item exactly if it is put together in one of the three ways, and
nothing is found exactly if it is put together in none of them. No line has two items, so it does not
matter in which order the forms are tried. -/
theorem item?_eq_some_iff_declares (line : List Char) :
    (∀ item, item? line = some item ↔ Declares line item) ∧
      (item? line = none ↔ ∀ item, ¬ Declares line item) ∧
      (∀ item item', Declares line item → Declares line item' → item = item') ∧
      ∀ forms : List (List Char → Option Item), forms.Perm [function?, class?, assignment?] →
        forms.findSome? (fun form => form line) = item? line := by
  have hitem : ∀ item, item? line = some item ↔ Declares line item := by
    intro item
    rw [item?_eq_findSome?]
    exact findSome?_forms_iff (.refl _)
  refine ⟨hitem, ?_, fun _ _ => Declares.unique, fun forms hforms => ?_⟩
  · rw [Option.eq_none_iff_forall_ne_some]
    exact forall_congr' fun item => not_congr (hitem item)
  · refine Option.ext fun item => ?_
    rw [findSome?_forms_iff hforms, hitem]

/-- Of the blanks here only two are in ASCII, and a line feed stands before the bracket. -/
theorem item?_eq_some_iff_declares_async :
    let line := "\tasync\u00a0def\u3000f_1\n(self): return x == 1".toList
    Declares line ⟨"f_1", .function, 1⟩ ∧
      (∀ item, Declares line item → ⟨"f_1", .function, 1⟩ = item) ∧
      [assignment?, function?, class?].findSome? (fun form => form line) = item? line := by
  intro line
  obtain ⟨hitem, -, hunique, horder⟩ := item?_eq_some_iff_declares line
  have hfound : Declares line ⟨"f_1", .function, 1⟩ := (hitem _).1 (by decide)
  have hperm : ([assignment?] ++ [function?, class?]).Perm ([function?, class?] ++ [assignment?]) :=
    List.perm_append_comm
  exact ⟨hfound, fun item h => hunique _ _ hfound h, horder _ hperm⟩

end Line

end Outliner
