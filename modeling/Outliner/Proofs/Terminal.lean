import Mathlib.Data.List.Basic

/-!
# Text for a terminal

An escape sequence is the escape character, a bracket, digits and semicolons, and an `m`. `erase` deletes
every escape sequence of a text and keeps the rest.

A text that is put together from plain parts and sequences is a list of `Segment`s. If no plain part has an
escape character in it, then `erase` keeps the plain parts (`erase_flatMap`), and wherever a sequence is
found in the text, one of the segments is that sequence (`exists_segment`).
-/

namespace Outliner.Terminal

/-- What may stand between the bracket and the `m`. -/
def isParameter (c : Char) : Bool :=
  c.isDigit || c == ';'

/-- What follows the escape sequence that the text begins with. -/
def afterSequence? : List Char → Option (List Char)
  | '\x1b' :: '[' :: cs =>
    match cs.dropWhile isParameter with
    | 'm' :: rest => some rest
    | _ => none
  | _ => none

theorem length_lt_of_afterSequence? {cs rest : List Char} (h : afterSequence? cs = some rest) :
    rest.length < cs.length := by
  unfold afterSequence? at h
  split at h
  · next cs =>
    split at h
    · next hdrop =>
      cases h
      have hle := (List.dropWhile_sublist isParameter (l := cs)).length_le
      rw [hdrop, List.length_cons] at hle
      simp only [List.length_cons]
      omega
    · cases h
  · cases h

/-- The text without its escape sequences. -/
def erase : List Char → List Char
  | [] => []
  | c :: cs =>
    match _h : afterSequence? (c :: cs) with
    | some rest => erase rest
    | none => c :: erase cs
termination_by cs => cs.length
decreasing_by
  · exact length_lt_of_afterSequence? (by assumption)
  · simp

variable {c : Char} {a cs ps qs rest u x z : List Char}

/-! ### Erasing -/

@[simp] theorem erase_nil : erase [] = [] := by
  rw [erase]

theorem erase_of_some (h : afterSequence? cs = some rest) : erase cs = erase rest := by
  cases cs with
  | nil => cases h
  | cons c cs =>
    rw [erase]
    split
    · next h' => rw [Option.some.inj (h.symm.trans h')]
    · next h' => cases h.symm.trans h'

theorem erase_cons_of_ne (hc : c ≠ '\x1b') (cs : List Char) : erase (c :: cs) = c :: erase cs := by
  have hnone : afterSequence? (c :: cs) = none := by
    unfold afterSequence?
    split
    · next heq =>
      cases heq
      exact absurd rfl hc
    · rfl
  rw [erase]
  split
  · next h => cases hnone.symm.trans h
  · rfl

theorem erase_append (hu : '\x1b' ∉ u) (cs : List Char) : erase (u ++ cs) = u ++ erase cs := by
  induction u with
  | nil => rfl
  | cons c u ih =>
    rw [List.mem_cons, not_or] at hu
    rw [List.cons_append, erase_cons_of_ne (Ne.symm hu.1), ih hu.2, List.cons_append]

theorem dropWhile_isParameter (hps : ∀ c ∈ ps, isParameter c = true) (rest : List Char) :
    (ps ++ 'm' :: rest).dropWhile isParameter = 'm' :: rest := by
  rw [List.dropWhile_append_of_pos hps]
  exact List.dropWhile_cons_of_neg (by decide)

theorem takeWhile_isParameter (hps : ∀ c ∈ ps, isParameter c = true) (rest : List Char) :
    (ps ++ 'm' :: rest).takeWhile isParameter = ps := by
  rw [List.takeWhile_append_of_pos hps, List.takeWhile_cons_of_neg (by decide), List.append_nil]

/-! ### Segments -/

inductive Segment where
  | text (cs : List Char)
  | sequence (parameters : List Char)
deriving DecidableEq

namespace Segment

def chars : Segment → List Char
  | text cs => cs
  | sequence ps => '\x1b' :: '[' :: (ps ++ ['m'])

/-- What a terminal shows of it. -/
def shown : Segment → List Char
  | text cs => cs
  | sequence _ => []

@[simp] theorem chars_text (cs : List Char) : (text cs).chars = cs := rfl

@[simp] theorem shown_text (cs : List Char) : (text cs).shown = cs := rfl

@[simp] theorem shown_sequence (ps : List Char) : (sequence ps).shown = [] := rfl

def Formed : Segment → Prop
  | text cs => '\x1b' ∉ cs
  | sequence ps => ∀ c ∈ ps, isParameter c = true

instance : DecidablePred Formed
  | text cs => inferInstanceAs (Decidable ('\x1b' ∉ cs))
  | sequence ps => List.decidableBAll (fun c => isParameter c = true) ps

theorem Formed.erase_append {s : Segment} (h : s.Formed) (cs : List Char) :
    erase (s.chars ++ cs) = s.shown ++ erase cs := by
  cases s with
  | text u => exact Terminal.erase_append h cs
  | sequence ps =>
    refine erase_of_some ?_
    show afterSequence? ('\x1b' :: '[' :: (ps ++ ['m'] ++ cs)) = some cs
    rw [List.append_assoc, List.singleton_append]
    simp only [afterSequence?, dropWhile_isParameter h]

theorem Formed.newline_not_mem {s : Segment} (h : s.Formed) (hs : '\n' ∉ s.shown) : '\n' ∉ s.chars := by
  cases s with
  | text u => exact hs
  | sequence ps =>
    have hps : '\n' ∉ ps := fun hc => absurd (h _ hc) (by decide)
    simp [chars, hps]

end Segment

variable {s : Segment} {ss : List Segment}

theorem erase_flatMap (h : ∀ s ∈ ss, s.Formed) (cs : List Char) :
    erase (ss.flatMap Segment.chars ++ cs) = ss.flatMap Segment.shown ++ erase cs := by
  induction ss with
  | nil => rfl
  | cons s ss ih =>
    have hs : s.Formed := h s List.mem_cons_self
    rw [List.flatMap_cons, List.flatMap_cons, List.append_assoc, List.append_assoc, hs.erase_append,
      ih fun t ht => h t (List.mem_cons_of_mem s ht)]

/-- The first escape character comes after a part that has none. -/
theorem exists_eq_append_of_escape (hu : '\x1b' ∉ u) (h : u ++ x = a ++ '\x1b' :: z) :
    ∃ b, a = u ++ b ∧ x = b ++ '\x1b' :: z := by
  rcases List.append_eq_append_iff.1 h with ⟨b, hb, hx⟩ | ⟨b, hb, hz⟩
  · exact ⟨b, hb, hx⟩
  · cases b with
    | nil => exact ⟨[], by simpa using hb.symm, by simpa using hz.symm⟩
    | cons c b =>
      cases hz
      exact absurd (hb ▸ List.mem_append_right a List.mem_cons_self) hu

theorem escape_not_mem_tail (hps : ∀ c ∈ ps, isParameter c = true) : '\x1b' ∉ '[' :: (ps ++ ['m']) := by
  intro hmem
  rcases List.mem_cons.1 hmem with h | hmem
  · exact absurd h (by decide)
  rcases List.mem_append.1 hmem with hmem | h
  · exact absurd (hps _ hmem) (by decide)
  · exact absurd (List.mem_singleton.1 h) (by decide)

/-- Wherever a sequence stands in the text, it is one of the segments. -/
theorem exists_segment (h : ∀ s ∈ ss, s.Formed) (hps : ∀ c ∈ ps, isParameter c = true)
    (heq : ss.flatMap Segment.chars = a ++ (Segment.sequence ps).chars ++ z) :
    ∃ l r, ss = l ++ .sequence ps :: r ∧ r.flatMap Segment.chars = z := by
  rw [List.append_assoc] at heq
  induction ss generalizing a with
  | nil => simp [Segment.chars] at heq
  | cons s ss ih =>
    have hss : ∀ t ∈ ss, t.Formed := fun t ht => h t (List.mem_cons_of_mem s ht)
    rw [List.flatMap_cons] at heq
    cases s with
    | text u =>
      obtain ⟨b, rfl, hb⟩ := exists_eq_append_of_escape (h _ List.mem_cons_self) heq
      obtain ⟨l, r, rfl, hr⟩ := ih hss hb
      exact ⟨_ :: l, r, rfl, hr⟩
    | sequence qs =>
      have hqs : ∀ c ∈ qs, isParameter c = true := h _ List.mem_cons_self
      cases a with
      | nil =>
        simp only [Segment.chars, List.nil_append, List.cons_append, List.cons.injEq, true_and,
          List.append_assoc] at heq
        have htake := congrArg (List.takeWhile isParameter) heq
        have hdrop := congrArg (List.dropWhile isParameter) heq
        rw [takeWhile_isParameter hqs, takeWhile_isParameter hps] at htake
        rw [dropWhile_isParameter hqs, dropWhile_isParameter hps] at hdrop
        cases htake
        cases hdrop
        exact ⟨[], ss, rfl, rfl⟩
      | cons c a =>
        simp only [Segment.chars, List.cons_append, List.cons.injEq] at heq
        obtain ⟨-, htail⟩ := heq
        obtain ⟨b, rfl, hb⟩ := exists_eq_append_of_escape (escape_not_mem_tail hqs) htail
        obtain ⟨l, r, rfl, hr⟩ := ih hss hb
        exact ⟨_ :: l, r, rfl, hr⟩

end Outliner.Terminal
