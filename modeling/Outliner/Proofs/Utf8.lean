import Mathlib.Data.List.Forall2
import Outliner.Text.Pieces

/-!
# Texts in UTF-8

`Utf8 bytes text` says that the bytes are the text in UTF-8. Each character has one of four forms, one to
four bytes long (`Utf8Form`); the bounds of the bytes rule out every number that has a shorter form, that
is a surrogate or that is greater than 0x10FFFF. These are the bytes that Lean's own strings are made of
(`fromUTF8?_eq_some_iff`).

A line feed is a byte of its own and part of no longer form, so the lines of the bytes are the lines of the
text (`Utf8.pieces`).
-/

namespace Outliner.Text

variable {q bytes : List UInt8} {text : List Char} {c : Char} {n : Nat}

/-! ### The forms -/

/-- A byte that goes on with a character. -/
def Continues (b : UInt8) : Prop :=
  0x80 ≤ b.toNat ∧ b.toNat < 0xC0

/-- The bytes are a form of the character with the number `n`. -/
inductive Utf8Form : List UInt8 → Nat → Prop where
  | one {a : UInt8} {n : Nat} : a.toNat < 0x80 → n = a.toNat → Utf8Form [a] n
  | two {a b : UInt8} {n : Nat} : 0xC2 ≤ a.toNat → a.toNat < 0xE0 → Continues b →
      n = (a.toNat - 0xC0) * 64 + (b.toNat - 0x80) → Utf8Form [a, b] n
  /-- Below 0xE0 0xA0 are overlong forms, and from 0xED 0xA0 to 0xED 0xBF surrogates. -/
  | three {a b c : UInt8} {n : Nat} : 0xE0 ≤ a.toNat → a.toNat < 0xF0 → Continues b → Continues c →
      (a.toNat = 0xE0 → 0xA0 ≤ b.toNat) → (a.toNat = 0xED → b.toNat < 0xA0) →
      n = (a.toNat - 0xE0) * 4096 + (b.toNat - 0x80) * 64 + (c.toNat - 0x80) → Utf8Form [a, b, c] n
  /-- Below 0xF0 0x90 are overlong forms, and from 0xF4 0x90 on are numbers above 0x10FFFF. -/
  | four {a b c d : UInt8} {n : Nat} : 0xF0 ≤ a.toNat → a.toNat < 0xF5 → Continues b → Continues c →
      Continues d → (a.toNat = 0xF0 → 0x90 ≤ b.toNat) → (a.toNat = 0xF4 → b.toNat < 0x90) →
      n = (a.toNat - 0xF0) * 262144 + (b.toNat - 0x80) * 4096 + (c.toNat - 0x80) * 64
        + (d.toNat - 0x80) → Utf8Form [a, b, c, d] n

/-- The bytes are the text in UTF-8. -/
inductive Utf8 : List UInt8 → List Char → Prop where
  | nil : Utf8 [] []
  | cons {q bytes : List UInt8} {c : Char} {text : List Char} : Utf8Form q c.toNat →
      Utf8 bytes text → Utf8 (q ++ bytes) (c :: text)

theorem Utf8Form.eq_encode (h : Utf8Form q c.toNat) : q = String.utf8EncodeChar c := by
  have hc : c.val.toNat = c.toNat := rfl
  unfold String.utf8EncodeChar
  rw [hc]
  cases h with
  | one ha hn =>
    rw [if_pos (by omega), hn, UInt8.ofNat_toNat]
  | two ha ha' hb hn =>
    obtain ⟨hb, hb'⟩ := hb
    rw [if_neg (by omega), if_pos (by omega)]
    simp only [List.cons.injEq, ← UInt8.toNat_inj, UInt8.toNat_ofNat', and_true]
    omega
  | three ha ha' hb hc hlow hhigh hn =>
    obtain ⟨hb, hb'⟩ := hb
    obtain ⟨hc, hc'⟩ := hc
    rw [if_neg (by omega), if_neg (by omega), if_pos (by omega)]
    simp only [List.cons.injEq, ← UInt8.toNat_inj, UInt8.toNat_ofNat', and_true]
    omega
  | four ha ha' hb hc hd hlow hhigh hn =>
    obtain ⟨hb, hb'⟩ := hb
    obtain ⟨hc, hc'⟩ := hc
    obtain ⟨hd, hd'⟩ := hd
    rw [if_neg (by omega), if_neg (by omega), if_neg (by omega)]
    simp only [List.cons.injEq, ← UInt8.toNat_inj, UInt8.toNat_ofNat', and_true]
    omega

theorem utf8Form_encode (c : Char) : Utf8Form (String.utf8EncodeChar c) c.toNat := by
  have hc : c.val.toNat = c.toNat := rfl
  have hvalid : c.toNat < 0xD800 ∨ 0xDFFF < c.toNat ∧ c.toNat < 0x110000 := c.valid
  unfold String.utf8EncodeChar
  rw [hc]
  dsimp only
  split
  · refine .one ?_ ?_ <;> rw [UInt8.toNat_ofNat'] <;> omega
  · split
    · refine .two ?_ ?_ ⟨?_, ?_⟩ ?_ <;> simp only [UInt8.toNat_ofNat'] <;> omega
    · split
      · refine .three ?_ ?_ ⟨?_, ?_⟩ ⟨?_, ?_⟩ ?_ ?_ ?_ <;> simp only [UInt8.toNat_ofNat'] <;> omega
      · refine .four ?_ ?_ ⟨?_, ?_⟩ ⟨?_, ?_⟩ ⟨?_, ?_⟩ ?_ ?_ ?_ <;> simp only [UInt8.toNat_ofNat'] <;>
          omega

/-! ### The bytes of a string -/

theorem utf8_iff : Utf8 bytes text ↔ bytes = text.flatMap String.utf8EncodeChar := by
  constructor
  · intro h
    induction h with
    | nil => rfl
    | cons hq _ ih => rw [hq.eq_encode, ih, List.flatMap_cons]
  · rintro rfl
    induction text with
    | nil => exact .nil
    | cons c text ih => exact .cons (utf8Form_encode c) ih

theorem toList_toUTF8 (s : String) :
    s.toUTF8.data.toList = s.toList.flatMap String.utf8EncodeChar := by
  rw [String.toUTF8_eq_toByteArray, ← String.utf8Encode_toList, List.utf8Encode, List.data_toByteArray]

theorem fromUTF8?_toUTF8 (s : String) : String.fromUTF8? s.toUTF8 = some s := by
  rw [String.fromUTF8?, dif_pos (show s.toUTF8.IsValidUTF8 from s.isValidUTF8)]
  rfl

theorem toUTF8_of_fromUTF8? {bytes : ByteArray} {s : String} (h : String.fromUTF8? bytes = some s) :
    s.toUTF8 = bytes := by
  unfold String.fromUTF8? at h
  split at h
  · cases h
    rfl
  · cases h

theorem fromUTF8?_eq_some_iff {bytes : ByteArray} {s : String} :
    String.fromUTF8? bytes = some s ↔ Utf8 bytes.data.toList s.toList := by
  rw [utf8_iff, ← toList_toUTF8]
  constructor
  · intro h
    rw [toUTF8_of_fromUTF8? h]
  · intro h
    have hbytes : s.toUTF8 = bytes := ByteArray.ext (Array.toList_inj.1 h.symm)
    rw [← hbytes, fromUTF8?_toUTF8]

theorem fromUTF8?_eq_none_iff {bytes : ByteArray} :
    String.fromUTF8? bytes = none ↔ ∀ text, ¬ Utf8 bytes.data.toList text := by
  constructor
  · intro h text htext
    rw [← String.toList_ofList (l := text)] at htext
    rw [fromUTF8?_eq_some_iff.2 htext] at h
    cases h
  · intro h
    cases hs : String.fromUTF8? bytes with
    | none => rfl
    | some s => exact absurd (fromUTF8?_eq_some_iff.1 hs) (h _)

/-! ### Lines -/

theorem Utf8Form.eq_of_newline (h : Utf8Form q '\n'.toNat) : q = [0x0A] :=
  h.eq_encode

theorem Utf8Form.ne_newline (h : Utf8Form q c.toNat) (hc : c ≠ '\n') : ∀ b ∈ q, (b == 0x0A) = false := by
  have hn : c.toNat ≠ 10 := fun heq => hc (Char.toNat_inj.1 heq)
  have hne : ∀ b : UInt8, b.toNat ≠ 10 → (b == 0x0A) = false := by
    intro b hb
    rw [beq_eq_false_iff_ne, Ne, ← UInt8.toNat_inj]
    exact hb
  generalize c.toNat = n at h hn
  intro b hb
  refine hne b ?_
  cases h with
  | one ha hn' =>
    rw [List.mem_singleton.1 hb]
    omega
  | two ha _ h₁ =>
    have h₁ := h₁.1
    simp only [List.mem_cons, List.not_mem_nil, or_false] at hb
    rcases hb with rfl | rfl <;> omega
  | three ha _ h₁ h₂ =>
    have h₁ := h₁.1
    have h₂ := h₂.1
    simp only [List.mem_cons, List.not_mem_nil, or_false] at hb
    rcases hb with rfl | rfl | rfl <;> omega
  | four ha _ h₁ h₂ h₃ =>
    have h₁ := h₁.1
    have h₂ := h₂.1
    have h₃ := h₃.1
    simp only [List.mem_cons, List.not_mem_nil, or_false] at hb
    rcases hb with rfl | rfl | rfl | rfl <;> omega

/-- More at the front of the first of some pieces, and of what they stand for. -/
theorem forall₂_extend_head {α β : Type} {R : List α → List β → Prop} {ps : List (List α)}
    {ts : List (List β)} {q : List α} {c : β} (h : List.Forall₂ R ps ts) (hps : ps ≠ [])
    (hR : ∀ p t, R p t → R (q ++ p) (c :: t)) :
    List.Forall₂ R ((q ++ ps.headD []) :: ps.tail) ((c :: ts.headD []) :: ts.tail) := by
  cases h with
  | nil => exact absurd rfl hps
  | cons hhead htail => exact .cons (hR _ _ hhead) htail

/-- The lines of the bytes are the lines of the text in UTF-8. -/
theorem Utf8.pieces (h : Utf8 bytes text) :
    List.Forall₂ Utf8 (Text.pieces (· == 0x0A) bytes) (Text.pieces (· == '\n') text) := by
  induction h with
  | nil => exact .cons .nil .nil
  | @cons q bytes c text hq _ ih =>
    by_cases hc : c = '\n'
    · subst hc
      rw [hq.eq_of_newline, List.singleton_append, pieces_cons, pieces_cons]
      exact .cons .nil ih
    · have hsep : (c == '\n') = false := beq_false_of_ne hc
      rw [pieces_append_of_forall _ (hq.ne_newline hc), pieces_cons, hsep]
      exact forall₂_extend_head ih (pieces_ne_nil _ bytes) fun _ _ hpiece => .cons hq hpiece

end Outliner.Text
