import Mathlib.Data.List.Basic
import Mathlib.Data.Option.Basic
import Outliner.Json.Reader
import Outliner.Json.Writer

/-!
# Tokens of JSON

What the writer puts down for a string, an integer or a word, the reader takes back and nothing more
(`string?_string`, `number?_toString`, `word?_of_mem`). A string may hold any characters: each is written
as one or two numbers of 16 bits, or as a letter that stands for such a number, and pairs are joined when
they are read (`join_flatMap_units`). After an integer must come something that does not go on with it
(`Stops`).
-/

namespace Outliner.Json

namespace Reader

variable {c d : Char} {cs rest : List Char} {n u : Nat}

/-! ### Strings -/

theorem hexDigit?_digitChar (hn : n < 16) : hexDigit? (Nat.digitChar n) = some n := by
  revert n
  decide

/-- The numbers of 16 bits that stand for a character. -/
def units (c : Char) : List Nat :=
  if c.toNat < 0x10000 then [c.toNat]
  else [0xD800 + (c.toNat - 0x10000) / 0x400, 0xDC00 + (c.toNat - 0x10000) % 0x400]

theorem units?_unicodeEscape (hu : u < 0x10000) (cs : List Char) :
    units? (Writer.unicodeEscape u ++ cs) = (units? cs).map fun r => (u :: r.1, r.2) := by
  have hhex : Text.hex 4 u = [Nat.digitChar (u >>> 12 % 16), Nat.digitChar (u >>> 8 % 16),
      Nat.digitChar (u >>> 4 % 16), Nat.digitChar (u >>> 0 % 16)] := rfl
  have hvalue : ∀ k, hexDigit? (Nat.digitChar (u >>> k % 16)) = some (u >>> k % 16) :=
    fun k => hexDigit?_digitChar (Nat.mod_lt _ (by decide))
  have hsum : ((u >>> 12 % 16 * 16 + u >>> 8 % 16) * 16 + u >>> 4 % 16) * 16 + u >>> 0 % 16 = u := by
    simp only [Nat.shiftRight_eq_div_pow]
    omega
  have hhex4 : hex4? (Nat.digitChar (u >>> 12 % 16)) (Nat.digitChar (u >>> 8 % 16))
      (Nat.digitChar (u >>> 4 % 16)) (Nat.digitChar (u >>> 0 % 16)) = some u := by
    simp only [hex4?, hvalue, Option.bind_eq_bind, Option.bind_some, Option.pure_def, hsum]
  rw [Writer.unicodeEscape, hhex]
  simp only [List.cons_append, List.nil_append]
  rw [units?, hhex4]
  cases units? cs <;> rfl

theorem units?_unescape (h : unescape? d = some c) (cs : List Char) :
    units? ('\\' :: d :: cs) = (units? cs).map fun r => (c.toNat :: r.1, r.2) := by
  have hu : d ≠ 'u' := by
    rintro rfl
    cases h
  rw [units?, h]
  · cases units? cs <;> rfl
  · intro a b c d cs hd
    exact absurd hd hu

theorem units?_of_plain (hquote : c ≠ '"') (hslash : c ≠ '\\') (hc : 0x20 ≤ c.toNat) (cs : List Char) :
    units? (c :: cs) = (units? cs).map fun r => (c.toNat :: r.1, r.2) := by
  rw [units?]
  · rw [guard, if_pos hc]
    cases units? cs <;> rfl
  · exact hquote
  · intro _ _ _ _ _ h
    exact absurd h hslash
  · intro _ _ h
    exact absurd h hslash

theorem toNat_lt (c : Char) : c.toNat < 0x110000 := by
  have hvalid : c.toNat < 0xD800 ∨ 0xDFFF < c.toNat ∧ c.toNat < 0x110000 := c.valid
  omega

theorem units?_escaped (c : Char) (cs : List Char) :
    units? (Writer.escaped c ++ cs) = (units? cs).map fun r => (units c ++ r.1, r.2) := by
  have hsmall : c.toNat < 0x10000 → units c = [c.toNat] := fun hc => if_pos hc
  unfold Writer.escaped
  split
  · next hc =>
    rcases hc with rfl | rfl
    · exact units?_unescape rfl cs
    · exact units?_unescape rfl cs
  next hplain =>
  obtain ⟨hquote, hslash⟩ := not_or.1 hplain
  -- the five control characters that have a letter
  iterate 5
    split
    · next hc =>
      subst hc
      exact units?_unescape rfl cs
  split
  · next hc =>
    rw [hsmall (by omega)]
    exact units?_of_plain hquote hslash hc.1 cs
  split
  · next hc =>
    rw [hsmall hc]
    exact units?_unicodeEscape hc cs
  · next hc =>
    have hlt := toNat_lt c
    rw [List.append_assoc, units?_unicodeEscape (by omega), units?_unicodeEscape (by omega), units,
      if_neg hc]
    cases units? cs <;> rfl

theorem units?_string (cs rest : List Char) :
    units? (cs.flatMap Writer.escaped ++ '"' :: rest) = some (cs.flatMap units, rest) := by
  induction cs with
  | nil => rfl
  | cons c cs ih =>
    rw [List.flatMap_cons, List.append_assoc, units?_escaped, ih, List.flatMap_cons]
    rfl

theorem not_surrogate (c : Char) : (isHigh c.toNat || isLow c.toNat) = false := by
  have hvalid : c.toNat < 0xD800 ∨ 0xDFFF < c.toNat ∧ c.toNat < 0x110000 := c.valid
  simp only [isHigh, isLow, Bool.or_eq_false_iff, Bool.and_eq_false_iff, decide_eq_false_iff_not]
  omega

theorem join_units (c : Char) (us : List Nat) : join (units c ++ us) = c :: join us := by
  have hc := not_surrogate c
  unfold units
  split
  · have hunit : ofUnit c.toNat = c := by
      rw [ofUnit, hc, if_neg Bool.false_ne_true, Char.ofNat_toNat]
    cases us with
    | nil =>
      show [ofUnit c.toNat] = [c]
      rw [hunit]
    | cons u us =>
      have hhigh : isHigh c.toNat = false := (Bool.or_eq_false_iff.1 hc).1
      rw [List.cons_append, List.nil_append, join, hhigh, Bool.false_and, if_neg Bool.false_ne_true,
        hunit]
  · next hlarge =>
    have hlt := toNat_lt c
    have hhigh : isHigh (0xD800 + (c.toNat - 0x10000) / 0x400) = true := by
      simp only [isHigh, Bool.and_eq_true, decide_eq_true_eq]
      omega
    have hlow : isLow (0xDC00 + (c.toNat - 0x10000) % 0x400) = true := by
      simp only [isLow, Bool.and_eq_true, decide_eq_true_eq]
      omega
    have hsum : 0x10000 + (0xD800 + (c.toNat - 0x10000) / 0x400 - 0xD800) * 0x400
        + (0xDC00 + (c.toNat - 0x10000) % 0x400 - 0xDC00) = c.toNat := by
      omega
    rw [List.cons_append, List.cons_append, List.nil_append, join, hhigh, hlow, Bool.and_self,
      if_pos rfl, hsum, Char.ofNat_toNat]

theorem join_flatMap_units (cs : List Char) : join (cs.flatMap units) = cs := by
  induction cs with
  | nil => rfl
  | cons c cs ih => rw [List.flatMap_cons, join_units, ih]

theorem string?_string (s : String) (rest : List Char) :
    string? (s.toList.flatMap Writer.escaped ++ '"' :: rest) = some (s, rest) := by
  rw [string?, units?_string]
  show some (String.ofList (join (s.toList.flatMap units)), rest) = _
  rw [join_flatMap_units, String.ofList_toList]

/-! ### Numbers -/

/-- No number goes on with `cs`. -/
def Stops (cs : List Char) : Prop :=
  ∀ c ∈ cs.head?, c ≠ '.' ∧ c ≠ 'e' ∧ c ≠ 'E' ∧ c.isDigit = false

theorem stops_nil : Stops [] :=
  nofun

theorem stops_cons (h : c ≠ '.' ∧ c ≠ 'e' ∧ c ≠ 'E' ∧ c.isDigit = false) : Stops (c :: cs) := by
  intro d hd
  cases hd
  exact h

theorem natural_toDigits (n : Nat) : natural (Nat.toDigits 10 n) = n := by
  have hfold : natural (Nat.toDigits 10 n) = Nat.ofDigitChars 10 (Nat.toDigits 10 n) 0 := by
    rw [Nat.ofDigitChars_eq_foldl, natural]
    congr 1
    funext n d
    rw [Nat.mul_comm]
    rfl
  rw [hfold, Nat.ofDigitChars_ten_toDigits]

theorem head?_toDigits_ne (hn : n ≠ 0) : (Nat.toDigits 10 n).head? ≠ some '0' := by
  induction n using Nat.strongRecOn with
  | ind n ih =>
    rw [Nat.toDigits_eq_if (by decide)]
    split
    · intro h
      exact hn (Nat.digitChar_eq_zero.1 (Option.some.inj h))
    · rw [List.head?_append_of_ne_nil _ Nat.toDigits_ne_nil]
      exact ih (n / 10) (by omega) (by omega)

theorem takeWhile_digits (hcs : ∀ c ∈ cs, c.isDigit = true) (hrest : Stops rest) :
    (cs ++ rest).takeWhile Char.isDigit = cs ∧ (cs ++ rest).dropWhile Char.isDigit = rest := by
  have hnone : rest.takeWhile Char.isDigit = [] ∧ rest.dropWhile Char.isDigit = rest := by
    cases rest with
    | nil => exact ⟨rfl, rfl⟩
    | cons c rest =>
      have hc := (hrest c rfl).2.2.2
      rw [List.takeWhile_cons, List.dropWhile_cons, hc]
      exact ⟨rfl, rfl⟩
  rw [List.takeWhile_append_of_pos hcs, List.dropWhile_append_of_pos hcs, hnone.1, hnone.2]
  exact ⟨List.append_nil cs, rfl⟩

theorem whole?_toDigits (n : Nat) (hrest : Stops rest) :
    whole? (Nat.toDigits 10 n ++ rest) = some (Nat.toDigits 10 n, rest) := by
  by_cases hn : n = 0
  · subst hn
    rfl
  · have hhead := head?_toDigits_ne hn
    have hdigits : ∀ c ∈ Nat.toDigits 10 n, c.isDigit = true :=
      fun c hc => Nat.isDigit_of_mem_toDigits (by decide) (by decide) hc
    cases hcs : Nat.toDigits 10 n with
    | nil => exact absurd hcs Nat.toDigits_ne_nil
    | cons c cs =>
      rw [hcs] at hhead hdigits
      obtain ⟨hc, hcs⟩ := List.forall_mem_cons.1 hdigits
      obtain ⟨htake, hdrop⟩ := takeWhile_digits hcs hrest
      rw [List.cons_append, whole?, if_pos hc, htake, hdrop]
      rintro rfl
      exact hhead rfl

theorem fraction?_of_stops (h : Stops cs) : fraction? cs = none := by
  unfold fraction?
  split
  · exact absurd rfl (h '.' rfl).1
  · rfl

theorem exponent?_of_stops (h : Stops cs) : exponent? cs = none := by
  cases cs with
  | nil => rfl
  | cons c cs =>
    obtain ⟨-, he, hE, -⟩ := h c rfl
    simp [exponent?, he, hE]

theorem unsigned?_toDigits (negative : Bool) (hn : digitCount n ≤ Text.maxDigits) (hrest : Stops rest) :
    unsigned? negative (Nat.toDigits 10 n ++ rest)
      = some (.int (if negative then -(n : Int) else n), rest) := by
  have hlen : (Nat.toDigits 10 n).length ≤ Text.maxDigits := hn
  rw [unsigned?, whole?_toDigits n hrest]
  dsimp only [Option.bind_eq_bind, Option.bind_some]
  rw [fraction?_of_stops hrest, Option.elim_none, exponent?_of_stops hrest]
  dsimp only
  rw [guard, if_pos hlen, natural_toDigits]
  rfl

/-- The digits of an integer, behind its sign. -/
theorem toList_toString (n : Int) :
    (toString n).toList = (if n < 0 then ['-'] else []) ++ Nat.toDigits 10 n.natAbs := by
  rw [Int.toString_eq_repr, Int.repr_eq_if]
  split
  · next hn =>
    rw [if_neg (Int.not_lt.2 hn), Nat.toList_repr, show n.toNat = n.natAbs by omega, List.nil_append]
  · next hn =>
    rw [if_pos (Int.not_le.1 hn), String.toList_append, Nat.toList_repr,
      show (-n).toNat = n.natAbs by omega]
    rfl

theorem exists_toDigits_eq_cons (n : Nat) : ∃ c cs, Nat.toDigits 10 n = c :: cs ∧ c.isDigit = true := by
  obtain ⟨c, cs, hcs⟩ := List.exists_cons_of_ne_nil (Nat.toDigits_ne_nil (n := n) (b := 10))
  refine ⟨c, cs, hcs, Nat.isDigit_of_mem_toDigits (b := 10) (n := n) (by decide) (by decide) ?_⟩
  rw [hcs]
  exact List.mem_cons_self

theorem number?_toString {n : Int} (hn : digitCount n.natAbs ≤ Text.maxDigits) (hrest : Stops rest) :
    number? ((toString n).toList ++ rest) = some (.int n, rest) := by
  have hunsigned : ∀ negative, unsigned? negative (Nat.toDigits 10 n.natAbs ++ rest) = _ :=
    fun negative => unsigned?_toDigits negative hn hrest
  rw [toList_toString]
  split
  · next hneg =>
    rw [List.append_assoc]
    show unsigned? true (Nat.toDigits 10 n.natAbs ++ rest) = _
    rw [hunsigned, if_pos rfl, show -(n.natAbs : Int) = n by omega]
  · next hpos =>
    have hnumber : number? (Nat.toDigits 10 n.natAbs ++ rest)
        = unsigned? false (Nat.toDigits 10 n.natAbs ++ rest) := by
      obtain ⟨c, cs, hcs, hc⟩ := exists_toDigits_eq_cons n.natAbs
      rw [hcs, List.cons_append, number?]
      intro _ heq
      cases heq
      cases hc
    rw [List.nil_append, hnumber, hunsigned, if_neg Bool.false_ne_true,
      show (n.natAbs : Int) = n by omega]

/-! ### Words -/

theorem word?_of_mem {w : String × Json} (hw : w ∈ words) (rest : List Char) :
    word? (w.1.toList ++ rest) = some (w.2, rest) := by
  simp only [words, List.mem_cons, List.not_mem_nil, or_false] at hw
  rcases hw with rfl | rfl | rfl | rfl | rfl | rfl <;> rfl

theorem word?_toString (n : Int) (rest : List Char) :
    word? ((toString n).toList ++ rest) = none := by
  obtain ⟨c, cs, hcs, hc⟩ := exists_toDigits_eq_cons n.natAbs
  -- a digit begins no word, nor what follows the sign in one
  have hne : ∀ d : Char, d.isDigit = false → (d == c) = false := by
    intro d hd
    rw [beq_eq_false_iff_ne]
    rintro rfl
    rw [hc] at hd
    cases hd
  rw [toList_toString, hcs]
  split <;> simp [word?, words, List.isPrefixOf?, hne]

end Reader

end Outliner.Json
