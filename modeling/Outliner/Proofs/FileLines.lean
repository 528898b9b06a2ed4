import Outliner.Proofs.Outline
import Outliner.Proofs.Utf8
import Outliner.Text.Decode

/-!
# The lines of a file

A file is read as UTF-8 if all of it is UTF-8, and otherwise with one character for each byte (`Latin1`).
Either way a line feed in the text is a line feed byte in the file, so the lines of the text are the lines
of the file, each read in the same way as the whole (`decode_keeps_lines`). Only the byte order mark at
the start of the first line is left out.
-/

namespace Outliner.Text

variable {bytes : List UInt8} {text : List Char} {c : Char}

/-! ### One character for each byte -/

/-- The text has one character for each byte, whose number is the byte. -/
def Latin1 (bytes : List UInt8) (text : List Char) : Prop :=
  text.map Char.toNat = bytes.map UInt8.toNat

theorem toNat_ofNat_byte (b : UInt8) : (Char.ofNat b.toNat).toNat = b.toNat := by
  have hb : b.toNat < 256 := b.toNat_lt
  have hvalid : b.toNat.isValidChar := .inl (by omega)
  rw [Char.ofNat, dif_pos hvalid]
  rfl

theorem latin1_ofBytes (bytes : ByteArray) : Latin1 bytes.data.toList (ofBytes bytes).toList := by
  rw [ofBytes, String.toList_ofList, Latin1, List.map_map]
  exact List.map_congr_left fun b _ => toNat_ofNat_byte b

theorem Latin1.pieces (h : Latin1 bytes text) :
    List.Forall₂ Latin1 (Text.pieces (· == 0x0A) bytes) (Text.pieces (· == '\n') text) := by
  induction bytes generalizing text with
  | nil =>
    obtain rfl := List.map_eq_nil_iff.1 h
    exact .cons rfl .nil
  | cons b bytes ih =>
    obtain ⟨c, text, rfl, hc, htext⟩ := List.map_eq_cons_iff.1 h
    have hsep : (b == 0x0A) = (c == '\n') := by
      rw [Bool.eq_iff_iff, beq_iff_eq, beq_iff_eq, ← UInt8.toNat_inj, ← hc]
      exact Char.toNat_inj (d := '\n')
    have hrest := ih htext
    rw [pieces_cons, pieces_cons, hsep]
    split
    · exact .cons rfl hrest
    · refine forall₂_extend_head (q := [b]) hrest (pieces_ne_nil _ bytes) fun _ _ hpiece => ?_
      exact congrArg₂ (· :: ·) hc hpiece

/-! ### The byte order mark -/

/-- The text without the byte order mark that it may begin with. -/
def withoutMark : List Char → List Char
  | '\ufeff' :: text => text
  | text => text

theorem withoutMark_of_ne (hc : c ≠ '\ufeff') (text : List Char) : withoutMark (c :: text) = c :: text := by
  unfold withoutMark
  split
  · next heq =>
    cases heq
    exact absurd rfl hc
  · rfl

theorem toList_dropMark (s : String) : (dropMark s).toList = withoutMark s.toList := by
  unfold dropMark
  split
  · next heq =>
    rw [heq, String.toList_ofList]
    rfl
  · next hne =>
    cases hs : s.toList with
    | nil => rfl
    | cons c text =>
      refine (withoutMark_of_ne (fun hc => hne text ?_) text).symm
      rw [hs, hc]

/-- The mark stands in the first line. -/
theorem pieces_withoutMark (text : List Char) :
    pieces (· == '\n') (withoutMark text) = (pieces (· == '\n') text).modifyHead withoutMark := by
  cases text with
  | nil => rfl
  | cons c text =>
    by_cases hmark : c = '\ufeff'
    · subst hmark
      obtain ⟨p, ps, hp⟩ := List.exists_cons_of_ne_nil (pieces_ne_nil (· == '\n') text)
      have hsep : ('\ufeff' == '\n') = false := rfl
      rw [pieces_cons, hsep, hp]
      exact hp
    · rw [withoutMark_of_ne hmark, pieces_cons]
      split
      · rfl
      · rw [List.modifyHead_cons, withoutMark_of_ne hmark]

/-! ### Reading a file -/

/-- The lines of a file, as bytes. -/
def fileLines (bytes : ByteArray) : List (List UInt8) :=
  pieces (· == 0x0A) bytes.data.toList

theorem decode_of_utf8 {bytes : ByteArray} (h : Utf8 bytes.data.toList text) :
    (decode bytes).toList = withoutMark text := by
  have hs : String.fromUTF8? bytes = some (String.ofList text) :=
    fromUTF8?_eq_some_iff.2 (by rwa [String.toList_ofList])
  simp only [decode, hs]
  rw [toList_dropMark, String.toList_ofList]

theorem decode_of_not_utf8 {bytes : ByteArray} (h : ∀ text, ¬ Utf8 bytes.data.toList text) :
    decode bytes = ofBytes bytes := by
  simp only [decode, fromUTF8?_eq_none_iff.2 h]

/-- If a file is UTF-8, its text is what it stands for without one byte order mark at the start, and
otherwise its text has one character for each byte. The lines of the text are the lines of the file, each
read in the same way; in UTF-8 the mark is missing from the first. So a declaration has the number of the
line of the file that it stands in. -/
theorem decode_keeps_lines (bytes : ByteArray) :
    (∀ text, Utf8 bytes.data.toList text → (decode bytes).toList = withoutMark text ∧
      ∃ read, List.Forall₂ Utf8 (fileLines bytes) read ∧
        lines (decode bytes) = read.modifyHead withoutMark) ∧
    ((∀ text, ¬ Utf8 bytes.data.toList text) → Latin1 bytes.data.toList (decode bytes).toList ∧
      List.Forall₂ Latin1 (fileLines bytes) (lines (decode bytes))) ∧
    (lines (decode bytes)).length = (fileLines bytes).length ∧
    ∀ (item? : List Char → Option Item), ∀ d ∈ declarations item? (decode bytes),
      ∃ (k : Nat) (line : List Char), k < (fileLines bytes).length ∧
        (lines (decode bytes))[k]? = some line ∧ item? line = some d.toItem ∧ d.line = k + 1 := by
  have hutf8 : ∀ text, Utf8 bytes.data.toList text → (decode bytes).toList = withoutMark text ∧
      ∃ read, List.Forall₂ Utf8 (fileLines bytes) read ∧
        lines (decode bytes) = read.modifyHead withoutMark := by
    intro text h
    refine ⟨decode_of_utf8 h, _, h.pieces, ?_⟩
    rw [← pieces_withoutMark, ← decode_of_utf8 h]
    rfl
  have hlatin1 : (∀ text, ¬ Utf8 bytes.data.toList text) →
      Latin1 bytes.data.toList (decode bytes).toList ∧
        List.Forall₂ Latin1 (fileLines bytes) (lines (decode bytes)) := by
    intro h
    have hbytes : Latin1 bytes.data.toList (decode bytes).toList :=
      decode_of_not_utf8 h ▸ latin1_ofBytes bytes
    exact ⟨hbytes, hbytes.pieces⟩
  have hlength : (lines (decode bytes)).length = (fileLines bytes).length := by
    by_cases h : ∃ text, Utf8 bytes.data.toList text
    · obtain ⟨text, h⟩ := h
      obtain ⟨-, read, hread, heq⟩ := hutf8 text h
      rw [heq, List.length_modifyHead, hread.length_eq]
    · exact (hlatin1 (not_exists.1 h)).2.length_eq.symm
  refine ⟨hutf8, hlatin1, hlength, fun item? d hd => ?_⟩
  obtain ⟨k, line, item, hline, hitem, rfl⟩ := mem_declarations.1 hd
  exact ⟨k, line, hlength ▸ (List.getElem?_eq_some_iff.1 hline).1, hline, hitem, rfl⟩

/-- Of two marks the second stays. One byte at the end that is no UTF-8 has the whole file read byte by
byte, the mark included. -/
theorem decode_keeps_lines_marks :
    let marked : ByteArray := ⟨#[0xEF, 0xBB, 0xBF, 0xEF, 0xBB, 0xBF, 0x78, 0x0A, 0xC3, 0xA9]⟩
    let broken : ByteArray := ⟨#[0xEF, 0xBB, 0xBF, 0x78, 0x0A, 0xE9]⟩
    (decode marked).toList = ['\ufeff', 'x', '\n', 'é'] ∧
      (∃ read, List.Forall₂ Utf8 [[0xEF, 0xBB, 0xBF, 0xEF, 0xBB, 0xBF, 0x78], [0xC3, 0xA9]] read ∧
        lines (decode marked) = read.modifyHead withoutMark) ∧
      Latin1 [0xEF, 0xBB, 0xBF, 0x78, 0x0A, 0xE9] (decode broken).toList ∧
      List.Forall₂ Latin1 [[0xEF, 0xBB, 0xBF, 0x78], [0xE9]] (lines (decode broken)) := by
  intro marked broken
  have hmarked : Utf8 marked.data.toList ['\ufeff', '\ufeff', 'x', '\n', 'é'] :=
    utf8_iff.2 (by decide)
  have hbroken : ∀ text, ¬ Utf8 broken.data.toList text := fromUTF8?_eq_none_iff.1 (by decide)
  obtain ⟨htext, hlines⟩ := (decode_keeps_lines marked).1 _ hmarked
  obtain ⟨hbytes, hpieces⟩ := (decode_keeps_lines broken).2.1 hbroken
  exact ⟨htext, hlines, hbytes, hpieces⟩

end Outliner.Text
