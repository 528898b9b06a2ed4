import Outliner.Proofs.SavedPreferences

/-!
# The text of stored preferences

Every JSON text is ASCII, whatever it says (`Json.ascii_value`): a string escapes all other characters, and
numbers, words and brackets have none. So the preference file holds ASCII bytes, an object that is saved is
the object that is loaded, and to save that one again changes nothing (`PreferenceFile.load_save_ascii`).
-/

namespace Outliner

namespace Text

variable {c : Char} {cs ds : List Char}

def Ascii (cs : List Char) : Prop :=
  ∀ c ∈ cs, c.toNat < 0x80

instance : DecidablePred Ascii :=
  fun cs => List.decidableBAll (fun c : Char => c.toNat < 0x80) cs

@[simp]
theorem ascii_nil : Ascii [] :=
  nofun

@[simp]
theorem ascii_cons : Ascii (c :: cs) ↔ c.toNat < 0x80 ∧ Ascii cs :=
  List.forall_mem_cons

@[simp]
theorem ascii_append : Ascii (cs ++ ds) ↔ Ascii cs ∧ Ascii ds :=
  List.forall_mem_append

theorem Ascii.sublist (h : Ascii ds) (hcs : cs.Sublist ds) : Ascii cs :=
  fun c hc => h c (hcs.subset hc)

theorem ascii_replicate (n : Nat) (hc : c.toNat < 0x80) : Ascii (List.replicate n c) := by
  intro d hd
  rwa [List.eq_of_mem_replicate hd]

theorem ascii_toDigits (n : Nat) : Ascii (Nat.toDigits 10 n) := by
  intro c hc
  have hdigit := Nat.isDigit_of_mem_toDigits (by decide) (by decide) hc
  have hle : c.toNat ≤ 57 := (Char.isDigit_iff_toNat.1 hdigit).2
  omega

theorem ascii_hex (digits n : Nat) : Ascii (hex digits n) := by
  have hdigit : ∀ k < 16, (Nat.digitChar k).toNat < 0x80 := by decide
  intro c hc
  obtain ⟨k, -, rfl⟩ := List.mem_map.1 hc
  exact hdigit _ (Nat.mod_lt _ (by decide))

theorem byte_of_ascii {s : String} (h : Ascii s.toList) : ∀ b ∈ s.toUTF8.data, b < 0x80 := by
  intro b hb
  rw [← Array.mem_toList_iff, toList_toUTF8] at hb
  obtain ⟨c, hc, hb⟩ := List.mem_flatMap.1 hb
  have hlt : c.val.toNat < 0x80 := h c hc
  rw [String.utf8EncodeChar, if_pos (by omega), List.mem_singleton] at hb
  rw [hb, UInt8.lt_iff_toNat_lt, UInt8.toNat_ofNat']
  show c.val.toNat % 0x100 < 0x80
  omega

end Text

/-! ### Numbers -/

namespace Binary64

open Text

theorem ascii_layout {ds : List Char} (h : Ascii ds) (point : Int) : Ascii (layout ds point) := by
  have htake : ∀ n, Ascii (ds.take n) := fun n => h.sublist (List.take_sublist n ds)
  have hdrop : ∀ n, Ascii (ds.drop n) := fun n => h.sublist (List.drop_sublist n ds)
  have htail : Ascii ds.tail := h.sublist (List.tail_sublist ds)
  have hzeros : ∀ n, Ascii (List.replicate n '0') := fun n => ascii_replicate n (by decide)
  unfold layout
  split
  · dsimp only
    split <;> split <;> simp [htake, hdrop, hzeros]
  · dsimp only
    split <;> split <;> simp [htake, htail, hzeros, ascii_toDigits]

theorem ascii_text (x : Binary64) : Ascii x.text := by
  cases x with
  | nan => decide
  | infinite negative => cases negative <;> decide
  | finite negative m q =>
    have hfinite : Ascii (finiteText m q) := by
      unfold finiteText
      split
      · decide
      · refine ascii_layout ?_ _
        intro c hc
        have hmem := (List.dropWhile_sublist _).subset (List.mem_reverse.1 hc)
        exact ascii_toDigits _ c (List.mem_reverse.1 hmem)
    rw [text, ascii_append]
    exact ⟨by cases negative <;> decide, hfinite⟩

end Binary64

/-! ### Values -/

namespace Json

open Text

variable {vs : List Json} {ms : Members}

theorem ascii_escaped (c : Char) : Ascii (Writer.escaped c) := by
  unfold Writer.escaped
  split
  · next h => rcases h with rfl | rfl <;> decide
  -- the five control characters that have a letter
  iterate 5
    split
    · decide
  split
  · next h =>
    rw [ascii_cons]
    exact ⟨by omega, ascii_nil⟩
  split <;> simp [Writer.unicodeEscape, ascii_hex]

theorem ascii_string (s : String) : Ascii (Writer.string s) := by
  have hbody : Ascii (s.toList.flatMap Writer.escaped) := by
    intro c hc
    obtain ⟨d, -, hc⟩ := List.mem_flatMap.1 hc
    exact ascii_escaped d c hc
  simp [Writer.string, hbody]

theorem ascii_gap (level : Nat) : Ascii (Writer.gap level) := by
  simp [Writer.gap, ascii_replicate]

theorem ascii_elements (h : ∀ v ∈ vs, ∀ level, Ascii (Writer.value level v)) (level : Nat) :
    Ascii (Writer.elements level vs) := by
  induction vs with
  | nil => exact ascii_nil
  | cons v vs ih =>
    obtain ⟨hv, hvs⟩ := List.forall_mem_cons.1 h
    simp [Writer.elements, ascii_gap, hv, ih hvs]

theorem ascii_members (h : ∀ m ∈ ms, ∀ level, Ascii (Writer.value level m.2)) (level : Nat) :
    Ascii (Writer.members level ms) := by
  induction ms with
  | nil => exact ascii_nil
  | cons m ms ih =>
    obtain ⟨hm, hms⟩ := List.forall_mem_cons.1 h
    simp [Writer.members, ascii_gap, ascii_string, hm, ih hms]

/-- Whatever is written is ASCII. -/
theorem ascii_value (level : Nat) (v : Json) : Ascii (Writer.value level v) := by
  induction v using induct generalizing level with
  | null => simp [Writer.value]
  | bool b => cases b <;> simp [Writer.value]
  | int n =>
    rw [Writer.value, Reader.toList_toString, ascii_append]
    refine ⟨?_, ascii_toDigits _⟩
    split <;> decide
  | float x => exact x.ascii_text
  | str s => exact ascii_string s
  | arr vs ih =>
    cases vs with
    | nil => simp [Writer.value]
    | cons v vs =>
      obtain ⟨hv, hvs⟩ := List.forall_mem_cons.1 ih
      simp [Writer.value, ascii_gap, hv, ascii_elements hvs]
  | obj ms ih =>
    cases ms with
    | nil => simp [Writer.value]
    | cons m ms =>
      obtain ⟨hm, hms⟩ := List.forall_mem_cons.1 ih
      simp [Writer.value, ascii_gap, ascii_string, hm, ascii_members hms]

end Json

/-! ### Files -/

namespace PreferenceFile

variable {p : PreferenceFile} {ms : Members}

/-- An object that is saved is loaded again, with its members and those of all objects in it in their order,
and to save what was loaded writes the same bytes, all of them ASCII. What was in the file before does not
matter, as long as it can be written. The object may hold any values other than finite floating-point
numbers, integers that are too long to be read, and objects with a key that occurs twice. -/
theorem load_save_ascii (hp : p.Writable) (hms : Storable ms) :
    ∃ bytes : ByteArray, p.save ms = file bytes ∧ (∀ b ∈ bytes.data, b < 0x80) ∧
      (p.save ms).load = ms ∧ ∀ q : PreferenceFile, q.Writable → q.save (p.save ms).load = file bytes := by
  have hascii : Text.Ascii ((Json.obj ms).write ++ "\n").toList := by
    rw [String.toList_append, Json.write, String.toList_ofList, Text.ascii_append]
    exact ⟨Json.ascii_value 0 _, by decide⟩
  refine ⟨_, save_of_writable hp ms, Text.byte_of_ascii hascii, load_save hp hms, fun q hq => ?_⟩
  rw [load_save hp hms, save_of_writable hq]

/-- An object in an object, with a list in it, takes the place of a file that is no JSON. -/
theorem load_save_ascii_nested :
    let list : Json := .arr [.null, .int (-7), .float .nan, .float (.infinite true), .arr [], .str "\"é\n😀"]
    let ms : Members := [("z", .obj [("b", list), ("a", .bool true)]), ("", .obj [])]
    let p := (file "[oops".toUTF8).save ms
    p.load = ms ∧ p.save p.load = p ∧ ∃ bytes : ByteArray, p = file bytes ∧ ∀ b ∈ bytes.data, b < 0x80 := by
  intro list ms p
  have hlist : ∀ u : Json, u.Within list → u.Readable ∧ ¬ u.IsFinite := by
    refine Json.forall_within_arr ⟨trivial, id⟩ fun v hv => ?_
    simp only [List.mem_cons, List.not_mem_nil, or_false] at hv
    rcases hv with rfl | rfl | rfl | rfl | rfl | rfl
    · rintro _ ⟨⟩
      exact ⟨trivial, id⟩
    · rintro _ ⟨⟩
      exact ⟨show digitCount 7 ≤ Text.maxDigits by decide, id⟩
    · rintro _ ⟨⟩
      exact ⟨trivial, id⟩
    · rintro _ ⟨⟩
      exact ⟨trivial, id⟩
    · exact Json.forall_within_arr ⟨trivial, id⟩ nofun
    · rintro _ ⟨⟩
      exact ⟨trivial, id⟩
  have hinner : ∀ u : Json, u.Within (.obj [("b", list), ("a", .bool true)]) → u.Readable ∧ ¬ u.IsFinite := by
    refine Json.forall_within_obj ⟨show List.Nodup ["b", "a"] by decide, id⟩ fun m hm => ?_
    rcases List.mem_pair.1 hm with rfl | rfl
    · exact hlist
    · rintro _ ⟨⟩
      exact ⟨trivial, id⟩
  have hms : Storable ms := by
    refine Json.forall_within_obj ⟨show List.Nodup ["z", ""] by decide, id⟩ fun m hm => ?_
    rcases List.mem_pair.1 hm with rfl | rfl
    · exact hinner
    · exact Json.forall_within_obj ⟨List.nodup_nil, id⟩ nofun
  obtain ⟨bytes, hsave, hascii, hload, hagain⟩ :=
    load_save_ascii (p := file "[oops".toUTF8) trivial hms
  have hp : p = file bytes := hsave
  refine ⟨hload, ?_, bytes, hp, hascii⟩
  rw [hagain p (hp ▸ trivial), hp]

end PreferenceFile

end Outliner
