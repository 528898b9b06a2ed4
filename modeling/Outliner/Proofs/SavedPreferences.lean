import Mathlib.Data.List.DropRight
import Outliner.Preferences
import Outliner.Proofs.JsonText
import Outliner.Proofs.Utf8

/-!
# Saved preferences

To save a preference is to read the object in the file, put one member into it and write it again. The
object that is written is read back as it is (`load_save`), because whatever was read from a file can be
written (`Json.readable_of_parse`). So any run of saves is a run of `put`s on the object of the first file
(`Save.load_foldl_run`): the last save of each preference stays, and everything else is kept in its place
(`load_saves`).
-/

namespace Outliner

namespace Text

theorem rdropWhile_dropWhile {p : Char → Bool} (cs : List Char) :
    ((cs.dropWhile p).rdropWhile p).dropWhile p = (cs.dropWhile p).rdropWhile p := by
  obtain ⟨tail, htail⟩ := List.rdropWhile_prefix p (cs.dropWhile p)
  cases hcs : (cs.dropWhile p).rdropWhile p with
  | nil => rfl
  | cons c rest =>
    have hhead : (cs.dropWhile p).head? = some c := by
      rw [← htail, hcs]
      rfl
    have hc : p c = false := by
      have hnot := List.head?_dropWhile_not p cs
      rwa [hhead] at hnot
    exact List.dropWhile_cons_of_neg (by rw [hc]; exact Bool.false_ne_true)

theorem toList_trim (s : String) :
    (trim s).toList = (s.toList.dropWhile isBlank).rdropWhile isBlank :=
  String.toList_ofList

theorem trim_trim (s : String) : trim (trim s) = trim s := by
  refine String.toList_inj.1 ?_
  rw [toList_trim, toList_trim, rdropWhile_dropWhile, List.rdropWhile_idempotent]

end Text

/-! ### Many members -/

namespace Members

variable {ms : Members} {key : String} {value : Json} {entries before after : List (String × Json)}

theorem keys_putAll (entries : List (String × Json)) (ms : Members) :
    (putAll entries ms).keys
      = ms.keys ++ ((keys entries).filter fun key => key ∉ ms.keys).eraseDups := by
  induction entries generalizing ms with
  | nil => simp [putAll, keys]
  | cons m entries ih =>
    have hput : putAll (m :: entries) ms = putAll entries (put m.1 m.2 ms) := rfl
    have hkeys : keys (m :: entries) = m.1 :: keys entries := rfl
    rw [hput, ih, hkeys, List.filter_cons]
    by_cases hm : m.1 ∈ ms.keys
    · rw [keys_put_of_mem hm, if_neg (by simpa using hm)]
    · rw [keys_put_of_not_mem hm, if_pos (by simpa using hm), List.eraseDups_cons, List.append_assoc,
        List.singleton_append, List.filter_filter]
      refine congrArg (fun ks => ms.keys ++ m.1 :: List.eraseDups ks) ?_
      refine List.filter_congr fun key _ => ?_
      rw [Bool.beq_eq_decide_eq]
      simp [and_comm]

theorem get?_putAll_of_not_mem (h : key ∉ keys entries) :
    (putAll entries ms).get? key = ms.get? key := by
  induction entries generalizing ms with
  | nil => rfl
  | cons m entries ih =>
    obtain ⟨hm, hrest⟩ := not_or.1 (List.mem_cons.not.1 h)
    have hput : putAll (m :: entries) ms = putAll entries (put m.1 m.2 ms) := rfl
    rw [hput, ih hrest, get?_put_of_ne (Ne.symm hm)]

theorem get?_putAll_last (h : key ∉ keys after) :
    (putAll (before ++ (key, value) :: after) ms).get? key = some value := by
  have hput : putAll (before ++ (key, value) :: after) ms
      = putAll after (put key value (putAll before ms)) := by
    rw [putAll, List.foldl_append]
    rfl
  rw [hput, get?_putAll_of_not_mem h, get?_put_self]

end Members

namespace PreferenceFile

open Json

variable {p : PreferenceFile} {ms : Members} {key : String} {value : Json}

/-! ### What is written is read back -/

/-- A preference file can be written here. -/
def Writable : PreferenceFile → Prop
  | absent | file _ => True
  | directory | blocked => False

/-- Everything in the object can be written and read back. -/
def Storable (ms : Members) : Prop :=
  ∀ u : Json, u.Within (.obj ms) → u.Readable ∧ ¬ u.IsFinite

theorem save_of_writable (hp : p.Writable) (ms : Members) :
    p.save ms = file ((Json.obj ms).write ++ "\n").toUTF8 := by
  cases p with
  | absent | file _ => rfl
  | directory | blocked => exact hp.elim

theorem writable_save (hp : p.Writable) (ms : Members) : (p.save ms).Writable := by
  rw [save_of_writable hp]
  trivial

theorem load_save (hp : p.Writable) (hms : Storable ms) : (p.save ms).load = ms := by
  have hparse : parse ((Json.obj ms).write ++ "\n") = some (.obj ms) :=
    parse_write_append (fun u hu => (hms u hu).1) (fun u hu => (hms u hu).2)
      (List.forall_mem_singleton.2 rfl)
  rw [save_of_writable hp, load, Text.fromUTF8?_toUTF8, Option.bind_some, hparse]

theorem readable_load (p : PreferenceFile) : ∀ u : Json, u.Within (.obj p.load) → u.Readable := by
  have hempty : ∀ u : Json, u.Within (.obj []) → u.Readable :=
    forall_within_obj List.nodup_nil nofun
  unfold load
  split
  · next bytes =>
    split
    · next ms hms =>
      obtain ⟨text, -, hparse⟩ := Option.bind_eq_some_iff.1 hms
      exact readable_of_parse hparse
    · exact hempty
  all_goals exact hempty

/-- Of what is in a file only finite floating-point numbers may be lost when it is written again. -/
theorem storable_load (hfinite : ∀ u : Json, u.Within (.obj p.load) → ¬ u.IsFinite) :
    Storable p.load :=
  fun u hu => ⟨p.readable_load u hu, hfinite u hu⟩

theorem Storable.put (h : Storable ms) (key : String)
    (hvalue : ∀ u : Json, u.Within value → u.Readable ∧ ¬ u.IsFinite) :
    Storable (ms.put key value) := by
  refine forall_within_obj ⟨Members.nodup_keys_put (h _ .self).1 key value, id⟩ fun m hm => ?_
  rcases Members.mem_put hm with rfl | hm
  · exact hvalue
  · exact fun u hu => h u (.member hm hu)

end PreferenceFile

/-! ### Runs of saves -/

open PreferenceFile

namespace Save

variable {p : PreferenceFile} {s : Save} {saves before after : List Save}

def key : Save → String
  | style _ => styleKey
  | theme _ => themeKey
  | spacing _ => spacingKey

def value : Save → Json
  | style name | theme name => .str (Text.trim name)
  | spacing n => .int n

/-- A save has an effect if the name holds more than blanks or the number is not negative. -/
def Effective : Save → Prop
  | style name | theme name => Text.trim name ≠ ""
  | spacing n => 0 ≤ n

instance : DecidablePred Effective
  | style name | theme name => inferInstanceAs (Decidable (Text.trim name ≠ ""))
  | spacing n => inferInstanceAs (Decidable (0 ≤ n))

/-- A number that is saved has no more digits than are read. -/
def Fits : Save → Prop
  | style _ | theme _ => True
  | spacing n => digitCount n.natAbs ≤ Text.maxDigits

instance : DecidablePred Fits
  | style _ | theme _ => inferInstanceAs (Decidable True)
  | spacing n => inferInstanceAs (Decidable (digitCount n.natAbs ≤ Text.maxDigits))

/-- The preference that is read is the one that `s` saves. -/
def LoadedFrom (p : PreferenceFile) : Save → Prop
  | style name => p.loadStyle = some (Text.trim name)
  | theme name => p.loadTheme = some (Text.trim name)
  | spacing n => p.loadSpacing.map Int.ofNat = some n

theorem run_of_not_effective (h : ¬ s.Effective) (p : PreferenceFile) : s.run p = p := by
  cases s with
  | style name | theme name =>
    refine if_pos ?_
    rw [beq_iff_eq]
    exact not_not.1 h
  | spacing n => exact if_pos (Int.not_le.1 h)

theorem run_of_effective (h : s.Effective) (p : PreferenceFile) :
    s.run p = p.save (p.load.put s.key s.value) := by
  cases s with
  | style name | theme name =>
    refine if_neg ?_
    rw [beq_iff_eq]
    exact h
  | spacing n => exact if_neg (Int.not_lt.2 h)

theorem writable_run (hp : p.Writable) : (s.run p).Writable := by
  by_cases hs : s.Effective
  · rw [run_of_effective hs]
    exact writable_save hp _
  · rwa [run_of_not_effective hs]

theorem storable_value (hs : s.Fits) :
    ∀ u : Json, u.Within s.value → u.Readable ∧ ¬ u.IsFinite := by
  cases s with
  | style name | theme name =>
    rintro _ ⟨⟩
    exact ⟨trivial, id⟩
  | spacing n =>
    rintro _ ⟨⟩
    exact ⟨hs, id⟩

theorem load_run (hp : p.Writable) (h : Storable p.load) (hs : s.Effective) (hfits : s.Fits) :
    (s.run p).load = p.load.put s.key s.value := by
  rw [run_of_effective hs, load_save hp (h.put s.key (storable_value hfits))]

/-- The members that the saves with an effect write. -/
def entries (saves : List Save) : Members :=
  (saves.filter (Effective ·)).map fun s => (s.key, s.value)

theorem keys_entries (saves : List Save) :
    Members.keys (entries saves) = (saves.filter (Effective ·)).map key :=
  List.map_map

theorem entries_append_cons (hs : s.Effective) (before after : List Save) :
    entries (before ++ s :: after) = entries before ++ (s.key, s.value) :: entries after := by
  have heff : decide s.Effective = true := decide_eq_true hs
  rw [entries, List.filter_append, List.filter_cons, if_pos heff, List.map_append]
  rfl

/-- A run of saves writes its entries into the object that was there. -/
theorem load_foldl_run (hp : p.Writable) (h : Storable p.load) (hfits : ∀ s ∈ saves, s.Fits) :
    (saves.foldl (fun q s => s.run q) p).load = Members.putAll (entries saves) p.load := by
  induction saves generalizing p with
  | nil => rfl
  | cons s saves ih =>
    obtain ⟨hs, hrest⟩ := List.forall_mem_cons.1 hfits
    rw [List.foldl_cons, entries, List.filter_cons]
    by_cases heff : s.Effective
    · have hload := load_run hp h heff hs
      rw [if_pos (decide_eq_true heff), ih (writable_run hp) ?_ hrest, hload]
      · rfl
      · rw [hload]
        exact h.put s.key (storable_value hs)
    · rw [run_of_not_effective heff, if_neg (by simpa using heff)]
      exact ih hp h hrest

theorem loadedFrom_of_get? (hs : s.Effective) (h : p.load.get? s.key = some s.value) :
    s.LoadedFrom p := by
  have hname : ∀ key name, Text.trim name ≠ "" → p.load.get? key = some (.str (Text.trim name)) →
      p.loadName key = some (Text.trim name) := by
    intro key name hne hget
    simp only [loadName, hget, Text.trim_trim, beq_iff_eq, if_neg hne]
  cases s with
  | style name => exact hname styleKey name hs h
  | theme name => exact hname themeKey name hs h
  | spacing n =>
    have hget : p.load.get? spacingKey = some (.int n) := h
    have hload : p.loadSpacing = some n.toNat := by
      simp only [loadSpacing, hget, if_neg (Int.not_lt.2 hs)]
    show p.loadSpacing.map Int.ofNat = some n
    rw [hload, Option.map_some]
    exact congrArg some (Int.toNat_of_nonneg hs)

end Save

namespace PreferenceFile

variable {p : PreferenceFile}

/-- The last save of each preference stays, and everything else is kept. A save of blanks or of a negative
number leaves the file as it is. After a run of saves the keys that were there are where they were, behind
them come those that are new, in the order of their first saves, and each preference that was saved is read
as the last save left it. The file must be writable. What is in it before must hold no finite
floating-point number, and the numbers that are saved must be short enough to be read. -/
theorem load_saves (hp : p.Writable)
    (hfinite : ∀ u : Json, u.Within (.obj p.load) → ¬ u.IsFinite) (saves : List Save)
    (hfits : ∀ s ∈ saves, s.Fits) :
    let q := saves.foldl (fun q s => s.run q) p
    let saved := (saves.filter (Save.Effective ·)).map Save.key
    (∀ s : Save, ¬ s.Effective → ∀ r, s.run r = r) ∧
      q.load.keys.Nodup ∧
      q.load.keys = p.load.keys ++ (saved.filter fun key => key ∉ p.load.keys).eraseDups ∧
      (∀ key, key ∉ saved → q.load.get? key = p.load.get? key) ∧
      ∀ before s after, saves = before ++ s :: after → s.Effective →
        (∀ t ∈ after, t.Effective → t.key ≠ s.key) →
        q.load.get? s.key = some s.value ∧ s.LoadedFrom q := by
  intro q saved
  have hstorable := storable_load hfinite
  have hload : q.load = Members.putAll (Save.entries saves) p.load :=
    Save.load_foldl_run hp hstorable hfits
  have hsaved : Members.keys (Save.entries saves) = saved := Save.keys_entries saves
  refine ⟨fun s hs => Save.run_of_not_effective hs, ?_, ?_, fun key hkey => ?_, ?_⟩
  · rw [hload]
    exact Members.nodup_keys_putAll (hstorable _ .self).1 _
  · rw [hload, Members.keys_putAll, hsaved]
  · rw [hload, Members.get?_putAll_of_not_mem (hsaved ▸ hkey)]
  · rintro before s after hsaves hs hlast
    have hkey : s.key ∉ Members.keys (Save.entries after) := by
      rw [Save.keys_entries]
      intro hmem
      obtain ⟨t, ht, hts⟩ := List.mem_map.1 hmem
      obtain ⟨ht, heff⟩ := List.mem_filter.1 ht
      exact hlast t ht (of_decide_eq_true heff) hts
    have hget : q.load.get? s.key = some s.value := by
      rw [hload, hsaves, Save.entries_append_cons hs]
      exact Members.get?_putAll_last hkey
    exact ⟨hget, Save.loadedFrom_of_get? hs hget⟩

/-- A style is saved twice and a theme of blanks not at all. -/
theorem load_saves_replaced :
    let p := absent.save [("theme", .str "dark"), ("spacing", .int 4)]
    let q := [Save.style " box ", .theme " ", .spacing 2, .style "rounded"].foldl (fun q s => s.run q) p
    p.load = [("theme", .str "dark"), ("spacing", .int 4)] ∧
      q.load.keys = ["theme", "spacing", "style"] ∧ q.load.get? "theme" = some (.str "dark") ∧
      q.loadStyle = some "rounded" ∧ q.loadSpacing = some 2 := by
  intro p q
  have hmembers : Storable [("theme", .str "dark"), ("spacing", .int 4)] := by
    refine Json.forall_within_obj ⟨show List.Nodup ["theme", "spacing"] by decide, id⟩ ?_
    rintro m hm _ hu
    rcases List.mem_pair.1 hm with rfl | rfl
    · cases hu
      exact ⟨trivial, id⟩
    · cases hu
      exact ⟨show digitCount 4 ≤ Text.maxDigits by decide, id⟩
  have hload : p.load = [("theme", .str "dark"), ("spacing", .int 4)] := load_save trivial hmembers
  obtain ⟨-, -, hkeys, hkept, hlast⟩ :=
    load_saves (p := p) trivial (hload ▸ fun u hu => (hmembers u hu).2)
      [.style " box ", .theme " ", .spacing 2, .style "rounded"] (by decide)
  have hstyle := hlast [.style " box ", .theme " ", .spacing 2] (.style "rounded") [] rfl (by decide) nofun
  have hspacing := hlast [.style " box ", .theme " "] (.spacing 2) [.style "rounded"] rfl (by decide)
    (by decide)
  refine ⟨hload, ?_, ?_, hstyle.2, ?_⟩
  · rw [hkeys, hload]
    decide
  · rw [hkept "theme" (by decide), hload]
    rfl
  · obtain ⟨n, hn, htwo⟩ := Option.map_eq_some_iff.1 hspacing.2
    rw [hn, Int.ofNat.inj htwo]

end PreferenceFile

end Outliner
