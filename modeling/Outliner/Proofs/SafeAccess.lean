import Outliner.Proofs.SavedPreferences
import Outliner.Proofs.Steps

/-!
# Access to the preferences is safe

Loading and saving take steps that can go wrong: a file may be missing or be a directory, its bytes may be no
text and its text no JSON, and an integer may be too long to be written. `attemptLoad` and `attemptSave` go
through these steps one by one; loading catches every fault, saving only those of the file system. The faults
that nothing catches do not arise: what was loaded from a file can be written (`readable_load`). So every call
returns what `load`, `save` and the others say (`Call.attempt_eq`), in every state of the file, and a run of
calls never stops (`access_safe`).
-/

namespace Outliner

namespace Text

/-- Not empty, and without a blank at either end. -/
structure Trimmed (s : String) : Prop where
  ne_empty : s ≠ ""
  head : ∀ c ∈ s.toList.head?, isBlank c = false
  last : ∀ c ∈ s.toList.getLast?, isBlank c = false

theorem trimmed_trim {s : String} (h : trim s ≠ "") : Trimmed (trim s) := by
  refine ⟨h, fun c hc => ?_, fun c hc => ?_⟩
  · have hnot := List.head?_dropWhile_not isBlank ((s.toList.dropWhile isBlank).rdropWhile isBlank)
    rw [rdropWhile_dropWhile, ← toList_trim, hc] at hnot
    exact hnot
  · rw [toList_trim] at hc
    have hne := List.ne_nil_of_mem (List.mem_of_mem_getLast? hc)
    have hlast := List.rdropWhile_last_not isBlank _ hne
    rw [List.getLast?_eq_some_getLast hne] at hc
    cases hc
    exact Bool.not_eq_true _ ▸ hlast

end Text

/-! ### Integers that are too long -/

namespace Json

variable {v : Json} {vs : List Json} {ms : Members}

/-- An integer has no more digits than can be read and written. -/
def Short : Json → Prop
  | .int n => digitCount n.natAbs ≤ Text.maxDigits
  | _ => True

theorem Readable.short (h : v.Readable) : v.Short := by
  cases v with
  | int n => exact h
  | null | bool b | float x | str s | arr vs | obj ms => trivial

mutual

/-- Whether an integer in the value is too long. -/
def tooLong : Json → Bool
  | .int n => Text.maxDigits < digitCount n.natAbs
  | .arr vs => anyTooLong vs
  | .obj ms => anyMemberTooLong ms
  | .null | .bool _ | .float _ | .str _ => false

def anyTooLong : List Json → Bool
  | [] => false
  | v :: vs => tooLong v || anyTooLong vs

def anyMemberTooLong : List (String × Json) → Bool
  | [] => false
  | (_, v) :: ms => tooLong v || anyMemberTooLong ms

end

theorem anyTooLong_eq_false (h : ∀ v ∈ vs, v.tooLong = false) : anyTooLong vs = false := by
  induction vs with
  | nil => rfl
  | cons v vs ih =>
    obtain ⟨hv, hvs⟩ := List.forall_mem_cons.1 h
    rw [anyTooLong, hv, ih hvs]
    rfl

theorem anyMemberTooLong_eq_false (h : ∀ m ∈ ms, m.2.tooLong = false) :
    anyMemberTooLong ms = false := by
  induction ms with
  | nil => rfl
  | cons m ms ih =>
    obtain ⟨hm, hms⟩ := List.forall_mem_cons.1 h
    rw [anyMemberTooLong, hm, ih hms]
    rfl

theorem tooLong_eq_false (h : ∀ u : Json, u.Within v → u.Short) : v.tooLong = false := by
  induction v using induct with
  | null | bool b | float x | str s => rfl
  | int n =>
    have hn : digitCount n.natAbs ≤ Text.maxDigits := h _ .self
    exact decide_eq_false (Nat.not_lt.2 hn)
  | arr vs ih => exact anyTooLong_eq_false fun v hv => ih v hv fun u hu => h u (.element hv hu)
  | obj ms ih => exact anyMemberTooLong_eq_false fun m hm => ih m hm fun u hu => h u (.member hm hu)

end Json

/-! ### Steps that can go wrong -/

/-- What stops a step. -/
inductive Fault where
  /-- the file system refuses it -/
  | system
  /-- what is read or written has not the form that it must have -/
  | content
deriving DecidableEq, Repr

namespace PreferenceFile

variable {p : PreferenceFile} {ms : Members} {value? : Option Json}

def readBytes : PreferenceFile → Except Fault ByteArray
  | file bytes => .ok bytes
  | absent | directory | blocked => .error .system

def decodeText (bytes : ByteArray) : Except Fault String :=
  (String.fromUTF8? bytes).elim (.error .content) .ok

def parseText (text : String) : Except Fault Json :=
  (Json.parse text).elim (.error .content) .ok

/-- Makes the directory of the file, unless it is there. -/
def makeDirectory : PreferenceFile → Except Fault Unit
  | absent | file _ | directory => .ok ()
  | blocked => .error .system

def writeText (v : Json) : Except Fault String :=
  if v.tooLong then .error .content else .ok (v.write ++ "\n")

def writeBytes (bytes : ByteArray) : PreferenceFile → Except Fault PreferenceFile
  | absent | file _ => .ok (file bytes)
  | directory | blocked => .error .system

def attemptLoad (p : PreferenceFile) : Except Fault Members :=
  tryCatch (do
    let text ← decodeText (← p.readBytes)
    match ← parseText text with
    | .obj ms => return ms
    | _ => return []) fun _ => return []

def attemptSave (ms : Members) (p : PreferenceFile) : Except Fault PreferenceFile :=
  tryCatch (do
    p.makeDirectory
    let text ← writeText (.obj ms)
    p.writeBytes text.toUTF8) fun
    | .system => return p
    | .content => throw .content

theorem attemptLoad_eq (p : PreferenceFile) : p.attemptLoad = .ok p.load := by
  cases p with
  | absent | directory | blocked => rfl
  | file bytes =>
    have hread : readBytes (file bytes) = .ok bytes := rfl
    rw [attemptLoad, load, hread, Steps.ok_bind]
    cases htext : String.fromUTF8? bytes with
    | none =>
      have hdecode : decodeText bytes = .error .content := by rw [decodeText, htext]; rfl
      rw [hdecode]
      rfl
    | some text =>
      have hdecode : decodeText bytes = .ok text := by rw [decodeText, htext]; rfl
      rw [hdecode, Steps.ok_bind, Option.bind_some]
      cases hparse : Json.parse text with
      | none =>
        have hvalue : parseText text = .error .content := by rw [parseText, hparse]; rfl
        rw [hvalue]
        rfl
      | some v =>
        have hvalue : parseText text = .ok v := by rw [parseText, hparse]; rfl
        rw [hvalue]
        cases v <;> rfl

theorem attemptSave_eq (h : ∀ u : Json, u.Within (.obj ms) → u.Short) (p : PreferenceFile) :
    p.attemptSave ms = .ok (p.save ms) := by
  have htext : writeText (.obj ms) = .ok ((Json.obj ms).write ++ "\n") := by
    rw [writeText, Json.tooLong_eq_false h]
    rfl
  unfold attemptSave
  rw [htext]
  cases p <;> rfl

/-! ### Calls -/

/-- What is answered for the name in a member. -/
def nameIn : Option Json → Json
  | some (.str s) => if Text.trim s == "" then .null else .str (Text.trim s)
  | _ => .null

/-- What is answered for the spacing in a member. -/
def spacingIn : Option Json → Json
  | some (.int n) => if n < 0 then .null else .int n
  | _ => .null

def nameAnswer (name? : Option String) : Json :=
  name?.elim .null .str

def spacingAnswer (n? : Option Nat) : Json :=
  n?.elim .null fun n => .int n

theorem nameIn_get? (p : PreferenceFile) (key : String) :
    nameIn (p.load.get? key) = nameAnswer (p.loadName key) := by
  unfold loadName
  cases p.load.get? key with
  | none => rfl
  | some v =>
    cases v with
    | str s => exact (apply_ite nameAnswer (Text.trim s == "") none (some (Text.trim s))).symm
    | null | bool b | int n | float x | arr vs | obj ms => rfl

theorem spacingIn_get? (p : PreferenceFile) :
    spacingIn (p.load.get? spacingKey) = spacingAnswer p.loadSpacing := by
  unfold loadSpacing
  cases p.load.get? spacingKey with
  | none => rfl
  | some v =>
    cases v with
    | int n =>
      by_cases hn : n < 0
      · simp [spacingIn, spacingAnswer, hn]
      · simp [spacingIn, spacingAnswer, hn, Int.toNat_of_nonneg (Int.not_lt.1 hn)]
    | null | bool b | float x | str s | arr vs | obj ms => rfl

end PreferenceFile

open PreferenceFile

/-- The calls on the preferences. `replace` writes a whole object. -/
inductive Call where
  | load
  | loadStyle
  | loadTheme
  | loadSpacing
  | replace (ms : Members)
  | save (s : Save)

namespace Call

variable {c : Call} {calls : List Call} {p : PreferenceFile}

/-- The call step by step: its answer, and what it leaves in the file. -/
def attempt (p : PreferenceFile) : Call → Except Fault (Json × PreferenceFile)
  | load => do return (.obj (← p.attemptLoad), p)
  | loadStyle => do return (nameIn ((← p.attemptLoad).get? styleKey), p)
  | loadTheme => do return (nameIn ((← p.attemptLoad).get? themeKey), p)
  | loadSpacing => do return (spacingIn ((← p.attemptLoad).get? spacingKey), p)
  | replace ms => do return (.null, ← p.attemptSave ms)
  | save s =>
    if s.Effective then do
      let ms ← p.attemptLoad
      return (.null, ← p.attemptSave (ms.put s.key s.value))
    else return (.null, p)

def answer (p : PreferenceFile) : Call → Json
  | load => .obj p.load
  | loadStyle => nameAnswer p.loadStyle
  | loadTheme => nameAnswer p.loadTheme
  | loadSpacing => spacingAnswer p.loadSpacing
  | replace _ | save _ => .null

def after (p : PreferenceFile) : Call → PreferenceFile
  | load | loadStyle | loadTheme | loadSpacing => p
  | replace ms => p.save ms
  | save s => s.run p

/-- No integer that the call saves is too long. -/
def Fits : Call → Prop
  | load | loadStyle | loadTheme | loadSpacing => True
  | replace ms => ∀ u : Json, u.Within (.obj ms) → u.Short
  | save s => s.Fits

/-- What may be answered: an object, nothing or a name without blanks around it, nothing or a number that is
not negative, nothing. -/
def MayAnswer : Call → Json → Prop
  | load, v => ∃ ms : Members, v = .obj ms ∧ ms.keys.Nodup
  | loadStyle, v | loadTheme, v => v = .null ∨ ∃ s, v = .str s ∧ Text.Trimmed s
  | loadSpacing, v => v = .null ∨ ∃ n : Int, v = .int n ∧ 0 ≤ n
  | replace _, v | save _, v => v = .null

theorem short_put {s : Save} (hs : s.Fits) (p : PreferenceFile) :
    ∀ u : Json, u.Within (.obj (p.load.put s.key s.value)) → u.Short := by
  refine Json.forall_within_obj trivial fun m hm => ?_
  rcases Members.mem_put hm with rfl | hm
  · exact fun u hu => (Save.storable_value hs u hu).1.short
  · exact fun u hu => (p.readable_load u (.member hm hu)).short

/-- No fault escapes from a call. -/
theorem attempt_eq (h : c.Fits) (p : PreferenceFile) : c.attempt p = .ok (c.answer p, c.after p) := by
  cases c with
  | load =>
    rw [attempt, p.attemptLoad_eq, Steps.ok_bind]
    rfl
  | loadStyle | loadTheme =>
    rw [attempt, p.attemptLoad_eq, Steps.ok_bind, nameIn_get?]
    rfl
  | loadSpacing =>
    rw [attempt, p.attemptLoad_eq, Steps.ok_bind, spacingIn_get?]
    rfl
  | replace ms =>
    rw [attempt, attemptSave_eq h, Steps.ok_bind]
    rfl
  | save s =>
    rw [attempt]
    split
    · next heff =>
      rw [p.attemptLoad_eq, Steps.ok_bind, attemptSave_eq (short_put h p), Steps.ok_bind,
        ← Save.run_of_effective heff]
      rfl
    · next heff =>
      show _ = Except.ok (_, s.run p)
      rw [Save.run_of_not_effective heff]
      rfl

theorem trimmed_of_loadName {key s : String} (h : p.loadName key = some s) : Text.Trimmed s := by
  unfold loadName at h
  split at h
  · split at h
    · cases h
    · next hne =>
      cases h
      exact Text.trimmed_trim fun heq => hne (beq_iff_eq.2 heq)
  · cases h

theorem mayAnswer_answer (c : Call) (p : PreferenceFile) : c.MayAnswer (c.answer p) := by
  have hname : ∀ key, nameAnswer (p.loadName key) = .null ∨
      ∃ s, nameAnswer (p.loadName key) = .str s ∧ Text.Trimmed s := by
    intro key
    cases hkey : p.loadName key with
    | none => exact .inl rfl
    | some s => exact .inr ⟨s, rfl, trimmed_of_loadName hkey⟩
  cases c with
  | load => exact ⟨_, rfl, p.readable_load _ .self⟩
  | loadStyle => exact hname styleKey
  | loadTheme => exact hname themeKey
  | loadSpacing =>
    cases hn : p.loadSpacing with
    | none => exact .inl (by rw [answer, hn]; rfl)
    | some n => exact .inr ⟨n, by rw [answer, hn]; rfl, Int.natCast_nonneg n⟩
  | replace ms | save s => rfl

theorem after_of_not_writable (hp : ¬ p.Writable) (c : Call) : c.after p = p := by
  have hsave : ∀ ms, p.save ms = p := by
    intro ms
    cases p with
    | absent | file bytes => exact absurd trivial hp
    | directory | blocked => rfl
  cases c with
  | load | loadStyle | loadTheme | loadSpacing => rfl
  | replace ms => exact hsave ms
  | save s =>
    show s.run p = p
    by_cases heff : s.Effective
    · rw [Save.run_of_effective heff, hsave]
    · exact Save.run_of_not_effective heff p

/-- The calls one after the other: their answers, and what is in the file at the end. -/
def attemptAll (p : PreferenceFile) : List Call → Except Fault (List Json × PreferenceFile)
  | [] => .ok ([], p)
  | c :: calls => do
    let (v, p) ← c.attempt p
    let (vs, p) ← attemptAll p calls
    return (v :: vs, p)

/-- The state of the file after the calls. -/
def afterAll (calls : List Call) (p : PreferenceFile) : PreferenceFile :=
  calls.foldl (fun p c => c.after p) p

theorem exists_attemptAll_eq (h : ∀ c ∈ calls, c.Fits) (p : PreferenceFile) :
    ∃ vs, attemptAll p calls = .ok (vs, afterAll calls p) ∧ List.Forall₂ MayAnswer calls vs := by
  induction calls generalizing p with
  | nil => exact ⟨[], rfl, .nil⟩
  | cons c calls ih =>
    obtain ⟨hc, hcalls⟩ := List.forall_mem_cons.1 h
    obtain ⟨vs, hvs, hanswers⟩ := ih hcalls (c.after p)
    refine ⟨c.answer p :: vs, ?_, .cons (c.mayAnswer_answer p) hanswers⟩
    rw [attemptAll, attempt_eq hc, Steps.ok_bind]
    dsimp only
    rw [hvs, Steps.ok_bind]
    rfl

theorem afterAll_of_not_writable (hp : ¬ p.Writable) (calls : List Call) : afterAll calls p = p := by
  induction calls with
  | nil => rfl
  | cons c calls ih =>
    show afterAll calls (c.after p) = p
    rw [after_of_not_writable hp, ih]

/-- Whatever is at the place of the file, no run of calls is stopped by a fault, each call answers what it may
answer and leaves the file as `after` says, and a file that cannot be written stays as it is. The integers that
are saved must not be too long. -/
theorem access_safe (h : ∀ c ∈ calls, c.Fits) (p : PreferenceFile) :
    (∃ vs, attemptAll p calls = .ok (vs, afterAll calls p) ∧ List.Forall₂ MayAnswer calls vs) ∧
      (¬ p.Writable → afterAll calls p = p) :=
  ⟨exists_attemptAll_eq h p, fun hp => afterAll_of_not_writable hp calls⟩

/-- In a file that is no text, and where a file lies in the place of the directory. -/
theorem access_safe_noText :
    let calls := [load, loadStyle, save (.spacing 3), replace [("style", .bool true)], save (.style " box "),
      loadSpacing]
    (∃ vs, attemptAll (file ⟨#[0x7b, 0xff]⟩) calls = .ok (vs, afterAll calls (file ⟨#[0x7b, 0xff]⟩)) ∧
        List.Forall₂ MayAnswer calls vs) ∧
      (∃ vs, attemptAll blocked calls = .ok (vs, blocked)) := by
  intro calls
  have hfits : ∀ c ∈ calls, c.Fits := by
    have hreplace : (replace [("style", .bool true)]).Fits := by
      refine Json.forall_within_obj trivial fun m hm => ?_
      rw [List.mem_singleton.1 hm]
      rintro _ ⟨⟩
      trivial
    have hspacing : (Save.spacing 3).Fits := by decide
    intro c hc
    simp only [calls, List.mem_cons, List.not_mem_nil, or_false] at hc
    rcases hc with rfl | rfl | rfl | rfl | rfl | rfl
    exacts [trivial, trivial, hspacing, hreplace, trivial, trivial]
  obtain ⟨⟨vs, hvs, -⟩, hsame⟩ := access_safe hfits blocked
  rw [hsame id] at hvs
  exact ⟨(access_safe hfits (file ⟨#[0x7b, 0xff]⟩)).1, vs, hvs⟩

end Call

end Outliner
