import Mathlib.Algebra.Group.Nat.Defs
import Mathlib.Data.List.Nodup
import Mathlib.Data.List.TakeWhile
import Outliner.Proofs.Digits
import Outliner.Proofs.JsonTokens

/-!
# The text of a JSON value

Reading the text of a value gives the value back, in either layout (`parse_write_append`), unless it holds a
finite floating-point number, an integer with too many digits or an object with a key that occurs twice.
The reader itself returns nothing of the last two kinds (`readable_of_parse`).

Both directions are inductions along the reader. Its fuel is never used up: the text of a value is at
least as long as the value is deep (`Reader.readsBack`).
-/

namespace Outliner

namespace Json

variable {vs : List Json} {ms : Members}

theorem induct {motive : Json → Prop} (null : motive .null) (bool : ∀ b, motive (.bool b))
    (int : ∀ n, motive (.int n)) (float : ∀ x, motive (.float x)) (str : ∀ s, motive (.str s))
    (arr : ∀ vs, (∀ v ∈ vs, motive v) → motive (.arr vs))
    (obj : ∀ ms : Members, (∀ m ∈ ms, motive m.2) → motive (.obj ms)) : ∀ v, motive v
  | .null => null
  | .bool b => bool b
  | .int n => int n
  | .float x => float x
  | .str s => str s
  | .arr vs => arr vs fun v hv =>
    have : sizeOf v < sizeOf vs := List.sizeOf_lt_of_mem hv
    induct null bool int float str arr obj v
  | .obj ms => obj ms fun m hm =>
    have : sizeOf m.2 < sizeOf ms :=
      Nat.lt_trans (show sizeOf m.2 < 1 + sizeOf m.1 + sizeOf m.2 by omega) (List.sizeOf_lt_of_mem hm)
    induct null bool int float str arr obj m.2

/-! ### Values in values -/

/-- `u` is `v` itself or occurs in it. -/
inductive Within (u : Json) : Json → Prop
  | self : Within u u
  | element {v : Json} {vs : List Json} : v ∈ vs → Within u v → Within u (.arr vs)
  | member {key : String} {v : Json} {ms : Members} : (key, v) ∈ ms → Within u v → Within u (.obj ms)

/-- A value that the reader may return. -/
def Readable : Json → Prop
  | .int n => digitCount n.natAbs ≤ Text.maxDigits
  | .obj ms => (Members.keys ms).Nodup
  | _ => True

/-- A floating-point number other than those that are written as words. -/
def IsFinite : Json → Prop
  | .float (.finite ..) => True
  | _ => False

theorem forall_within_arr {p : Json → Prop} (h : p (.arr vs))
    (hvs : ∀ v ∈ vs, ∀ u, u.Within v → p u) : ∀ u, u.Within (.arr vs) → p u
  | _, .self => h
  | u, .element hv hu => hvs _ hv u hu

theorem forall_within_obj {p : Json → Prop} (h : p (.obj ms))
    (hms : ∀ m ∈ ms, ∀ u, u.Within m.2 → p u) : ∀ u, u.Within (.obj ms) → p u
  | _, .self => h
  | u, .member hm hu => hms _ hm u hu

end Json

/-! ### Objects with distinct keys -/

namespace Members

variable {ms done : Members} {key : String} {value : Json} {m : String × Json}

theorem put_of_not_mem (h : key ∉ ms.keys) : put key value ms = ms ++ [(key, value)] := by
  induction ms with
  | nil => rfl
  | cons m ms ih =>
    obtain ⟨hkey, hrest⟩ := not_or.1 (List.mem_cons.not.1 h)
    rw [put, if_neg (Ne.symm hkey), ih hrest, List.cons_append]

/-- Writes the entries into `ms`, one after the other. -/
def putAll (entries : List (String × Json)) (ms : Members) : Members :=
  entries.foldl (fun done m => put m.1 m.2 done) ms

theorem putAll_of_nodup (h : (done ++ ms).keys.Nodup) : putAll ms done = done ++ ms := by
  induction ms generalizing done with
  | nil => exact (List.append_nil done).symm
  | cons m ms ih =>
    have hput : putAll (m :: ms) done = putAll ms (put m.1 m.2 done) := rfl
    have hkeys : keys (done ++ m :: ms) = done.keys ++ m.1 :: keys ms := List.map_append ..
    have hm : m.1 ∉ done.keys := by
      rw [hkeys, List.nodup_middle, List.nodup_cons] at h
      exact fun hmem => h.1 (List.mem_append_left _ hmem)
    rw [hput, put_of_not_mem hm, ih (by simpa using h), List.append_assoc]
    rfl

theorem ofList_of_nodup (h : ms.keys.Nodup) : ofList ms = ms :=
  putAll_of_nodup (show (keys ([] ++ ms)).Nodup from h)

theorem nodup_keys_put (h : ms.keys.Nodup) (key : String) (value : Json) :
    (put key value ms).keys.Nodup := by
  by_cases hkey : key ∈ ms.keys
  · rw [keys_put_of_mem hkey]
    exact h
  · rw [keys_put_of_not_mem hkey]
    exact List.nodup_append_comm.1 (List.nodup_cons.2 ⟨hkey, h⟩)

theorem nodup_keys_putAll (h : ms.keys.Nodup) (entries : List (String × Json)) :
    (putAll entries ms).keys.Nodup :=
  List.foldlRecOn (motive := fun done : Members => done.keys.Nodup) entries _ h
    fun _ hdone m _ => nodup_keys_put hdone m.1 m.2

theorem nodup_keys_ofList (ms : List (String × Json)) : (ofList ms).keys.Nodup :=
  nodup_keys_putAll (show (keys []).Nodup from List.nodup_nil) ms

theorem mem_put (h : m ∈ put key value ms) : m = (key, value) ∨ m ∈ ms := by
  induction ms with
  | nil => exact .inl (List.mem_singleton.1 h)
  | cons m' ms ih =>
    rw [put] at h
    split at h
    · rcases List.mem_cons.1 h with h | h
      · exact .inl h
      · exact .inr (List.mem_cons_of_mem m' h)
    · rcases List.mem_cons.1 h with h | h
      · exact .inr (h ▸ List.mem_cons_self)
      · exact (ih h).imp_right (List.mem_cons_of_mem m')

theorem mem_ofList (h : m ∈ ofList ms) : m ∈ ms := by
  revert h
  refine List.foldlRecOn (motive := fun done : Members => m ∈ done → m ∈ ms) ms _ nofun
    fun done hdone m' hm' h => ?_
  rcases mem_put h with rfl | h
  · exact hm'
  · exact hdone h

end Members

namespace Json

variable {v : Json} {vs : List Json} {ms : Members} {key : String}

/-! ### Blanks -/

namespace Reader

variable {level fuel : Nat} {c : Char} {cs ds rest spaces : List Char}

theorem skip_append (h : ∀ c ∈ spaces, isSpace c = true) (cs : List Char) :
    skip (spaces ++ cs) = skip cs :=
  List.dropWhile_append_of_pos h

theorem skip_cons (h : isSpace c = false) (cs : List Char) : skip (c :: cs) = c :: cs :=
  List.dropWhile_cons_of_neg (by rw [h]; exact Bool.false_ne_true)

theorem skip_blank (cs : List Char) : skip (' ' :: cs) = skip cs := rfl

theorem isSpace_of_mem_gap (h : c ∈ Writer.gap level) : isSpace c = true := by
  rcases List.mem_cons.1 h with rfl | h
  · rfl
  · rw [List.eq_of_mem_replicate h]
    rfl

theorem stops_of_isSpace (hc : isSpace c = true) (cs : List Char) : Stops (c :: cs) := by
  simp only [isSpace, Bool.or_eq_true, decide_eq_true_eq] at hc
  refine stops_cons ?_
  rcases hc with ((rfl | rfl) | rfl) | rfl <;> decide

theorem stops_append (h : ∀ c ∈ spaces, isSpace c = true) (hcs : Stops cs) : Stops (spaces ++ cs) := by
  cases spaces with
  | nil => exact hcs
  | cons c spaces => exact stops_of_isSpace (h c List.mem_cons_self) (spaces ++ cs)

/-! ### Values -/

theorem string_append (s : String) (rest : List Char) :
    Writer.string s ++ rest = '"' :: (s.toList.flatMap Writer.escaped ++ '"' :: rest) := by
  simp [Writer.string]

theorem value?_string (s : String) (rest : List Char) :
    value? (fuel + 1) (Writer.string s ++ rest) = some (.str s, rest) := by
  rw [string_append, value?, string?_string]
  rfl

theorem value?_of_ne (hquote : c ≠ '"') (hbracket : c ≠ '[') (hbrace : c ≠ '{') (cs : List Char) :
    value? (fuel + 1) (c :: cs) = (word? (c :: cs)).or (number? (c :: cs)) := by
  rw [value?]
  · intro _ h
    exact hquote (List.cons.inj h).1
  · intro _ h
    exact hbracket (List.cons.inj h).1
  · intro _ h
    exact hbrace (List.cons.inj h).1

theorem value?_word {w : String × Json} (hw : w ∈ words) (rest : List Char) :
    value? (fuel + 1) (w.1.toList ++ rest) = some (w.2, rest) := by
  have hword := word?_of_mem hw rest
  have hhead : ∃ c cs, w.1.toList = c :: cs ∧ c ≠ '"' ∧ c ≠ '[' ∧ c ≠ '{' := by
    simp only [words, List.mem_cons, List.not_mem_nil, or_false] at hw
    rcases hw with rfl | rfl | rfl | rfl | rfl | rfl <;> exact ⟨_, _, rfl, by decide⟩
  obtain ⟨c, cs, hcs, hquote, hbracket, hbrace⟩ := hhead
  rw [hcs, List.cons_append] at hword ⊢
  rw [value?_of_ne hquote hbracket hbrace, hword, Option.some_or]

theorem value?_toString {n : Int} (hn : digitCount n.natAbs ≤ Text.maxDigits) (hrest : Stops rest) :
    value? (fuel + 1) ((toString n).toList ++ rest) = some (.int n, rest) := by
  have hword := word?_toString n rest
  have hnumber := number?_toString hn hrest
  have hhead : ∃ c cs, (toString n).toList = c :: cs ∧ c ≠ '"' ∧ c ≠ '[' ∧ c ≠ '{' := by
    obtain ⟨c, cs, hcs, hc⟩ := exists_toDigits_eq_cons n.natAbs
    rw [toList_toString, hcs]
    split
    · exact ⟨'-', c :: cs, rfl, by decide⟩
    · refine ⟨c, cs, rfl, ?_, ?_, ?_⟩ <;> (rintro rfl; cases hc)
  obtain ⟨c, cs, hcs, hquote, hbracket, hbrace⟩ := hhead
  rw [hcs, List.cons_append] at hword hnumber ⊢
  rw [value?_of_ne hquote hbracket hbrace, hword, Option.none_or, hnumber]

theorem value?_arr (hvs : elements? fuel (skip cs) = some (vs, rest))
    (hcs : ∀ ds, skip cs ≠ ']' :: ds) : value? (fuel + 1) ('[' :: cs) = some (.arr vs, rest) := by
  rw [value?]
  split
  · next heq => exact absurd heq (hcs _)
  · rw [hvs]
    rfl

theorem value?_obj (hms : members? fuel (skip cs) = some (ms, rest))
    (hcs : ∀ ds, skip cs ≠ '}' :: ds) :
    value? (fuel + 1) ('{' :: cs) = some (.obj (Members.ofList ms), rest) := by
  rw [value?]
  split
  · next heq => exact absurd heq (hcs _)
  · rw [hms]
    rfl

/-- The first character of a value. -/
theorem exists_value_eq_cons (hv : ¬ v.IsFinite) (level : Nat) :
    ∃ c cs, Writer.value level v = c :: cs ∧ isSpace c = false ∧ c ≠ ']' := by
  cases v with
  | null => exact ⟨_, _, rfl, by decide⟩
  | bool b => cases b <;> exact ⟨_, _, rfl, by decide⟩
  | int n =>
    obtain ⟨c, cs, hcs, hc⟩ := exists_toDigits_eq_cons n.natAbs
    rw [Writer.value, toList_toString, hcs]
    split
    · exact ⟨'-', c :: cs, rfl, by decide⟩
    · refine ⟨c, cs, rfl, ?_, by rintro rfl; cases hc⟩
      by_contra hspace
      have hstops := stops_of_isSpace (Bool.not_eq_false _ ▸ hspace) []
      rw [(hstops c rfl).2.2.2] at hc
      cases hc
  | float x =>
    cases x with
    | nan => exact ⟨_, _, rfl, by decide⟩
    | infinite negative => cases negative <;> exact ⟨_, _, rfl, by decide⟩
    | finite negative m q => exact absurd trivial hv
  | str s => exact ⟨'"', _, rfl, by decide⟩
  | arr vs => cases vs <;> exact ⟨'[', _, rfl, by decide⟩
  | obj ms => cases ms <;> exact ⟨'{', _, rfl, by decide⟩

theorem skip_value (hv : ¬ v.IsFinite) (level : Nat) (rest : List Char) :
    skip (Writer.value level v ++ rest) = Writer.value level v ++ rest := by
  obtain ⟨c, cs, hcs, hspace, -⟩ := exists_value_eq_cons hv level
  rw [hcs, List.cons_append, skip_cons hspace]

/-- The text of `v` is read back with as much fuel as it has characters. -/
def ReadsBack (v : Json) : Prop :=
  ∀ level fuel rest, (Writer.value level v).length ≤ fuel → Stops rest →
    value? fuel (Writer.value level v ++ rest) = some (v, rest)

/-- No text is empty, so there is always some fuel. -/
theorem readsBack_of_succ (hv : ¬ v.IsFinite)
    (h : ∀ level fuel rest, (Writer.value level v).length ≤ fuel + 1 → Stops rest →
      value? (fuel + 1) (Writer.value level v ++ rest) = some (v, rest)) : ReadsBack v := by
  intro level fuel rest hfuel hrest
  cases fuel with
  | zero =>
    obtain ⟨c, cs, hcs, -⟩ := exists_value_eq_cons hv level
    rw [hcs] at hfuel
    cases hfuel
  | succ fuel => exact h level fuel rest hfuel hrest

theorem elements?_last (hv : value? fuel cs = some (v, ds)) (hds : skip ds = ']' :: rest) :
    elements? (fuel + 1) cs = some ([v], rest) := by
  rw [elements?, hv]
  simp only [Option.bind_eq_bind, Option.bind_some, hds]
  rfl

theorem elements?_more {es : List Char} (hv : value? fuel cs = some (v, ds))
    (hds : skip ds = ',' :: es) (hvs : elements? fuel (skip es) = some (vs, rest)) :
    elements? (fuel + 1) cs = some (v :: vs, rest) := by
  rw [elements?, hv]
  simp only [Option.bind_eq_bind, Option.bind_some, hds, hvs]
  rfl

theorem elements?_elements (hfinite : ∀ w ∈ v :: vs, ¬ w.IsFinite)
    (hreads : ∀ w ∈ v :: vs, ReadsBack w) (hspaces : ∀ c ∈ spaces, isSpace c = true)
    (hfuel : (Writer.value level v).length + (Writer.elements level vs).length < fuel) :
    elements? fuel (Writer.value level v ++ (Writer.elements level vs ++ (spaces ++ ']' :: rest)))
      = some (v :: vs, rest) := by
  induction vs generalizing v fuel with
  | nil =>
    cases fuel with
    | zero => cases hfuel
    | succ fuel =>
      have hstops : Stops (spaces ++ ']' :: rest) := stops_append hspaces (stops_cons (by decide))
      refine elements?_last (hreads v List.mem_cons_self level fuel _ (by omega) hstops) ?_
      rw [Writer.elements, List.nil_append, skip_append hspaces, skip_cons (by decide)]
  | cons w vs ih =>
    cases fuel with
    | zero => cases hfuel
    | succ fuel =>
      have hw := skip_value (hfinite w (by simp)) level
      have htext : Writer.elements level (w :: vs) ++ (spaces ++ ']' :: rest)
          = ',' :: (Writer.gap level ++ (Writer.value level w
            ++ (Writer.elements level vs ++ (spaces ++ ']' :: rest)))) := by
        simp [Writer.elements]
      have hlength : (Writer.elements level (w :: vs)).length
          = 1 + (Writer.gap level).length + (Writer.value level w).length
            + (Writer.elements level vs).length := by
        simp [Writer.elements]
        omega
      rw [htext]
      refine elements?_more (hreads v List.mem_cons_self level fuel _ (by omega)
        (stops_cons (by decide))) (skip_cons (by decide) _) ?_
      rw [skip_append fun _ hc => isSpace_of_mem_gap hc, hw]
      exact ih (List.forall_mem_cons.1 hfinite).2 (List.forall_mem_cons.1 hreads).2 (by omega)

/-! ### Objects -/

theorem members?_last (hcs : skip cs = cs) (hv : value? fuel cs = some (v, ds))
    (hds : skip ds = '}' :: rest) :
    members? (fuel + 1) (Writer.string key ++ ':' :: ' ' :: cs) = some ([(key, v)], rest) := by
  rw [string_append, members?, string?_string]
  simp only [Option.bind_eq_bind, Option.bind_some, skip_cons (show isSpace ':' = false from rfl),
    skip_blank, hcs, hv, hds]
  rfl

theorem members?_more {es : List Char} (hcs : skip cs = cs) (hv : value? fuel cs = some (v, ds))
    (hds : skip ds = ',' :: es) (hms : members? fuel (skip es) = some (ms, rest)) :
    members? (fuel + 1) (Writer.string key ++ ':' :: ' ' :: cs) = some ((key, v) :: ms, rest) := by
  rw [string_append, members?, string?_string]
  simp only [Option.bind_eq_bind, Option.bind_some, skip_cons (show isSpace ':' = false from rfl),
    skip_blank, hcs, hv, hds, hms]
  rfl

theorem members?_members (hfinite : ∀ m ∈ (key, v) :: ms, ¬ m.2.IsFinite)
    (hreads : ∀ m ∈ (key, v) :: ms, ReadsBack m.2) (hspaces : ∀ c ∈ spaces, isSpace c = true)
    (hfuel : (Writer.value level v).length + (Writer.members level ms).length < fuel) :
    members? fuel (Writer.string key ++ ':' :: ' ' :: (Writer.value level v
      ++ (Writer.members level ms ++ (spaces ++ '}' :: rest)))) = some ((key, v) :: ms, rest) := by
  induction ms generalizing key v fuel with
  | nil =>
    cases fuel with
    | zero => cases hfuel
    | succ fuel =>
      have hv : ReadsBack v := hreads (key, v) List.mem_cons_self
      have hskip := skip_value (v := v) (hfinite (key, v) List.mem_cons_self) level
      have hstops : Stops (spaces ++ '}' :: rest) := stops_append hspaces (stops_cons (by decide))
      refine members?_last (hskip _) (hv level fuel _ (by omega) hstops) ?_
      rw [Writer.members, List.nil_append, skip_append hspaces, skip_cons (by decide)]
  | cons m ms ih =>
    obtain ⟨key', w⟩ := m
    cases fuel with
    | zero => cases hfuel
    | succ fuel =>
      have hv : ReadsBack v := hreads (key, v) List.mem_cons_self
      have hskip := skip_value (v := v) (hfinite (key, v) List.mem_cons_self) level
      have htext : Writer.members level ((key', w) :: ms) ++ (spaces ++ '}' :: rest)
          = ',' :: (Writer.gap level ++ (Writer.string key' ++ ':' :: ' ' :: (Writer.value level w
            ++ (Writer.members level ms ++ (spaces ++ '}' :: rest))))) := by
        simp [Writer.members]
      have hlength : (Writer.members level ((key', w) :: ms)).length
          = 1 + (Writer.gap level).length + (Writer.string key').length + 2 + (Writer.value level w).length
            + (Writer.members level ms).length := by
        simp [Writer.members]
        omega
      rw [htext]
      refine members?_more (hskip _) (hv level fuel _ (by omega) (stops_cons (by decide)))
        (skip_cons (by decide) _) ?_
      rw [skip_append fun _ hc => isSpace_of_mem_gap hc, string_append, skip_cons (by decide), ← string_append]
      exact ih (List.forall_mem_cons.1 hfinite).2 (List.forall_mem_cons.1 hreads).2 (by omega)

/-! ### Texts -/

theorem readsBack_word {w : String × Json} (hw : w ∈ words) (hfinite : ¬ w.2.IsFinite)
    (htext : ∀ level, Writer.value level w.2 = w.1.toList) : ReadsBack w.2 := by
  refine readsBack_of_succ hfinite fun level fuel rest _ _ => ?_
  rw [htext]
  exact value?_word hw rest

theorem readsBack_arr (hfinite : ∀ v ∈ vs, ¬ v.IsFinite) (h : ∀ v ∈ vs, ReadsBack v) :
    ReadsBack (.arr vs) := by
  refine readsBack_of_succ id fun level fuel rest hfuel _ => ?_
  cases vs with
  | nil => rfl
  | cons v vs =>
    have htext : Writer.value level (.arr (v :: vs)) ++ rest
        = '[' :: (Writer.gap (level + 1) ++ (Writer.value (level + 1) v
          ++ (Writer.elements (level + 1) vs ++ (Writer.gap level ++ ']' :: rest)))) := by
      simp [Writer.value]
    have hlength : (Writer.value (level + 1) v).length
        + (Writer.elements (level + 1) vs).length < fuel := by
      simp [Writer.value] at hfuel
      omega
    have hskip : ∀ cs, skip (Writer.gap (level + 1) ++ (Writer.value (level + 1) v ++ cs))
        = Writer.value (level + 1) v ++ cs := by
      intro cs
      rw [skip_append fun _ hc => isSpace_of_mem_gap hc, skip_value (hfinite v List.mem_cons_self)]
    rw [htext]
    refine value?_arr ?_ fun ds hds => ?_
    · rw [hskip]
      exact elements?_elements hfinite h (fun _ hc => isSpace_of_mem_gap hc) hlength
    · obtain ⟨c, cs, hcs, -, hc⟩ :=
        exists_value_eq_cons (hfinite v List.mem_cons_self) (level + 1)
      rw [hskip, hcs] at hds
      exact hc (List.cons.inj hds).1

theorem readsBack_obj (hkeys : Members.keys ms |>.Nodup) (hfinite : ∀ m ∈ ms, ¬ m.2.IsFinite)
    (h : ∀ m ∈ ms, ReadsBack m.2) : ReadsBack (.obj ms) := by
  refine readsBack_of_succ id fun level fuel rest hfuel _ => ?_
  cases ms with
  | nil => rfl
  | cons m ms =>
    obtain ⟨key, v⟩ := m
    have htext : Writer.value level (.obj ((key, v) :: ms)) ++ rest
        = '{' :: (Writer.gap (level + 1) ++ (Writer.string key ++ ':' :: ' ' :: (Writer.value (level + 1) v
          ++ (Writer.members (level + 1) ms ++ (Writer.gap level ++ '}' :: rest))))) := by
      simp [Writer.value]
    have hlength : (Writer.value (level + 1) v).length
        + (Writer.members (level + 1) ms).length < fuel := by
      simp [Writer.value] at hfuel
      omega
    have hskip : ∀ cs, skip (Writer.gap (level + 1) ++ (Writer.string key ++ cs))
        = Writer.string key ++ cs := by
      intro cs
      rw [skip_append fun _ hc => isSpace_of_mem_gap hc, string_append, skip_cons (by decide),
        ← string_append]
    rw [htext, ← Members.ofList_of_nodup hkeys]
    refine value?_obj ?_ fun ds hds => ?_
    · rw [hskip]
      exact members?_members hfinite h (fun _ hc => isSpace_of_mem_gap hc) hlength
    · rw [hskip, string_append] at hds
      cases hds

/-- A value that holds no finite floating-point numbers is read back from its text. -/
theorem readsBack (v : Json) (hreadable : ∀ u : Json, u.Within v → u.Readable)
    (hfinite : ∀ u : Json, u.Within v → ¬ u.IsFinite) : ReadsBack v := by
  induction v using induct with
  | null => exact readsBack_word (w := ("null", .null)) (by simp [words]) id fun _ => rfl
  | bool b =>
    cases b with
    | true => exact readsBack_word (w := ("true", .bool true)) (by simp [words]) id fun _ => rfl
    | false => exact readsBack_word (w := ("false", .bool false)) (by simp [words]) id fun _ => rfl
  | int n => exact readsBack_of_succ id fun _ _ _ _ hrest => value?_toString (hreadable _ .self) hrest
  | float x =>
    cases x with
    | nan => exact readsBack_word (w := ("NaN", .float .nan)) (by simp [words]) id fun _ => rfl
    | infinite negative =>
      cases negative with
      | true =>
        exact readsBack_word (w := ("-Infinity", .float (.infinite true))) (by simp [words]) id fun _ => rfl
      | false =>
        exact readsBack_word (w := ("Infinity", .float (.infinite false))) (by simp [words]) id fun _ => rfl
    | finite negative m q => exact absurd trivial (hfinite _ .self)
  | str s => exact readsBack_of_succ id fun _ _ rest _ _ => value?_string s rest
  | arr vs ih =>
    refine readsBack_arr (fun v hv => hfinite v (.element hv .self)) fun v hv => ?_
    exact ih v hv (fun u hu => hreadable u (.element hv hu)) fun u hu => hfinite u (.element hv hu)
  | obj ms ih =>
    refine readsBack_obj (hreadable _ .self) (fun m hm => hfinite m.2 (.member hm .self)) fun m hm => ?_
    exact ih m hm (fun u hu => hreadable u (.member hm hu)) fun u hu => hfinite u (.member hm hu)

end Reader

theorem parse_write_append (hreadable : ∀ u : Json, u.Within v → u.Readable)
    (hfinite : ∀ u : Json, u.Within v → ¬ u.IsFinite) {tail : String}
    (htail : ∀ c ∈ tail.toList, Reader.isSpace c = true) : parse (v.write ++ tail) = some v := by
  have htext : (v.write ++ tail).toList = Writer.value 0 v ++ tail.toList := by
    rw [String.toList_append, write, String.toList_ofList]
  have hlength : (Writer.value 0 v).length ≤ 2 * (v.write ++ tail).length + 1 := by
    rw [← String.length_toList, htext, List.length_append]
    omega
  have hstops : Reader.Stops tail.toList := by
    have h := Reader.stops_append htail Reader.stops_nil
    rwa [List.append_nil] at h
  have hskip : Reader.skip tail.toList = [] := by
    have h := Reader.skip_append htail []
    rwa [List.append_nil] at h
  rw [parse, htext, Reader.skip_value (hfinite v .self),
    Reader.readsBack v hreadable hfinite 0 _ _ hlength hstops]
  dsimp only [Option.bind_eq_bind, Option.bind_some]
  rw [hskip]
  rfl

/-! ### What the reader returns -/

namespace Reader

variable {c : Char} {cs ds rest : List Char} {fuel : Nat}

theorem isDigit_of_whole? (h : whole? cs = some (ds, rest)) (hc : c ∈ ds) : c.isDigit = true := by
  unfold whole? at h
  split at h
  · cases h
  · cases h
    rw [List.mem_singleton.1 hc]
    rfl
  · next hd _ =>
    split at h
    · next hdigit =>
      cases h
      rcases List.mem_cons.1 hc with rfl | hc
      · exact hdigit
      · exact List.mem_takeWhile_imp hc
    · cases h

theorem digitCount_natural (hcs : ∀ c ∈ cs, c.isDigit = true) (hlen : cs.length ≤ Text.maxDigits) :
    digitCount (natural cs) ≤ Text.maxDigits := by
  have hnatural : natural cs = (cs.map fun c => c.toNat - 0x30).foldl (fun n d => n * 10 + d) 0 := by
    rw [List.foldl_map]
    rfl
  have hdigits : ∀ d ∈ cs.map fun c => c.toNat - 0x30, d < 10 := by
    intro d hd
    obtain ⟨c, hc, rfl⟩ := List.mem_map.1 hd
    have hle : c.toNat ≤ 57 := (Char.isDigit_iff_toNat.1 (hcs c hc)).2
    omega
  rw [hnatural]
  exact digitCount_foldl_le hdigits (by decide) (by rwa [List.length_map])

theorem readable_of_unsigned? {negative : Bool} (h : unsigned? negative cs = some (v, rest)) :
    ∀ u : Json, u.Within v → u.Readable := by
  unfold unsigned? at h
  obtain ⟨⟨whole, tail⟩, hwhole, h⟩ := Option.bind_eq_some_iff.1 h
  dsimp only at h
  split at h
  · obtain ⟨_, hguard, h⟩ := Option.bind_eq_some_iff.1 h
    cases h
    rintro _ ⟨⟩
    have hlen : whole.length ≤ Text.maxDigits := (Option.guard_eq_some' _).1 hguard
    have habs : (if negative then -(natural whole : Int) else natural whole).natAbs
        = natural whole := by
      split <;> simp
    show digitCount (Int.natAbs _) ≤ Text.maxDigits
    rw [habs]
    exact digitCount_natural (fun c hc => isDigit_of_whole? hwhole hc) hlen
  · cases h
    rintro _ ⟨⟩
    trivial

theorem readable_of_word? (h : word? cs = some (v, rest)) : ∀ u : Json, u.Within v → u.Readable := by
  obtain ⟨w, hw, h⟩ := List.exists_of_findSome?_eq_some h
  obtain ⟨_, -, h⟩ := Option.map_eq_some_iff.1 h
  cases h
  simp only [words, List.mem_cons, List.not_mem_nil, or_false] at hw
  rcases hw with rfl | rfl | rfl | rfl | rfl | rfl <;> rintro _ ⟨⟩ <;> trivial

/-- What the reader returns is readable, by induction on the fuel. -/
theorem readable_of_reader (fuel : Nat) :
    (∀ cs v rest, value? fuel cs = some (v, rest) → ∀ u : Json, u.Within v → u.Readable) ∧
      (∀ cs vs rest, elements? fuel cs = some (vs, rest) →
        ∀ v ∈ vs, ∀ u : Json, u.Within v → u.Readable) ∧
      ∀ cs ms rest, members? fuel cs = some (ms, rest) →
        ∀ m ∈ ms, ∀ u : Json, u.Within m.2 → u.Readable := by
  induction fuel with
  | zero => exact ⟨nofun, nofun, nofun⟩
  | succ fuel ih =>
    obtain ⟨hvalue, helements, hmembers⟩ := ih
    refine ⟨fun cs v rest h => ?_, fun cs vs rest h => ?_, fun cs ms rest h => ?_⟩
    · unfold value? at h
      split at h
      · obtain ⟨⟨s, _⟩, -, h⟩ := Option.map_eq_some_iff.1 h
        cases h
        rintro _ ⟨⟩
        trivial
      · split at h
        · cases h
          exact forall_within_arr trivial nofun
        · obtain ⟨⟨vs, _⟩, hvs, h⟩ := Option.map_eq_some_iff.1 h
          cases h
          exact forall_within_arr trivial (helements _ _ _ hvs)
      · split at h
        · cases h
          exact forall_within_obj List.nodup_nil nofun
        · obtain ⟨⟨ms, _⟩, hms, h⟩ := Option.map_eq_some_iff.1 h
          cases h
          exact forall_within_obj (Members.nodup_keys_ofList ms) fun m hm =>
            hmembers _ _ _ hms m (Members.mem_ofList hm)
      · rcases Option.or_eq_some_iff.1 h with hword | ⟨-, hnumber⟩
        · exact readable_of_word? hword
        · unfold number? at hnumber
          split at hnumber
          · exact readable_of_unsigned? hnumber
          · exact readable_of_unsigned? hnumber
    · unfold elements? at h
      obtain ⟨⟨v, _⟩, hv, h⟩ := Option.bind_eq_some_iff.1 h
      dsimp only at h
      split at h
      · cases h
        exact List.forall_mem_singleton.2 (hvalue _ _ _ hv)
      · obtain ⟨⟨vs, _⟩, hvs, h⟩ := Option.bind_eq_some_iff.1 h
        cases h
        exact List.forall_mem_cons.2 ⟨hvalue _ _ _ hv, helements _ _ _ hvs⟩
      · cases h
    · unfold members? at h
      split at h
      · obtain ⟨⟨key, _⟩, -, h⟩ := Option.bind_eq_some_iff.1 h
        dsimp only at h
        split at h
        · obtain ⟨⟨v, _⟩, hv, h⟩ := Option.bind_eq_some_iff.1 h
          dsimp only at h
          split at h
          · cases h
            exact List.forall_mem_singleton.2 (hvalue _ _ _ hv)
          · obtain ⟨⟨ms, _⟩, hms, h⟩ := Option.bind_eq_some_iff.1 h
            cases h
            exact List.forall_mem_cons.2 ⟨hvalue _ _ _ hv, hmembers _ _ _ hms⟩
          · cases h
        · cases h
      · cases h

end Reader

theorem readable_of_parse {text : String} (h : parse text = some v) :
    ∀ u : Json, u.Within v → u.Readable := by
  obtain ⟨⟨w, rest⟩, hw, h⟩ := Option.bind_eq_some_iff.1 h
  obtain ⟨_, -, h⟩ := Option.bind_eq_some_iff.1 h
  cases h
  exact (Reader.readable_of_reader _).1 _ _ _ hw

end Json

end Outliner
