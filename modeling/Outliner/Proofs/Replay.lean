import Outliner.Proofs.Choices
import Outliner.Proofs.Refusals
import Outliner.Proofs.SavedPreferences

/-!
# Commands that are run again

A command that is told to save stores its style, its spacing and its theme, and each of them is read back as
it was chosen (`Options.loadedFrom_saved`). A later command that chooses none of them has the same look
(`Options.chooseLook_saved`) and the same theme (`Options.theme_saved`), and the rest of its plan does not
depend on the preferences. So it prints the same text (`Environment.run_after_save`).
-/

namespace Outliner

theorem Members.mem_of_get? {ms : Members} {key : String} {value : Json} (h : ms.get? key = some value) :
    (key, value) ∈ ms := by
  induction ms with
  | nil => cases h
  | cons m ms ih =>
    rw [get?] at h
    split at h
    · next hkey =>
      cases h
      rw [← hkey]
      exact List.mem_cons_self
    · exact List.mem_cons_of_mem m (ih h)

theorem PreferenceFile.loadSpacing_short {p : PreferenceFile} {n : Nat} (h : p.loadSpacing = some n) :
    digitCount n ≤ Text.maxDigits := by
  unfold loadSpacing at h
  split at h
  · next k hk =>
    split at h
    · cases h
    · next hk0 =>
      cases h
      have hreadable : digitCount k.natAbs ≤ Text.maxDigits :=
        p.readable_load _ (.member (Members.mem_of_get? hk) .self)
      rwa [show k.toNat = k.natAbs by omega]
  · cases h

/-- All of the saves have an effect and no two of them are of the same preference. -/
theorem Save.loadedFrom_foldl_run {p : PreferenceFile} {saves : List Save} (hp : p.Writable)
    (hstorable : PreferenceFile.Storable p.load) (hfits : ∀ s ∈ saves, s.Fits)
    (heffective : ∀ s ∈ saves, s.Effective) (hkeys : (saves.map key).Nodup) :
    ∀ s ∈ saves, s.LoadedFrom (saves.foldl (fun q s => s.run q) p) := by
  intro s hs
  refine loadedFrom_of_get? (heffective s hs) ?_
  rw [load_foldl_run hp hstorable hfits]
  obtain ⟨before, after, rfl⟩ := List.append_of_mem hs
  rw [entries_append_cons (heffective s hs)]
  refine Members.get?_putAll_last ?_
  rw [keys_entries]
  intro hmem
  obtain ⟨t, ht, hts⟩ := List.mem_map.1 hmem
  rw [List.map_append, List.map_cons] at hkeys
  exact (List.nodup_cons.1 hkeys.of_append_right).1 (hts ▸ List.mem_map_of_mem (List.mem_filter.1 ht).1)

theorem Style.trim_of_mem_names {name : String} (h : name ∈ names) :
    Text.trim name = name ∧ name ≠ "" := by
  have hall : ∀ name ∈ names, Text.trim name = name ∧ name ≠ "" := by decide
  exact hall name h

theorem Theme.resolve_trim (name : String) (noColor : Bool) :
    resolve (some (Text.trim name)) noColor = resolve (some name) noColor := by
  unfold resolve named
  dsimp only
  rw [Text.trim_trim]

namespace CommandLine

namespace Options

variable {o : Options} {look : Look} {p : PreferenceFile}

/-! ### Choices that are saved -/

/-- The choices are saved, and none of them is lost when it is read back. -/
structure Keeps (o : Options) (look : Look) : Prop where
  save : o.save = true
  style : look.style ∈ Style.names
  spacing : digitCount look.spacing ≤ Text.maxDigits
  theme : ∀ name ∈ given? o.theme?, Text.trim name ≠ ""

theorem mem_saves (ho : o.save = true) {s : Save} :
    s ∈ o.saves look ↔
      s = .style look.style ∨ s = .spacing look.spacing ∨ ∃ name ∈ given? o.theme?, s = .theme name := by
  simp [saves, ho, eq_comm]

theorem nodup_saves (o : Options) (look : Look) : ((o.saves look).map Save.key).Nodup := by
  unfold saves
  split
  · cases given? o.theme? with
    | none => exact show List.Nodup ["style", "spacing"] by decide
    | some name => exact show List.Nodup ["style", "spacing", "theme"] by decide
  · exact List.nodup_nil

theorem loadedFrom_saved (hp : p.Writable) (hfinite : ∀ u : Json, u.Within (.obj p.load) → ¬ u.IsFinite)
    (h : o.Keeps look) :
    ∀ s ∈ o.saves look, s.LoadedFrom ((o.saves look).foldl (fun q s => s.run q) p) := by
  refine Save.loadedFrom_foldl_run hp (PreferenceFile.storable_load hfinite) (fun s hs => ?_)
    (fun s hs => ?_) (nodup_saves o look)
  · obtain rfl | rfl | ⟨name, hname, rfl⟩ := (mem_saves h.save).1 hs
    · trivial
    · exact h.spacing
    · trivial
  · obtain rfl | rfl | ⟨name, hname, rfl⟩ := (mem_saves h.save).1 hs
    · obtain ⟨htrim, hne⟩ := Style.trim_of_mem_names h.style
      exact fun heq => hne (htrim ▸ heq)
    · exact Int.natCast_nonneg look.spacing
    · exact h.theme name hname

/-! ### Commands that choose nothing -/

theorem chooseLook_saved (hp : p.Writable) (hfinite : ∀ u : Json, u.Within (.obj p.load) → ¬ u.IsFinite)
    (h : o.Keeps look) :
    o.withoutChoices.chooseLook noOverflow ((o.saves look).foldl (fun q s => s.run q) p) = .ok look := by
  have hloaded := loadedFrom_saved hp hfinite h
  have hstyle : ((o.saves look).foldl (fun q s => s.run q) p).loadStyle = some (Text.trim look.style) :=
    hloaded (.style look.style) ((mem_saves h.save).2 (.inl rfl))
  have hspacing : ((o.saves look).foldl (fun q s => s.run q) p).loadSpacing.map Int.ofNat
      = some (look.spacing : Int) :=
    hloaded (.spacing look.spacing) ((mem_saves h.save).2 (.inr (.inl rfl)))
  obtain ⟨n, hn, heq⟩ := Option.map_eq_some_iff.1 hspacing
  refine chooseLook_eq_ok_iff.2 ⟨?_, h.style, .inr ⟨rfl, ?_⟩⟩
  · show look.style = Option.getD _ _
    rw [hstyle, (Style.trim_of_mem_names h.style).1]
    rfl
  · rw [hn]
    exact (Int.ofNat.inj heq).symm

theorem theme_saved (hp : p.Writable) (hfinite : ∀ u : Json, u.Within (.obj p.load) → ¬ u.IsFinite)
    (h : o.Keeps look) (terminal : Bool) :
    o.withoutChoices.theme terminal ((o.saves look).foldl (fun q s => s.run q) p)
      = o.theme terminal ((o.saves look).foldl (fun q s => s.run q) p) := by
  show Theme.resolve (PreferenceFile.loadTheme _) _ = Theme.resolve _ _
  cases hname : given? o.theme? with
  | none => rfl
  | some name =>
    have hsaved : ((o.saves look).foldl (fun q s => s.run q) p).loadTheme = some (Text.trim name) :=
      loadedFrom_saved hp hfinite h (.theme name) ((mem_saves h.save).2 (.inr (.inr ⟨name, hname, rfl⟩)))
    rw [hsaved]
    exact Theme.resolve_trim name _

theorem look_short (ho : o.Short) (h : o.chooseLook noOverflow p = .ok look) :
    digitCount look.spacing ≤ Text.maxDigits := by
  obtain ⟨-, -, hgiven | ⟨-, hspacing⟩⟩ := chooseLook_eq_ok_iff.1 h
  · refine ho _ ?_
    rw [hgiven]
    rfl
  · rw [hspacing]
    cases hload : p.loadSpacing with
    | some n => exact PreferenceFile.loadSpacing_short hload
    | none => exact show digitCount 0 ≤ Text.maxDigits by decide

end Options

/-! ### The same command again -/

namespace Environment

variable {env : Environment} {a : Arguments} {arguments again : List String} {plan : Plan}

/-- The environment that the command leaves. No file but the preferences is changed. -/
def after (env : Environment) (arguments : List String) : Environment :=
  { env with preferences := (env.run arguments).preferences }

theorem keeps_look (hread : Arguments.read env.release arguments = .ok a)
    (hplan : env.plan noOverflow a = .ok plan) (hsave : a.options.save = true)
    (htheme : ∀ name ∈ given? a.options.theme?, Text.trim name ≠ "") : a.options.Keeps plan.look :=
  have hlook := (plan_eq_ok_iff.1 hplan).2.2.2
  { save := hsave
    style := (Options.chooseLook_eq_ok_iff.1 hlook).2.1
    spacing := Options.look_short (Arguments.spacing_short hread) hlook
    theme := htheme }

/-- A command that exits without an error has a plan, and prints the text of it. -/
theorem exists_text (hread : Arguments.read env.release arguments = .ok a)
    (hexit : (env.run arguments).ending = .exit 0) :
    ∃ plan, env.plan noOverflow a = .ok plan ∧
      (env.run arguments).preferences = plan.preferences a.options env.preferences ∧
      plan.text noOverflow a.options (a.options.theme env.terminal (env.run arguments).preferences)
        = .ok (env.run arguments).output := by
  cases hplan : env.plan noOverflow a with
  | error e =>
    rw [run_of_halt hread hplan] at hexit
    cases e <;> cases hexit
  | ok plan =>
    refine ⟨plan, rfl, ?_⟩
    obtain ⟨log, hrun⟩ := run_of_plan hread hplan
    cases htext : plan.text noOverflow a.options
        (a.options.theme env.terminal (plan.preferences a.options env.preferences)) with
    | error e =>
      rw [hrun, htext] at hexit
      cases e <;> cases hexit
    | ok text =>
      rw [hrun, htext]
      exact ⟨rfl, htext⟩

/-- The command that chooses nothing has the same plan, and with it prints the same. -/
theorem run_again (hp : env.preferences.Writable)
    (hfinite : ∀ u : Json, u.Within (.obj env.preferences.load) → ¬ u.IsFinite)
    (hread : Arguments.read env.release arguments = .ok a) (hexit : (env.run arguments).ending = .exit 0)
    (hsave : a.options.save = true) (htheme : ∀ name ∈ given? a.options.theme?, Text.trim name ≠ "")
    (hagain : Arguments.read env.release again = .ok a.withoutChoices) :
    ((env.after arguments).run again).ending = .exit 0 ∧
      ((env.after arguments).run again).output = (env.run arguments).output := by
  obtain ⟨plan, hplan, hpreferences, htext⟩ := exists_text hread hexit
  have hkeeps := keeps_look hread hplan hsave htheme
  have hplan' : (env.after arguments).plan noOverflow a.withoutChoices = .ok plan := by
    obtain ⟨hsource, hname, hlanguage, -⟩ := plan_eq_ok_iff.1 hplan
    refine plan_eq_ok_iff.2 ⟨hsource, hname, hlanguage, ?_⟩
    show a.options.withoutChoices.chooseLook noOverflow (env.run arguments).preferences = _
    rw [hpreferences]
    exact Options.chooseLook_saved hp hfinite hkeeps
  -- this command saves nothing, so its theme is the one that was saved
  have htheme' : a.options.withoutChoices.theme env.terminal (env.run arguments).preferences
      = a.options.theme env.terminal (env.run arguments).preferences := by
    rw [hpreferences]
    exact Options.theme_saved hp hfinite hkeeps env.terminal
  have htext' : plan.text noOverflow a.withoutChoices.options
      (a.withoutChoices.options.theme (env.after arguments).terminal
        (plan.preferences a.withoutChoices.options (env.after arguments).preferences))
        = .ok (env.run arguments).output := by
    rw [← htext, ← htheme']
    rfl
  have hread' : Arguments.read (env.after arguments).release again = .ok a.withoutChoices := hagain
  obtain ⟨log, hrun⟩ := run_of_plan hread' hplan'
  rw [hrun, htext']
  exact ⟨rfl, rfl⟩

/-- The choices that a command saves are those that it made. A command that goes through and saves its
choices prints the same text when it is run again without them: its style, its spacing and its theme are read
from the preferences that the first run left. The preference file must be writable, and what is in it before
must hold no finite floating-point number. A theme that is given must not be made of blanks only. -/
theorem run_after_save (hp : env.preferences.Writable)
    (hfinite : ∀ u : Json, u.Within (.obj env.preferences.load) → ¬ u.IsFinite)
    (hexit : (env.run arguments).ending = .exit 0)
    (hsave : ∀ a, Arguments.read env.release arguments = .ok a → a.options.save = true)
    (htheme : ∀ a, Arguments.read env.release arguments = .ok a →
      ∀ name ∈ given? a.options.theme?, Text.trim name ≠ "") :
    Arguments.read env.release (withoutChoices arguments)
        = (Arguments.read env.release arguments).map Arguments.withoutChoices ∧
      ∀ again, Arguments.read env.release again
          = (Arguments.read env.release arguments).map Arguments.withoutChoices →
        ((env.after arguments).run again).ending = .exit 0 ∧
          ((env.after arguments).run again).output = (env.run arguments).output := by
  have husage : ∀ e, Arguments.read env.release arguments ≠ .error (.error e) := by
    intro e hread
    rw [run, hread] at hexit
    cases hexit
  refine ⟨Arguments.read_withoutChoices husage, fun again hagain => ?_⟩
  cases hread : Arguments.read env.release arguments with
  | error stop =>
    rw [hread] at hagain
    cases stop with
    | help =>
      have hhelp : Arguments.read (env.after arguments).release again = .error .help := hagain
      rw [run, run, hhelp, hread]
      exact ⟨rfl, rfl⟩
    | error e => exact absurd hread (husage e)
  | ok a =>
    rw [hread] at hagain
    exact run_again hp hfinite hread hexit (hsave a hread) (htheme a hread) hagain

/-- The theme is stored without the blanks around it. -/
theorem run_after_save_ocean :
    let lexers : Lexers := ⟨fun _ => none, fun _ => some ["text"]⟩
    let env : Environment :=
      ⟨fun _ => .missing, "class A:\n    def f(self): pass\n", true, .absent, lexers, .newer⟩
    let arguments := ["-", "--save", "--style", "box", "--markers", "--spac=2", "--theme", " Ocean "]
    withoutChoices arguments = ["-", "--markers"] ∧
      ((env.after arguments).run ["-", "--markers"]).ending = .exit 0 ∧
      ((env.after arguments).run ["-", "--markers"]).output = (env.run arguments).output := by
  intro lexers env arguments
  have hread : Arguments.read env.release arguments
      = .ok ⟨"-", { Options.unset with
          style? := .value "box", spacing? := .value 2, markers := true, theme? := .value " Ocean ",
          save := true }⟩ := by
    decide +kernel
  have hwithout : withoutChoices arguments = ["-", "--markers"] := by
    decide +kernel
  have hp : env.preferences.Writable := trivial
  have hfinite : ∀ u : Json, u.Within (.obj env.preferences.load) → ¬ u.IsFinite :=
    Json.forall_within_obj id nofun
  have hexit : (env.run arguments).ending = .exit 0 := by
    obtain ⟨-, hrefuses, -⟩ | ⟨hexit, -⟩ | ⟨-, hwhole⟩ := run_cases hread
    · cases hrefuses with
      | missing hpath | directory hpath | unknownLanguage hpath => exact absurd rfl hpath
      | unsupportedLanguage hname => cases hname
      | style hstyle => exact absurd (by decide) hstyle
    · exact hexit
    · exact absurd (Arguments.whole_of_read hread) hwhole
  have hsave : ∀ a, Arguments.read env.release arguments = .ok a → a.options.save = true := by
    intro a ha
    cases hread.symm.trans ha
    rfl
  have htheme : ∀ a, Arguments.read env.release arguments = .ok a →
      ∀ name ∈ given? a.options.theme?, Text.trim name ≠ "" := by
    intro a ha
    cases hread.symm.trans ha
    rintro _ ⟨⟩
    decide
  obtain ⟨hagain, hsame⟩ := run_after_save hp hfinite hexit hsave htheme
  exact ⟨hwithout, hsame _ (hwithout ▸ hagain)⟩

end Environment

end CommandLine

end Outliner
