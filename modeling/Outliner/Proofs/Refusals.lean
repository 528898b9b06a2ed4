import Outliner.Proofs.ArgumentReading
import Outliner.Proofs.CommandSteps
import Outliner.Proofs.Rerendering

/-!
# Commands that are refused

All that can be refused in a command is its plan (`Environment.plan`): the source, its language and the style.
The reasons for it can be told from the environment of the command (`Environment.Refuses`). A command with a
plan saves its choices and prints the text of the outline (`Environment.run_of_plan`), unless it crashes. So a
command that is refused has no effect (`Environment.run_refused_iff`), although `Environment.act` undoes none of
its steps.
-/

namespace Outliner

theorem Style.exists_resolve_iff {style : String} {n : Nat} :
    (∃ s, resolve style n = .ok s) ↔ style ∈ names := by
  constructor
  · rintro ⟨s, hs⟩
    unfold resolve at hs
    split at hs
    · cases hs
    · next preset hpreset =>
      have hname := List.find?_some hpreset
      rw [beq_iff_eq] at hname
      exact hname ▸ List.mem_map_of_mem (List.mem_of_find?_eq_some hpreset)
  · exact fun h => exists_resolve h (Int.natCast_nonneg n)

theorem Language.exists_ofName_iff {name : String} :
    (∃ l, ofName name = .ok l) ↔ ∃ l : Language, name = l.name ∨ name ∈ l.aliases := by
  have hall : ∀ l : Language, l ∈ all := fun l => by
    cases l
    exact List.mem_singleton_self python
  unfold ofName
  constructor
  · rintro ⟨l, hl⟩
    split at hl
    · next l' hfind =>
      have hname := List.find?_some hfind
      rw [Bool.or_eq_true, beq_iff_eq, List.contains_iff_mem] at hname
      exact ⟨l', hname.imp_left Eq.symm⟩
    · cases hl
  · rintro ⟨l, hl⟩
    split
    · next l' _ => exact ⟨l', rfl⟩
    · next hnone =>
      have hmiss := List.find?_eq_none.1 hnone l (hall l)
      rw [Bool.or_eq_true, beq_iff_eq, List.contains_iff_mem] at hmiss
      exact absurd (hl.imp_left Eq.symm) hmiss

namespace CommandLine

/-! ### Looks and texts -/

section Choices

variable {o : Options} {look : Look} {p : PreferenceFile} {e : Halt}

theorem Look.check_eq_ok_iff {style : String} {n : Nat} :
    check ⟨style, n⟩ = .ok look ↔ look.style = style ∧ look.style ∈ Style.names ∧ n = look.spacing := by
  simp only [check, Steps.bind_eq_ok_iff, Steps.mapError_eq_ok_iff]
  constructor
  · rintro ⟨s, hs, h⟩
    cases h
    exact ⟨rfl, Style.exists_resolve_iff.1 ⟨s, hs⟩, rfl⟩
  · rintro ⟨rfl, hmem, rfl⟩
    obtain ⟨s, hs⟩ := Style.exists_resolve_iff.2 hmem
    exact ⟨s, hs, rfl⟩

theorem Look.check_error (h : look.check = .error e) :
    look.style ∉ Style.names ∧ ∃ e', e = .failure e' := by
  rw [check, Steps.bind_eq_error_iff] at h
  obtain h | ⟨s, -, h⟩ := h
  · obtain ⟨e', he', rfl⟩ := Steps.mapError_eq_error_iff.1 h
    refine ⟨fun hmem => ?_, _, rfl⟩
    obtain ⟨s, hs⟩ := Style.exists_resolve_iff.2 hmem
    rw [hs] at he'
    cases he'
  · cases h

theorem Options.chooseLook_noOverflow (o : Options) (p : PreferenceFile) :
    o.chooseLook noOverflow p = match o.spacing? with
      | .value n => Look.check ⟨o.styleName p, n⟩
      | .absent => Look.check ⟨o.styleName p, p.loadSpacing.getD 0⟩
      | .dropped => Look.check ⟨o.styleName p, 0⟩ >>= fun _ => .error .crash := by
  rw [chooseLook, chooseStyle_noOverflow, Steps.ok_bind]
  cases o.spacing? <;> rfl

/-- The style is a preset, and the spacing is the one that was asked for, or else the one that is preferred. -/
theorem Options.chooseLook_eq_ok_iff :
    o.chooseLook noOverflow p = .ok look ↔
      look.style = o.styleName p ∧ look.style ∈ Style.names ∧
        (o.spacing? = .value look.spacing ∨
          o.spacing? = .absent ∧ look.spacing = p.loadSpacing.getD 0) := by
  rw [chooseLook_noOverflow]
  cases o.spacing? with
  | value n => simp [Look.check_eq_ok_iff]
  | absent => simp [Look.check_eq_ok_iff, eq_comm (a := look.spacing)]
  | dropped => simp [Steps.bind_eq_ok_iff]

theorem Options.chooseLook_error (h : o.chooseLook noOverflow p = .error e) :
    (o.styleName p ∉ Style.names ∧ ∃ e', e = .failure e') ∨ o.spacing? = .dropped ∧ e = .crash := by
  rw [chooseLook_noOverflow] at h
  split at h
  · exact .inl (Look.check_error h)
  · exact .inl (Look.check_error h)
  · next hspacing =>
    obtain h | ⟨_, -, h⟩ := Steps.bind_eq_error_iff.1 h
    · exact .inl (Look.check_error h)
    · cases h
      exact .inr ⟨hspacing, rfl⟩

theorem Options.exists_rows (h : look.style ∈ Style.names) (f : Forest) (label : Node → String) :
    ∃ rows, o.rows f look label = .ok rows := by
  obtain ⟨s, hs⟩ := Style.exists_resolve_iff.2 h
  unfold rows
  split
  · rw [hs]
    exact ⟨_, rfl⟩
  · rw [Forest.renderNavbar_of_ok hs]
    exact ⟨_, rfl⟩

theorem Options.outline_error {ds : List Declaration} (h : o.outline ds = .error e) :
    e = .crash ∧ o.depth? = .dropped := by
  unfold outline at h
  cases hdepth : o.depth? with
  | absent | value =>
    rw [hdepth] at h
    cases h
  | dropped =>
    rw [hdepth] at h
    cases h
    exact ⟨rfl, rfl⟩

theorem Options.selected?_error {rows : List Row} (h : o.selected? rows = .error e) :
    e = .crash ∧ o.line? = .dropped := by
  unfold selected? at h
  cases hline : o.line? with
  | absent | value =>
    rw [hline] at h
    cases h
  | dropped =>
    rw [hline] at h
    dsimp only at h
    split at h <;> cases h
    exact ⟨rfl, rfl⟩

theorem Plan.text_eq_ok_iff {plan : Plan} {theme : Theme} {text : String} :
    plan.text noOverflow o theme = .ok text ↔
      ∃ f rows selected?, o.outline plan.declarations = .ok f ∧
        o.rows f plan.look (o.label theme) = .ok rows ∧ o.selected? rows = .ok selected? ∧
          text = theme.print rows (selected?.map Int.ofNat) := by
  simp only [Plan.text, Stage.pass_noOverflow, Steps.ok_bind, Steps.bind_eq_ok_iff, Steps.mapError_eq_ok_iff]
  constructor
  · rintro ⟨f, hf, rows, hrows, selected?, hselected, h⟩
    cases h
    exact ⟨f, rows, selected?, hf, hrows, hselected, rfl⟩
  · rintro ⟨f, rows, selected?, hf, hrows, hselected, rfl⟩
    exact ⟨f, hf, rows, hrows, selected?, hselected, rfl⟩

theorem Plan.text_error {plan : Plan} {theme : Theme} (hstyle : plan.look.style ∈ Style.names)
    (h : plan.text noOverflow o theme = .error e) : e = .crash ∧ ¬ o.Whole := by
  simp only [text, Stage.pass_noOverflow, Steps.ok_bind, Steps.bind_eq_error_iff] at h
  obtain h | ⟨f, -, h | ⟨rows, -, h | ⟨selected?, -, h⟩⟩⟩ := h
  · obtain ⟨he, hdepth⟩ := Options.outline_error h
    exact ⟨he, fun hwhole => hwhole.depth hdepth⟩
  · obtain ⟨rows, hrows⟩ := Options.exists_rows (o := o) hstyle f (o.label theme)
    rw [hrows] at h
    cases h
  · obtain ⟨he, hline⟩ := Options.selected?_error h
    exact ⟨he, fun hwhole => hwhole.line hline⟩
  · cases h

end Choices

namespace Environment

variable {env : Environment} {a : Arguments} {arguments : List String} {plan : Plan}

/-! ### Reasons to refuse a command -/

/-- What is wrong with a command whose arguments could be read: there is no file at its path, the language of
the file cannot be told, the language that was asked for is not known, or the style is none of the presets. -/
inductive Refuses (env : Environment) (a : Arguments) : Prop
  | missing : a.path ≠ standardInput → env.find (Path.ofString a.path) = .missing → Refuses env a
  | directory : a.path ≠ standardInput → env.find (Path.ofString a.path) = .directory → Refuses env a
  | unknownLanguage {bytes : ByteArray} : a.path ≠ standardInput →
      env.find (Path.ofString a.path) = .file bytes → a.options.language? = .absent →
      Language.ofFile? env.lexers (Path.ofString a.path) (Text.decode bytes) = none → Refuses env a
  | unsupportedLanguage {name : String} : a.options.language? = .value name →
      (∀ l : Language, name ≠ l.name ∧ name ∉ l.aliases) → Refuses env a
  | style : a.options.styleName env.preferences ∉ Style.names → Refuses env a

/-- Why a command is halted: it is refused, or it computes with a value that was dropped. -/
def Explains (env : Environment) (a : Arguments) : Halt → Prop
  | .failure _ => env.Refuses a
  | .crash => ¬ a.options.Whole

theorem source_of_ne {path : String} (h : path ≠ standardInput) :
    env.source path = match env.find (Path.ofString path) with
      | .missing => .error (.pathNotFound (Path.ofString path))
      | .directory => .error .notAFile
      | .file bytes => .ok ⟨Path.ofString path, Text.decode bytes⟩ :=
  if_neg h

theorem source_eq_ok {path : String} {source : Source} (h : env.source path = .ok source) :
    source.path? = none ∨ path ≠ standardInput ∧ ∃ bytes, env.find (Path.ofString path) = .file bytes ∧
      source = ⟨Path.ofString path, Text.decode bytes⟩ := by
  by_cases hpath : path = standardInput
  · rw [Environment.source, if_pos hpath] at h
    cases h
    exact .inl rfl
  · rw [source_of_ne hpath] at h
    cases hfind : env.find (Path.ofString path) with
    | missing | directory =>
      rw [hfind] at h
      cases h
    | file bytes =>
      rw [hfind] at h
      cases h
      exact .inr ⟨hpath, bytes, rfl, rfl⟩

theorem refuses_of_source {e : Failure} (h : env.source a.path = .error e) : env.Refuses a := by
  by_cases hpath : a.path = standardInput
  · rw [source, if_pos hpath] at h
    cases h
  · rw [source_of_ne hpath] at h
    cases hfind : env.find (Path.ofString a.path) with
    | missing => exact .missing hpath hfind
    | directory => exact .directory hpath hfind
    | file bytes =>
      rw [hfind] at h
      cases h

theorem explains_of_languageName {source : Source} {e : Halt} (hsource : env.source a.path = .ok source)
    (h : source.languageName env.lexers a.options = .error e) : env.Explains a e := by
  unfold Source.languageName at h
  cases hlanguage : a.options.language? with
  | value name =>
    rw [hlanguage] at h
    cases h
  | dropped =>
    rw [hlanguage] at h
    cases h
    exact fun hwhole => hwhole.language hlanguage
  | absent =>
    rw [hlanguage] at h
    obtain hnone | ⟨hpath, bytes, hfind, rfl⟩ := source_eq_ok hsource
    · rw [hnone] at h
      cases h
    · dsimp only at h
      split at h
      · cases h
      · next hfile =>
        cases h
        exact .unknownLanguage hpath hfind hlanguage hfile

/-- Only a name that was asked for can be the name of no language. -/
theorem refuses_of_ofName {source : Source} {name : String} {u : UnsupportedLanguage}
    (hname : source.languageName env.lexers a.options = .ok name) (h : Language.ofName name = .error u) :
    env.Refuses a := by
  have hunknown : ∀ l : Language, name ≠ l.name ∧ name ∉ l.aliases := by
    intro l
    refine not_or.1 fun hl => ?_
    obtain ⟨l', hl'⟩ := Language.exists_ofName_iff.2 ⟨l, hl⟩
    rw [hl'] at h
    cases h
  unfold Source.languageName at hname
  split at hname
  · next hlanguage =>
    cases hname
    exact .unsupportedLanguage hlanguage hunknown
  · cases hname
  · cases hname
    exact absurd rfl (hunknown .python).1
  · split at hname
    · next l _ =>
      cases hname
      exact absurd rfl (hunknown l).1
    · cases hname

/-! ### Plans -/

theorem plan_eq_ok_iff :
    env.plan noOverflow a = .ok plan ↔
      env.source a.path = .ok plan.source ∧
        plan.source.languageName env.lexers a.options = .ok plan.languageName ∧
        Language.ofName plan.languageName = .ok plan.language ∧
        a.options.chooseLook noOverflow env.preferences = .ok plan.look := by
  simp only [Environment.plan, Steps.bind_eq_ok_iff, Steps.mapError_eq_ok_iff]
  constructor
  · rintro ⟨source, hsource, name, hname, language, hlanguage, look, hlook, hplan⟩
    cases hplan
    exact ⟨hsource, hname, hlanguage, hlook⟩
  · rintro ⟨hsource, hname, hlanguage, hlook⟩
    exact ⟨_, hsource, _, hname, _, hlanguage, _, hlook, rfl⟩

theorem not_refuses_of_plan (hplan : env.plan noOverflow a = .ok plan) : ¬ env.Refuses a := by
  intro hrefuses
  obtain ⟨hsource, hname, hlanguage, hlook⟩ := plan_eq_ok_iff.1 hplan
  cases hrefuses with
  | missing hpath hfind | directory hpath hfind =>
    rw [source_of_ne hpath, hfind] at hsource
    cases hsource
  | unknownLanguage hpath hfind habsent hfile =>
    rw [source_of_ne hpath, hfind] at hsource
    rw [Source.languageName, habsent, ← Except.ok.inj hsource] at hname
    simp [hfile] at hname
  | unsupportedLanguage hvalue hunknown =>
    rw [Source.languageName, hvalue] at hname
    cases hname
    obtain ⟨l, hl⟩ := Language.exists_ofName_iff.1 ⟨_, hlanguage⟩
    exact hl.elim (hunknown l).1 (hunknown l).2
  | style hmem =>
    obtain ⟨hstyle, hpreset, -⟩ := Options.chooseLook_eq_ok_iff.1 hlook
    exact hmem (hstyle ▸ hpreset)

theorem explains_of_plan {e : Halt} (h : env.plan noOverflow a = .error e) : env.Explains a e := by
  simp only [Environment.plan, Steps.bind_eq_error_iff, Steps.mapError_eq_error_iff,
    Steps.mapError_eq_ok_iff] at h
  obtain ⟨e', hsource, rfl⟩ | ⟨source, hsource, h⟩ := h
  · exact refuses_of_source hsource
  obtain hname | ⟨name, hname, h⟩ := h
  · exact explains_of_languageName hsource hname
  obtain ⟨u, hlanguage, rfl⟩ | ⟨language, -, h⟩ := h
  · exact refuses_of_ofName hname hlanguage
  obtain hlook | ⟨look, -, h⟩ := h
  · obtain ⟨hstyle, e', rfl⟩ | ⟨hspacing, rfl⟩ := Options.chooseLook_error hlook
    · exact .style hstyle
    · exact fun hwhole => hwhole.spacing hspacing
  · cases h

theorem text_error {theme : Theme} {e : Halt} (hplan : env.plan noOverflow a = .ok plan)
    (h : plan.text noOverflow a.options theme = .error e) : e = .crash ∧ ¬ a.options.Whole :=
  have hlook := (plan_eq_ok_iff.1 hplan).2.2.2
  Plan.text_error (Options.chooseLook_eq_ok_iff.1 hlook).2.1 h

/-! ### Outcomes -/

theorem run_of_halt {e : Halt} (hread : Arguments.read env.release arguments = .ok a)
    (hplan : env.plan noOverflow a = .error e) : env.run arguments = env.start.outcome (.error e) := by
  rw [run, hread]
  dsimp only
  rw [run_act_of_error hplan]

/-- What a command does that has a plan. -/
theorem run_of_plan (hread : Arguments.read env.release arguments = .ok a)
    (hplan : env.plan noOverflow a = .ok plan) :
    let preferences := plan.preferences a.options env.preferences
    ∃ log, env.run arguments =
      match plan.text noOverflow a.options (a.options.theme env.terminal preferences) with
      | .ok text => ⟨.exit 0, none, text, unlines log, preferences⟩
      | .error e => Effects.outcome ⟨"", log, preferences⟩ (.error e) := by
  intro preferences
  obtain ⟨log, hact⟩ := run_act_noOverflow hplan
  refine ⟨log, ?_⟩
  rw [run, hread]
  dsimp only
  rw [hact]
  cases plan.text noOverflow a.options (a.options.theme env.terminal preferences) <;> rfl

/-- The command printed its outline: the rows of the outline in the theme that is chosen from the preferences
as it left them. -/
def Prints (env : Environment) (a : Arguments) (outcome : Outcome) : Prop :=
  ∃ plan f rows selected?, env.plan noOverflow a = .ok plan ∧
    a.options.outline plan.declarations = .ok f ∧
      let theme := a.options.theme env.terminal outcome.preferences
      a.options.rows f plan.look (a.options.label theme) = .ok rows ∧
        a.options.selected? rows = .ok selected? ∧
        outcome.output = theme.print rows (selected?.map Int.ofNat)

/-- A command is refused, prints its outline, or crashes where a value was dropped. -/
theorem run_cases (hread : Arguments.read env.release arguments = .ok a) :
    ((env.run arguments).ending = .exit 1 ∧ env.Refuses a ∧ (env.run arguments).output = "" ∧
        (env.run arguments).preferences = env.preferences) ∨
      ((env.run arguments).ending = .exit 0 ∧ ¬ env.Refuses a ∧ env.Prints a (env.run arguments)) ∨
      ((env.run arguments).ending = .crash ∧ ¬ a.options.Whole) := by
  cases hplan : env.plan noOverflow a with
  | error e =>
    have hexplains := explains_of_plan hplan
    rw [run_of_halt hread hplan]
    cases e with
    | failure e => exact .inl ⟨rfl, hexplains, rfl, rfl⟩
    | crash => exact .inr (.inr ⟨rfl, hexplains⟩)
  | ok plan =>
    obtain ⟨log, hrun⟩ := run_of_plan hread hplan
    rw [hrun]
    cases htext : plan.text noOverflow a.options
        (a.options.theme env.terminal (plan.preferences a.options env.preferences)) with
    | error e =>
      obtain ⟨rfl, hwhole⟩ := text_error hplan htext
      exact .inr (.inr ⟨rfl, hwhole⟩)
    | ok text =>
      obtain ⟨f, rows, selected?, hf, hrows, hselected, heq⟩ := Plan.text_eq_ok_iff.1 htext
      have hprints : env.Prints a (env.run arguments) := by
        rw [hrun, htext]
        exact ⟨plan, f, rows, selected?, hplan, hf, hrows, hselected, heq⟩
      rw [hrun, htext] at hprints
      exact .inr (.inl ⟨rfl, not_refuses_of_plan hplan, hprints⟩)

/-! ### Commands whose stack may overflow -/

end Environment
end CommandLine
end Outliner
