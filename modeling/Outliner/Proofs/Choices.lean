import Outliner.Proofs.ArgumentReading

/-!
# Arguments without choices

`withoutChoices` takes the options that choose what is saved out of the arguments, and their values. What is
left is read as the same arguments with these options unset, and still asks for help if they did
(`Arguments.read_withoutChoices`).

The path is the one place where a reading looks at the next token for more than a value: dashes behind it
belong to it. An option that is left out may have kept them apart. But dashes that do not belong to a path are
left over, so such arguments are not read at all.
-/

namespace Outliner

namespace CommandLine

variable {release : Release}

/-! ### Leaving options out -/

/-- Whether the option chooses what is saved, or that it is saved. -/
def Flag.isChoice : Flag → Bool
  | style | spacing | theme | save => true
  | help | flat | hideRoot | depth | line | markers | language | noColor | verbose => false

def Options.withoutChoices (o : Options) : Options :=
  { o with style? := .absent, spacing? := .absent, theme? := .absent, save := false }

def Reading.withoutChoices (r : Reading) : Reading :=
  { r with options := r.options.withoutChoices }

def Arguments.withoutChoices (a : Arguments) : Arguments :=
  { a with options := a.options.withoutChoices }

/-- The tokens without those options, and without the first token if it is the value of one. -/
def Token.dropChoices : Bool → List Token → List Token
  | _, [] => []
  | _, .option flag spelling value? :: ts =>
    if flag.isChoice then dropChoices (flag.takesValue && value?.isNone) ts
    else .option flag spelling value? :: dropChoices false ts
  | true, .plain _ :: ts => dropChoices false ts
  | false, .plain argument :: ts => .plain argument :: dropChoices false ts
  | _, .unknown argument :: ts => .unknown argument :: dropChoices false ts
  | _, .terminator :: ts => .terminator :: dropChoices false ts

/-- The arguments without those options, and without the first argument if it is the value of one. -/
def dropChoices : Bool → List String → List String
  | _, [] => []
  | isValue, argument :: arguments =>
    if argument = "--" then argument :: arguments
    else
      match Token.ofArgument argument with
      | .ok (.option flag _ value?) =>
        if flag.isChoice then dropChoices (flag.takesValue && value?.isNone) arguments
        else argument :: dropChoices false arguments
      | .ok (.plain _) =>
        if isValue then dropChoices false arguments else argument :: dropChoices false arguments
      | .ok (.unknown _) | .ok .terminator | .error _ => argument :: dropChoices false arguments

/-- The arguments without the options that choose what is saved, and without their values. -/
def withoutChoices (arguments : List String) : List String :=
  dropChoices false arguments

namespace Options

variable {o o' : Options} {flag : Flag} {value? : Option String}

theorem set_choice (hflag : flag.isChoice = true) (h : o.set flag value? = .ok o') :
    o'.withoutChoices = o.withoutChoices := by
  cases flag with
  | style | theme | save =>
    cases h
    rfl
  | spacing =>
    obtain ⟨n?, -, h⟩ := Steps.bind_eq_ok_iff.1 h
    cases h
    rfl
  | help | flat | hideRoot | depth | line | markers | language | noColor | verbose => cases hflag

theorem set_withoutChoices (hflag : flag.isChoice = false) (o : Options) (value? : Option String) :
    o.withoutChoices.set flag value? = (o.set flag value?).map withoutChoices := by
  cases flag with
  | style | spacing | theme | save => cases hflag
  | depth =>
    rw [set, set]
    cases value?.mapM (number .depth 0) <;> rfl
  | line =>
    rw [set, set]
    cases value?.mapM (number .line 1) <;> rfl
  | help | flat | hideRoot | markers | language | noColor | verbose => rfl

theorem switch_withoutChoices (hflag : flag.isChoice = false) (o : Options) :
    o.withoutChoices.switch flag = (o.switch flag).map withoutChoices := by
  cases flag with
  | style | spacing | theme | save => cases hflag
  | help | flat | hideRoot | depth | line | markers | language | noColor | verbose => rfl

theorem switches_withoutChoices {flags : List Flag} (hflags : ∀ flag ∈ flags, flag.isChoice = false)
    (o : Options) : flags.foldlM switch o.withoutChoices = (flags.foldlM switch o).map withoutChoices := by
  induction flags generalizing o with
  | nil => rfl
  | cons flag flags ih =>
    obtain ⟨hflag, hrest⟩ := List.forall_mem_cons.1 hflags
    rw [List.foldlM_cons, List.foldlM_cons, switch_withoutChoices hflag]
    cases o.switch flag with
    | error e => rfl
    | ok o' => exact ih hrest o'

end Options

/-! ### Spellings -/

theorem Flag.mem_spelled {s : String} {flag : Flag} (h : ofSpelling? s = some flag) :
    (s, flag) ∈ spelled := by
  obtain ⟨before, after, heq, -⟩ := List.lookup_eq_some_iff.1 h
  rw [heq]
  exact List.mem_append_right before List.mem_cons_self

/-- What a single argument may stand for. -/
def Token.IsSpelled : Token → Prop
  | .option flag spelling _ => (spelling, flag) ∈ Flag.spelled
  | .unknown _ | .plain _ => True
  | .terminator => False

theorem Token.isSpelled_of_spelledOut? {argument : String} {t : Token} (h : spelledOut? argument = some t) :
    t.IsSpelled := by
  unfold spelledOut? at h
  split at h
  · next flag hflag =>
    cases h
    exact Flag.mem_spelled hflag
  · split at h
    · obtain ⟨flag, hflag, rfl⟩ := Option.map_eq_some_iff.1 h
      exact Flag.mem_spelled hflag
    · cases h

theorem Token.mem_spelled_of_mem_candidates {argument : String} {c : String × Flag × Option Attached}
    (h : c ∈ candidates argument) : (c.1, c.2.1) ∈ Flag.spelled := by
  unfold candidates at h
  split at h
  · obtain ⟨s, hs, rfl⟩ := List.mem_map.1 h
    exact (List.mem_filter.1 hs).1
  · obtain ⟨s, hs, rfl⟩ := List.mem_map.1 h
    exact (List.mem_filter.1 hs).1
  · cases h

theorem Token.isSpelled_ofArgument {argument : String} {t : Token} (h : ofArgument argument = .ok t) :
    t.IsSpelled := by
  unfold ofArgument at h
  split at h
  · cases h
    trivial
  · split at h
    · next t' ht =>
      cases h
      exact isSpelled_of_spelledOut? ht
    · split at h
      · split at h <;> cases h <;> trivial
      · next spelling flag value? hc =>
        cases h
        exact mem_spelled_of_mem_candidates (hc ▸ List.mem_singleton_self (spelling, flag, value?))
      · cases h

namespace Release

variable {flag : Flag} {flags : List Flag} {left : List String}

/-- The options that are written together are none of those that are left out. -/
theorem bundle_withoutChoices {cs : List Char} (hflag : flag.isChoice = false)
    (h : release.bundle flag cs = .ok (flags, left)) : ∀ f ∈ flags, f.isChoice = false := by
  have hshort : ∀ p ∈ Flag.spelled, p.1.toList.length = 2 → p.2.isChoice = false := by decide
  induction cs generalizing flag flags left with
  | nil =>
    cases h
    exact List.forall_mem_singleton.2 hflag
  | cons c cs ih =>
    rw [bundle] at h
    split at h
    · next next hnext =>
      obtain ⟨⟨rest, left⟩, hrest, h⟩ := Steps.bind_eq_ok_iff.1 h
      cases h
      have hlength : (String.ofList ['-', c]).toList.length = 2 := by rw [String.toList_ofList]; rfl
      exact List.forall_mem_cons.2 ⟨hflag, ih (hshort _ (Flag.mem_spelled hnext) hlength) hrest⟩
    · obtain ⟨left, -, h⟩ := Steps.bind_eq_ok_iff.1 h
      cases h
      exact List.forall_mem_singleton.2 hflag

theorem switches_withoutChoices {spelling : String} {value? : Option Attached}
    (hflag : flag.isChoice = false) (h : release.switches flag spelling value? = .ok (flags, left)) :
    ∀ f ∈ flags, f.isChoice = false := by
  unfold switches at h
  split at h
  · cases h
    exact List.forall_mem_singleton.2 hflag
  · split at h
    · exact bundle_withoutChoices hflag h
    · cases h

/-- Nothing continues an option that is spelled with two dashes. -/
theorem mayContinue_eq_false {spelling : String} {attached : Attached}
    (h : "--".toList.isPrefixOf spelling.toList = true) : release.mayContinue spelling attached = false := by
  cases attached <;> simp only [mayContinue, h, Bool.not_true, Bool.and_false]

theorem switches_choice {spelling : String} {value? : Option Attached}
    (hspelled : (spelling, flag) ∈ Flag.spelled) (hflag : flag.isChoice = true)
    (hvalue : ¬ flag.takesValue = true) (h : release.switches flag spelling value? = .ok (flags, left)) :
    flags = [.save] ∧ left = [] := by
  have hlong : ∀ p ∈ Flag.spelled, p.2.isChoice = true → "--".toList.isPrefixOf p.1.toList = true := by
    decide
  unfold switches at h
  split at h
  · cases h
    cases flag with
    | save => exact ⟨rfl, rfl⟩
    | style | spacing | theme => exact absurd rfl hvalue
    | help | flat | hideRoot | depth | line | markers | language | noColor | verbose => cases hflag
  · rw [mayContinue_eq_false (hlong _ hspelled hflag), if_neg Bool.false_ne_true] at h
    cases h

end Release

/-! ### Tokens of arguments -/

namespace Token

variable {t : Token} {ts : List Token}

def IsPlain : Token → Prop
  | .plain _ => True
  | .option .. | .unknown _ | .terminator => False

/-- Options have their own spellings, and behind dashes all tokens are plain. -/
def Formed : List Token → Prop
  | [] => True
  | .option flag spelling _ :: ts => (spelling, flag) ∈ Flag.spelled ∧ Formed ts
  | .unknown _ :: ts | .plain _ :: ts => Formed ts
  | .terminator :: ts => ∀ t ∈ ts, t.IsPlain

theorem formed_of_plain (h : ∀ t ∈ ts, t.IsPlain) : Formed ts := by
  induction ts with
  | nil => trivial
  | cons t ts ih =>
    obtain ⟨ht, hts⟩ := List.forall_mem_cons.1 h
    cases t with
    | plain argument => exact show Formed ts from ih hts
    | option | unknown | terminator => exact ht.elim

theorem Formed.cons (ht : t.IsSpelled) (hts : Formed ts) : Formed (t :: ts) := by
  cases t with
  | option flag spelling value? => exact ⟨ht, hts⟩
  | unknown | plain => exact hts
  | terminator => exact ht.elim

theorem formed_ofArguments {arguments : List String} (h : ofArguments arguments = .ok ts) :
    Formed ts := by
  induction arguments generalizing ts with
  | nil =>
    cases h
    trivial
  | cons argument arguments ih =>
    rw [ofArguments] at h
    split at h
    · cases h
      intro t ht
      obtain ⟨argument, -, rfl⟩ := List.mem_map.1 ht
      trivial
    · obtain ⟨t, ht, h⟩ := Steps.bind_eq_ok_iff.1 h
      obtain ⟨ts, hts, h⟩ := Steps.bind_eq_ok_iff.1 h
      cases h
      exact (ih hts).cons (isSpelled_ofArgument ht)

theorem dropChoices_of_plain (h : ∀ t ∈ ts, t.IsPlain) : dropChoices false ts = ts := by
  induction ts with
  | nil => rfl
  | cons t ts ih =>
    obtain ⟨ht, hts⟩ := List.forall_mem_cons.1 h
    cases t with
    | plain argument => rw [dropChoices, ih hts]
    | option | unknown | terminator => exact ht.elim

theorem Formed.dropChoices (h : Formed ts) (isValue : Bool) : Formed (dropChoices isValue ts) := by
  fun_induction Token.dropChoices isValue ts with
  | case1 => trivial
  | case2 isValue flag spelling value? ts hflag ih => exact ih h.2
  | case3 isValue flag spelling value? ts hflag ih => exact ⟨h.1, ih h.2⟩
  | case4 argument ts ih | case5 argument ts ih | case6 isValue argument ts ih =>
    exact show Formed (Token.dropChoices false ts) from ih h
  | case7 isValue ts ih =>
    rw [dropChoices_of_plain h]
    exact h

end Token

/-! ### Reading what is left -/

namespace Reading

variable {r : Reading} {flag : Flag} {spelling : String} {attached? : Option Attached}
  {value? : Option String} {ts : List Token}

/-- A reading that ends in help, or with nothing left over. -/
def EndsWell : Except Stop Reading → Prop
  | .ok s => s.leftOver = []
  | .error .help => True
  | .error (.error _) => False

theorem not_endsWell_of_ne_help {e : Stop} (h : e ≠ .help) : ¬ EndsWell (.error e) := by
  cases e with
  | help => exact absurd rfl h
  | error e => exact id

theorem readTokens_plain {argument path : String} (hpath : r.path? = some path) :
    readTokens release r (.plain argument :: ts)
      = readTokens release { r with leftOver := r.leftOver ++ [argument] } ts := by
  rw [readTokens.eq_def]
  simp only [hpath]

theorem exists_readTokens_of_plain (h : ∀ t ∈ ts, t.IsPlain) : ∃ s, readTokens release r ts = .ok s := by
  induction ts generalizing r with
  | nil => exact ⟨r, rfl⟩
  | cons t ts ih =>
    obtain ⟨ht, hts⟩ := List.forall_mem_cons.1 h
    cases t with
    | option | unknown | terminator => exact ht.elim
    | plain argument =>
      cases hpath : r.path? with
      | some path =>
        rw [readTokens_plain hpath]
        exact ih hts
      | none =>
        rw [readTokens]
        · exact ih hts
        · exact hpath
        · rintro us rfl
          exact (List.forall_mem_cons.1 hts).1

/-- Dashes behind the path are left over. -/
theorem not_endsWell_of_terminator {path : String} (hpath : r.path? = some path) (hts : ∀ t ∈ ts, t.IsPlain) :
    ¬ EndsWell (readTokens release r (.terminator :: ts)) := by
  obtain ⟨s, hs⟩ := exists_readTokens_of_plain (r := { r with leftOver := r.leftOver ++ ["--"] }) hts
  rw [readTokens, hs]
  · exact fun h => List.append_ne_nil_of_right_ne_nil _ (List.cons_ne_nil _ _) (leftOver_eq_nil hs h)
  · intro _ _ h
    rw [hpath] at h
    cases h

theorem endsWell_map_iff {x : Except Stop Reading} : EndsWell (x.map withoutChoices) ↔ EndsWell x := by
  rcases x with (_ | _) | _ <;> rfl

/-- An option with a value that is set, or left out, before what is left is read. -/
theorem set_readTokens {us : List Token} (h : EndsWell (r.options.set flag value? >>= fun o =>
      readTokens release { r with options := o } ts))
    (hrest : ∀ o, EndsWell (readTokens release { r with options := o } ts) →
      readTokens release (withoutChoices { r with options := o }) us
        = (readTokens release { r with options := o } ts).map withoutChoices) :
    (if flag.isChoice then readTokens release r.withoutChoices us
      else r.withoutChoices.options.set flag value? >>= fun o =>
        readTokens release { r.withoutChoices with options := o } us)
      = (r.options.set flag value? >>= fun o =>
          readTokens release { r with options := o } ts).map withoutChoices := by
  cases hset : r.options.set flag value? with
  | error e =>
    rw [hset] at h
    exact absurd h (not_endsWell_of_ne_help (Options.set_ne_help hset))
  | ok o =>
    rw [hset] at h
    have hok := hrest o h
    split
    · next hflag =>
      rw [Reading.withoutChoices, Options.set_choice hflag hset] at hok
      exact hok
    · next hflag =>
      show (r.options.withoutChoices.set flag value? >>= _) = _
      rw [Options.set_withoutChoices (Bool.eq_false_of_not_eq_true hflag), hset]
      exact hok

theorem readTokens_switches (hvalue : ¬ flag.takesValue = true) :
    readTokens release r (.option flag spelling attached? :: ts)
      = (release.switches flag spelling attached? >>= fun s =>
          s.1.foldlM Options.switch r.options >>= fun o =>
            readTokens release { r with options := o, leftOver := r.leftOver ++ s.2 } ts) := by
  rw [readTokens.eq_def]
  exact if_neg hvalue

theorem dropChoices_option {isValue : Bool} :
    Token.dropChoices isValue (.option flag spelling attached? :: ts)
      = if flag.isChoice then Token.dropChoices (flag.takesValue && attached?.isNone) ts
        else .option flag spelling attached? :: Token.dropChoices false ts := by
  rw [Token.dropChoices]

/-- By induction along the reading. -/
theorem readTokens_withoutChoices (hts : Token.Formed ts) (h : EndsWell (readTokens release r ts)) :
    readTokens release r.withoutChoices (Token.dropChoices false ts)
      = (readTokens release r ts).map withoutChoices := by
  fun_induction readTokens release r ts with
  | case1 => rfl
  | case2 r flag spelling hvalue value ts ih =>
    have hset := set_readTokens h fun o => ih o hts.2
    rw [dropChoices_option]
    cases hflag : flag.isChoice with
    | true =>
      rw [hflag, if_pos rfl] at hset
      rw [if_pos rfl, Option.isNone_some, Bool.and_false]
      exact hset
    | false =>
      rw [hflag, if_neg Bool.false_ne_true] at hset
      rw [if_neg Bool.false_ne_true, readTokens, if_pos hvalue]
      exact hset
  | case3 r flag spelling hvalue value ts ih =>
    have hset := set_readTokens h fun o => ih o hts.2
    rw [dropChoices_option]
    cases hflag : flag.isChoice with
    | true =>
      rw [hflag, if_pos rfl] at hset
      rw [if_pos rfl, hvalue]
      exact hset
    | false =>
      rw [hflag, if_neg Bool.false_ne_true] at hset
      rw [if_neg Bool.false_ne_true, Token.dropChoices, readTokens, if_pos hvalue]
      exact hset
  | case4 => exact h.elim
  | case5 r flag spelling attached? ts hvalue ih =>
    rw [dropChoices_option]
    cases hflags : release.switches flag spelling attached? with
    | error e =>
      rw [hflags] at h
      exact absurd h (not_endsWell_of_ne_help (Release.switches_ne_help hflags))
    | ok s =>
      obtain ⟨flags, left⟩ := s
      rw [hflags] at h
      simp only [Steps.ok_bind] at h ⊢
      cases hflag : flag.isChoice with
      | true =>
        obtain ⟨rfl, rfl⟩ := Release.switches_choice hts.1 hflag hvalue hflags
        rw [if_pos rfl, Bool.eq_false_of_not_eq_true hvalue, Bool.false_and]
        have hrest := ih _ _ hts.2 h
        rw [List.append_nil] at hrest ⊢
        exact hrest
      | false =>
        rw [if_neg Bool.false_ne_true, readTokens_switches hvalue, hflags, Steps.ok_bind]
        show (flags.foldlM Options.switch r.options.withoutChoices >>= _) = _
        rw [Options.switches_withoutChoices (Release.switches_withoutChoices hflag hflags)]
        cases hswitch : flags.foldlM Options.switch r.options with
        | error e => rfl
        | ok o =>
          rw [hswitch] at h
          exact ih left o hts.2 h
  | case6 r argument ts ih =>
    rw [Token.dropChoices, readTokens]
    exact ih hts h
  | case7 r argument ts hpath ih =>
    rw [Token.dropChoices, Token.dropChoices, readTokens]
    · exact ih (Token.formed_of_plain hts) h
    · exact hpath
  | case8 r argument ts hnot hpath ih =>
    have hrest := ih hts h
    rw [Token.dropChoices, readTokens]
    · exact hrest
    · exact hpath
    · intro us hus
      have hformed : Token.Formed (Token.dropChoices false ts) := Token.Formed.dropChoices hts false
      rw [hus] at hrest hformed
      rw [← endsWell_map_iff, ← hrest] at h
      exact not_endsWell_of_terminator rfl hformed h
  | case9 r argument path ts hpath ih =>
    rw [Token.dropChoices, readTokens_plain (r := r.withoutChoices) hpath]
    exact ih hts h
  | case10 r argument ts hpath ih =>
    have hplain := (List.forall_mem_cons.1 hts).2
    rw [Token.dropChoices, Token.dropChoices, readTokens]
    · exact ih (Token.formed_of_plain hplain) h
    · exact hpath
  | case11 r ts hnot ih =>
    have hrest := ih (Token.formed_of_plain hts) h
    rw [Token.dropChoices_of_plain hts] at hrest
    rw [Token.dropChoices, Token.dropChoices_of_plain hts, readTokens]
    · exact hrest
    · exact hnot

end Reading

theorem Token.ofArguments_dropChoices {arguments : List String} {ts : List Token} {isValue : Bool}
    (h : ofArguments arguments = .ok ts) :
    ofArguments (CommandLine.dropChoices isValue arguments) = .ok (dropChoices isValue ts) := by
  induction arguments generalizing ts isValue with
  | nil =>
    cases h
    rw [CommandLine.dropChoices, dropChoices, ofArguments]
  | cons argument arguments ih =>
    rw [CommandLine.dropChoices]
    by_cases hdashes : argument = "--"
    · have hplain : ∀ t ∈ arguments.map plain, t.IsPlain := by
        intro t ht
        obtain ⟨argument, -, rfl⟩ := List.mem_map.1 ht
        trivial
      rw [ofArguments, if_pos hdashes] at h
      cases h
      rw [if_pos hdashes, ofArguments, if_pos hdashes, dropChoices, dropChoices_of_plain hplain]
    · rw [ofArguments, if_neg hdashes] at h
      obtain ⟨t, ht, h⟩ := Steps.bind_eq_ok_iff.1 h
      obtain ⟨ts, hts, h⟩ := Steps.bind_eq_ok_iff.1 h
      cases h
      have hkeep : ofArguments (argument :: CommandLine.dropChoices false arguments)
          = .ok (t :: dropChoices false ts) := by
        rw [ofArguments, if_neg hdashes, ht, Steps.ok_bind, ih hts]
        rfl
      rw [if_neg hdashes, ht]
      cases t with
      | option flag spelling value? =>
        rw [dropChoices]
        dsimp only
        split
        · exact ih hts
        · exact hkeep
      | plain =>
        cases isValue with
        | true =>
          rw [dropChoices]
          exact ih hts
        | false =>
          rw [dropChoices]
          exact hkeep
      | unknown | terminator =>
        rw [dropChoices]
        exact hkeep

/-- Whatever is read, what is left is read as the same without the choices. -/
theorem Arguments.read_withoutChoices {arguments : List String}
    (h : ∀ e, read release arguments ≠ .error (.error e)) :
    read release (CommandLine.withoutChoices arguments) = (read release arguments).map withoutChoices := by
  cases hread : read release arguments with
  | ok a =>
    obtain ⟨ts, hts, hr⟩ := read_eq_ok_iff.1 hread
    have hwell : Reading.EndsWell (Reading.readTokens release ⟨none, .unset, []⟩ ts) := by
      rw [hr]
      rfl
    have hrest := Reading.readTokens_withoutChoices (Token.formed_ofArguments hts) hwell
    rw [hr] at hrest
    exact read_eq_ok_iff.2 ⟨_, Token.ofArguments_dropChoices hts, hrest⟩
  | error stop =>
    cases stop with
    | error e => exact absurd hread (h e)
    | help =>
      obtain ⟨ts, hts, hr⟩ := read_eq_help_iff.1 hread
      have hwell : Reading.EndsWell (Reading.readTokens release ⟨none, .unset, []⟩ ts) := by
        rw [hr]
        trivial
      have hrest := Reading.readTokens_withoutChoices (Token.formed_ofArguments hts) hwell
      rw [hr] at hrest
      exact read_eq_help_iff.2 ⟨_, Token.ofArguments_dropChoices hts, hrest⟩

end CommandLine

end Outliner
