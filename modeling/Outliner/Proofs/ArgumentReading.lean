import Mathlib.Logic.Relation
import Outliner.CommandLine.Arguments
import Outliner.Proofs.Digits
import Outliner.Proofs.Steps

/-!
# Reading the arguments

`Reading.readTokens` sets an option, turns a switch, takes the path or leaves an argument over
(`Reading.Step`). So what each of these steps keeps is kept by all of them: what is left over stays left over,
the spacing has no more digits than can be stored (`Arguments.spacing_short`), and with the newer release no
value is dropped (`Arguments.whole_of_read`). Only the switch for help ends the reading with a request for help.
-/

namespace Outliner

namespace CommandLine

open Relation

variable {release : Release}

/-! ### Steps of reading -/

theorem Release.attachedValue?_ne_none {text : String} (h : release = .newer) :
    release.attachedValue? text ≠ none := by
  subst h
  rw [attachedValue?, if_neg (fun h => nomatch h.1)]
  nofun

namespace Reading

variable {r s : Reading} {o : Options} {flags : List Flag} {ts : List Token}

/-- What reading a token may do. Only the older release drops the value of an option. -/
inductive Step (release : Release) : Reading → Reading → Prop
  | set {r : Reading} {o : Options} {flag : Flag} {value? : Option String} :
      (release = .newer → value? ≠ none) → r.options.set flag value? = .ok o →
        Step release r { r with options := o }
  | switch {r : Reading} {o : Options} {flag : Flag} :
      r.options.switch flag = .ok o → Step release r { r with options := o }
  | path (r : Reading) (argument : String) : Step release r { r with path? := some argument }
  | leave (r : Reading) (arguments : List String) :
      Step release r { r with leftOver := r.leftOver ++ arguments }

theorem steps_of_switches (h : flags.foldlM Options.switch r.options = .ok o) :
    ReflTransGen (Step release) r { r with options := o } := by
  induction flags generalizing r with
  | nil =>
    cases h
    exact .refl
  | cons flag flags ih =>
    rw [List.foldlM_cons] at h
    obtain ⟨o', hflag, hflags⟩ := Steps.bind_eq_ok_iff.1 h
    exact .head (.switch hflag) (ih (r := { r with options := o' }) hflags)

theorem steps_of_readTokens (h : readTokens release r ts = .ok s) : ReflTransGen (Step release) r s := by
  fun_induction readTokens release r ts with
  | case1 =>
    cases h
    exact .refl
  | case2 r flag spelling hflag value ts ih =>
    obtain ⟨o, hset, h⟩ := Steps.bind_eq_ok_iff.1 h
    exact .head (.set Release.attachedValue?_ne_none hset) (ih o h)
  | case3 r flag spelling hflag value ts ih =>
    obtain ⟨o, hset, h⟩ := Steps.bind_eq_ok_iff.1 h
    exact .head (.set (fun _ => Option.some_ne_none value) hset) (ih o h)
  | case4 => cases h
  | case5 r flag spelling value? ts hflag ih =>
    obtain ⟨⟨flags, left⟩, -, h⟩ := Steps.bind_eq_ok_iff.1 h
    obtain ⟨o, hswitch, h⟩ := Steps.bind_eq_ok_iff.1 h
    exact (steps_of_switches hswitch).trans (.head (.leave { r with options := o } left) (ih left o h))
  | case6 r argument ts ih => exact .head (.leave r [argument]) (ih h)
  | case7 r argument ts hpath ih | case8 r argument ts hts hpath ih | case10 r argument ts hpath ih =>
    exact .head (.path r argument) (ih h)
  | case9 r argument path ts hpath ih => exact .head (.leave r [argument]) (ih h)
  | case11 r ts hts ih => exact .head (.leave r ["--"]) (ih h)

theorem keeps {P : Reading → Prop} (hP : ∀ r s, Step release r s → P r → P s)
    (h : readTokens release r ts = .ok s) (hr : P r) : P s := by
  have hsteps := steps_of_readTokens h
  clear h
  induction hsteps with
  | refl => exact hr
  | tail _ hstep ih => exact hP _ _ hstep ih

theorem leftOver_eq_nil (h : readTokens release r ts = .ok s) (hs : s.leftOver = []) : r.leftOver = [] := by
  by_contra hr
  refine keeps (P := fun r => r.leftOver ≠ []) (fun r s hstep hr => ?_) h hr hs
  cases hstep with
  | set | switch | path => exact hr
  | leave arguments => exact List.append_ne_nil_of_left_ne_nil hr _

end Reading

/-! ### Short numbers -/

namespace Options

variable {o o' : Options} {flag : Flag} {value? : Option String}

def Short (o : Options) : Prop :=
  ∀ n ∈ o.spacing?.toOption, digitCount n ≤ Text.maxDigits

theorem number_short {least n : Nat} {value : String} (h : number flag least value = .ok n) :
    digitCount n ≤ Text.maxDigits := by
  unfold number at h
  split at h
  · cases h
  · next k hk =>
    split at h
    · cases h
    · next hle =>
      cases h
      rw [show k.toNat = k.natAbs by omega]
      exact Text.integer?_short hk

theorem Short.set (ho : o.Short) (h : o.set flag value? = .ok o') : o'.Short := by
  cases flag with
  | spacing =>
    obtain ⟨n?, hn, h⟩ := Steps.bind_eq_ok_iff.1 h
    cases h
    intro n hmem
    cases value? with
    | none =>
      cases hn
      cases hmem
    | some value =>
      rw [Option.mapM_some] at hn
      obtain ⟨k, hk, hn⟩ := Steps.bind_eq_ok_iff.1 hn
      cases hn
      cases hmem
      exact number_short hk
  | depth | line =>
    obtain ⟨n?, -, h⟩ := Steps.bind_eq_ok_iff.1 h
    cases h
    exact ho
  | style | language | theme | help | flat | hideRoot | markers | noColor | save | verbose =>
    cases h
    exact ho

theorem Short.switch (ho : o.Short) (h : o.switch flag = .ok o') : o'.Short := by
  cases flag <;> cases h <;> exact ho

end Options

/-! ### Values that are kept -/

namespace Given

variable {α : Type}

theorem ofOption_ne_dropped {value? : Option α} (h : value? ≠ none) : ofOption value? ≠ dropped := by
  cases value? with
  | none => exact absurd rfl h
  | some a => nofun

end Given

/-- None of the values that a command computes with was dropped. -/
structure Options.Whole (o : Options) : Prop where
  spacing : o.spacing? ≠ .dropped
  depth : o.depth? ≠ .dropped
  line : o.line? ≠ .dropped
  language : o.language? ≠ .dropped

namespace Options

variable {o o' : Options} {flag : Flag} {value? : Option String}

theorem mapM_number_ne_none {least : Nat} {n? : Option Nat} (hvalue : value? ≠ none)
    (h : value?.mapM (number flag least) = .ok n?) : n? ≠ none := by
  cases value? with
  | none => exact absurd rfl hvalue
  | some value =>
    rw [Option.mapM_some] at h
    obtain ⟨n, -, h⟩ := Steps.bind_eq_ok_iff.1 h
    cases h
    nofun

theorem Whole.set (ho : o.Whole) (hvalue : value? ≠ none) (h : o.set flag value? = .ok o') : o'.Whole := by
  cases flag with
  | spacing =>
    obtain ⟨n?, hn, h⟩ := Steps.bind_eq_ok_iff.1 h
    cases h
    exact { ho with spacing := Given.ofOption_ne_dropped (mapM_number_ne_none hvalue hn) }
  | depth =>
    obtain ⟨n?, hn, h⟩ := Steps.bind_eq_ok_iff.1 h
    cases h
    exact { ho with depth := Given.ofOption_ne_dropped (mapM_number_ne_none hvalue hn) }
  | line =>
    obtain ⟨n?, hn, h⟩ := Steps.bind_eq_ok_iff.1 h
    cases h
    exact { ho with line := Given.ofOption_ne_dropped (mapM_number_ne_none hvalue hn) }
  | language =>
    cases h
    exact { ho with language := Given.ofOption_ne_dropped hvalue }
  | style | theme | help | flat | hideRoot | markers | noColor | save | verbose =>
    cases h
    exact { ho with }

theorem Whole.switch (ho : o.Whole) (h : o.switch flag = .ok o') : o'.Whole := by
  cases flag <;> cases h <;> exact { ho with }

end Options

/-! ### Requests for help -/

namespace Options

variable {o : Options} {flag : Flag} {value? : Option String} {e : Stop}

theorem number_ne_help {least : Nat} {value : String} (h : number flag least value = .error e) :
    e ≠ .help := by
  unfold number at h
  split at h
  · cases h
    nofun
  · split at h <;> cases h
    nofun

theorem set_ne_help (h : o.set flag value? = .error e) : e ≠ .help := by
  cases flag with
  | spacing | depth | line =>
    obtain hvalue | ⟨n?, -, h⟩ := Steps.bind_eq_error_iff.1 h
    · cases value? with
      | none => cases hvalue
      | some value =>
        rw [Option.mapM_some] at hvalue
        obtain hnumber | ⟨n, -, hn⟩ := Steps.bind_eq_error_iff.1 hvalue
        · exact number_ne_help hnumber
        · cases hn
    · cases h
  | style | language | theme | help | flat | hideRoot | markers | noColor | save | verbose => cases h

end Options

namespace Release

variable {flag : Flag} {cs : List Char} {e : Stop}

theorem stray_ne_help (h : release.stray flag cs = .error e) : e ≠ .help := by
  unfold stray at h
  split at h <;> cases h <;> nofun

theorem bundle_ne_help (h : release.bundle flag cs = .error e) : e ≠ .help := by
  induction cs generalizing flag with
  | nil => cases h
  | cons c cs ih =>
    rw [bundle] at h
    split at h
    · obtain hrest | ⟨flags, -, h⟩ := Steps.bind_eq_error_iff.1 h
      · exact ih hrest
      · cases h
    · obtain hstray | ⟨left, -, h⟩ := Steps.bind_eq_error_iff.1 h
      · exact stray_ne_help hstray
      · cases h

theorem switches_ne_help {spelling : String} {value? : Option Attached}
    (h : release.switches flag spelling value? = .error e) : e ≠ .help := by
  unfold switches at h
  split at h
  · cases h
  · split at h
    · exact bundle_ne_help h
    · cases h
      nofun

end Release

/-! ### Arguments that are read -/

theorem Arguments.read_eq_ok_iff {arguments : List String} {a : Arguments} :
    read release arguments = .ok a ↔ ∃ ts, Token.ofArguments arguments = .ok ts ∧
      Reading.readTokens release ⟨none, .unset, []⟩ ts = .ok ⟨some a.path, a.options, []⟩ := by
  simp only [read, Steps.bind_eq_ok_iff, Steps.mapError_eq_ok_iff]
  refine exists_congr fun ts => and_congr_right fun _ => ⟨?_, fun h => ⟨_, h, rfl⟩⟩
  rintro ⟨⟨path?, options, leftOver⟩, hread, h⟩
  cases path? with
  | none => cases h
  | some path =>
    cases leftOver with
    | nil =>
      cases h
      exact hread
    | cons argument leftOver => cases h

theorem Arguments.read_eq_help_iff {arguments : List String} :
    read release arguments = .error .help ↔ ∃ ts, Token.ofArguments arguments = .ok ts ∧
      Reading.readTokens release ⟨none, .unset, []⟩ ts = .error .help := by
  have htokens : (Token.ofArguments arguments).mapError Stop.error ≠ .error .help := by
    cases Token.ofArguments arguments <;> nofun
  simp only [read, Steps.bind_eq_error_iff, Steps.mapError_eq_ok_iff, htokens, false_or]
  refine exists_congr fun ts => and_congr_right fun _ => ⟨?_, .inl⟩
  rintro (h | ⟨⟨path?, options, leftOver⟩, -, h⟩)
  · exact h
  · cases path? with
    | none => cases h
    | some path => cases leftOver <;> cases h

theorem Arguments.spacing_short {arguments : List String} {a : Arguments} (h : read release arguments = .ok a) :
    a.options.Short := by
  obtain ⟨ts, -, hread⟩ := read_eq_ok_iff.1 h
  refine Reading.keeps (P := fun r => r.options.Short) (fun r s hstep hr => ?_) hread nofun
  cases hstep with
  | set hvalue hset => exact hr.set hset
  | switch hswitch => exact hr.switch hswitch
  | path | leave => exact hr

/-- The newer release drops no value. -/
theorem Arguments.whole_of_read {arguments : List String} {a : Arguments} (h : read .newer arguments = .ok a) :
    a.options.Whole := by
  obtain ⟨ts, -, hread⟩ := read_eq_ok_iff.1 h
  have hunset : Options.unset.Whole := ⟨nofun, nofun, nofun, nofun⟩
  refine Reading.keeps (P := fun r => r.options.Whole) (fun r s hstep hr => ?_) hread hunset
  cases hstep with
  | set hvalue hset => exact hr.set (hvalue rfl) hset
  | switch hswitch => exact hr.switch hswitch
  | path | leave => exact hr

/-- Where the older release drops the value, the newer one refuses it, as it is no integer. -/
example : Arguments.read .newer ["a.py", "--depth=--"] = .error (.error (.notAnInteger .depth "--")) := by
  decide +kernel

end CommandLine

end Outliner
