import Mathlib.Data.Nat.Digits.Defs
import Mathlib.Data.Option.Basic
import Outliner.Number.Binary
import Outliner.Text.Integer

/-!
# How long numbers are

A number that is read from `n` digits is written with `n` digits at most (`digitCount_foldl_le`), whatever script
the digits are from. So an integer that is read has no more digits than may be read (`Text.integer?_short`).
-/

namespace Outliner

theorem foldl_digits_lt {ds : List Nat} (h : ∀ d ∈ ds, d < 10) :
    ds.foldl (fun n d => n * 10 + d) 0 < 10 ^ ds.length := by
  have hvalue : ds.foldl (fun n d => n * 10 + d) 0 = Nat.ofDigits 10 ds.reverse := by
    rw [Nat.ofDigits_eq_foldr, List.foldr_reverse]
    congr 1
    funext n d
    rw [Nat.mul_comm, Nat.add_comm, Nat.cast_id]
  rw [hvalue, ← List.length_reverse]
  exact Nat.ofDigits_lt_base_pow_length (by decide) fun d hd => h d (List.mem_reverse.1 hd)

theorem digitCount_foldl_le {ds : List Nat} {n : Nat} (h : ∀ d ∈ ds, d < 10) (hn : 0 < n)
    (hlength : ds.length ≤ n) : digitCount (ds.foldl (fun n d => n * 10 + d) 0) ≤ n := by
  refine (Nat.length_toDigits_le_iff (by decide) hn).2 ?_
  exact Nat.lt_of_lt_of_le (foldl_digits_lt h) (Nat.pow_le_pow_right (by decide) hlength)

namespace Text

variable {c : Char} {cs : List Char} {ds : List Nat} {n : Nat}

theorem digit?_lt (h : digit? c = some n) : n < 10 := by
  unfold digit? at h
  split at h
  · split at h
    · next hdigit =>
      have hle : c.toNat ≤ 57 := (Char.isDigit_iff_toNat.1 hdigit).2
      cases h
      omega
    · cases h
  · obtain ⟨z, hz, hn⟩ := Option.map_eq_some_iff.1 h
    have hrange := List.find?_some hz
    simp only [Bool.and_eq_true, decide_eq_true_eq] at hrange
    omega

theorem digits?_lt (h : digits? cs = some ds) : ∀ d ∈ ds, d < 10 := by
  fun_induction digits? cs generalizing ds with
  | case1 => cases h
  | case2 c =>
    obtain ⟨d, hd, rfl⟩ := Option.map_eq_some_iff.1 h
    exact List.forall_mem_singleton.2 (digit?_lt hd)
  | case3 c cs ih | case4 c d cs _ ih =>
    obtain ⟨d, hd, h⟩ := Option.bind_eq_some_iff.1 h
    obtain ⟨ds, hds, h⟩ := Option.bind_eq_some_iff.1 h
    cases h
    exact List.forall_mem_cons.2 ⟨digit?_lt hd, ih hds⟩

theorem natural?_short (h : natural? cs = some n) : digitCount n ≤ maxDigits := by
  obtain ⟨ds, hds, h⟩ := Option.bind_eq_some_iff.1 h
  obtain ⟨_, hguard, h⟩ := Option.bind_eq_some_iff.1 h
  cases h
  exact digitCount_foldl_le (digits?_lt hds) (by decide) ((Option.guard_eq_some' _).1 hguard)

theorem integer?_short {s : String} {n : Int} (h : integer? s = some n) : digitCount n.natAbs ≤ maxDigits := by
  unfold integer? at h
  dsimp only at h
  split at h
  · obtain ⟨m, hm, rfl⟩ := Option.map_eq_some_iff.1 h
    obtain ⟨m, hnatural, hm⟩ := Option.bind_eq_some_iff.1 hm
    cases hm
    rw [Int.natAbs_neg]
    exact natural?_short hnatural
  all_goals
    obtain ⟨m, hnatural, rfl⟩ := Option.map_eq_some_iff.1 h
    exact natural?_short hnatural

end Text

end Outliner
