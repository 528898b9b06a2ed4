import Mathlib.Logic.Relation
import Mathlib.Order.WellFounded
import Outliner.Forest.Lemmas

/-!
# Who owns whom

A forest stores the relation between a node and its children on both sides. `Owned` says that the
two sides agree, that no list of children repeats a node, and that parents can be followed only
finitely often. The primitive operations keep it (`Owned.add`, `Owned.detach`, `Owned.append`); an
operation that keeps every parent and at most reorders children keeps it by `Owned.congr`.

In an owned forest `detach` and `append` take a node out of every list of children
(`Owned.children_detach`, `Owned.children_append`), since it was only in that of its parent.
-/

namespace Outliner.Forest

open Relation

/-- `p` is the parent of `c`. -/
def IsParent (f : Forest) (p c : NodeId) : Prop := f.parent? c = some p

/-- `a` is `n` itself or lies above it. -/
abbrev Above (f : Forest) (a n : NodeId) : Prop := ReflTransGen f.IsParent a n

structure Owned (f : Forest) : Prop where
  mem_children : ∀ {p c}, c ∈ f.children p ↔ f.parent? c = some p
  nodup : ∀ p, (f.children p).Nodup
  wf : WellFounded f.IsParent

section

variable {f g : Forest} {a b c m n p : NodeId}

theorem IsParent.child_lt (h : f.IsParent p c) : c < f.size := by
  refine Nat.lt_of_not_le fun hle => ?_
  rw [IsParent, parent?_of_size_le hle] at h
  cases h

theorem IsParent.unique (h : f.IsParent p c) (h' : f.IsParent a c) : p = a :=
  Option.some.inj (h.symm.trans h')

/-- What lies above `n` depends only on the parents of the nodes above `n`. -/
theorem Above.of_agree (h : ∀ m, f.Above m n → g.parent? m = f.parent? m) (ha : g.Above a n) :
    f.Above a n := by
  induction ha using ReflTransGen.head_induction_on with
  | refl => exact .refl
  | @head p m hp _ ih =>
    refine .head ?_ ih
    rw [IsParent, ← h m ih]
    exact hp

theorem Above.eq_of_parentless (hn : f.parent? n = none) (h : f.Above a n) : a = n := by
  rcases ReflTransGen.cases_tail h with rfl | ⟨p, -, hp⟩
  · rfl
  · rw [IsParent, hn] at hp
    cases hp

theorem Above.lt_size (h : f.Above a n) (ha : a < f.size) : n < f.size := by
  rcases ReflTransGen.cases_tail h with rfl | ⟨p, -, hp⟩
  · exact ha
  · exact hp.child_lt

theorem Above.eq_or_above (h : f.Above a c) (hp : f.IsParent p c) : a = c ∨ f.Above a p := by
  rcases ReflTransGen.cases_tail h with rfl | ⟨q, hq, hqc⟩
  · exact .inl rfl
  · exact .inr (hqc.unique hp ▸ hq)

/-- The nodes above a node form a chain. -/
theorem Above.total (ha : f.Above a n) (hb : f.Above b n) : f.Above a b ∨ f.Above b a := by
  have unique : Relator.RightUnique (Function.swap f.IsParent) := fun _ _ _ h h' => h.unique h'
  rcases ReflTransGen.total_of_right_unique unique
    (reflTransGen_swap.2 ha) (reflTransGen_swap.2 hb) with h | h
  · exact .inr (reflTransGen_swap.1 h)
  · exact .inl (reflTransGen_swap.1 h)

end

namespace Owned

variable {f g : Forest} {a b c m n p : NodeId}

theorem mem_of_parent? (h : f.Owned) (hp : f.parent? c = some p) : c ∈ f.children p :=
  h.mem_children.2 hp

theorem parent?_of_mem (h : f.Owned) (hc : c ∈ f.children p) : f.parent? c = some p :=
  h.mem_children.1 hc

theorem parent_lt (h : f.Owned) (hp : f.IsParent p c) : p < f.size := by
  refine Nat.lt_of_not_le fun hle => ?_
  have hc := h.mem_of_parent? hp
  rw [children_of_size_le hle] at hc
  cases hc

theorem child_lt (h : f.Owned) (hc : c ∈ f.children p) : c < f.size :=
  IsParent.child_lt (h.parent?_of_mem hc)

theorem above_lt (h : f.Owned) (hn : n < f.size) (ha : f.Above a n) : a < f.size := by
  rcases ReflTransGen.cases_head ha with rfl | ⟨c, hc, -⟩
  · exact hn
  · exact h.parent_lt hc

theorem not_above_parent (h : f.Owned) (hp : f.IsParent p c) : ¬ f.Above c p := by
  intro hc
  have hcc : TransGen f.IsParent c c := TransGen.tail' hc hp
  exact h.wf.transGen.irrefl.irrefl c hcc

theorem not_above_of_mem (h : f.Owned) (hc : c ∈ f.children p) : ¬ f.Above c p :=
  h.not_above_parent (h.parent?_of_mem hc)

theorem not_mem_children (h : f.Owned) (hc : c ∈ f.children p) (hne : p ≠ n) : c ∉ f.children n :=
  fun hcn => hne (IsParent.unique (h.parent?_of_mem hc) (h.parent?_of_mem hcn))

/-- Only one child of a node can be above a given node. -/
theorem eq_of_above (h : f.Owned) (ha : a ∈ f.children p) (hb : b ∈ f.children p)
    (ham : f.Above a m) (hbm : f.Above b m) : a = b := by
  have ha' := h.parent?_of_mem ha
  have hb' := h.parent?_of_mem hb
  -- one of the two would be above the other and so above `p`
  rcases ham.total hbm with hab | hba
  · exact (hab.eq_or_above hb').resolve_right (h.not_above_parent ha')
  · exact ((hba.eq_or_above ha').resolve_right (h.not_above_parent hb')).symm

theorem exists_top (h : f.Owned) (n : NodeId) : ∃ t, f.Above t n ∧ f.parent? t = none := by
  induction n using h.wf.induction with
  | h n ih =>
    cases hp : f.parent? n with
    | none => exact ⟨n, .refl, hp⟩
    | some p =>
      obtain ⟨t, ht, hnone⟩ := ih p hp
      exact ⟨t, ht.tail hp, hnone⟩

/-! ### Operations -/

theorem empty : Forest.empty.Owned := by
  have hp : ∀ n, Forest.empty.parent? n = none := fun n => parent?_of_size_le (Nat.zero_le n)
  have hc : ∀ n, Forest.empty.children n = [] := fun n => children_of_size_le (Nat.zero_le n)
  refine ⟨?_, ?_, ⟨fun n => ⟨n, fun p h => ?_⟩⟩⟩
  · simp [hp, hc]
  · simp [hc]
  · rw [IsParent, hp] at h
    cases h

theorem congr (h : f.Owned) (hp : ∀ m, g.parent? m = f.parent? m)
    (hc : ∀ m, (g.children m).Perm (f.children m)) : g.Owned where
  mem_children {p c} := by rw [(hc p).mem_iff, hp, h.mem_children]
  nodup p := (hc p).nodup_iff.2 (h.nodup p)
  wf := Subrelation.wf (fun {p c} hpc => (hp c).symm.trans hpc) h.wf

theorem add (h : f.Owned) (content : Content) (closed : Bool) : (f.add content closed).Owned :=
  h.congr (fun _ => parent?_add ..) fun _ => .of_eq (children_add ..)

theorem setClosed (h : f.Owned) (n : NodeId) (b : Bool) : (f.setClosed n b).Owned :=
  h.congr (fun _ => parent?_setClosed) fun _ => .of_eq children_setClosed

theorem children_detach (h : f.Owned) : (f.detach n).children m = (f.children m).erase n := by
  by_cases hm : f.parent? n = some m
  · simp only [detach, hm, children_setParent, children_setChildren, h.parent_lt hm, and_self,
      if_true]
  · have hn : n ∉ f.children m := fun hn => hm (h.parent?_of_mem hn)
    rw [List.erase_of_not_mem hn, detach]
    split
    · rfl
    · next p hp =>
      have hpm : p ≠ m := fun hpm => hm (hpm ▸ hp)
      rw [children_setParent, children_setChildren, if_neg fun h => hpm h.1]

theorem detach (h : f.Owned) (n : NodeId) : (f.detach n).Owned where
  mem_children {p c} := by
    rw [h.children_detach, (h.nodup p).mem_erase_iff, h.mem_children]
    by_cases hc : n = c
    · subst hc
      simp [parent?_detach_self]
    · simp [parent?_detach_of_ne hc, Ne.symm hc]
  nodup p := h.children_detach ▸ (h.nodup p).erase n
  wf := by
    refine Subrelation.wf (fun {p c} hpc => ?_) h.wf
    by_cases hc : n = c
    · subst hc
      rw [IsParent, parent?_detach_self] at hpc
      cases hpc
    · exact (parent?_detach_of_ne hc).symm.trans hpc

theorem children_append (h : f.Owned) (hn : n < f.size) :
    (f.append n c).children m
      = if m = n then (f.children m).erase c ++ [c] else (f.children m).erase c := by
  simp only [append, children_setChildren, children_setParent, size_setParent, size_detach,
    h.children_detach]
  by_cases hm : m = n
  · subst hm
    simp [hn]
  · rw [if_neg hm, if_neg fun h => hm h.1.symm]

theorem mem_children_append (h : f.Owned) (hn : n < f.size) :
    m ∈ (f.append n c).children p ↔ (m ≠ c ∧ f.parent? m = some p) ∨ (m = c ∧ p = n) := by
  rw [h.children_append hn]
  by_cases hp : p = n
  · rw [if_pos hp, List.mem_append, (h.nodup p).mem_erase_iff, h.mem_children]
    simp [hp]
  · rw [if_neg hp, (h.nodup p).mem_erase_iff, h.mem_children]
    simp [hp]

/-- A node that is not above `n` may become its child. -/
theorem append (h : f.Owned) (hn : n < f.size) (hc : c < f.size) (hcn : ¬ f.Above c n) :
    (f.append n c).Owned where
  mem_children {p m} := by
    rw [h.mem_children_append hn]
    by_cases hm : c = m
    · subst hm
      simp [parent?_append_self hc, eq_comm]
    · simp [parent?_append_of_ne hm, Ne.symm hm]
  nodup p := by
    rw [h.children_append hn]
    have hnd := (h.nodup p).erase c
    split
    · refine List.nodup_append.2 ⟨hnd, by simp, fun a ha b hb => ?_⟩
      rw [List.mem_singleton.1 hb]
      exact (((h.nodup p).mem_erase_iff).1 ha).1
    · exact hnd
  wf := by
    -- first the nodes with the same nodes above them as before, `n` among them, then all the others
    have away : ∀ m, ¬ f.Above c m → Acc (f.append n c).IsParent m := by
      intro m
      induction m using h.wf.induction with
      | h m ih =>
        intro hcm
        refine ⟨m, fun p hp => ?_⟩
        have hne : c ≠ m := fun he => hcm (he ▸ .refl)
        rw [IsParent, parent?_append_of_ne hne] at hp
        exact ih p hp fun hcp => hcm (hcp.tail hp)
    refine ⟨fun m => ?_⟩
    induction m using h.wf.induction with
    | h m ih =>
      refine ⟨m, fun p hp => ?_⟩
      by_cases hne : c = m
      · subst hne
        rw [IsParent, parent?_append_self hc] at hp
        cases hp
        exact away n hcn
      · rw [IsParent, parent?_append_of_ne hne] at hp
        exact ih p hp

end Owned

end Outliner.Forest
