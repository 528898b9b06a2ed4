import Outliner.Proofs.Rerendering

/-!
# The top level in buckets

`bucketize` parts the children of a node by their kinds. Each of the three buckets gets those of its kind
and the node keeps those without one, all in their old order. Every other node keeps its children, and
every node that is not a former child keeps its parent. The main statement is `bucketize_parts_children`.
-/

namespace Outliner

/-- The four parts of a list by kind have the elements of the list. -/
theorem perm_filter_kinds {α : Type} (kind : α → Kind) (l : List α) :
    ((l.filter fun a => kind a = .kindless) ++ ((l.filter fun a => kind a = .classDef)
      ++ ((l.filter fun a => kind a = .function) ++ l.filter fun a => kind a = .constant))).Perm l := by
  induction l with
  | nil => rfl
  | cons a l ih =>
    -- the head comes to the front across the parts before its own
    have hcons := ih.cons a
    rw [← List.append_assoc] at hcons
    rcases ha : kind a with _ | _ | _ | _
    · simpa [ha] using ih
    · simpa [ha] using List.perm_middle.trans (ih.cons a)
    · simpa [ha] using List.perm_middle.trans hcons
    · rw [← List.append_assoc] at hcons
      simpa [ha] using List.perm_middle.trans hcons

namespace Forest

variable {f : Forest} {c m n p : NodeId} {k : Kind}

theorem bucketOf?_eq_none_iff : f.bucketOf? c = none ↔ (f.node c).kind = .kindless := by
  unfold bucketOf?
  rcases (f.node c).kind <;> simp [Buckets.ofKind?]

theorem Owned.children_bucketize_self (h : f.Owned) (n : NodeId) :
    (f.bucketize n).1.children n = (f.children n).filter fun c => (f.node c).kind = .kindless := by
  have hold : ∀ c ∈ f.children n, f.bucketOf? c ≠ some n := fun c hc hn =>
    Nat.not_lt.2 (bucket_bounds hn).1 (h.parent_lt (h.parent?_of_mem hc))
  have hnew : ((f.children n).filter fun c => f.bucketOf? c = some n) = [] :=
    List.filter_eq_nil_iff.2 fun c hc => by simp [hold c hc]
  rw [h.children_bucketize, hnew, List.append_nil]
  refine List.filter_congr fun c hc => decide_eq_decide.2 ?_
  simp [hc, bucketOf?_eq_none_iff]

theorem Owned.perm_children_bucketize (h : f.Owned) (n : NodeId) :
    let g := (f.bucketize n).1
    let b := (f.bucketize n).2
    (g.children n ++ (g.children b.classes ++ (g.children b.functions ++ g.children b.constants))).Perm
      (f.children n) := by
  intro g b
  have hclasses := h.children_bucket (n := n) (k := .classDef) (p := b.classes) rfl
  have hfunctions := h.children_bucket (n := n) (k := .function) (p := b.functions) rfl
  have hconstants := h.children_bucket (n := n) (k := .constant) (p := b.constants) rfl
  rw [h.children_bucketize_self, hclasses, hfunctions, hconstants]
  exact perm_filter_kinds (fun c => (f.node c).kind) (f.children n)

theorem Owned.parent?_bucketize_of_not_mem (h : f.Owned) (hm : m ∉ f.children n) :
    (f.bucketize n).1.parent? m = f.parent? m :=
  ((h.kept_bucketize n).parent? m hm).trans parent?_addBuckets

/-- A former child of `n` is in one of the four lists and in no other one. -/
theorem Owned.exists_owner (h : f.Owned) (hc : c ∈ f.children n) :
    let g := (f.bucketize n).1
    ∃ p ∈ n :: (f.bucketize n).2.toList, g.parent? c = some p ∧ ∀ q, c ∈ g.children q ↔ q = p := by
  intro g
  have hg : g.Owned := (h.kept_bucketize n).owned
  obtain ⟨p, hp, hcp⟩ : ∃ p ∈ n :: (f.bucketize n).2.toList, c ∈ g.children p := by
    have hmem := (h.perm_children_bucketize n).mem_iff.2 hc
    simp only [List.mem_append] at hmem
    rcases hmem with hmem | hmem | hmem | hmem
    · exact ⟨_, by simp, hmem⟩
    · exact ⟨_, by simp [Buckets.toList], hmem⟩
    · exact ⟨_, by simp [Buckets.toList], hmem⟩
    · exact ⟨_, by simp [Buckets.toList], hmem⟩
  have hparent := hg.parent?_of_mem hcp
  refine ⟨p, hp, hparent, fun q => ⟨fun hq => ?_, fun hq => hq ▸ hcp⟩⟩
  exact IsParent.unique (hg.parent?_of_mem hq) hparent

/-- `bucketize` parts the children of a node. The new buckets get those that are classes, functions and
variables and the node keeps those without a kind, each part in the old order. So every former child is in
one of the four lists, once and in no other list, and has the owner of that list as its parent. All else
stays: contents and states of all nodes, the children of every node but the given one, and the parents of
all that are not former children. -/
theorem bucketize_parts_children (h : f.Reached) (n : NodeId) :
    let g := (f.bucketize n).1
    let b := (f.bucketize n).2
    let part (k : Kind) := (f.children n).filter fun c => (f.node c).kind = k
    (g.children b.classes = part .classDef ∧ g.children b.functions = part .function ∧
      g.children b.constants = part .constant ∧ g.children n = part .kindless) ∧
    ((g.children n ++ (g.children b.classes ++ (g.children b.functions ++ g.children b.constants))).Perm
        (f.children n) ∧
      (f.children n).Nodup ∧
      ∀ c ∈ f.children n, ∃ p ∈ n :: b.toList, g.parent? c = some p ∧ ∀ q, c ∈ g.children q ↔ q = p) ∧
    (b.toList.Nodup ∧ ∀ p ∈ b.toList, f.size ≤ p) ∧
    (∀ m < f.size, g.node m = f.node m ∧ g.closed m = f.closed m ∧
      (m ≠ n → g.children m = f.children m)) ∧
    ∀ m, m ∉ f.children n → g.parent? m = f.parent? m := by
  intro g b part
  have howned := h.owned
  refine ⟨⟨howned.children_bucket rfl, howned.children_bucket rfl, howned.children_bucket rfl,
      howned.children_bucketize_self n⟩,
    ⟨howned.perm_children_bucketize n, howned.nodup n, fun c hc => howned.exists_owner hc⟩, ?_,
    fun m hm => ⟨node_bucketize hm, closed_bucketize hm, howned.children_bucketize_of_ne hm⟩,
    fun m hm => howned.parent?_bucketize_of_not_mem hm⟩
  have hbuckets : b.toList = [f.size, f.size + 1, f.size + 2] := rfl
  simp [hbuckets]

/-- The class and the function go into buckets, and the remark between them stays. -/
theorem bucketize_parts_children_interleaved :
    let g := (interleaved.bucketize 0).1
    interleaved.Reached ∧ interleaved.children 0 = [1, 2, 3] ∧
      g.children 5 = [1] ∧ g.children 6 = [3] ∧ g.children 7 = [] ∧ g.children 0 = [2] ∧
      (∃ p, g.parent? 3 = some p ∧ ∀ q, 3 ∈ g.children q ↔ q = p) ∧
      g.children 1 = [4] ∧ g.closed 1 = true ∧ g.parent? 4 = some 1 := by
  intro g
  obtain ⟨⟨hclasses, hfunctions, hconstants, hrest⟩, ⟨-, -, howner⟩, -, hkept, hparent⟩ :=
    bucketize_parts_children interleaved_reached 0
  obtain ⟨p, -, hp⟩ := howner 3 (by decide)
  obtain ⟨-, hclosed, hchildren⟩ := hkept 1 (by decide)
  refine ⟨interleaved_reached, by decide, hclasses.trans ?_, hfunctions.trans ?_, hconstants.trans ?_,
    hrest.trans ?_, ⟨p, hp⟩, (hchildren (by decide)).trans ?_, hclosed.trans ?_,
    (hparent 4 (by decide)).trans ?_⟩
  all_goals decide

end Forest

end Outliner
