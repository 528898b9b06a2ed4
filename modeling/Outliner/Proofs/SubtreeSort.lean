import Mathlib.Data.List.Perm.Basic
import Mathlib.Data.Prod.Lex
import Mathlib.Data.String.Basic
import Outliner.Proofs.SiblingOrder

/-!
# Sorting a subtree

A list is sorted stably by a key if the keys increase and the elements of each key keep their order
(`StablySorted`). That leaves one way to list the elements (`StablySorted.unique`), and `mergeSort` finds it
(`stablySorted_mergeSort`).

`sortBelow` sorts the lists of all nodes below a node one after the other. The sorts of two lists do not
interfere (`sortChildren_comm`), so the order of the nodes does not matter, and the result is that of the
recursion: sort the children of the node, then sort below each of them in their new order
(`Owned.sortBelow_eq`). The main statement is `sortBelow_stable`.
-/

namespace Outliner

/-! ### Stable sorting by a key -/

section StableSort

variable {α κ : Type*} [LinearOrder κ] {key : α → κ} {cs ds es : List α} {a d : α}

/-- `ds` lists the elements of `cs` by increasing keys, and those of each key in the order of `cs`. -/
structure StablySorted (key : α → κ) (cs ds : List α) : Prop where
  perm : ds.Perm cs
  sorted : ds.Pairwise fun a b => key a ≤ key b
  stable : ∀ k, (ds.filter fun a => key a = k) = cs.filter fun a => key a = k

theorem key_le_trans (a b c : α) (hab : decide (key a ≤ key b) = true)
    (hbc : decide (key b ≤ key c) = true) : decide (key a ≤ key c) = true :=
  decide_eq_true ((of_decide_eq_true hab).trans (of_decide_eq_true hbc))

theorem key_le_total (a b : α) : (decide (key a ≤ key b) || decide (key b ≤ key a)) = true := by
  rw [Bool.or_eq_true, decide_eq_true_eq, decide_eq_true_eq]
  exact le_total _ _

theorem stablySorted_mergeSort (key : α → κ) (cs : List α) :
    StablySorted key cs (cs.mergeSort fun a b => key a ≤ key b) where
  perm := List.mergeSort_perm ..
  sorted := (List.pairwise_mergeSort key_le_trans key_le_total cs).imp of_decide_eq_true
  stable k := by
    have hmem : ∀ a ∈ cs.filter fun a => key a = k, key a = k := fun a ha =>
      of_decide_eq_true (List.mem_filter.1 ha).2
    -- the elements of one key are in order already, so the sort leaves them in this order
    have hties : (cs.filter fun a => key a = k).Pairwise fun a b => decide (key a ≤ key b) = true :=
      List.pairwise_of_forall_mem_list fun a ha b hb =>
        decide_eq_true ((hmem a ha).trans (hmem b hb).symm).le
    have hsub := (List.sublist_mergeSort key_le_trans key_le_total hties List.filter_sublist).filter
      fun a => decide (key a = k)
    rw [List.filter_eq_self.2 fun a ha => decide_eq_true (hmem a ha)] at hsub
    exact (hsub.eq_of_length ((List.mergeSort_perm cs _).filter _).length_eq.symm).symm

theorem mem_iff_of_filter_key_eq
    (h : ∀ k, (ds.filter fun a => key a = k) = es.filter fun a => key a = k) : a ∈ ds ↔ a ∈ es := by
  have ha := congrArg (a ∈ ·) (h (key a))
  simpa using ha

theorem filter_eq_of_cons {p : α → Bool} (h : (d :: ds).filter p = (d :: es).filter p) :
    ds.filter p = es.filter p := by
  rw [List.filter_cons, List.filter_cons] at h
  split at h
  · exact (List.cons.inj h).2
  · exact h

/-- The head of a sorted list has the least key in it. -/
theorem head_key_le (h : (d :: ds).Pairwise fun a b => key a ≤ key b) (ha : a ∈ d :: ds) :
    key d ≤ key a := by
  rcases List.mem_cons.1 ha with rfl | ha
  · exact le_rfl
  · exact List.rel_of_pairwise_cons h ha

/-- Sorted lists are equal if they agree on the elements of each key. -/
theorem eq_of_filter_key_eq (hds : ds.Pairwise fun a b => key a ≤ key b)
    (hes : es.Pairwise fun a b => key a ≤ key b)
    (h : ∀ k, (ds.filter fun a => key a = k) = es.filter fun a => key a = k) : ds = es := by
  induction ds generalizing es with
  | nil => exact (List.eq_nil_iff_forall_not_mem.2 fun a ha =>
      List.not_mem_nil ((mem_iff_of_filter_key_eq h).2 ha)).symm
  | cons d ds ih =>
    cases es with
    | nil => exact absurd ((mem_iff_of_filter_key_eq h).1 List.mem_cons_self) List.not_mem_nil
    | cons e es =>
      have hde : key d ≤ key e := head_key_le hds ((mem_iff_of_filter_key_eq h).2 List.mem_cons_self)
      have hed : key e ≤ key d := head_key_le hes ((mem_iff_of_filter_key_eq h).1 List.mem_cons_self)
      have hkey : key e = key d := le_antisymm hed hde
      -- both heads come first among the elements of the least key
      have hfirst := h (key d)
      rw [List.filter_cons_of_pos (by simp), List.filter_cons_of_pos (by simp [hkey])] at hfirst
      obtain ⟨rfl, -⟩ := List.cons.inj hfirst
      rw [ih hds.of_cons hes.of_cons fun k => filter_eq_of_cons (h k)]

theorem StablySorted.unique (h : StablySorted key cs ds) (h' : StablySorted key cs es) : ds = es :=
  eq_of_filter_key_eq h.sorted h'.sorted fun k => (h.stable k).trans (h'.stable k).symm

end StableSort

namespace Node

variable {κ : Type*} [LinearOrder κ]

/-- Order by a key. -/
def keyLE (key : Node → κ) (m n : Node) : Bool :=
  key m ≤ key n

theorem kindNameLE_eq_keyLE : kindNameLE = keyLE fun n => toLex (n.kind.code, n.name) := by
  funext m n
  rw [Bool.eq_iff_iff, kindNameLE_iff, keyLE, decide_eq_true_eq, Prod.Lex.toLex_le_toLex]

end Node

namespace Forest

variable {f g : Forest} {le : Node → Node → Bool} {m n : NodeId}

/-! ### The lists below a node -/

theorem sortChildren_comm (le : Node → Node → Bool) (f : Forest) (a b : NodeId) :
    (f.sortChildren le a).sortChildren le b = (f.sortChildren le b).sortChildren le a := by
  rcases eq_or_ne a b with rfl | hab
  · rfl
  refine eq_of_reads (by simp) (by simp) (by simp) (by simp) fun m => ?_
  simp only [children_sortChildren, node_sortChildren]
  by_cases ha : m = a
  · subst ha
    rw [if_pos rfl, if_pos rfl, if_neg hab, if_neg hab]
  · rw [if_neg ha, if_neg ha]

instance : RightCommutative (sortChildren le) := ⟨fun f a b => sortChildren_comm le f a b⟩

theorem Owned.sortBelow (h : f.Owned) (n : NodeId) (le : Node → Node → Bool) :
    (f.sortBelow n le).Owned :=
  h.congr (fun _ => parent?_sortBelow) fun _ => children_sortBelow_perm

/-- Which nodes lie below a node depends on the parents only. -/
theorem Owned.perm_walk (h : f.Owned) (hg : g.Owned) (hparent : ∀ m, g.parent? m = f.parent? m)
    (n : NodeId) : (g.walk n).Perm (f.walk n) := by
  refine (List.perm_ext_iff_of_nodup (hg.nodup_walk n) (h.nodup_walk n)).2 fun m => ?_
  rw [hg.mem_walk, h.mem_walk]
  exact ⟨.of_agree fun m _ => hparent m, .of_agree fun m _ => (hparent m).symm⟩

/-- Sorting below some nodes sorts the lists of all nodes below them, and the sorts that were done before
do not matter for which these are. -/
theorem Owned.foldl_sortBelow (h : f.Owned) (hg : g.Owned)
    (hparent : ∀ m, g.parent? m = f.parent? m) (ns : List NodeId) :
    ns.foldl (fun g c => g.sortBelow c le) g = (ns.flatMap f.walk).foldl (sortChildren le) g := by
  induction ns generalizing g with
  | nil => rfl
  | cons n ns ih =>
    have hstep : g.sortBelow n le = (f.walk n).foldl (sortChildren le) g :=
      (h.perm_walk hg hparent n).foldl_eq g
    have hrest := ih (hg.sortBelow n le) fun m => parent?_sortBelow.trans (hparent m)
    rw [List.foldl_cons, hrest, hstep, List.flatMap_cons, List.foldl_append]

/-- First the children of the node are sorted, and then what lies below each of them. -/
theorem Owned.sortBelow_eq (h : f.Owned) (n : NodeId) (le : Node → Node → Bool) :
    f.sortBelow n le
      = ((f.sortChildren le n).children n).foldl (fun g c => g.sortBelow c le)
          (f.sortChildren le n) := by
  have hsorted : (f.sortChildren le n).Owned :=
    h.congr (fun _ => parent?_sortChildren) fun _ => children_sortChildren_perm
  have hperm : (((f.sortChildren le n).children n).flatMap f.walk).Perm
      ((f.children n).flatMap f.walk) := children_sortChildren_perm.flatMap_right f.walk
  rw [h.foldl_sortBelow hsorted (fun _ => parent?_sortChildren), hperm.foldl_eq,
    Forest.sortBelow, h.walk_eq, List.foldl_cons]

/-! ### Sorting by a key -/

section Keys

variable {κ : Type*} [LinearOrder κ] {key : Node → κ}

theorem Owned.stablySorted_sortBelow (h : f.Owned) (hm : m ∈ f.walk n) :
    StablySorted (fun c => key (f.node c)) (f.children m)
      ((f.sortBelow n (Node.keyLE key)).children m) := by
  rw [h.children_sortBelow, if_pos hm]
  exact stablySorted_mergeSort (fun c => key (f.node c)) (f.children m)

theorem Owned.sortBelow_sortBelow (h : f.Owned) (hm : m ∈ f.walk n) :
    (f.sortBelow n (Node.keyLE key)).sortBelow m (Node.keyLE key)
      = f.sortBelow n (Node.keyLE key) := by
  have howned := h.sortBelow n (Node.keyLE key)
  refine howned.sortBelow_of_pairwise fun p hp => ?_
  have hperm := h.perm_walk howned fun _ => parent?_sortBelow
  have hpn : p ∈ f.walk n :=
    h.mem_walk.2 ((h.mem_walk.1 hm).trans (h.mem_walk.1 ((hperm m).mem_iff.1 hp)))
  have hsorted : StablySorted (fun c => key (f.node c)) (f.children p) _ :=
    h.stablySorted_sortBelow hpn
  refine hsorted.sorted.imp fun hab => ?_
  rw [node_sortBelow, node_sortBelow]
  exact decide_eq_true hab

/-- Sorting below a node by a key sorts its children and then what lies below each of them in the new
order. After that the children of the node and of each node below it are the one stable sort by the key of
what they were. The other lists are the same as before, and so are all contents, collapse states and
parents, and the nodes below each node. Sorting again by the key, below the node or any
node below it, changes nothing. A key tells nodes apart, so it may be anything that does not depend on the
order of children. -/
theorem sortBelow_stable (h : f.Reached) (n : NodeId) (key : Node → κ) :
    let le := Node.keyLE key
    let g := f.sortBelow n le
    g = ((f.sortChildren le n).children n).foldl (fun g c => g.sortBelow c le) (f.sortChildren le n) ∧
      (∀ m ∈ f.walk n, ∀ cs,
        StablySorted (fun c => key (f.node c)) (f.children m) cs ↔ cs = g.children m) ∧
      (∀ m, m ∉ f.walk n → g.children m = f.children m) ∧
      (g.size = f.size ∧
        ∀ m, g.node m = f.node m ∧ g.closed m = f.closed m ∧ g.parent? m = f.parent? m) ∧
      (∀ m, (g.walk m).Perm (f.walk m)) ∧ ∀ m ∈ f.walk n, g.sortBelow m le = g := by
  intro le g
  have howned : f.Owned := h.owned
  refine ⟨howned.sortBelow_eq n le, fun m hm cs => ⟨fun hcs => ?_, ?_⟩, fun m hm => ?_,
    ⟨size_sortBelow, fun m => ⟨node_sortBelow, closed_sortBelow, parent?_sortBelow⟩⟩, fun m => ?_,
    fun m hm => howned.sortBelow_sortBelow hm⟩
  · exact hcs.unique (howned.stablySorted_sortBelow hm)
  · rintro rfl
    exact howned.stablySorted_sortBelow hm
  · exact (howned.children_sortBelow n m).trans (if_neg hm)
  · exact howned.perm_walk (howned.sortBelow n le) (fun _ => parent?_sortBelow) m

end Keys

/-- The two functions of one name stay in the order in which they were appended. -/
theorem sortBelow_stable_tiedNames :
    let f := empty.addNested (declarations Line.item? tiedNames)
    let g := f.sortBelow 0 Node.kindNameLE
    f.Reached ∧ f.children 0 = [1, 2, 3, 5, 6] ∧ g.children 0 = [6, 3, 1, 5, 2] ∧
      StablySorted (fun c => toLex ((f.node c).kind.code, (f.node c).name)) [1, 2, 3, 5, 6]
        [6, 3, 1, 5, 2] ∧
      (g.walk 0).Perm (f.walk 0) ∧ g.sortBelow 0 Node.kindNameLE = g := by
  have hbefore : (empty.addNested (declarations Line.item? tiedNames)).children 0
      = [1, 2, 3, 5, 6] :=
    (children_addNested .empty _ none).trans (by decide +kernel)
  intro f g
  have hf : Nested empty f _ _ := nested_addNested .empty (declarations Line.item? tiedNames)
  have hroot : 0 ∈ f.walk 0 := hf.reached.owned.mem_walk.2 .refl
  obtain ⟨-, hsorted, -, -, hwalk, hagain⟩ :=
    sortBelow_stable hf.reached 0 fun n => toLex (n.kind.code, n.name)
  rw [← Node.kindNameLE_eq_keyLE] at hsorted hwalk hagain
  refine ⟨hf.reached, hbefore, children_tiedNames, ?_, hwalk 0, hagain 0 hroot⟩
  rw [← hbefore]
  exact (hsorted 0 hroot _).2 children_tiedNames.symm

end Forest

end Outliner
