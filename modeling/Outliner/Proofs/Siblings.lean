import Mathlib.Data.List.Nodup
import Outliner.Proofs.Outline

/-!
# The children of the nodes of an outline

Every declaration is appended to its parent, so before the outline is sorted the children of a node are
its `members`: the declarations with that parent, in source order (`Forest.children_addNested`). The sort
is stable. In the finished outline they are its `siblings` (`Forest.children_addOutline`): the members in
the order of kind and name, and those that agree in both in source order (`pairwise_siblings`). No two
declarations are tied in that order, so it leaves only one way to list the members.
-/

namespace Outliner

/-! ### Stable sorting of positions -/

section StableSort

variable {le : Nat → Nat → Bool} {is js : List Nat} {i j : Nat}

/-- `i` is put before `j` by `le`, or by their positions where `le` ties them. -/
def Precedes (le : Nat → Nat → Bool) (i j : Nat) : Prop :=
  le i j = true ∧ (le j i = true → i < j)

instance : Decidable (Precedes le i j) :=
  inferInstanceAs (Decidable (_ ∧ (_ → _)))

theorem Precedes.asymm (h : Precedes le i j) (h' : Precedes le j i) : False := by
  have hij := h.2 h'.1
  have hji := h'.2 h.1
  omega

theorem eq_of_perm_precedes (his : is.Pairwise (Precedes le)) (hjs : js.Pairwise (Precedes le))
    (h : is.Perm js) : is = js :=
  h.eq_of_pairwise (fun _ _ _ _ hij hji => (hij.asymm hji).elim) his hjs

theorem not_sublist_swap (h : is.Nodup) (hij : [i, j].Sublist is) : ¬ [j, i].Sublist is := by
  have hidx : is.Pairwise fun a b => is.idxOf a < is.idxOf b := by
    refine List.pairwise_iff_getElem.2 fun a b ha hb hab => ?_
    rwa [h.idxOf_getElem a ha, h.idxOf_getElem b hb]
  rw [List.pairwise_iff_forall_sublist] at hidx
  intro hji
  have hlt := hidx hij
  have hgt := hidx hji
  omega

theorem pair_sublist (h : is.Pairwise (· < ·)) (hi : i ∈ is) (hj : j ∈ is) (hij : i < j) :
    [i, j].Sublist is := by
  obtain ⟨l, r, rfl⟩ := List.append_of_mem hi
  obtain ⟨-, hr, hlr⟩ := List.pairwise_append.1 h
  have hjr : j ∈ r := by
    rcases List.mem_append.1 hj with hj | hj
    · have hji := hlr j hj i List.mem_cons_self
      omega
    · rcases List.mem_cons.1 hj with rfl | hj
      · omega
      · exact hj
  exact ((List.singleton_sublist.2 hjr).cons_cons i).trans (List.sublist_append_right l _)

theorem pairwise_precedes_mergeSort (htrans : ∀ a b c, le a b = true → le b c = true → le a c = true)
    (htotal : ∀ a b, (le a b || le b a) = true) (h : is.Pairwise (· < ·)) :
    (is.mergeSort le).Pairwise (Precedes le) := by
  have hsorted := List.pairwise_mergeSort htrans htotal is
  have hnodup : (is.mergeSort le).Nodup :=
    (List.mergeSort_perm is le).nodup_iff.2 (h.imp fun hlt => Nat.ne_of_lt hlt)
  rw [List.pairwise_iff_forall_sublist] at hsorted ⊢
  intro a b hab
  refine ⟨hsorted hab, fun hba => Nat.lt_of_not_le fun hle => ?_⟩
  have ha : a ∈ is := List.mem_mergeSort.1 (hab.subset List.mem_cons_self)
  have hb : b ∈ is := List.mem_mergeSort.1 (hab.subset (List.mem_cons_of_mem a List.mem_cons_self))
  have hne : b ≠ a := by
    rintro rfl
    exact absurd (hnodup.sublist hab) (by simp)
  -- a tie in the wrong order would be in that order in the sorted list too
  have hswap := pair_sublist h hb ha (Nat.lt_of_le_of_ne hle hne)
  exact not_sublist_swap hnodup hab (List.pair_sublist_mergeSort htrans htotal hba hswap)

end StableSort

/-! ### Members and siblings -/

namespace Declaration

open Nesting

variable {d e c : Declaration} {ds : List Declaration} {q? : Option Nat} {i j k : Nat}

/-- Order by kind, then by name. -/
def kindNameLE (d e : Declaration) : Bool :=
  d.kind.code < e.kind.code || d.kind.code == e.kind.code && decide (d.name ≤ e.name)

theorem kindNameLE_iff :
    kindNameLE d e = true
      ↔ d.kind.code < e.kind.code ∨ d.kind.code = e.kind.code ∧ d.name ≤ e.name := by
  simp [kindNameLE]

theorem kindNameLE_trans (h : kindNameLE d e = true) (h' : kindNameLE e c = true) :
    kindNameLE d c = true := by
  rw [kindNameLE_iff] at h h' ⊢
  rcases h with h | ⟨h, hname⟩ <;> rcases h' with h' | ⟨h', hname'⟩
  · exact .inl (h.trans h')
  · exact .inl (h' ▸ h)
  · exact .inl (h ▸ h')
  · exact .inr ⟨h.trans h', String.le_trans hname hname'⟩

theorem kindNameLE_total (d e : Declaration) : (kindNameLE d e || kindNameLE e d) = true := by
  rw [Bool.or_eq_true, kindNameLE_iff, kindNameLE_iff]
  rcases Nat.lt_trichotomy d.kind.code e.kind.code with h | h | h
  · exact .inl (.inl h)
  · rcases String.le_total d.name e.name with hname | hname
    · exact .inl (.inr ⟨h, hname⟩)
    · exact .inr (.inr ⟨h.symm, hname⟩)
  · exact .inr (.inl h)

/-- `kindNameLE` on the declarations at two positions. -/
def kindNameLEAt (ds : List Declaration) (i j : Nat) : Bool :=
  kindNameLE (ds.getD i .root) (ds.getD j .root)

/-- Those of the first `k` declarations that have the given parent, in source order. -/
def membersBefore (ds : List Declaration) (k : Nat) (q? : Option Nat) : List Nat :=
  (List.range k).filter fun j => parentAt (indents ds) j = q?

def members (ds : List Declaration) (q? : Option Nat) : List Nat :=
  membersBefore ds ds.length q?

/-- The declarations with the given parent, in the order of the outline. -/
def siblings (ds : List Declaration) (q? : Option Nat) : List Nat :=
  (members ds q?).mergeSort (kindNameLEAt ds)

theorem membersBefore_succ (ds : List Declaration) (k : Nat) (q? : Option Nat) :
    membersBefore ds (k + 1) q?
      = membersBefore ds k q? ++ if q? = parentAt (indents ds) k then [k] else [] := by
  rw [membersBefore, List.range_succ, List.filter_append, membersBefore]
  by_cases hq : q? = parentAt (indents ds) k
  · simp [hq]
  · simp [hq, Ne.symm hq]

theorem mem_membersBefore : j ∈ membersBefore ds k q? ↔ j < k ∧ parentAt (indents ds) j = q? := by
  rw [membersBefore, List.mem_filter, List.mem_range, decide_eq_true_eq]

theorem mem_siblings : j ∈ siblings ds q? ↔ j < ds.length ∧ parentAt (indents ds) j = q? := by
  rw [siblings, List.mem_mergeSort, members, mem_membersBefore]

theorem pairwise_siblings (ds : List Declaration) (q? : Option Nat) :
    (siblings ds q?).Pairwise (Precedes (kindNameLEAt ds)) :=
  pairwise_precedes_mergeSort (fun _ _ _ => kindNameLE_trans) (fun _ _ => kindNameLE_total _ _)
    (List.pairwise_lt_range.filter _)

theorem siblings_of_perm {js : List Nat} (hperm : js.Perm (members ds q?))
    (hjs : js.Pairwise (Precedes (kindNameLEAt ds))) : siblings ds q? = js :=
  eq_of_perm_precedes (pairwise_siblings ds q?) hjs ((List.mergeSort_perm _ _).trans hperm.symm)

theorem nodup_siblings (ds : List Declaration) (q? : Option Nat) : (siblings ds q?).Nodup := by
  refine (pairwise_siblings ds q?).imp fun {i j} hij heq => ?_
  subst heq
  exact hij.asymm hij

end Declaration

namespace Forest

open Nesting Declaration

variable {f g : Forest} {ds : List Declaration} {d : Declaration} {ns : List NodeId}
  {le : Node → Node → Bool} {q? : Option Nat} {j k : Nat} {m n : NodeId}

/-! ### Sorting below a node -/

theorem children_sortChildren :
    (f.sortChildren le n).children m
      = if m = n then (f.children m).mergeSort fun a b => le (f.node a) (f.node b)
        else f.children m := by
  rw [sortChildren, children_setChildren]
  by_cases hm : m = n
  · subst hm
    by_cases hlt : m < f.size
    · rw [if_pos ⟨rfl, hlt⟩, if_pos rfl]
    · rw [if_neg fun h => hlt h.2, if_pos rfl, children_of_size_le (Nat.le_of_not_lt hlt),
        List.mergeSort_nil]
  · rw [if_neg fun h => hm h.1.symm, if_neg hm]

theorem children_foldl_sortChildren (h : ns.Nodup) :
    (ns.foldl (sortChildren le) f).children m
      = if m ∈ ns then (f.children m).mergeSort fun a b => le (f.node a) (f.node b)
        else f.children m := by
  induction ns generalizing f with
  | nil => simp
  | cons n ns ih =>
    obtain ⟨hn, hns⟩ := List.nodup_cons.1 h
    rw [List.foldl_cons, ih hns]
    simp only [node_sortChildren, children_sortChildren, List.mem_cons]
    by_cases hm : m = n
    · subst hm
      simp [hn]
    · simp [hm]

/-- The lists that are sorted are those of the node and of the nodes below it. -/
theorem Owned.children_sortBelow (h : f.Owned) (n m : NodeId) :
    (f.sortBelow n le).children m
      = if m ∈ f.walk n then (f.children m).mergeSort fun a b => le (f.node a) (f.node b)
        else f.children m :=
  children_foldl_sortChildren (h.nodup_walk n)

/-! ### The lists of an outline -/

theorem outlineNode_inj {root : Nat} {p? : Option Nat} :
    outlineNode root p? = outlineNode root q? ↔ p? = q? := by
  cases q? with
  | some q => exact outlineNode_eq_some_iff
  | none =>
    cases p? with
    | none => simp
    | some p =>
      have hne : outlineNode root (some p) ≠ outlineNode root none := by
        show root + 1 + p ≠ root
        omega
      simpa using hne

theorem outlineNode_ge (root : Nat) (q? : Option Nat) : root ≤ outlineNode root q? := by
  cases q? with
  | none => exact Nat.le_refl root
  | some q =>
    show root ≤ root + 1 + q
    omega

/-- The next declaration goes to the end of the list of its parent. -/
theorem Nested.children_addDeclaration (h : Nested f g ds k)
    (hg : ∀ q?, g.children (outlineNode f.size q?) = (membersBefore ds k q?).map (f.size + 1 + ·))
    (q? : Option Nat) :
    (g.addDeclaration f.size (d, placementAt (indents ds) k)).children (outlineNode f.size q?)
      = (membersBefore ds (k + 1) q?).map (f.size + 1 + ·) := by
  have howned := h.reached.owned.add (.declared d) false
  have hparent : outlineNode f.size (parentAt (indents ds) k) < (g.add (.declared d) false).size := by
    rw [size_add, h.size]
    exact Nat.lt_succ_of_lt (parent_lt_outlineNode f.size ds k)
  have hnew : g.size ∉ g.children (outlineNode f.size q?) := fun hmem =>
    Nat.lt_irrefl _ (h.reached.owned.child_lt hmem)
  rw [addDeclaration_eq, ← parentAt, howned.children_append hparent, children_add,
    List.erase_of_not_mem hnew, membersBefore_succ, List.map_append, ← hg]
  by_cases hq : q? = parentAt (indents ds) k
  · rw [if_pos (outlineNode_inj.2 hq), if_pos hq, h.size]
    rfl
  · rw [if_neg fun he => hq (outlineNode_inj.1 he), if_neg hq, List.map_nil, List.append_nil]

theorem children_addNested (h : f.Reached) (ds : List Declaration) (q? : Option Nat) :
    (f.addNested ds).children (outlineNode f.size q?) = (members ds q?).map (f.size + 1 + ·) := by
  have hloop : Nested f (f.addNested ds) ds ds.length ∧ ∀ q?,
      (f.addNested ds).children (outlineNode f.size q?)
        = (membersBefore ds ds.length q?).map (f.size + 1 + ·) := by
    refine addNested_induction (motive := fun k g => Nested f g ds k ∧ ∀ q?,
      g.children (outlineNode f.size q?) = (membersBefore ds k q?).map (f.size + 1 + ·)) ?_ ?_
    · refine ⟨.start h ds, fun q? => ?_⟩
      rw [children_add, children_of_size_le (outlineNode_ge f.size q?)]
      rfl
    · intro k d g hd hg
      exact ⟨hg.1.addDeclaration hd, hg.1.children_addDeclaration hg.2⟩
  exact hloop.2 q?

theorem Nested.kindNameLE_node (h : Nested f g ds ds.length) {i j : Nat} (hi : i < ds.length)
    (hj : j < ds.length) :
    Node.kindNameLE (g.node (f.size + 1 + i)) (g.node (f.size + 1 + j)) = kindNameLEAt ds i j := by
  have hdi := List.getElem?_eq_getElem hi
  have hdj := List.getElem?_eq_getElem hj
  rw [kindNameLEAt, List.getD_eq_getElem?_getD, List.getD_eq_getElem?_getD, hdi, hdj]
  simp only [Node.kindNameLE, Node.nameLE, Node.kind, Node.name, h.content i _ hi hdi,
    h.content j _ hj hdj]
  rfl

theorem children_addOutline (h : f.Reached) (hq : ∀ q ∈ q?, q < ds.length) :
    (f.addOutline ds).children (outlineNode f.size q?) = (siblings ds q?).map (f.size + 1 + ·) := by
  have hg := nested_addNested h ds
  have hwalk : outlineNode f.size q? ∈ (f.addNested ds).walk f.size := by
    rw [hg.mem_walk h.owned]
    cases q? with
    | none => exact .inl rfl
    | some q => exact .inr ⟨q, hq q rfl, rfl⟩
  rw [addOutline, hg.reached.owned.children_sortBelow, if_pos hwalk, children_addNested h, siblings]
  refine (List.map_mergeSort fun i hi j hj => ?_).symm
  rw [members, mem_membersBefore] at hi hj
  exact (hg.kindNameLE_node hi.1 hj.1).symm

/-- No two declarations are tied, so there is one way only to list the children of a node. -/
theorem children_addOutline_of_perm (h : f.Reached) (q? : Option Nat) (js : List Nat)
    (hq : ∀ q ∈ q?, q < ds.length) (hperm : js.Perm (members ds q?))
    (hjs : js.Pairwise (Precedes (kindNameLEAt ds))) :
    (f.addOutline ds).children (outlineNode f.size q?) = js.map (f.size + 1 + ·) := by
  rw [children_addOutline h hq, siblings_of_perm hperm hjs]

end Forest

end Outliner
