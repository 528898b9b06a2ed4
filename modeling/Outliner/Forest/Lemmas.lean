import Outliner.Forest

/-!
# What the operations on a forest change

For each primitive operation, what it does to the size of the forest and to the content, the
collapse state, the parent and the children of every node. The operations that move, sort and
collapse nodes are made of these.
-/

namespace Outliner.Forest

variable {f : Forest} {m n : NodeId}

theorem cell_of_size_le (h : f.size ≤ n) : f.cell n = default := by
  simp only [cell, Array.getD_eq_getD_getElem?]
  rw [Array.getElem?_eq_none (by exact h)]
  rfl

theorem parent?_of_size_le (h : f.size ≤ n) : f.parent? n = none := by
  rw [parent?, cell_of_size_le h]
  rfl

theorem children_of_size_le (h : f.size ≤ n) : f.children n = [] := by
  rw [children, cell_of_size_le h]
  rfl

theorem lt_size_of_children_ne (h : f.children n ≠ []) : n < f.size :=
  Nat.lt_of_not_le fun hle => h (children_of_size_le hle)

/-- What can be read of a forest determines it. -/
theorem eq_of_reads {g : Forest} (hsize : g.size = f.size) (hnode : ∀ m, g.node m = f.node m)
    (hclosed : ∀ m, g.closed m = f.closed m) (hparent : ∀ m, g.parent? m = f.parent? m)
    (hchildren : ∀ m, g.children m = f.children m) : g = f := by
  have hcell : ∀ m, g.cell m = f.cell m := by
    intro m
    have hcontent : (g.cell m).content = (f.cell m).content := congrArg Node.content (hnode m)
    calc
      g.cell m = ⟨(g.cell m).content, g.closed m, g.parent? m, g.children m⟩ := rfl
      _ = f.cell m := by rw [hcontent, hclosed, hparent, hchildren]; rfl
  have hcells : g.cells = f.cells := by
    refine Array.ext hsize fun i hg hf => ?_
    have hi := hcell i
    simp only [cell, Array.getD_eq_getD_getElem?] at hi
    rw [Array.getElem?_eq_getElem hg, Array.getElem?_eq_getElem hf] at hi
    exact hi
  exact congrArg Forest.mk hcells

/-! ### Making a node -/

@[simp] theorem size_empty : empty.size = 0 := rfl

@[simp] theorem size_add (c : Content) (b : Bool) : (f.add c b).size = f.size + 1 := by
  simp [add, size]

theorem lt_size_add {c : Content} {b : Bool} (h : m < f.size) : m < (f.add c b).size := by
  rw [size_add]
  exact Nat.lt_succ_of_lt h

theorem cell_add (c : Content) (b : Bool) :
    (f.add c b).cell m = if m = f.size then ⟨c, b, none, []⟩ else f.cell m := by
  simp only [cell, add, size, Array.getD_eq_getD_getElem?, Array.getElem?_push]
  split <;> rfl

theorem cell_add_of_lt (c : Content) (b : Bool) (h : m < f.size) :
    (f.add c b).cell m = f.cell m := by
  rw [cell_add, if_neg (Nat.ne_of_lt h)]

theorem node_add_of_lt (c : Content) (b : Bool) (h : m < f.size) :
    (f.add c b).node m = f.node m := by
  rw [node, cell_add_of_lt c b h, node]

@[simp] theorem node_add_self (c : Content) (b : Bool) :
    (f.add c b).node f.size = ⟨f.size, c⟩ := by
  rw [node, cell_add, if_pos rfl]

theorem closed_add_of_lt (c : Content) (b : Bool) (h : m < f.size) :
    (f.add c b).closed m = f.closed m := by
  rw [closed, cell_add_of_lt c b h, closed]

@[simp] theorem closed_add_self (c : Content) (b : Bool) :
    (f.add c b).closed f.size = b := by
  rw [closed, cell_add, if_pos rfl]

/-- A new node has no parent, like a node that does not exist. -/
@[simp] theorem parent?_add (c : Content) (b : Bool) :
    (f.add c b).parent? m = f.parent? m := by
  by_cases h : m = f.size
  · rw [parent?, cell_add, if_pos h, h, parent?_of_size_le (Nat.le_refl _)]
  · rw [parent?, cell_add, if_neg h, parent?]

@[simp] theorem children_add (c : Content) (b : Bool) :
    (f.add c b).children m = f.children m := by
  by_cases h : m = f.size
  · rw [children, cell_add, if_pos h, h, children_of_size_le (Nat.le_refl _)]
  · rw [children, cell_add, if_neg h, children]

/-! ### Changing a cell -/

@[simp] theorem size_modify (g : Cell → Cell) : (f.modify n g).size = f.size := by
  simp [modify, size]

theorem cell_modify (g : Cell → Cell) :
    (f.modify n g).cell m = if n = m ∧ m < f.size then g (f.cell m) else f.cell m := by
  simp only [cell, modify, size, Array.getD_eq_getD_getElem?, Array.getElem?_modify]
  by_cases hm : m < f.cells.size
  · by_cases hn : n = m <;> simp [hn, hm]
  · simp [hm]

section SetClosed

variable {b : Bool}

@[simp] theorem size_setClosed : (f.setClosed n b).size = f.size := size_modify _

theorem closed_setClosed :
    (f.setClosed n b).closed m = if n = m ∧ m < f.size then b else f.closed m := by
  unfold closed setClosed
  rw [cell_modify]
  split <;> rfl

@[simp] theorem node_setClosed : (f.setClosed n b).node m = f.node m := by
  unfold node setClosed
  rw [cell_modify]
  split <;> rfl

@[simp] theorem parent?_setClosed : (f.setClosed n b).parent? m = f.parent? m := by
  unfold parent? setClosed
  rw [cell_modify]
  split <;> rfl

@[simp] theorem children_setClosed : (f.setClosed n b).children m = f.children m := by
  unfold children setClosed
  rw [cell_modify]
  split <;> rfl

end SetClosed

section SetParent

variable {p : Option NodeId}

@[simp] theorem size_setParent : (f.setParent n p).size = f.size := size_modify _

theorem parent?_setParent :
    (f.setParent n p).parent? m = if n = m ∧ m < f.size then p else f.parent? m := by
  unfold parent? setParent
  rw [cell_modify]
  split <;> rfl

@[simp] theorem node_setParent : (f.setParent n p).node m = f.node m := by
  unfold node setParent
  rw [cell_modify]
  split <;> rfl

@[simp] theorem closed_setParent : (f.setParent n p).closed m = f.closed m := by
  unfold closed setParent
  rw [cell_modify]
  split <;> rfl

@[simp] theorem children_setParent : (f.setParent n p).children m = f.children m := by
  unfold children setParent
  rw [cell_modify]
  split <;> rfl

end SetParent

section SetChildren

variable {cs : List NodeId}

@[simp] theorem size_setChildren : (f.setChildren n cs).size = f.size := size_modify _

theorem children_setChildren :
    (f.setChildren n cs).children m = if n = m ∧ m < f.size then cs else f.children m := by
  unfold children setChildren
  rw [cell_modify]
  split <;> rfl

@[simp] theorem node_setChildren : (f.setChildren n cs).node m = f.node m := by
  unfold node setChildren
  rw [cell_modify]
  split <;> rfl

@[simp] theorem closed_setChildren : (f.setChildren n cs).closed m = f.closed m := by
  unfold closed setChildren
  rw [cell_modify]
  split <;> rfl

@[simp] theorem parent?_setChildren : (f.setChildren n cs).parent? m = f.parent? m := by
  unfold parent? setChildren
  rw [cell_modify]
  split <;> rfl

end SetChildren

/-! ### Moving nodes -/

@[simp] theorem size_detach : (f.detach n).size = f.size := by
  unfold detach
  split <;> simp

@[simp] theorem node_detach : (f.detach n).node m = f.node m := by
  unfold detach
  split <;> simp

@[simp] theorem closed_detach : (f.detach n).closed m = f.closed m := by
  unfold detach
  split <;> simp

theorem parent?_detach_of_ne (h : n ≠ m) : (f.detach n).parent? m = f.parent? m := by
  unfold detach
  split
  · rfl
  · rw [parent?_setParent, if_neg fun hnm => h hnm.1, parent?_setChildren]

theorem parent?_detach_self : (f.detach n).parent? n = none := by
  unfold detach
  split
  · assumption
  · next p hp =>
    have hn : n < f.size := by
      refine Nat.lt_of_not_le fun hle => ?_
      rw [parent?_of_size_le hle] at hp
      cases hp
    simp [parent?_setParent, hn]

@[simp] theorem size_append : (f.append n m).size = f.size := by
  simp [append]

@[simp] theorem node_append {k : NodeId} : (f.append n m).node k = f.node k := by
  simp [append]

@[simp] theorem closed_append {k : NodeId} : (f.append n m).closed k = f.closed k := by
  simp [append]

theorem parent?_append_of_ne {k : NodeId} (h : m ≠ k) :
    (f.append n m).parent? k = f.parent? k := by
  simp only [append, parent?_setChildren]
  rw [parent?_setParent, if_neg fun hmk => h hmk.1, parent?_detach_of_ne h]

theorem parent?_append_self (h : m < f.size) : (f.append n m).parent? m = some n := by
  simp [append, parent?_setParent, h]

/-! ### Sorting -/

section Sorting

variable {le : Node → Node → Bool}

@[simp] theorem size_sortChildren : (f.sortChildren le n).size = f.size := size_setChildren

@[simp] theorem node_sortChildren : (f.sortChildren le n).node m = f.node m := node_setChildren

@[simp] theorem closed_sortChildren : (f.sortChildren le n).closed m = f.closed m :=
  closed_setChildren

@[simp] theorem parent?_sortChildren : (f.sortChildren le n).parent? m = f.parent? m :=
  parent?_setChildren

theorem children_sortChildren_perm :
    ((f.sortChildren le n).children m).Perm (f.children m) := by
  unfold sortChildren
  rw [children_setChildren]
  split
  · next h =>
    rw [h.1]
    exact List.mergeSort_perm ..
  · exact .refl _

/-- Sorting below a node keeps what no sort of a single list changes. -/
theorem sortBelow_keeps {α : Type} (read : Forest → α)
    (h : ∀ g m, read (g.sortChildren le m) = read g) : read (f.sortBelow n le) = read f :=
  List.foldlRecOn (motive := fun g => read g = read f) _ _ rfl
    fun g hg m _ => (h g m).trans hg

@[simp] theorem size_sortBelow : (f.sortBelow n le).size = f.size :=
  sortBelow_keeps size fun _ _ => size_sortChildren

@[simp] theorem node_sortBelow : (f.sortBelow n le).node m = f.node m :=
  sortBelow_keeps (·.node m) fun _ _ => node_sortChildren

@[simp] theorem closed_sortBelow : (f.sortBelow n le).closed m = f.closed m :=
  sortBelow_keeps (·.closed m) fun _ _ => closed_sortChildren

@[simp] theorem parent?_sortBelow : (f.sortBelow n le).parent? m = f.parent? m :=
  sortBelow_keeps (·.parent? m) fun _ _ => parent?_sortChildren

theorem children_sortBelow_perm : ((f.sortBelow n le).children m).Perm (f.children m) :=
  List.foldlRecOn (motive := fun g : Forest => (g.children m).Perm (f.children m)) _ _ (.refl _)
    fun _ hg _ _ => children_sortChildren_perm.trans hg

end Sorting

/-! ### Collapsing -/

section Collapsing

variable {depth : Int}

theorem collapseStacked_keeps {α : Type} (read : Forest → α)
    (h : ∀ g m b, read (g.setClosed m b) = read g) (fuel : Nat) (stack : List (NodeId × Nat))
    (f : Forest) : read (collapseStacked depth fuel stack f) = read f := by
  induction fuel generalizing stack f with
  | zero => rfl
  | succ fuel ih =>
    cases stack with
    | nil => rfl
    | cons top stack =>
      simp only [collapseStacked]
      rw [ih]
      split
      · exact h ..
      · rfl

@[simp] theorem size_collapseBelow : (f.collapseBelow n depth).size = f.size :=
  collapseStacked_keeps size (fun _ _ _ => size_setClosed) ..

@[simp] theorem node_collapseBelow : (f.collapseBelow n depth).node m = f.node m :=
  collapseStacked_keeps (·.node m) (fun _ _ _ => node_setClosed) ..

@[simp] theorem parent?_collapseBelow : (f.collapseBelow n depth).parent? m = f.parent? m :=
  collapseStacked_keeps (·.parent? m) (fun _ _ _ => parent?_setClosed) ..

@[simp] theorem children_collapseBelow : (f.collapseBelow n depth).children m = f.children m :=
  collapseStacked_keeps (·.children m) (fun _ _ _ => children_setClosed) ..

end Collapsing

end Outliner.Forest
