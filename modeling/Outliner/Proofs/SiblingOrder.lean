import Outliner.Proofs.Siblings

/-!
# The order of siblings

The outline is sorted by kind and name alone. Siblings that agree in both stay in the order in which they
were appended to their parent, and that is the order of their lines, whichever way the indents led there.
So the children of every node strictly increase by kind, name and line (`pairwise_children_addOutline`), and a
list in that order is left as it is by another sort (`Owned.sortBelow_of_pairwise`). The main statement is
`siblings_increasing`.
-/

namespace Outliner

namespace Node

variable {m n : Node}

/-- The order of siblings: by kind, then by name, then by line. Names are compared by code points. -/
def ListedBefore (m n : Node) : Prop :=
  m.kind.code < n.kind.code ∨
    m.kind.code = n.kind.code ∧ (m.name < n.name ∨ m.name = n.name ∧ m.line < n.line)

instance : Decidable (m.ListedBefore n) :=
  inferInstanceAs (Decidable (_ ∨ _ ∧ (_ ∨ _ ∧ _)))

theorem kindNameLE_iff :
    m.kindNameLE n = true
      ↔ m.kind.code < n.kind.code ∨ m.kind.code = n.kind.code ∧ m.name ≤ n.name := by
  simp [kindNameLE, nameLE]

theorem ListedBefore.kindNameLE (h : m.ListedBefore n) : m.kindNameLE n = true := by
  rw [kindNameLE_iff]
  rcases h with hkind | ⟨hkind, hname | ⟨hname, -⟩⟩
  · exact .inl hkind
  · exact .inr ⟨hkind, Std.le_of_lt hname⟩
  · exact .inr ⟨hkind, hname ▸ String.le_refl _⟩

end Node

namespace Forest

open Nesting Declaration

variable {f g : Forest} {item? : List Char → Option Item} {text : String}
  {le : Node → Node → Bool} {i j : Nat} {n p : NodeId}

/-- What is in order already stays as it is. -/
theorem Owned.sortBelow_of_pairwise (h : g.Owned)
    (hsorted : ∀ p ∈ g.walk n, (g.children p).Pairwise fun a b => le (g.node a) (g.node b)) :
    g.sortBelow n le = g := by
  refine eq_of_reads size_sortBelow (fun _ => node_sortBelow) (fun _ => closed_sortBelow)
    (fun _ => parent?_sortBelow) fun p => ?_
  rw [h.children_sortBelow]
  split
  · next hp => exact List.mergeSort_of_pairwise (hsorted p hp)
  · rfl

theorem Nested.listedBefore
    (h : Nested f g (declarations item? text) (declarations item? text).length)
    (hi : i < (declarations item? text).length) (hj : j < (declarations item? text).length)
    (hij : Precedes (kindNameLEAt (declarations item? text)) i j) :
    (g.node (f.size + 1 + i)).ListedBefore (g.node (f.size + 1 + j)) := by
  obtain ⟨hle, htie⟩ := hij
  have hdi := List.getElem?_eq_getElem hi
  have hdj := List.getElem?_eq_getElem hj
  rw [← h.kindNameLE_node hi hj, Node.kindNameLE_iff] at hle
  rw [← h.kindNameLE_node hj hi, Node.kindNameLE_iff] at htie
  rcases hle with hkind | ⟨hkind, hname⟩
  · exact .inl hkind
  · rcases Std.le_iff_lt_or_eq.1 hname with hlt | heq
    · exact .inr ⟨hkind, .inl hlt⟩
    · -- a tie is broken by the positions, so by the lines
      have hpos : i < j := htie (.inr ⟨hkind.symm, heq ▸ String.le_refl _⟩)
      refine .inr ⟨hkind, .inr ⟨heq, ?_⟩⟩
      rw [Node.line, Node.line, h.content i _ hi hdi, h.content j _ hj hdj]
      exact (line_lt_iff hdi hdj).2 hpos

theorem pairwise_children_addOutline (h : f.Reached) (item? : List Char → Option Item) (text : String)
    (hp : p ∈ (f.addOutline (declarations item? text)).walk f.size) :
    ((f.addOutline (declarations item? text)).children p).Pairwise fun a b =>
      ((f.addOutline (declarations item? text)).node a).ListedBefore
        ((f.addOutline (declarations item? text)).node b) := by
  have hg := nested_addOutline h (declarations item? text)
  obtain ⟨q?, rfl, hq⟩ := hg.exists_outlineNode h.owned hp
  rw [children_addOutline h hq, List.pairwise_map]
  refine (pairwise_siblings _ q?).imp_of_mem fun hi hj hij => ?_
  exact hg.listedBefore (mem_siblings.1 hi).1 (mem_siblings.1 hj).1 hij

/-- In the outline of a text the children of every node strictly increase: classes come before functions
and functions before variables, those of one kind are ordered by name, and those of one kind and name by
line. Sorting the outline again, from the root or from any other node, changes nothing. -/
theorem siblings_increasing (h : f.Reached) (item? : List Char → Option Item) (text : String) :
    let g := f.addOutline (declarations item? text)
    ∀ p ∈ g.walk f.size,
      (g.children p).Pairwise (fun a b => (g.node a).ListedBefore (g.node b)) ∧
        g.sortBelow p Node.kindNameLE = g := by
  intro g p hp
  have howned : g.Owned := (nested_addOutline h _).reached.owned
  have hsorted : ∀ q ∈ g.walk f.size,
      (g.children q).Pairwise fun a b => (g.node a).ListedBefore (g.node b) :=
    fun q hq => pairwise_children_addOutline h item? text hq
  refine ⟨hsorted p hp, howned.sortBelow_of_pairwise fun q hq => ?_⟩
  have hpq := (howned.mem_walk.1 hp).trans (howned.mem_walk.1 hq)
  exact (hsorted q (howned.mem_walk.2 hpq)).imp fun hab => hab.kindNameLE

/-- Two classes in the wrong order, and two functions of one name with a variable between them. -/
def tiedNames : String :=
  "def f():\nx = 1\nclass B:\n  def m():\ndef f():\nclass A:"

theorem children_tiedNames :
    (empty.addOutline (declarations Line.item? tiedNames)).children 0 = [6, 3, 1, 5, 2] :=
  children_addOutline_of_perm .empty none [5, 2, 0, 4, 1] nofun (by decide +kernel) (by decide +kernel)

theorem siblings_increasing_tiedNames :
    let g := empty.addOutline (declarations Line.item? tiedNames)
    g.children 0 = [6, 3, 1, 5, 2] ∧
      (g.children 0).Pairwise (fun a b => (g.node a).ListedBefore (g.node b)) ∧
        g.sortBelow 0 Node.kindNameLE = g := by
  refine ⟨children_tiedNames, siblings_increasing .empty Line.item? tiedNames 0 ?_⟩
  exact (nested_addOutline .empty _).reached.owned.mem_walk.2 .refl

end Forest

end Outliner
