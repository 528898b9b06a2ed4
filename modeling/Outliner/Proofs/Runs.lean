import Outliner.Navigation
import Outliner.Proofs.Bucketing

/-!
# Runs of operations

`Operation` lists what can be done to a forest, and a forest is `Reached` if a run of allowed
operations makes it out of the empty one. Only `append` has a condition: a node may not be put below
itself.

Every operation keeps the forest owned (`Owned.run`). `Operation.run?` does the same as
`Operation.run`, but fails where a node is to be taken away from a parent that does not list it;
`Owned.run?_eq` says that this never happens, also not within the loops of the navbar. What one move
does to all nodes is `Moved`. The main statement, `ownership_of_reached`, puts these together.
-/

namespace Outliner

namespace Forest

/-! ### Moves that can fail -/

/-- `detach`, if the parent of `n` lists it. -/
def detach? (f : Forest) (n : NodeId) : Option Forest :=
  match f.parent? n with
  | none => some f
  | some p => if n ∈ f.children p then some (f.detach n) else none

/-- `append`, if `child` can be taken away from the parent it had. -/
def append? (f : Forest) (n child : NodeId) : Option Forest := do
  let f ← f.detach? child
  let f := f.setParent child (some n)
  return f.setChildren n (f.children n ++ [child])

def moveToBucket? (b : Buckets) (f : Forest) (n : NodeId) : Option Forest :=
  match b.ofKind? (f.node n).kind with
  | none => some f
  | some bucket => f.append? bucket n

def bucketize? (f : Forest) (n : NodeId) : Option (Forest × Buckets) := do
  let (g, b) := f.addBuckets
  return (← (f.children n).foldlM (moveToBucket? b) g, b)

def renderNavbar? (f : Forest) (n : NodeId) (style : String) (spacing : Int)
    (label : Node → String) : Option (Except StyleError (List Row) × Forest) := do
  let (g, b) ← f.bucketize? n
  match g.renderBuckets b.toList style spacing label with
  | .error e => return (.error e, g)
  | .ok rows => return (.ok rows, ← (f.children n).foldlM (fun g child => g.append? n child) g)

end Forest

/-! ### Operations -/

inductive Operation where
  | create (content : Content) (closed : Bool)
  | append (n child : NodeId)
  | detach (n : NodeId)
  | sortBelow (n : NodeId) (le : Node → Node → Bool)
  | toggle (n : NodeId)
  | expand (n : NodeId)
  | collapse (n : NodeId)
  | collapseBelow (n : NodeId) (depth : Int)
  | bucketize (n : NodeId)
  | renderNavbar (n : NodeId) (style : String) (spacing : Int) (label : Node → String)
  | renderTree (n : NodeId) (style : String) (spacing : Int) (hideRoot : Bool)
      (label : Node → String)
  | toggleRow (rows : List Row) (i : Int)

namespace Operation

/-- A node may be put below any node but itself and those below it. -/
def Allowed (f : Forest) : Operation → Prop
  | append n child => n < f.size ∧ child < f.size ∧ ¬ f.Above child n
  | _ => True

/-- The forest after the operation. Rendering a single tree only reads it. -/
def run (f : Forest) : Operation → Forest
  | create content closed => f.add content closed
  | append n child => f.append n child
  | detach n => f.detach n
  | sortBelow n le => f.sortBelow n le
  | toggle n => f.toggle n
  | expand n => f.expand n
  | collapse n => f.collapse n
  | collapseBelow n depth => f.collapseBelow n depth
  | bucketize n => (f.bucketize n).1
  | renderNavbar n style spacing label => (f.renderNavbar n style spacing label).2
  | renderTree .. => f
  | toggleRow rows i => (f.toggleRow rows i).2

/-- `run`, with the moves that can fail. -/
def run? (f : Forest) : Operation → Option Forest
  | append n child => f.append? n child
  | detach n => f.detach? n
  | bucketize n => (f.bucketize? n).map Prod.fst
  | renderNavbar n style spacing label => (f.renderNavbar? n style spacing label).map Prod.snd
  | op => some (op.run f)

end Operation

namespace Forest

/-- A run of allowed operations makes the forest out of the empty one. -/
inductive Reached : Forest → Prop where
  | empty : Reached .empty
  | step {f : Forest} (op : Operation) : Reached f → op.Allowed f → Reached (op.run f)

variable {f g : Forest} {c n : NodeId}

/-! ### Every operation keeps the forest owned -/

theorem Owned.toggleRow (h : f.Owned) (rows : List Row) (i : Int) : (f.toggleRow rows i).2.Owned := by
  unfold Forest.toggleRow
  split
  · exact h
  · exact h.setClosed ..

theorem Owned.run (h : f.Owned) {op : Operation} (ha : op.Allowed f) : (op.run f).Owned := by
  cases op with
  | create content closed => exact h.add content closed
  | append n child =>
    obtain ⟨hn, hc, hcn⟩ := ha
    exact h.append hn hc hcn
  | detach n => exact h.detach n
  | sortBelow n le => exact h.congr (fun _ => parent?_sortBelow) fun _ => children_sortBelow_perm
  | toggle n => exact h.setClosed ..
  | expand n => exact h.setClosed ..
  | collapse n => exact h.setClosed ..
  | collapseBelow n depth =>
    exact h.congr (fun _ => parent?_collapseBelow) fun _ => .of_eq children_collapseBelow
  | bucketize n => exact (h.kept_bucketize n).owned
  | renderNavbar n style spacing label => exact (h.kept_renderNavbar n).owned
  | renderTree n style spacing hideRoot label => exact h
  | toggleRow rows i => exact h.toggleRow rows i

theorem Reached.owned (h : f.Reached) : f.Owned := by
  induction h with
  | empty => exact .empty
  | step op _ ha ih => exact ih.run ha

/-! ### No move fails -/

theorem Owned.detach?_eq (h : f.Owned) (n : NodeId) : f.detach? n = some (f.detach n) := by
  unfold Forest.detach?
  split
  · next hn => rw [Forest.detach, hn]
  · next p hp => rw [if_pos (h.mem_of_parent? hp)]

theorem Owned.append?_eq (h : f.Owned) (n child : NodeId) :
    f.append? n child = some (f.append n child) := by
  rw [append?, h.detach?_eq]
  rfl

theorem Owned.moveToBucket?_eq (h : f.Owned) (b : Buckets) (n : NodeId) :
    f.moveToBucket? b n = some (f.moveToBucket b n) := by
  unfold Forest.moveToBucket? Forest.moveToBucket
  cases b.ofKind? (f.node n).kind with
  | none => rfl
  | some bucket => exact h.append?_eq bucket n

/-- A loop whose passes succeed as long as they keep an invariant succeeds. -/
theorem foldlM_eq_some {inv : Forest → Prop} {step? : Forest → NodeId → Option Forest}
    {step : Forest → NodeId → Forest} {cs : List NodeId}
    (hstep : ∀ g, inv g → ∀ c ∈ cs, step? g c = some (step g c))
    (hinv : ∀ g, inv g → ∀ c ∈ cs, inv (step g c)) (hf : inv f) :
    cs.foldlM step? f = some (cs.foldl step f) := by
  induction cs generalizing f with
  | nil => rfl
  | cons c cs ih =>
    rw [List.foldlM_cons, hstep f hf c List.mem_cons_self, List.foldl_cons]
    exact ih (fun g hg d hd => hstep g hg d (List.mem_cons_of_mem c hd))
      (fun g hg d hd => hinv g hg d (List.mem_cons_of_mem c hd)) (hinv f hf c List.mem_cons_self)

theorem Owned.bucketize?_eq (h : f.Owned) (n : NodeId) :
    f.bucketize? n = some (f.bucketize n) := by
  have hloop := foldlM_eq_some (fun _ hg c _ => hg.owned.moveToBucket?_eq f.addBuckets.2 c)
    (h.kept_moveToBucket n) (.refl h.addBuckets)
  show ((f.children n).foldlM (moveToBucket? f.addBuckets.2) f.addBuckets.1).bind _ = _
  rw [hloop]
  rfl

theorem Owned.renderNavbar?_eq (h : f.Owned) (n : NodeId) (style : String) (spacing : Int)
    (label : Node → String) :
    f.renderNavbar? n style spacing label = some (f.renderNavbar n style spacing label) := by
  have hloop := foldlM_eq_some (fun _ hg c _ => hg.owned.append?_eq n c)
    (h.kept_moveBack n) (h.kept_bucketize n)
  rw [renderNavbar?, h.bucketize?_eq]
  cases hs : Style.resolve style spacing with
  | error e =>
    rw [renderNavbar_of_error hs]
    simp only [Option.bind_eq_bind, Option.bind_some, renderBuckets, hs]
    rfl
  | ok s =>
    rw [renderNavbar_of_ok hs]
    simp only [Option.bind_eq_bind, Option.bind_some, renderBuckets, hs]
    show ((f.children n).foldlM (fun (g : Forest) c => g.append? n c) (f.bucketize n).1).bind _ = _
    rw [hloop]
    rfl

theorem Owned.run?_eq (h : f.Owned) (op : Operation) : op.run? f = some (op.run f) := by
  cases op with
  | append n child => exact h.append?_eq n child
  | detach n => exact h.detach?_eq n
  | bucketize n => simp [Operation.run?, Operation.run, h.bucketize?_eq]
  | renderNavbar n style spacing label =>
    simp [Operation.run?, Operation.run, h.renderNavbar?_eq]
  | _ => rfl

/-! ### What a move changes -/

/-- `g` is `f` after `c` was taken out of its list and, if `to?` is a node, put at the end of the
children of that node. -/
structure Moved (f g : Forest) (c : NodeId) (to? : Option NodeId) : Prop where
  parent? : g.parent? c = to?
  parent?_of_ne : ∀ m, m ≠ c → g.parent? m = f.parent? m
  children : ∀ p, g.children p = (f.children p).erase c ++ if to? = some p then [c] else []
  children_of_ne : ∀ p, f.parent? c ≠ some p → to? ≠ some p → g.children p = f.children p
  size : g.size = f.size
  node : ∀ m, g.node m = f.node m
  closed : ∀ m, g.closed m = f.closed m

theorem Owned.erase_of_not_parent (h : f.Owned) {p : NodeId} (hp : f.parent? c ≠ some p) :
    (f.children p).erase c = f.children p :=
  List.erase_of_not_mem fun hc => hp (h.parent?_of_mem hc)

theorem Owned.moved_detach (h : f.Owned) (n : NodeId) : Moved f (f.detach n) n none where
  parent? := parent?_detach_self
  parent?_of_ne _ hm := parent?_detach_of_ne hm.symm
  children p := by simp [h.children_detach]
  children_of_ne p hp _ := by rw [h.children_detach, h.erase_of_not_parent hp]
  size := size_detach
  node _ := node_detach
  closed _ := closed_detach

theorem Owned.moved_append (h : f.Owned) (hn : n < f.size) (hc : c < f.size) :
    Moved f (f.append n c) c (some n) where
  parent? := parent?_append_self hc
  parent?_of_ne _ hm := parent?_append_of_ne hm.symm
  children p := by
    rw [h.children_append hn]
    by_cases hp : p = n
    · simp [hp]
    · simp [hp, Ne.symm hp]
  children_of_ne p hp hnp := by
    have hne : p ≠ n := fun he => hnp (he ▸ rfl)
    rw [h.children_append hn, if_neg hne, h.erase_of_not_parent hp]
  size := size_append
  node _ := node_append
  closed _ := closed_append

/-- In every forest that a run of operations reaches, both sides of the relation between parents and
children agree, no list of children repeats a node, and every chain of parents ends. No operation
takes a node away from a parent that does not list it, and `detach` and `append` move one node and
nothing else. -/
theorem ownership_of_reached (h : f.Reached) :
    (∀ p c, c ∈ f.children p ↔ f.parent? c = some p) ∧
      (∀ p, (f.children p).Nodup) ∧
      (∀ n, ∃ t, f.Above t n ∧ f.parent? t = none) ∧
      (∀ op : Operation, op.run? f = some (op.run f)) ∧
      (∀ n, Moved f (f.detach n) n none) ∧
      (∀ n c, (Operation.append n c).Allowed f → Moved f (f.append n c) c (some n)) :=
  ⟨fun _ _ => h.owned.mem_children, h.owned.nodup, h.owned.exists_top, h.owned.run?_eq,
    h.owned.moved_detach, fun _ _ ha => h.owned.moved_append ha.1 ha.2.1⟩

/-- Below a node that has no parent any other node may be put. -/
theorem Reached.append_of_parentless (h : f.Reached) (hn : n < f.size) (hc : c < f.size)
    (htop : f.parent? n = none) (hne : c ≠ n) : (f.append n c).Reached :=
  h.step (.append n c) ⟨hn, hc, fun hcn => hne (hcn.eq_of_parentless htop)⟩

/-- A root with a class below it. -/
def oneClass : Forest :=
  ((empty.add (.declared (.synthetic "/")) false).add
    (.declared ⟨⟨"A", .classDef, 0⟩, 1⟩) false).append 0 1

theorem oneClass_reached : oneClass.Reached := by
  refine ((Reached.empty.step (.create _ _) trivial).step (.create _ _) trivial).append_of_parentless
    ?_ ?_ ?_ ?_
  all_goals decide

/-- A navbar in a style that does not exist leaves a class in its bucket, from where it can be put
back. -/
theorem ownership_of_reached_stranded :
    let f := (oneClass.renderNavbar 0 "nameless" 0 Node.name).2
    f.Reached ∧ f.children 0 = [] ∧ f.children 2 = [1] ∧ Moved f (f.append 0 1) 1 (some 0) := by
  have hf := oneClass_reached.step (.renderNavbar 0 "nameless" 0 Node.name) trivial
  have hparent : (oneClass.renderNavbar 0 "nameless" 0 Node.name).2.parent? 0 = none := by decide
  refine ⟨hf, by decide, by decide, ?_⟩
  refine (ownership_of_reached hf).2.2.2.2.2 0 1 ⟨by decide, by decide, fun h => ?_⟩
  exact absurd (h.eq_of_parentless hparent) (by decide)

end Forest

end Outliner
