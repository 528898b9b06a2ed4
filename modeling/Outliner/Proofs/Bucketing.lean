import Mathlib.Data.List.Nodup
import Outliner.Navbar
import Outliner.Proofs.Ownership

/-!
# Moving a top level into buckets and back

`bucketize` and `renderNavbar` move the children of a node one at a time, first into fresh buckets and
then back. Both loops move each child to a node that lies below none of them (`Accepts`), and such
moves keep the forest owned and leave the parents of all other nodes alone (`Kept`). What the first
loop does to a parent is `parent?_foldl_moveToBucket`.

Either loop takes nodes out of their lists and puts each at the end of another
(`Kept.children_foldl_moveTo`). `children_bucketize` tells the lists between the loops;
`children_moveBack` says that after both of them every list is what it was.
-/

namespace Outliner.Forest

open Relation

variable {f g : Forest} {b : Buckets} {c m n p : Nat} {k : Kind} {cs ds : List NodeId}

/-! ### Fresh buckets -/

@[simp] theorem size_addBuckets : f.addBuckets.1.size = f.size + 3 := by
  simp [addBuckets]

@[simp] theorem parent?_addBuckets : f.addBuckets.1.parent? m = f.parent? m := by
  simp [addBuckets]

@[simp] theorem children_addBuckets : f.addBuckets.1.children m = f.children m := by
  simp [addBuckets]

theorem node_addBuckets (hm : m < f.size) : f.addBuckets.1.node m = f.node m := by
  simp only [addBuckets]
  rw [node_add_of_lt _ _ (lt_size_add (lt_size_add hm)), node_add_of_lt _ _ (lt_size_add hm),
    node_add_of_lt _ _ hm]

theorem closed_addBuckets (hm : m < f.size) : f.addBuckets.1.closed m = f.closed m := by
  simp only [addBuckets]
  rw [closed_add_of_lt _ _ (lt_size_add (lt_size_add hm)), closed_add_of_lt _ _ (lt_size_add hm),
    closed_add_of_lt _ _ hm]

theorem bucket_bounds (hk : f.addBuckets.2.ofKind? k = some p) :
    f.size ≤ p ∧ p < f.size + 3 := by
  cases k <;> simp only [addBuckets, Buckets.ofKind?, Option.some.injEq, reduceCtorEq] at hk
  all_goals
    subst hk
    omega

theorem above_addBuckets (h : f.addBuckets.1.Above c p) : f.Above c p :=
  Above.of_agree (fun _ _ => parent?_addBuckets) h

/-! ### Moving nodes one by one -/

/-- Each of the nodes `cs` may become a child of `p`. -/
def Accepts (f : Forest) (p : NodeId) (cs : List NodeId) : Prop :=
  p < f.size ∧ ∀ c ∈ cs, c < f.size ∧ ¬ f.Above c p

/-- `g` is an owned forest that differs from `f` in the parents of `cs` only. -/
structure Kept (cs : List NodeId) (f g : Forest) : Prop where
  owned : g.Owned
  size : g.size = f.size
  parent? : ∀ m, m ∉ cs → g.parent? m = f.parent? m

namespace Kept

theorem refl (h : f.Owned) : Kept cs f f :=
  ⟨h, rfl, fun _ _ => rfl⟩

/-- No node above `p` is among those that moved, so nothing came to lie above `p`. -/
theorem not_above (h : Kept cs f g) (hp : f.Accepts p cs) (hc : c ∈ cs) : ¬ g.Above c p := by
  intro hcp
  refine (hp.2 c hc).2 (Above.of_agree (fun m hm => h.parent? m fun hmem => ?_) hcp)
  exact (hp.2 m hmem).2 hm

theorem append (h : Kept cs f g) (hp : f.Accepts p cs) (hc : c ∈ cs) : Kept cs f (g.append p c) where
  owned := h.owned.append (h.size ▸ hp.1) (h.size ▸ (hp.2 c hc).1) (h.not_above hp hc)
  size := size_append.trans h.size
  parent? m hm := by
    have hne : c ≠ m := fun he => hm (he ▸ hc)
    rw [parent?_append_of_ne hne, h.parent? m hm]

theorem moveToBucket (h : Kept cs f g) (hb : ∀ k p, b.ofKind? k = some p → f.Accepts p cs)
    (hc : c ∈ cs) : Kept cs f (g.moveToBucket b c) := by
  unfold Forest.moveToBucket
  split
  · exact h
  · next bucket hk => exact h.append (hb _ bucket hk) hc

end Kept

/-- A fresh bucket is above nothing and below nothing. -/
theorem Owned.accepts_bucket (h : f.Owned) (hk : f.addBuckets.2.ofKind? k = some p) :
    f.addBuckets.1.Accepts p (f.children n) := by
  obtain ⟨hle, hlt⟩ := bucket_bounds hk
  refine ⟨by rw [size_addBuckets]; exact hlt, fun c hc => ⟨?_, fun hcp => ?_⟩⟩
  · rw [size_addBuckets]
    exact Nat.lt_add_right 3 (h.child_lt hc)
  · have hcp : c = p := (above_addBuckets hcp).eq_of_parentless (parent?_of_size_le hle)
    exact Nat.not_lt.2 hle (hcp ▸ h.child_lt hc)

theorem Owned.accepts_back (h : f.Owned) (hc : c ∈ f.children n) :
    f.addBuckets.1.Accepts n (f.children n) := by
  refine ⟨?_, fun d hd => ⟨?_, fun hdn => h.not_above_of_mem hd (above_addBuckets hdn)⟩⟩
  · rw [size_addBuckets]
    exact Nat.lt_add_right 3 (h.parent_lt (h.parent?_of_mem hc))
  · rw [size_addBuckets]
    exact Nat.lt_add_right 3 (h.child_lt hd)

theorem Owned.addBuckets (h : f.Owned) : f.addBuckets.1.Owned :=
  h.congr (fun _ => parent?_addBuckets) fun _ => .of_eq children_addBuckets

/-- What holds in every pass of the loop of `bucketize`. -/
theorem Owned.kept_moveToBucket (h : f.Owned) (n : NodeId) :
    ∀ g, Kept (f.children n) f.addBuckets.1 g → ∀ c ∈ f.children n,
      Kept (f.children n) f.addBuckets.1 (g.moveToBucket f.addBuckets.2 c) :=
  fun _ hg _ hc => hg.moveToBucket (fun _ _ hk => h.accepts_bucket hk) hc

/-- What holds in every pass of the loop that moves the nodes back. -/
theorem Owned.kept_moveBack (h : f.Owned) (n : NodeId) :
    ∀ g, Kept (f.children n) f.addBuckets.1 g → ∀ c ∈ f.children n,
      Kept (f.children n) f.addBuckets.1 (g.append n c) :=
  fun _ hg _ hc => hg.append (h.accepts_back hc) hc

theorem bucketize_eq (f : Forest) (n : NodeId) :
    f.bucketize n = ((f.children n).foldl (moveToBucket f.addBuckets.2) f.addBuckets.1,
      f.addBuckets.2) := rfl

theorem Owned.kept_bucketize (h : f.Owned) (n : NodeId) :
    Kept (f.children n) f.addBuckets.1 (f.bucketize n).1 := by
  rw [bucketize_eq]
  exact List.foldlRecOn _ _ (.refl h.addBuckets) (h.kept_moveToBucket n)

section Navbar

variable {style : String} {spacing : Int} {s : Style} {e : StyleError} {label : Node → String}

theorem renderNavbar_of_error (he : Style.resolve style spacing = .error e) :
    f.renderNavbar n style spacing label = (.error e, (f.bucketize n).1) := by
  simp only [renderNavbar, renderBuckets, he]
  rfl

theorem renderNavbar_of_ok (hs : Style.resolve style spacing = .ok s) :
    f.renderNavbar n style spacing label
      = (.ok ((f.bucketize n).1.renderAll f.addBuckets.2.toList s label),
        (f.children n).foldl (fun g c => g.append n c) (f.bucketize n).1) := by
  simp only [renderNavbar, renderBuckets, hs]
  rfl

theorem Owned.kept_renderNavbar (h : f.Owned) (n : NodeId) :
    Kept (f.children n) f.addBuckets.1 (f.renderNavbar n style spacing label).2 := by
  cases hs : Style.resolve style spacing with
  | error e =>
    rw [renderNavbar_of_error hs]
    exact h.kept_bucketize n
  | ok s =>
    rw [renderNavbar_of_ok hs]
    exact List.foldlRecOn _ _ (h.kept_bucketize n) (h.kept_moveBack n)

end Navbar

/-! ### Where a node goes -/

@[simp] theorem size_moveToBucket : (f.moveToBucket b n).size = f.size := by
  unfold moveToBucket
  split <;> simp

@[simp] theorem node_moveToBucket : (f.moveToBucket b n).node m = f.node m := by
  unfold moveToBucket
  split <;> simp

theorem parent?_moveToBucket_of_ne (h : n ≠ m) : (f.moveToBucket b n).parent? m = f.parent? m := by
  unfold moveToBucket
  split
  · rfl
  · exact parent?_append_of_ne h

theorem parent?_moveToBucket_self (hn : n < f.size) (hk : b.ofKind? (f.node n).kind = some p) :
    (f.moveToBucket b n).parent? n = some p := by
  simp only [moveToBucket, hk]
  exact parent?_append_self hn

theorem parent?_foldl_moveToBucket_of_not_mem (hm : m ∉ cs) :
    (cs.foldl (moveToBucket b) f).parent? m = f.parent? m :=
  List.foldlRecOn (motive := fun g : Forest => g.parent? m = f.parent? m) _ _ rfl
    fun g hg c hc => by
      have hne : c ≠ m := fun he => hm (he ▸ hc)
      rw [parent?_moveToBucket_of_ne hne, hg]

/-- A node that has a kind ends up in the bucket of its kind. -/
theorem parent?_foldl_moveToBucket (hm : m ∈ cs) (hlt : m < f.size)
    (hk : b.ofKind? (f.node m).kind = some p) :
    (cs.foldl (moveToBucket b) f).parent? m = some p := by
  induction cs generalizing f with
  | nil => cases hm
  | cons c cs ih =>
    rw [List.foldl_cons]
    by_cases hmem : m ∈ cs
    · exact ih hmem (by rwa [size_moveToBucket]) (by rwa [node_moveToBucket])
    · rw [parent?_foldl_moveToBucket_of_not_mem hmem]
      rcases List.mem_cons.1 hm with rfl | hm
      · exact parent?_moveToBucket_self hlt hk
      · exact absurd hm hmem

/-- Nodes without a kind stay. -/
theorem foldl_moveToBucket_of_kindless (h : ∀ c ∈ cs, (f.node c).kind = .kindless) :
    cs.foldl (moveToBucket b) f = f := by
  induction cs with
  | nil => rfl
  | cons c cs ih =>
    have hc : f.moveToBucket b c = f := by
      simp only [moveToBucket, h c List.mem_cons_self, Buckets.ofKind?]
    rw [List.foldl_cons, hc]
    exact ih fun d hd => h d (List.mem_cons_of_mem c hd)

/-! ### What the loops do to the lists of children -/

/-- Moves `c` to the end of the children of its target; a node without one stays where it is. -/
def moveTo (target? : NodeId → Option NodeId) (f : Forest) (c : NodeId) : Forest :=
  match target? c with
  | none => f
  | some p => f.append p c

theorem foldl_moveToBucket_eq :
    cs.foldl (moveToBucket b) f = cs.foldl (moveTo fun c => b.ofKind? (f.node c).kind) f := by
  induction cs generalizing f with
  | nil => rfl
  | cons c cs ih =>
    have hkinds : (fun d => b.ofKind? ((f.moveToBucket b c).node d).kind)
        = fun d => b.ofKind? (f.node d).kind := by
      simp only [node_moveToBucket]
    rw [List.foldl_cons, ih, hkinds]
    rfl

variable {target? : NodeId → Option NodeId}

/-- The nodes that have a target leave their lists, and each list gets those it is the target of, in
the order in which they were moved. -/
theorem Kept.children_foldl_moveTo (h : Kept cs f g)
    (ht : ∀ c ∈ cs, ∀ p, target? c = some p → f.Accepts p cs) (hds : ∀ c ∈ ds, c ∈ cs)
    (hnd : ds.Nodup) (p : NodeId) :
    (ds.foldl (moveTo target?) g).children p
      = (g.children p).filter (fun c => c ∉ ds ∨ target? c = none)
        ++ ds.filter fun c => target? c = some p := by
  induction ds generalizing g with
  | nil => simp
  | cons c ds ih =>
    have hc := hds c List.mem_cons_self
    have hrest : ∀ d ∈ ds, d ∈ cs := fun d hd => hds d (List.mem_cons_of_mem c hd)
    obtain ⟨hcds, hnd⟩ := List.nodup_cons.1 hnd
    rw [List.foldl_cons]
    cases hq : target? c with
    | none =>
      have hstay : g.moveTo target? c = g := by rw [moveTo, hq]
      rw [hstay, ih h hrest hnd, List.filter_cons_of_neg (by simp [hq])]
      refine congrArg (· ++ _) (List.filter_congr fun d _ => decide_eq_decide.2 ?_)
      by_cases hd : d = c
      · simp [hd, hq]
      · simp [hd]
    | some q =>
      have hmove : g.moveTo target? c = g.append q c := by rw [moveTo, hq]
      have haccepts := ht c hc q hq
      have hchildren := h.owned.children_append (c := c) (m := p) (h.size ▸ haccepts.1)
      have hleft : ((g.children p).erase c).filter (fun d => d ∉ ds ∨ target? d = none)
          = (g.children p).filter fun d => d ∉ c :: ds ∨ target? d = none := by
        rw [(h.owned.nodup p).erase_eq_filter, List.filter_filter]
        refine List.filter_congr fun d _ => ?_
        by_cases hd : d = c
        · simp [hd, hq]
        · simp [hd]
      rw [hmove, ih (h.append haccepts hc) hrest hnd, hchildren]
      by_cases hp : p = q
      · have hown : [c].filter (fun d => d ∉ ds ∨ target? d = none) = [c] := by simp [hcds]
        rw [if_pos hp, List.filter_append, hleft, hown, List.append_assoc,
          List.filter_cons_of_pos (by simp [hq, hp]), List.singleton_append]
      · have hne : target? c ≠ some p := fun he => hp (Option.some.inj (he.symm.trans hq))
        rw [if_neg hp, hleft, List.filter_cons_of_neg (by simpa using hne)]

/-- Where a child goes, by its kind. -/
def bucketOf? (f : Forest) (c : NodeId) : Option NodeId :=
  f.addBuckets.2.ofKind? (f.node c).kind

theorem Owned.bucketize_eq_moveTo (h : f.Owned) (n : NodeId) :
    (f.bucketize n).1 = (f.children n).foldl (moveTo f.bucketOf?) f.addBuckets.1 := by
  rw [bucketize_eq, foldl_moveToBucket_eq]
  refine List.foldl_ext _ _ _ fun g c hc => ?_
  have hkind : f.addBuckets.1.node c = f.node c := node_addBuckets (h.child_lt hc)
  rw [moveTo, moveTo, hkind]
  rfl

theorem Owned.children_bucketize (h : f.Owned) (n p : NodeId) :
    (f.bucketize n).1.children p
      = (f.children p).filter (fun c => c ∉ f.children n ∨ f.bucketOf? c = none)
        ++ (f.children n).filter fun c => f.bucketOf? c = some p := by
  have haccepts : ∀ c ∈ f.children n, ∀ q, f.bucketOf? c = some q →
      f.addBuckets.1.Accepts q (f.children n) := fun _ _ _ hq => h.accepts_bucket hq
  have hloop := (Kept.refl h.addBuckets).children_foldl_moveTo haccepts (fun _ hc => hc) (h.nodup n) p
  rw [h.bucketize_eq_moveTo, hloop, children_addBuckets]

/-- Moving the former children of `n` back puts every list in its old order, also where some of
them had stayed. -/
theorem Owned.children_moveBack (h : f.Owned) (n p : NodeId) :
    ((f.children n).foldl (fun g c => g.append n c) (f.bucketize n).1).children p
      = f.children p := by
  have haccepts : ∀ c ∈ f.children n, ∀ q, some n = some q →
      f.addBuckets.1.Accepts q (f.children n) := by
    intro c hc q hq
    cases hq
    exact h.accepts_back hc
  have hloop := (h.kept_bucketize n).children_foldl_moveTo haccepts (fun _ hc => hc) (h.nodup n) p
  have hgone : ((f.children n).filter fun c => f.bucketOf? c = some p).filter
      (fun c => c ∉ f.children n ∨ some n = none) = [] :=
    List.filter_eq_nil_iff.2 fun c hc => by simp [List.mem_of_mem_filter hc]
  have hkept : ((f.children p).filter fun c => c ∉ f.children n ∨ f.bucketOf? c = none).filter
      (fun c => c ∉ f.children n ∨ some n = none)
        = (f.children p).filter fun c => c ∉ f.children n := by
    rw [List.filter_filter]
    refine List.filter_congr fun c _ => ?_
    by_cases hc : c ∈ f.children n
    · simp [hc]
    · simp [hc]
  show ((f.children n).foldl (moveTo fun _ => some n) (f.bucketize n).1).children p = _
  rw [hloop, h.children_bucketize, List.filter_append, hkept, hgone, List.append_nil]
  by_cases hp : p = n
  · subst hp
    rw [List.filter_eq_nil_iff.2 fun c hc => by simp [hc], List.nil_append,
      List.filter_eq_self.2 fun c _ => by simp]
  · have hother : ∀ c ∈ f.children p, c ∉ f.children n := fun c hc => h.not_mem_children hc hp
    have hne : some n ≠ some p := fun he => hp (Option.some.inj he).symm
    rw [List.filter_eq_self.2 fun c hc => by simp [hother c hc],
      List.filter_eq_nil_iff.2 fun c _ => by simpa using hne, List.append_nil]

end Outliner.Forest
