import Outliner.Proofs.Runs

/-!
# The outline after a navbar

The style of a navbar is looked up between the move of the top level into the buckets and the move
back. So a navbar that fails leaves the outline as it was exactly if there was nothing to move
(`renderNavbar_error_unchanged_iff`).
-/

namespace Outliner

theorem Style.resolve_error_cause {style : String} {spacing : Int} {e : StyleError}
    (he : resolve style spacing = .error e) : preset? style = none ∨ spacing < 0 := by
  unfold resolve at he
  split at he
  · next hnone => exact .inl hnone
  · unfold padded at he
    split at he
    · next hneg => exact .inr hneg
    · cases he

namespace Forest

variable {f g : Forest} {c n p : Nat} {style : String} {spacing : Int} {label : Node → String}
  {e : StyleError}

/-- Every node of `f` has the children, the parent and the collapse state in `g` that it has
in `f`. -/
def Unchanged (f g : Forest) : Prop :=
  ∀ m, m < f.size → g.children m = f.children m ∧ g.parent? m = f.parent? m ∧
    g.closed m = f.closed m

theorem unchanged_addBuckets (f : Forest) : Unchanged f f.addBuckets.1 :=
  fun _ hm => ⟨children_addBuckets, parent?_addBuckets, closed_addBuckets hm⟩

/-- There is a bucket for every node that has a kind. -/
theorem exists_bucket {b : Buckets} {k : Kind} (hk : k ≠ .kindless) : ∃ p, b.ofKind? k = some p := by
  cases k with
  | kindless => exact absurd rfl hk
  | classDef => exact ⟨_, rfl⟩
  | function => exact ⟨_, rfl⟩
  | constant => exact ⟨_, rfl⟩

/-- `bucketize` takes every child that has a kind away from its parent. -/
theorem Owned.parent?_bucketize_ne (h : f.Owned) (hc : c ∈ f.children n)
    (hk : (f.node c).kind ≠ .kindless) : (f.bucketize n).1.parent? c ≠ f.parent? c := by
  have hlt : c < f.size := h.child_lt hc
  have hkind : (f.addBuckets.1.node c).kind ≠ .kindless := by rwa [node_addBuckets hlt]
  obtain ⟨p, hp⟩ := exists_bucket (b := f.addBuckets.2) hkind
  have hmoved : (f.bucketize n).1.parent? c = some p := by
    rw [bucketize_eq]
    exact parent?_foldl_moveToBucket hc ((h.accepts_back hc).2 c hc).1 hp
  have hparent : f.parent? c = some n := h.parent?_of_mem hc
  rw [hmoved, hparent]
  intro hpn
  -- the bucket is newer than every node of `f`
  have hle := (bucket_bounds hp).1
  have hn : n < f.size := h.parent_lt hparent
  cases hpn
  exact Nat.not_lt.2 hle hn

theorem unchanged_bucketize (hk : ∀ c ∈ f.children n, (f.node c).kind = .kindless)
    (hlt : ∀ c ∈ f.children n, c < f.size) : Unchanged f (f.bucketize n).1 := by
  have hstay : (f.bucketize n).1 = f.addBuckets.1 := by
    rw [bucketize_eq]
    refine foldl_moveToBucket_of_kindless fun c hc => ?_
    rw [node_addBuckets (hlt c hc), hk c hc]
  rw [hstay]
  exact unchanged_addBuckets f

/-- A navbar fails over an unknown style or a negative spacing, and then leaves the forest as it was
exactly if no child of the node has a kind. -/
theorem renderNavbar_error_unchanged_iff (h : f.Reached)
    (he : (f.renderNavbar n style spacing label).1 = .error e) :
    (Style.preset? style = none ∨ spacing < 0) ∧
      (Unchanged f (f.renderNavbar n style spacing label).2 ↔
        ∀ c ∈ f.children n, (f.node c).kind = .kindless) := by
  cases hs : Style.resolve style spacing with
  | ok s =>
    rw [renderNavbar_of_ok hs] at he
    cases he
  | error e' =>
    refine ⟨Style.resolve_error_cause hs, ?_⟩
    rw [renderNavbar_of_error hs]
    constructor
    · intro hsame c hc
      by_contra hk
      exact h.owned.parent?_bucketize_ne hc hk (hsame c (h.owned.child_lt hc)).2.1
    · exact fun hk => unchanged_bucketize hk fun c hc => h.owned.child_lt hc

/-- The class of `oneClass` has no children, so its own navbar may fail. -/
theorem renderNavbar_error_unchanged_leaf :
    oneClass.Reached ∧ (oneClass.renderNavbar 1 "box" (-1) Node.name).1 = .error .negativeSpacing ∧
      Unchanged oneClass (oneClass.renderNavbar 1 "box" (-1) Node.name).2 := by
  have he : (oneClass.renderNavbar 1 "box" (-1) Node.name).1 = .error .negativeSpacing := rfl
  exact ⟨oneClass_reached, he,
    (renderNavbar_error_unchanged_iff oneClass_reached he).2.2 (by decide)⟩

/-- The root of `oneClass` loses the class to a bucket. -/
theorem renderNavbar_error_strands :
    oneClass.Reached ∧
      (oneClass.renderNavbar 0 "nameless" 0 Node.name).1 = .error (.unknown "nameless") ∧
      oneClass.children 0 = [1] ∧ oneClass.parent? 1 = some 0 ∧
      (oneClass.renderNavbar 0 "nameless" 0 Node.name).2.children 0 = [] ∧
      (oneClass.renderNavbar 0 "nameless" 0 Node.name).2.parent? 1 = some 2 ∧
      ¬ Unchanged oneClass (oneClass.renderNavbar 0 "nameless" 0 Node.name).2 := by
  refine ⟨oneClass_reached, rfl, by decide, by decide, by decide, by decide, fun h => ?_⟩
  exact absurd (h 0 (by decide)).1 (by decide)

end Forest

end Outliner
