import Outliner.Proofs.VisibleRows

/-!
# Glyphs and labels

The text of a row is made of glyphs of the style and then the label of the node (`Tree.textAt_eq`). What is
drawn before the label depends on the place and the state of the node but not on its label, and has no
character that is in no glyph (`Tree.exists_glyph_of_mem`).
-/

namespace Outliner

/-! ### The glyphs of a style -/

namespace Lead

def toList (l : Lead) : List String :=
  [l.leaf, l.opened, l.closed]

theorem pick_mem_toList (l : Lead) (fold : Fold) : l.pick fold ∈ l.toList := by
  cases fold <;> simp [pick, toList]

end Lead

namespace Style

variable {s : Style} {style : String} {spacing : Int}

def glyphs (s : Style) : List String :=
  s.root.toList ++ s.last.toList ++ s.first.toList ++ s.nth.toList ++ [s.link, s.empty]

theorem pick_root_mem_glyphs (s : Style) (fold : Fold) : s.root.pick fold ∈ s.glyphs := by
  simp [glyphs, s.root.pick_mem_toList fold]

theorem pick_lead_mem_glyphs (s : Style) (place : Place) (fold : Fold) :
    (s.lead place).pick fold ∈ s.glyphs := by
  have hpick := (s.lead place).pick_mem_toList fold
  cases place <;> simp only [glyphs, List.mem_append]
  · exact .inl (.inl (.inl (.inr hpick)))
  · exact .inl (.inl (.inr hpick))
  · exact .inl (.inr hpick)

theorem link_mem_glyphs (s : Style) : s.link ∈ s.glyphs := by
  simp [glyphs]

theorem empty_mem_glyphs (s : Style) : s.empty ∈ s.glyphs := by
  simp [glyphs]

theorem glyphs_widen (s : Style) (n : Nat) :
    (s.widen n).glyphs = s.glyphs.map (· ++ String.join (List.replicate n s.fill)) := rfl

theorem exists_preset_of_resolve (h : resolve style spacing = .ok s) :
    ∃ p ∈ presets, s = p.widen spacing.toNat := by
  unfold resolve at h
  split at h
  · cases h
  · next p hp =>
    unfold padded at h
    split at h
    · cases h
    · cases h
      exact ⟨p, List.mem_of_find?_eq_some hp, rfl⟩

end Style

/-! ### Before the label -/

namespace Tree

variable {s : Style} {c : Char}

/-- What is drawn before the label of the node `u` that the path leads to. -/
def glyphsAt (s : Style) (hideRoot : Bool) (t : Tree) (path : List Nat) (u : Tree) : String :=
  if path = [] then s.root.pick u.fold
  else
    (if hideRoot then "" else s.empty) ++ t.paddingAt s path ++ (t.leadAt s hideRoot path).pick u.fold

theorem textAt_eq (s : Style) (label : Node → String) (hideRoot : Bool) (t : Tree) (path : List Nat)
    (u : Tree) : t.textAt s label hideRoot path u = t.glyphsAt s hideRoot path u ++ label u.node := by
  unfold textAt glyphsAt
  split <;> rfl

theorem exists_leadAt_eq (s : Style) (hideRoot : Bool) (t : Tree) (path : List Nat) :
    ∃ place, t.leadAt s hideRoot path = s.lead place := by
  unfold leadAt
  split
  · exact ⟨.last, rfl⟩
  · split
    · exact ⟨.first, rfl⟩
    · exact ⟨.nth, rfl⟩

theorem exists_glyph_of_mem_paddingAt {t : Tree} {path : List Nat}
    (hc : c ∈ (t.paddingAt s path).toList) : ∃ g ∈ s.glyphs, c ∈ g.toList := by
  rw [paddingAt, String.toList_join, List.mem_flatMap] at hc
  obtain ⟨g, hg, hc⟩ := hc
  obtain ⟨i, -, rfl⟩ := List.mem_map.1 hg
  split at hc
  · exact ⟨_, s.empty_mem_glyphs, hc⟩
  · exact ⟨_, s.link_mem_glyphs, hc⟩

theorem exists_glyph_of_mem {hideRoot : Bool} {t u : Tree} {path : List Nat}
    (hc : c ∈ (t.glyphsAt s hideRoot path u).toList) : ∃ g ∈ s.glyphs, c ∈ g.toList := by
  unfold glyphsAt at hc
  split at hc
  · exact ⟨_, s.pick_root_mem_glyphs u.fold, hc⟩
  · rw [String.toList_append, String.toList_append, List.mem_append, List.mem_append] at hc
    rcases hc with (hc | hc) | hc
    · split at hc
      · cases hc
      · exact ⟨_, s.empty_mem_glyphs, hc⟩
    · exact exists_glyph_of_mem_paddingAt hc
    · obtain ⟨place, hplace⟩ := t.exists_leadAt_eq s hideRoot path
      rw [hplace] at hc
      exact ⟨_, s.pick_lead_mem_glyphs place u.fold, hc⟩

end Tree

end Outliner
