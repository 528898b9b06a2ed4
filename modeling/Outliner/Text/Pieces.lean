/-!
# Cutting a list at its separators

`pieces sep xs` cuts `xs` at every element for which `sep` holds. There is always one piece more
than there are separators, so the pieces may be empty.
-/

namespace Outliner.Text

def pieces {α : Type} (sep : α → Bool) (xs : List α) : List (List α) :=
  xs.foldr (fun x ps => if sep x then [] :: ps else (x :: ps.headD []) :: ps.tail) [[]]

/-- The lines of a text; only the line feed ends a line. -/
def lines (text : String) : List (List Char) :=
  pieces (· == '\n') text.toList

variable {α : Type} (sep : α → Bool)

@[simp] theorem pieces_nil : pieces sep [] = [[]] := rfl

theorem pieces_cons (x : α) (xs : List α) :
    pieces sep (x :: xs)
      = if sep x then [] :: pieces sep xs
        else (x :: (pieces sep xs).headD []) :: (pieces sep xs).tail := rfl

theorem pieces_ne_nil (xs : List α) : pieces sep xs ≠ [] := by
  cases xs with
  | nil => simp
  | cons x xs => rw [pieces_cons]; split <;> simp

theorem pieces_append_cons {x : α} (hx : sep x = true) (xs ys : List α) :
    pieces sep (xs ++ x :: ys) = pieces sep xs ++ pieces sep ys := by
  induction xs with
  | nil =>
    rw [List.nil_append, pieces_cons, if_pos hx]
    rfl
  | cons a xs ih =>
    rw [List.cons_append, pieces_cons, pieces_cons, ih]
    split
    · rfl
    · obtain ⟨p, ps, hp⟩ := List.exists_cons_of_ne_nil (pieces_ne_nil sep xs)
      rw [hp]
      rfl

/-- What stands before the first separator goes to the first piece. -/
theorem pieces_append_of_forall {xs : List α} (hxs : ∀ x ∈ xs, sep x = false) (ys : List α) :
    pieces sep (xs ++ ys) = (xs ++ (pieces sep ys).headD []) :: (pieces sep ys).tail := by
  induction xs with
  | nil =>
    obtain ⟨p, ps, hp⟩ := List.exists_cons_of_ne_nil (pieces_ne_nil sep ys)
    rw [List.nil_append, hp]
    rfl
  | cons x xs ih =>
    have hx : sep x ≠ true := by simp [hxs x List.mem_cons_self]
    rw [List.cons_append, pieces_cons, if_neg hx, ih fun y hy => hxs y (List.mem_cons_of_mem x hy)]
    rfl

theorem lines_of_newline_not_mem {s : String} (hs : '\n' ∉ s.toList) : lines s = [s.toList] := by
  have hsep : ∀ c ∈ s.toList, (c == '\n') = false := fun c hc =>
    beq_eq_false_iff_ne.2 fun heq => hs (heq ▸ hc)
  have h := pieces_append_of_forall (· == '\n') hsep []
  rwa [List.append_nil, pieces_nil, List.headD_cons, List.append_nil] at h

theorem lines_append (s t : String) : lines (s ++ "\n" ++ t) = lines s ++ lines t := by
  rw [lines, String.toList_append, String.toList_append, List.append_assoc]
  exact pieces_append_cons _ rfl s.toList t.toList

/-- Behind the last line feed there is one line more, which is empty. -/
theorem lines_join {ss : List String} (h : ∀ s ∈ ss, '\n' ∉ s.toList) :
    lines (String.join (ss.map (· ++ "\n"))) = ss.map String.toList ++ [[]] := by
  induction ss with
  | nil => rfl
  | cons s ss ih =>
    have hs := lines_of_newline_not_mem (h s List.mem_cons_self)
    rw [List.map_cons, String.join_cons, lines_append, hs, ih fun t ht => h t (List.mem_cons_of_mem s ht)]
    rfl

end Outliner.Text
