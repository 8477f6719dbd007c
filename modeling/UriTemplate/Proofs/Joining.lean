/-! Lists joined with separators, which elements they hold and how joined groups join, and lists cut
at a place. -/

set_option autoImplicit false

namespace UriTemplate

section
variable {α : Type} (sep : List α)

theorem intercalate_cons (first : List α) (rest : List (List α)) :
    sep.intercalate (first :: rest) = first ++ rest.flatMap (sep ++ ·) := by
  induction rest generalizing first with
  | nil => simp
  | cons next rest ih =>
    rw [List.intercalate_cons_cons, ih, List.flatMap_cons, List.append_assoc, List.append_assoc]

theorem flatMap_append_sep {lists : List (List α)} (filled : lists ≠ []) :
    lists.flatMap (sep ++ ·) = sep ++ sep.intercalate lists := by
  cases lists with
  | nil => exact absurd rfl filled
  | cons first rest => rw [intercalate_cons, List.flatMap_cons, List.append_assoc]

theorem intercalate_append {lists : List (List α)} (filled : lists ≠ []) (others : List (List α)) :
    sep.intercalate (lists ++ others) = sep.intercalate lists ++ others.flatMap (sep ++ ·) := by
  cases lists with
  | nil => exact absurd rfl filled
  | cons first rest =>
    rw [List.cons_append, intercalate_cons, List.flatMap_append, intercalate_cons,
      List.append_assoc]

theorem mem_intercalate {x : α} {lists : List (List α)} (member : x ∈ sep.intercalate lists) :
    x ∈ sep ∨ ∃ list ∈ lists, x ∈ list := by
  cases lists with
  | nil => simp at member
  | cons first rest =>
    rw [intercalate_cons, List.mem_append, List.mem_flatMap] at member
    rcases member with member | ⟨list, inside, member⟩
    · exact Or.inr ⟨first, List.mem_cons_self, member⟩
    · rcases List.mem_append.mp member with member | member
      · exact Or.inl member
      · exact Or.inr ⟨list, List.mem_cons_of_mem _ inside, member⟩

theorem intercalate_groups {groups : List (List (List α))} (filled : [] ∉ groups) :
    sep.intercalate (groups.map sep.intercalate) = sep.intercalate groups.flatten := by
  cases groups with
  | nil => rfl
  | cons group groups =>
    have first : group ≠ [] := by
      rintro rfl
      exact filled List.mem_cons_self
    have later : (groups.map sep.intercalate).flatMap (sep ++ ·) =
        groups.flatten.flatMap (sep ++ ·) := by
      rw [List.flatMap_map, List.flatten_eq_flatMap, List.flatMap_assoc, List.flatMap_def,
        List.flatMap_def]
      apply congrArg List.flatten
      apply List.map_congr_left
      intro other member
      refine (flatMap_append_sep sep ?_).symm
      rintro rfl
      exact filled (List.mem_cons_of_mem _ member)
    rw [List.map_cons, intercalate_cons, later, List.flatten_cons, intercalate_append sep first]

end

theorem exists_append_of_getElem? {α : Type} {xs : List α} {x : α} {place : Nat}
    (found : xs[place]? = some x) :
    ∃ before after, xs = before ++ x :: after ∧ before.length = place := by
  obtain ⟨bound, rfl⟩ := List.getElem?_eq_some_iff.mp found
  refine ⟨xs.take place, xs.drop (place + 1), ?_, List.length_take_of_le (Nat.le_of_lt bound)⟩
  rw [← List.drop_eq_getElem_cons bound, List.take_append_drop]

end UriTemplate
