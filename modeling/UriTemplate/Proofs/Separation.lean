import UriTemplate.Proofs.Cut

/-! Rows of fields along which a URI can be cut in one way only. Captures of encoded text are
separated by characters that they do not take; one capture of a line may stand among them. What
comes before that capture is found from the left, what comes after it from the right. -/

set_option autoImplicit false

namespace UriTemplate

def Separates (text : List Char) : Prop :=
  ∃ c ∈ text, ¬ EncodedChar c

instance : DecidablePred Separates :=
  fun text => List.decidableBEx (¬ EncodedChar ·) text

namespace Separates

variable {between : List Char}

theorem takeWhile_append (separates : Separates between) (after : List Char) :
    (between ++ after).takeWhile (EncodedChar ·) = between.takeWhile (EncodedChar ·) := by
  induction between with
  | nil =>
    obtain ⟨c, member, -⟩ := separates
    cases member
  | cons d between ih =>
    simp only [List.cons_append, List.takeWhile_cons, decide_eq_true_eq]
    split
    · next encoded =>
      obtain ⟨c, member, outside⟩ := separates
      rcases List.mem_cons.mp member with rfl | member
      · exact absurd encoded outside
      · rw [ih ⟨c, member, outside⟩]
    · rfl

/-- Encoded text ends where the text after it separates. -/
theorem left_unique {taken other after rest : List Char} (separates : Separates between)
    (encoded : ∀ c ∈ taken, EncodedChar c) (also : ∀ c ∈ other, EncodedChar c)
    (same : taken ++ (between ++ after) = other ++ (between ++ rest)) : taken = other := by
  -- The encoded characters at the start reach into `between` but not beyond it.
  have run : ∀ {text : List Char}, (∀ c ∈ text, EncodedChar c) → ∀ tail,
      (text ++ (between ++ tail)).takeWhile (EncodedChar ·) =
        text ++ between.takeWhile (EncodedChar ·) := by
    intro text all tail
    rw [List.takeWhile_append_of_pos, separates.takeWhile_append]
    simpa only [decide_eq_true_eq] using all
  have runs := congrArg (List.takeWhile (EncodedChar ·)) same
  rw [run encoded, run also] at runs
  exact List.append_cancel_right runs

theorem right_unique {taken other before rest : List Char} (separates : Separates between)
    (encoded : ∀ c ∈ taken, EncodedChar c) (also : ∀ c ∈ other, EncodedChar c)
    (same : before ++ between ++ taken = rest ++ between ++ other) : taken = other := by
  have backward : Separates between.reverse := by
    simpa only [Separates, List.mem_reverse] using separates
  have flipped := congrArg List.reverse same
  simp only [List.reverse_append] at flipped
  have found := backward.left_unique (by simpa only [List.mem_reverse] using encoded)
    (by simpa only [List.mem_reverse] using also) flipped
  exact List.reverse_inj.mp found

end Separates

/-- Before each capture but the first there is text that separates it from the one before; `apart`
says whether it may come at once. -/
def Field.Separated : Bool → List Field → Prop
  | _, [] => True
  | apart, .text fixed :: rest => Separated (apart || decide (Separates fixed)) rest
  | apart, .capture _ :: rest => apart = true ∧ Separated false rest

theorem Field.Separated.ready {fields : List Field} {apart : Bool}
    (separated : Field.Separated apart fields) : Field.Separated true fields := by
  induction fields generalizing apart with
  | nil => trivial
  | cons field fields ih =>
    cases field with
    | text fixed =>
      change Field.Separated (true || decide (Separates fixed)) fields
      rw [Bool.true_or]
      exact ih separated
    | capture kind => exact ⟨rfl, separated.2⟩

def Field.leading : List Field → List Char
  | .text fixed :: rest => fixed ++ leading rest
  | _ => []

theorem Field.separates_leading {fields : List Field} {apart : Bool}
    (separated : Separated apart fields) {kind : Capture} (member : .capture kind ∈ fields) :
    apart = true ∨ Separates (leading fields) := by
  induction fields generalizing apart with
  | nil => cases member
  | cons field fields ih =>
    cases field with
    | capture first => exact Or.inl separated.1
    | text fixed =>
      have later : .capture kind ∈ fields := by simpa using member
      rcases ih separated later with ready | ⟨c, inside, outside⟩
      · rw [Bool.or_eq_true, decide_eq_true_eq] at ready
        refine ready.imp_right ?_
        rintro ⟨c, inside, outside⟩
        exact ⟨c, List.mem_append_left _ inside, outside⟩
      · exact Or.inr ⟨c, List.mem_append_right _ inside, outside⟩

namespace Cut

theorem starts {fields : List Field} {uri : List Char} {captures : Captures}
    (cut : Cut fields uri captures) : ∃ rest, uri = Field.leading fields ++ rest := by
  induction cut with
  | nil => exact ⟨[], rfl⟩
  | text fixed cut ih =>
    obtain ⟨rest, rfl⟩ := ih
    exact ⟨rest, (List.append_assoc _ _ _).symm⟩
  | capture admits cut ih => exact ⟨_, rfl⟩

-- Induction on the row, with the fixed text since the last capture kept in `between`. A capture is
-- determined only after all that follows it, which the hypothesis gives for any text before it.
theorem right_unique {fields : List Field} (encoded : .capture .line ∉ fields) {apart : Bool}
    (separated : Field.Separated apart fields) {before rest between uri other : List Char}
    {captures others : Captures} (cut : Cut fields uri captures) (also : Cut fields other others)
    (gap : apart = true → Separates between)
    (same : before ++ between ++ uri = rest ++ between ++ other) :
    uri = other ∧ captures = others := by
  induction fields generalizing apart before rest between uri other captures others with
  | nil =>
    cases cut
    cases also
    exact ⟨rfl, rfl⟩
  | cons field fields ih =>
    have inner : .capture .line ∉ fields := fun member => encoded (List.mem_cons_of_mem _ member)
    cases cut with
    | text fixed cut =>
      cases also with
      | text _ also =>
        have wider : (apart || decide (Separates fixed)) = true → Separates (between ++ fixed) := by
          rw [Bool.or_eq_true, decide_eq_true_eq]
          rintro (ready | ⟨c, member, outside⟩)
          · obtain ⟨c, member, outside⟩ := gap ready
            exact ⟨c, List.mem_append_left _ member, outside⟩
          · exact ⟨c, List.mem_append_right _ member, outside⟩
        obtain ⟨tails, found⟩ := ih inner separated cut also wider (by simpa using same)
        exact ⟨congrArg _ tails, found⟩
    | @capture _ tail taken _ kind admits cut =>
      cases also with
      | @capture _ spare given _ _ admitted also =>
        cases kind with
        | line => exact absurd List.mem_cons_self encoded
        | encoded =>
          have nearer : before ++ between ++ taken ++ [] ++ tail =
              rest ++ between ++ given ++ [] ++ spare := by simpa using same
          obtain ⟨rfl, rfl⟩ := ih inner separated.2 cut also nofun nearer
          have heads := List.append_cancel_right nearer
          rw [List.append_nil, List.append_nil] at heads
          obtain rfl := (gap separated.1).right_unique admits.2 admitted.2 heads
          exact ⟨rfl, rfl⟩

theorem head_unique {fields : List Field} (encoded : .capture .line ∉ fields)
    (separated : Field.Separated false fields) {taken given uri other : List Char}
    {captures others : Captures} (cut : Cut fields uri captures) (also : Cut fields other others)
    (same : taken ++ uri = given ++ other) : taken = given ∧ captures = others := by
  have padded : taken ++ [] ++ uri = given ++ [] ++ other := by
    rw [List.append_nil, List.append_nil, same]
  obtain ⟨rfl, found⟩ := right_unique encoded separated cut also nofun padded
  exact ⟨List.append_cancel_right same, found⟩

theorem unique {fields : List Field} {apart : Bool} (separated : Field.Separated apart fields)
    (single : fields.count (.capture .line) ≤ 1) {uri other : List Char}
    {captures others : Captures} (cut : Cut fields uri captures) (also : Cut fields other others)
    (same : uri = other) : captures = others := by
  induction fields generalizing apart uri other captures others with
  | nil =>
    cases cut
    cases also
    rfl
  | cons field fields ih =>
    cases cut with
    | text fixed cut =>
      cases also with
      | text _ also => 
        have fewer : fields.count (.capture .line) ≤ 1 := by simpa using single
        exact ih separated fewer cut also (List.append_cancel_left same)
    | @capture _ tail taken _ kind admits cut =>
      cases also with
      | @capture _ _ given _ _ admitted also =>
        cases kind with
        -- Only captures of encoded text are left, which the end of the URI determines.
        | line =>
          have last : .capture .line ∉ fields := by
            rw [List.count_cons_self] at single
            exact List.count_eq_zero.mp (by omega)
          obtain ⟨rfl, rfl⟩ := head_unique last separated.2 cut also same
          rfl
        | encoded =>
          have fewer : fields.count (.capture .line) ≤ 1 := by simpa using single
          -- Before another capture there is a character that ends this one.
          by_cases more : ∃ next, .capture next ∈ fields
          · obtain ⟨next, member⟩ := more
            have between := (Field.separates_leading separated.2 member).resolve_left nofun
            obtain ⟨after, rfl⟩ := cut.starts
            obtain ⟨rest, rfl⟩ := also.starts
            obtain rfl := between.left_unique admits.2 admitted.2 same
            rw [ih separated.2 fewer cut also (List.append_cancel_left same)]
          · have last : .capture .line ∉ fields := fun member => more ⟨_, member⟩
            obtain ⟨rfl, rfl⟩ := head_unique last separated.2 cut also same
            rfl

theorem search_eq {fields : List Field} {apart : Bool} (separated : Field.Separated apart fields)
    (single : fields.count (.capture .line) ≤ 1) {uri : List Char} {captures : Captures}
    (cut : Cut fields uri captures) : search (fields.flatMap Field.atoms) uri = some captures := by
  obtain ⟨found, greatest, -⟩ := (search_finds fields).greatest cut
  rw [greatest, ((search_finds fields).sound greatest).unique separated single cut rfl]

end Cut

end UriTemplate
