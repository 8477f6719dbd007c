import UriTemplate.Proofs.Joining
import UriTemplate.Proofs.Scanning

/-! Where a scan stops. The pieces found before a fault render to the beginning of the template, and
what stands behind that beginning decides which fault it is and where: each kind of fault has a
situation of its own, and no two of them agree on one text. -/

set_option autoImplicit false

namespace UriTemplate

/-- The character stands at the place, and nowhere between `start` and the place. -/
def FirstAfter (text : List Char) (c : Char) (start place : Nat) : Prop :=
  start < place ∧ text[place]? = some c ∧ c ∉ (text.drop (start + 1)).take (place - (start + 1))

/-- The situation of a fault, in a template that has been cut into pieces up to `reached`. -/
def BraceFault.At (template : List Char) (reached place : Nat) : BraceFault → Prop
  | .unmatched =>
    template[place]? = some '}' ∧ reached ≤ place ∧
      BraceFree ((template.drop reached).take (place - reached))
  | .unclosed =>
    place = reached ∧ template[place]? = some '{' ∧ '}' ∉ template.drop (place + 1)
  | .nested =>
    template[reached]? = some '{' ∧ FirstAfter template '{' reached place ∧
      ∃ closing, FirstAfter template '}' reached closing ∧ place < closing
  | .empty => place = reached ∧ (template.drop place).take 2 = ['{', '}']

/-! ## The text behind the pieces -/

/-- What is left of a template, from `start` on, where a scan cuts off nothing more. -/
inductive Halts (start : Nat) : List Char → BraceFault → Nat → Prop where
  | unmatched {text rest : List Char} :
      BraceFree text → Halts start (text ++ '}' :: rest) .unmatched (start + text.length)
  | unclosed {rest : List Char} : '}' ∉ rest → Halts start ('{' :: rest) .unclosed start
  | nested {body rest : List Char} :
      BraceFree body → '}' ∈ rest →
      Halts start ('{' :: (body ++ '{' :: rest)) .nested (start + 1 + body.length)
  | empty {rest : List Char} : Halts start ('{' :: '}' :: rest) .empty start

theorem Scans.halts {start : Nat} {text : List Char} {scan : Scan} (scans : Scans start text scan)
    {fault : BraceFault} {place : Nat} (stopped : scan.fault = some (fault, place)) :
    ∃ rest, text = Piece.renderAll scan.pieces ++ rest ∧
      Halts (start + (Piece.renderAll scan.pieces).length) rest fault place := by
  induction scans with
  | plain => cases stopped
  | unmatched free =>
    cases stopped
    exact ⟨_, rfl, .unmatched free⟩
  | unclosed free never =>
    cases stopped
    rw [renderAll_ofPlain]
    exact ⟨_, rfl, .unclosed never⟩
  | nested free freeBody closed =>
    cases stopped
    rw [renderAll_ofPlain]
    exact ⟨_, rfl, .nested freeBody closed⟩
  | empty free =>
    cases stopped
    rw [renderAll_ofPlain]
    exact ⟨_, rfl, .empty⟩
  | @braced start text body rest scan free freeBody filled scans ih =>
    obtain ⟨remaining, rfl, halts⟩ := ih stopped
    have cut : Piece.renderAll (scan.prepend
        (Piece.ofPlain text ++ [.braced body (start + text.length)])).pieces =
        text ++ '{' :: (body ++ '}' :: Piece.renderAll scan.pieces) := by
      simp [Scan.prepend, renderAll_append, renderAll_ofPlain, renderAll_cons, Piece.render]
    have counted : start + (text ++ '{' :: (body ++ '}' :: Piece.renderAll scan.pieces)).length =
        start + text.length + 1 + body.length + 1 + (Piece.renderAll scan.pieces).length := by
      simp only [List.length_append, List.length_cons]
      omega
    rw [cut, counted]
    exact ⟨remaining, by simp, halts⟩

section
variable {start : Nat} {text : List Char} {fault : BraceFault} {place : Nat}

theorem Halts.scans (halts : Halts start text fault place) :
    Scans start text ⟨[], some (fault, place)⟩ := by
  cases halts with
  | unmatched free => exact .unmatched free
  | unclosed never => exact .unclosed braceFree_nil never
  | nested free closed => exact .nested braceFree_nil free closed
  | empty => exact .empty braceFree_nil

theorem Halts.unique (halts : Halts start text fault place) {other : BraceFault} {elsewhere : Nat}
    (again : Halts start text other elsewhere) : other = fault ∧ elsewhere = place := by
  have same := (scanFrom_of_scans again.scans).symm.trans (scanFrom_of_scans halts.scans)
  simpa using same

theorem Halts.bounds (halts : Halts start text fault place) :
    start ≤ place ∧ place < start + text.length := by
  cases halts
  all_goals
    simp only [List.length_append, List.length_cons]
    omega

end

/-! ## Situations -/

section
variable {lead inner text : List Char}

theorem firstAfter_iff {opening c : Char} {place : Nat} :
    FirstAfter (lead ++ opening :: inner) c lead.length place ↔
      ∃ before after, inner = before ++ c :: after ∧ c ∉ before ∧
        place = lead.length + 1 + before.length := by
  have behind : (lead ++ opening :: inner).drop (lead.length + 1) = inner := by simp
  have found : ∀ i, (lead ++ opening :: inner)[lead.length + 1 + i]? = inner[i]? := by
    intro i
    rw [← List.getElem?_drop, behind]
  rw [FirstAfter, behind]
  constructor
  · rintro ⟨later, here, first⟩
    obtain ⟨i, rfl⟩ := Nat.exists_eq_add_of_lt later
    rw [Nat.add_right_comm, found] at here
    obtain ⟨before, after, rfl, rfl⟩ := exists_append_of_getElem? here
    refine ⟨before, after, rfl, ?_, Nat.add_right_comm _ _ _⟩
    rwa [Nat.add_right_comm, Nat.add_sub_cancel_left, List.take_left] at first
  · rintro ⟨before, after, rfl, first, rfl⟩
    refine ⟨by omega, ?_, ?_⟩
    · rw [found, List.getElem?_append_right (Nat.le_refl _), Nat.sub_self, List.getElem?_cons_zero]
    · rwa [Nat.add_sub_cancel_left, List.take_left]

theorem getElem?_lead (i : Nat) : (lead ++ text)[lead.length + i]? = text[i]? := by
  rw [List.getElem?_append_right (Nat.le_add_right _ _), Nat.add_sub_cancel_left]

theorem exists_cons_of_lead {c : Char} (found : (lead ++ text)[lead.length]? = some c) :
    ∃ rest, text = c :: rest := by
  rw [← Nat.add_zero lead.length, getElem?_lead] at found
  obtain ⟨before, after, rfl, empty⟩ := exists_append_of_getElem? found
  obtain rfl := List.eq_nil_of_length_eq_zero empty
  exact ⟨after, rfl⟩

theorem at_of_halts {fault : BraceFault} {place : Nat} (halts : Halts lead.length text fault place) :
    fault.At (lead ++ text) lead.length place := by
  have opens : ∀ {rest}, (lead ++ '{' :: rest)[lead.length]? = some '{' := by simp
  cases halts with
  | @unmatched text rest free =>
    refine ⟨by rw [getElem?_lead]; simp, Nat.le_add_right _ _, ?_⟩
    rwa [List.drop_left, Nat.add_sub_cancel_left, List.take_left]
  | unclosed never => exact ⟨rfl, opens, by simpa using never⟩
  | @nested body rest free closed =>
    have first : '{' ∉ body := fun member => (free _ member).1 rfl
    have early : '}' ∉ body := fun member => (free _ member).2 rfl
    obtain ⟨before, after, rfl, never⟩ := List.eq_append_cons_of_mem closed
    refine ⟨opens, firstAfter_iff.mpr ⟨body, _, rfl, first, rfl⟩, _,
      firstAfter_iff.mpr ⟨body ++ '{' :: before, after, by simp, by simp [early, never], rfl⟩, ?_⟩
    rw [List.length_append, List.length_cons]
    omega
  | empty => exact ⟨rfl, by simp⟩

theorem halts_of_at {fault : BraceFault} {place : Nat}
    (situated : fault.At (lead ++ text) lead.length place) :
    Halts lead.length text fault place := by
  cases fault with
  | unmatched =>
    obtain ⟨here, later, free⟩ := situated
    obtain ⟨i, rfl⟩ := Nat.exists_eq_add_of_le later
    rw [getElem?_lead] at here
    obtain ⟨before, after, rfl, rfl⟩ := exists_append_of_getElem? here
    rw [List.drop_left, Nat.add_sub_cancel_left, List.take_left] at free
    exact .unmatched free
  | unclosed =>
    obtain ⟨rfl, opens, never⟩ := situated
    obtain ⟨rest, rfl⟩ := exists_cons_of_lead opens
    exact .unclosed (by simpa using never)
  | nested =>
    obtain ⟨opens, again, closing, closes, early⟩ := situated
    obtain ⟨inner, rfl⟩ := exists_cons_of_lead opens
    obtain ⟨body, rest, rfl, first, rfl⟩ := firstAfter_iff.mp again
    obtain ⟨before, after, split, never, rfl⟩ := firstAfter_iff.mp closes
    -- The closing brace stands behind the second opening one, so the body is part of what it ends.
    obtain ⟨middle, rfl⟩ : body <+: before :=
      List.prefix_of_prefix_length_le (List.prefix_append _ _) ⟨_, split.symm⟩ (by omega)
    rw [List.append_assoc, List.append_cancel_left_eq] at split
    cases middle with
    | nil => simp at early
    | cons c middle =>
      obtain ⟨rfl, rfl⟩ := List.cons.inj split
      have free : BraceFree body := by
        intro c member
        constructor
        · rintro rfl
          exact first member
        · rintro rfl
          exact never (List.mem_append_left _ member)
      exact .nested free (by simp)
  | empty =>
    obtain ⟨rfl, both⟩ := situated
    rw [List.drop_left] at both
    rw [← List.take_append_drop 2 text, both]
    exact .empty

end

/-- A fault lies in the template, where the situation behind the pieces that were found before it is
that of this fault and of no other. -/
theorem faults_located {template : List Char} {e : TemplateError}
    (failed : (scan template).error? template = some e) :
    ∃ fault place reached, e = .brace fault template place ∧ place < template.length ∧
      Piece.renderAll (scan template).pieces = template.take reached ∧ reached ≤ place ∧
      ∀ other elsewhere,
        other.At template reached elsewhere ↔ other = fault ∧ elsewhere = place := by
  obtain ⟨⟨fault, place⟩, stopped, rfl⟩ := Option.map_eq_some_iff.mp failed
  obtain ⟨rest, split, halts⟩ := (scans_scanFrom 0 template).halts stopped
  have found : scan template = Scan.scanFrom 0 template := rfl
  rw [Nat.zero_add] at halts
  rw [found]
  clear failed stopped found
  generalize Piece.renderAll (Scan.scanFrom 0 template).pieces = lead at split halts ⊢
  subst split
  refine ⟨fault, place, lead.length, rfl, ?_, List.take_left.symm, halts.bounds.1,
    fun other elsewhere => ⟨fun situated => halts.unique (halts_of_at situated), ?_⟩⟩
  · rw [List.length_append]
    exact halts.bounds.2
  · rintro ⟨rfl, rfl⟩
    exact at_of_halts halts

theorem nested_brace_located :
    (scan "a{b}c{d{e}f}{}".toList).error? "a{b}c{d{e}f}{}".toList =
        some (.brace .nested "a{b}c{d{e}f}{}".toList 7) ∧
      ∃ reached, Piece.renderAll (scan "a{b}c{d{e}f}{}".toList).pieces =
          "a{b}c{d{e}f}{}".toList.take reached ∧
        BraceFault.nested.At "a{b}c{d{e}f}{}".toList reached 7 := by
  have failed : (scan "a{b}c{d{e}f}{}".toList).error? "a{b}c{d{e}f}{}".toList =
      some (.brace .nested "a{b}c{d{e}f}{}".toList 7) := by decide +kernel
  obtain ⟨fault, place, reached, same, -, cut, -, situated⟩ := faults_located failed
  cases same
  exact ⟨failed, reached, cut, (situated .nested 7).mpr ⟨rfl, rfl⟩⟩

end UriTemplate
