import UriTemplate.Proofs.Concatenation
import UriTemplate.Proofs.UriText

/-! Templates written from their parts. A well-formed template is the text of its parts in a row.
Conversely, parts that can be written give a well-formed template, in which literals side by side
are found as one and no other difference shows. -/

set_option autoImplicit false

namespace UriTemplate

namespace Part

def render : Part → List Char
  | .literal text => text
  | .expression e => '{' :: e.render ++ ['}']

/-- The part can be written, so that it is found again. -/
def WellFormed : Part → Prop
  | .literal text => BraceFree text
  | .expression e => e.specs ≠ [] ∧ ∀ spec ∈ e.specs, spec.WellFormed

end Part

/-! ## Written expressions -/

theorem UriText.of_chars {text : List Char} (all : ∀ c ∈ text, UriChar c) : UriText text := by
  induction text with
  | nil => exact .nil
  | cons c rest ih =>
    obtain ⟨first, later⟩ := List.forall_mem_cons.mp all
    exact .char first (ih later)

theorem Grammar.Spec.uriText {text : List Char} {spec : VarSpec} (written : Spec text spec) :
    UriText text := by
  cases written with
  | plain name => exact name.uriText
  | limited name =>
    apply name.uriText.append
    apply UriText.char (by decide)
    apply UriText.of_chars
    intro c member
    have digit := Nat.isDigit_of_mem_toDigits (by decide) (by decide) member
    exact Or.inl (by simp [Char.isAlphanum, digit])
  | exploded name => exact name.uriText.append (.single (by decide))

theorem Operator.uriText_render (op : Operator) : UriText op.render := by
  cases op with
  | simple => exact .nil
  | _ => exact .single (by decide)

theorem Expression.uriText_render {e : Expression} (formed : ∀ spec ∈ e.specs, spec.WellFormed) :
    UriText e.render := by
  apply e.operator.uriText_render.append
  apply UriText.intercalate (.single (by decide))
  rw [List.forall_mem_map]
  intro spec member
  exact (Grammar.spec_iff.mpr ⟨formed spec member, rfl⟩).uriText

theorem Expression.parse_render {e : Expression} (filled : e.specs ≠ [])
    (formed : ∀ spec ∈ e.specs, spec.WellFormed) : Expression.parse e.render = .ok e :=
  Grammar.parse_body.mpr ⟨_, Grammar.body_render e.operator filled formed⟩

theorem Expression.render_ne_nil {e : Expression} (filled : e.specs ≠ [])
    (formed : ∀ spec ∈ e.specs, spec.WellFormed) : e.render ≠ [] := by
  intro empty
  have rest := (Expression.parse_eq_ok.mp (Expression.parse_render filled formed)).1
  rw [empty] at rest
  exact rest rfl

/-! ## Templates of written parts -/

namespace Template

theorem parts_render {part : Part} (formed : part.WellFormed) :
    ∃ found, (Template.mk part.render).parts = .ok found ∧
      (found = [part] ∨ part = .literal [] ∧ found = []) := by
  cases part with
  | literal text =>
    rw [Part.render]
    refine ⟨_, parts_of_braceFree formed, ?_⟩
    split
    · next empty => exact Or.inr ⟨by rw [empty], rfl⟩
    · exact Or.inl rfl
  | expression e =>
    obtain ⟨filled, formed⟩ := formed
    have free := (Expression.uriText_render formed).braceFree
    have scans : Scans 0 ('{' :: (e.render ++ ['}'])) _ :=
      .braced braceFree_nil free (Expression.render_ne_nil filled formed) (.plain braceFree_nil)
    refine ⟨_, ?_, Or.inl rfl⟩
    rw [parts_eq_read, scan, Part.render, List.cons_append, scanFrom_of_scans scans,
      Scan.read_prepend, Expression.parse_render filled formed]
    rfl

section
variable {parts : List Part} (formed : ∀ part ∈ parts, part.WellFormed)
include formed

/-- The parts that are found in the text of written parts differ from these in literals alone. -/
theorem parts_flatMap_render :
    ∃ found, (Template.mk (parts.flatMap Part.render)).parts = .ok found ∧
      ∀ {β : Type} {f : Part → List β},
        (∀ text next, f (.literal (text ++ next)) = f (.literal text) ++ f (.literal next)) →
        found.flatMap f = parts.flatMap f := by
  induction parts with
  | nil => exact ⟨[], parts_of_braceFree braceFree_nil, fun _ => rfl⟩
  | cons part rest ih =>
    obtain ⟨first, later⟩ := List.forall_mem_cons.mp formed
    obtain ⟨alone, readFirst, same⟩ := parts_render first
    obtain ⟨others, readRest, sameRest⟩ := ih later
    refine ⟨Part.join alone others, ?_, ?_⟩
    · have both := parts_append readFirst ⟨rest.flatMap Part.render⟩
      rw [readRest] at both
      exact both
    · intro β f additive
      rw [Part.flatMap_join additive, sameRest additive, List.flatMap_cons]
      rcases same with rfl | ⟨rfl, rfl⟩
      · rw [List.flatMap_singleton]
      · have empty : f (.literal []) = [] := List.self_eq_append_right.mp (additive [] [])
        rw [empty, List.flatMap_nil]

theorem expand_flatMap_render (bindings : Bindings) :
    (Template.mk (parts.flatMap Part.render)).expand bindings =
      .ok (parts.flatMap (Part.expand bindings.value)) := by
  obtain ⟨found, read, same⟩ := parts_flatMap_render formed
  rw [expand_of_parts _ read, same fun _ _ => rfl]

end

/-! ## Templates as written parts -/

theorem render_of_piece {piece : Piece} {part : Part} (read : Part.ofPiece piece = .ok part) :
    part.render = piece.render := by
  cases piece with
  | plain text =>
    cases read
    rfl
  | braced body position =>
    obtain ⟨e, parsed, rfl⟩ := map_eq_ok.mp read
    obtain ⟨pieces, derived⟩ := Grammar.parse_body.mp parsed
    rw [Part.render, derived.render]
    rfl

section
variable {template : Template} {parts : List Part} (wellFormed : template.parts = .ok parts)
include wellFormed

theorem text_of_parts : template.text = parts.flatMap Part.render := by
  obtain ⟨ended, read⟩ := scan_of_parts wellFormed
  have rendered := ((scans_scanFrom 0 template.text).normal ended).2
  have same : parts.map Part.render = (scan template.text).pieces.map Piece.render := by
    rw [← List.forall₂_eq_eq_eq, List.forall₂_map_left_iff, List.forall₂_map_right_iff]
    exact read.flip.imp fun _ _ => render_of_piece
  rw [List.flatMap_def, same, ← List.flatMap_def]
  exact rendered.symm

theorem wellFormed_of_mem_parts : ∀ part ∈ parts, part.WellFormed := by
  intro part member
  cases part with
  | literal text => exact braceFree_of_literal wellFormed member
  | expression e =>
    obtain ⟨body, parsed⟩ := exists_parse_of_expression wellFormed member
    exact ⟨Expression.specs_ne_nil_of_parse parsed, Expression.wellFormed_of_parse parsed⟩

end

end Template

end UriTemplate
