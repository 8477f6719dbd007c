import UriTemplate.Template.Basic
import UriTemplate.Proofs.Expression
import UriTemplate.Proofs.Scanning

/-! Well-formed templates. Their parts are read from the pieces of a scan that comes to its end, one
from each, so literals are free of braces and specifications well formed. Text without braces is a
well-formed template that stands for itself. -/

set_option autoImplicit false

namespace UriTemplate

theorem Scan.collect_eq_ok {α : Type} {read : Piece → Except TemplateError α}
    {fault : Option TemplateError} {pieces : List Piece} {found : List α} :
    collect read fault pieces = .ok found ↔
      fault = none ∧ List.Forall₂ (fun piece a => read piece = .ok a) pieces found := by
  induction pieces generalizing found with
  | nil => cases fault <;> simp [collect, eq_comm]
  | cons piece rest ih =>
    rw [List.forall₂_cons_left_iff, collect]
    cases first : read piece with
    | error e => simp
    | ok a =>
      rw [map_eq_ok]
      constructor
      · rintro ⟨others, later, rfl⟩
        exact ⟨(ih.mp later).1, a, others, rfl, (ih.mp later).2, rfl⟩
      · rintro ⟨ended, b, others, same, later, rfl⟩
        cases same
        exact ⟨others, ih.mpr ⟨ended, later⟩, rfl⟩

namespace Template

variable {template : Template} {parts : List Part} (wellFormed : template.parts = .ok parts)

section
include wellFormed

theorem scan_of_parts :
    (scan template.text).fault = none ∧
      List.Forall₂ (fun piece part => Part.ofPiece piece = .ok part) (scan template.text).pieces
        parts := by
  obtain ⟨ended, read⟩ := Scan.collect_eq_ok.mp wellFormed
  exact ⟨Option.map_eq_none_iff.mp ended, read⟩

theorem braceFree_of_literal {text : List Char} (member : .literal text ∈ parts) :
    BraceFree text := by
  obtain ⟨ended, read⟩ := scan_of_parts wellFormed
  obtain ⟨piece, inside, same⟩ := exists_of_forall₂ read member
  have normal := ((scans_scanFrom 0 template.text).normal ended).1
  cases piece with
  | plain other =>
    cases same
    exact (normal.plain text inside).2
  | braced body position =>
    obtain ⟨e, -, same⟩ := map_eq_ok.mp same
    cases same

theorem exists_parse_of_expression {e : Expression} (member : .expression e ∈ parts) :
    ∃ body, Expression.parse body = .ok e := by
  obtain ⟨-, read⟩ := scan_of_parts wellFormed
  obtain ⟨piece, -, same⟩ := exists_of_forall₂ read member
  cases piece with
  | plain text => cases same
  | braced body position =>
    obtain ⟨other, parsed, same⟩ := map_eq_ok.mp same
    cases same
    exact ⟨body, parsed⟩

theorem wellFormed_of_expression {e : Expression} (member : .expression e ∈ parts) :
    ∀ spec ∈ e.specs, spec.WellFormed := by
  obtain ⟨body, parsed⟩ := exists_parse_of_expression wellFormed member
  exact Expression.wellFormed_of_parse parsed

end

theorem parts_of_braceFree {text : List Char} (free : BraceFree text) :
    (Template.mk text).parts = .ok (if text = [] then [] else [.literal text]) := by
  have scanned : scan text = ⟨Piece.ofPlain text, none⟩ := scanFrom_plain free 0
  rw [parts, collect, Scan.collect_eq_ok]
  simp only [scanned, Piece.ofPlain]
  refine ⟨rfl, ?_⟩
  split
  · exact .nil
  · exact .cons rfl .nil

theorem labels_of_braceFree {text : List Char} (free : BraceFree text) :
    (Template.mk text).labels = .ok [] := by
  rw [labels_eq, parts_of_braceFree free]
  split <;> rfl

theorem expand_of_braceFree {text : List Char} (free : BraceFree text) (bindings : Bindings) :
    (Template.mk text).expand bindings = .ok text := by
  rw [expand_of_parts _ (parts_of_braceFree free)]
  split
  · next empty => rw [empty, List.flatMap_nil]
  · rw [List.flatMap_singleton, Part.expand]

end Template

end UriTemplate
