import UriTemplate.TemplateError

/-! Templates cut at their braces into plain text and the bodies of expressions. -/

set_option autoImplicit false

namespace UriTemplate

inductive Piece where
  | plain (text : List Char)
  | braced (body : List Char) (position : Nat)
  deriving DecidableEq, Repr

def isBrace (c : Char) : Bool :=
  c == '{' || c == '}'

namespace Piece

def render : Piece → List Char
  | .plain text => text
  | .braced body _ => '{' :: body ++ ['}']

def body? : Piece → Option (List Char × Nat)
  | .plain _ => none
  | .braced body position => some (body, position)

def ofPlain (text : List Char) : List Piece :=
  if text = [] then [] else [.plain text]

end Piece

structure Scan where
  pieces : List Piece
  fault : Option (BraceFault × Nat)
  deriving DecidableEq, Repr

namespace Scan

def prepend (pieces : List Piece) (scan : Scan) : Scan :=
  { scan with pieces := pieces ++ scan.pieces }

/-- Scans the rest of a template, which begins at `position`. The text before an opening brace is
a piece even if the brace is at fault; before a stray closing brace it is none. -/
def scanFrom (position : Nat) (text : List Char) : Scan :=
  let plain := text.takeWhile (!isBrace ·)
  let opening := position + plain.length
  match hText : text.dropWhile (!isBrace ·) with
  | [] => ⟨Piece.ofPlain plain, none⟩
  | brace :: inner =>
    if brace = '}' then ⟨[], some (.unmatched, opening)⟩
    else
      let body := inner.takeWhile (!isBrace ·)
      let ending := opening + 1 + body.length
      match hInner : inner.dropWhile (!isBrace ·) with
      | [] => ⟨Piece.ofPlain plain, some (.unclosed, opening)⟩
      | brace :: rest =>
        if brace = '}' then
          if body = [] then ⟨Piece.ofPlain plain, some (.empty, opening)⟩
          else
            have shorter : rest.length < text.length := by
              have outer := (List.dropWhile_suffix (!isBrace ·) (l := text)).length_le
              have within := (List.dropWhile_suffix (!isBrace ·) (l := inner)).length_le
              simp only [hText, hInner, List.length_cons] at outer within
              omega
            (scanFrom (ending + 1) rest).prepend
              (Piece.ofPlain plain ++ [.braced body opening])
        -- A second opening brace is nested only if some brace closes the first.
        else if '}' ∈ rest then ⟨Piece.ofPlain plain, some (.nested, ending)⟩
        else ⟨Piece.ofPlain plain, some (.unclosed, opening)⟩
termination_by text.length

def error? (s : Scan) (template : List Char) : Option TemplateError :=
  s.fault.map fun (fault, position) => .brace fault template position

end Scan

def scan (template : List Char) : Scan :=
  Scan.scanFrom 0 template

end UriTemplate
