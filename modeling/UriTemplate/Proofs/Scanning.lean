import Mathlib.Data.List.Basic
import Mathlib.Data.List.TakeWhile
import UriTemplate.Braces

/-! Scanning as the inverse of rendering. `Scans` says what a scan finds, with one rule for each way
in which it can go on or end. The pieces of a scan that comes to the end of the text are in normal
form and render to the text, and a list of pieces in normal form is what is found in its rendering. -/

set_option autoImplicit false

namespace UriTemplate

def BraceFree (text : List Char) : Prop :=
  ∀ c ∈ text, c ≠ '{' ∧ c ≠ '}'

/-- What a scan finds in the rest of a template, which begins at a position. -/
inductive Scans : Nat → List Char → Scan → Prop where
  | plain {position : Nat} {text : List Char} :
      BraceFree text → Scans position text ⟨Piece.ofPlain text, none⟩
  | unmatched {position : Nat} {text rest : List Char} :
      BraceFree text →
      Scans position (text ++ '}' :: rest) ⟨[], some (.unmatched, position + text.length)⟩
  | unclosed {position : Nat} {text rest : List Char} :
      BraceFree text → '}' ∉ rest →
      Scans position (text ++ '{' :: rest)
        ⟨Piece.ofPlain text, some (.unclosed, position + text.length)⟩
  | nested {position : Nat} {text body rest : List Char} :
      BraceFree text → BraceFree body → '}' ∈ rest →
      Scans position (text ++ '{' :: (body ++ '{' :: rest))
        ⟨Piece.ofPlain text, some (.nested, position + text.length + 1 + body.length)⟩
  | empty {position : Nat} {text rest : List Char} :
      BraceFree text →
      Scans position (text ++ '{' :: '}' :: rest)
        ⟨Piece.ofPlain text, some (.empty, position + text.length)⟩
  | braced {position : Nat} {text body rest : List Char} {scan : Scan} :
      BraceFree text → BraceFree body → body ≠ [] →
      Scans (position + text.length + 1 + body.length + 1) rest scan →
      Scans position (text ++ '{' :: (body ++ '}' :: rest))
        (scan.prepend (Piece.ofPlain text ++ [.braced body (position + text.length)]))

def Piece.renderAll (pieces : List Piece) : List Char :=
  pieces.flatMap Piece.render

/-- Pieces as a scan finds them: all of them filled and free of braces, plain text never beside
plain text, and the position of an opening brace as it is in the rendering of the pieces, if that
begins at `start`. -/
structure Normal (start : Nat) (pieces : List Piece) : Prop where
  plain : ∀ text, .plain text ∈ pieces → text ≠ [] ∧ BraceFree text
  braced : ∀ body position, .braced body position ∈ pieces → body ≠ [] ∧ BraceFree body
  apart : ∀ before text next after, pieces ≠ before ++ .plain text :: .plain next :: after
  placed : ∀ before body position after, pieces = before ++ .braced body position :: after →
    position = start + (Piece.renderAll before).length

/-- Text and filled pairs of braces in a row, in any cut. -/
def Balanced (template : List Char) : Prop :=
  ∃ chunks : List (List Char), template = chunks.flatten ∧ ∀ chunk ∈ chunks,
    BraceFree chunk ∨ ∃ body, body ≠ [] ∧ BraceFree body ∧ chunk = '{' :: body ++ ['}']

/-! ## The scanner -/

theorem isBrace_iff {c : Char} : isBrace c = true ↔ c = '{' ∨ c = '}' := by
  simp [isBrace]

theorem braceFree_takeWhile (text : List Char) : BraceFree (text.takeWhile (!isBrace ·)) := by
  intro c member
  have plain := List.mem_takeWhile_imp member
  simpa [isBrace] using plain

theorem split_at_brace {text rest : List Char} {c : Char}
    (found : text.dropWhile (!isBrace ·) = c :: rest) :
    text.takeWhile (!isBrace ·) ++ c :: rest = text ∧ (c = '{' ∨ c = '}') := by
  refine ⟨found ▸ List.takeWhile_append_dropWhile, ?_⟩
  have head := List.head?_dropWhile_not (!isBrace ·) text
  rw [found] at head
  simpa [isBrace_iff] using head

theorem opening_of_dropWhile {text rest : List Char} {c : Char}
    (found : text.dropWhile (!isBrace ·) = c :: rest) (opens : c ≠ '}') :
    text.takeWhile (!isBrace ·) ++ '{' :: rest = text := by
  obtain ⟨split, either⟩ := split_at_brace found
  rwa [either.resolve_right opens] at split

theorem braceFree_of_dropWhile {text : List Char}
    (found : text.dropWhile (!isBrace ·) = []) :
    text.takeWhile (!isBrace ·) = text ∧ BraceFree text := by
  have whole : text.takeWhile (!isBrace ·) = text := by
    simpa [found] using List.takeWhile_append_dropWhile (p := (!isBrace ·)) (l := text)
  exact ⟨whole, whole ▸ braceFree_takeWhile text⟩

theorem scans_scanFrom (position : Nat) (text : List Char) :
    Scans position text (Scan.scanFrom position text) := by
  fun_induction Scan.scanFrom position text with
  | case1 position text plain ended =>
    obtain ⟨whole, free⟩ := braceFree_of_dropWhile ended
    simp only [plain, whole]
    exact .plain free
  | case2 position text plain opening rest found =>
    exact (split_at_brace found).1 ▸ .unmatched (braceFree_takeWhile text)
  | case3 position text plain opening brace inner found opens ended =>
    have unclosed : '}' ∉ inner := fun member =>
      ((braceFree_of_dropWhile ended).2 _ member).2 rfl
    exact opening_of_dropWhile found opens ▸ .unclosed (braceFree_takeWhile text) unclosed
  | case4 position text plain opening brace inner found opens body rest none closed =>
    have within := (split_at_brace closed).1
    rw [show inner.takeWhile (!isBrace ·) = [] from none, List.nil_append] at within
    have outer := opening_of_dropWhile found opens
    rw [← within] at outer
    exact outer ▸ .empty (braceFree_takeWhile text)
  | case5 position text plain opening brace inner found opens body ending rest filled closed _ ih =>
    have outer := opening_of_dropWhile found opens
    rw [← (split_at_brace closed).1] at outer
    exact outer ▸ .braced (braceFree_takeWhile text) (braceFree_takeWhile inner) filled ih
  | case6 position text plain opening brace inner found opens body ending other rest reopened
      opensAgain closed =>
    have outer := opening_of_dropWhile found opens
    rw [← opening_of_dropWhile reopened opensAgain] at outer
    exact outer ▸ .nested (braceFree_takeWhile text) (braceFree_takeWhile inner) closed
  | case7 position text plain opening brace inner found opens other rest reopened opensAgain never =>
    have unclosed : '}' ∉ inner := by
      rw [← opening_of_dropWhile reopened opensAgain, List.mem_append, List.mem_cons]
      rintro (inBody | brace | later)
      · exact (braceFree_takeWhile inner _ inBody).2 rfl
      · exact absurd brace (by decide)
      · exact never later
    exact opening_of_dropWhile found opens ▸ .unclosed (braceFree_takeWhile text) unclosed

/-! ## Normal form -/

theorem renderAll_cons (piece : Piece) (rest : List Piece) :
    Piece.renderAll (piece :: rest) = piece.render ++ Piece.renderAll rest :=
  rfl

theorem renderAll_append (first second : List Piece) :
    Piece.renderAll (first ++ second) = Piece.renderAll first ++ Piece.renderAll second :=
  List.flatMap_append

theorem renderAll_ofPlain (text : List Char) : Piece.renderAll (Piece.ofPlain text) = text := by
  unfold Piece.ofPlain
  split
  · next empty => exact empty.symm
  · exact List.flatMap_singleton _ _

theorem length_render_braced (start position : Nat) (body : List Char) :
    start + (Piece.braced body position).render.length = start + 1 + body.length + 1 := by
  simp [Piece.render]
  omega

section
variable {text : List Char} (free : BraceFree text)
include free

theorem not_isBrace_of_free : ∀ c ∈ text, (!isBrace c) = true := by
  intro c member
  simpa [isBrace] using free c member

theorem takeWhile_append_brace {c : Char} (brace : c = '{' ∨ c = '}') (rest : List Char) :
    (text ++ c :: rest).takeWhile (!isBrace ·) = text := by
  rw [List.takeWhile_append_of_pos (not_isBrace_of_free free),
    List.takeWhile_cons_of_neg (by simp [isBrace_iff, brace]), List.append_nil]

theorem dropWhile_append_brace {c : Char} (brace : c = '{' ∨ c = '}') (rest : List Char) :
    (text ++ c :: rest).dropWhile (!isBrace ·) = c :: rest := by
  rw [List.dropWhile_append_of_pos (not_isBrace_of_free free),
    List.dropWhile_cons_of_neg (by simp [isBrace_iff, brace])]

theorem scanFrom_plain (position : Nat) :
    Scan.scanFrom position text = ⟨Piece.ofPlain text, none⟩ := by
  have all := not_isBrace_of_free free
  rw [Scan.scanFrom]
  split
  · rw [List.takeWhile_eq_self_iff.mpr all]
  · next found => simp [List.dropWhile_eq_nil_iff.mpr all] at found

theorem scanFrom_closing (position : Nat) (rest : List Char) :
    Scan.scanFrom position (text ++ '}' :: rest) =
      ⟨[], some (.unmatched, position + text.length)⟩ := by
  rw [Scan.scanFrom]
  split
  · next found => simp [dropWhile_append_brace free] at found
  · next found =>
    rw [dropWhile_append_brace free (Or.inr rfl)] at found
    cases found
    rw [if_pos rfl, takeWhile_append_brace free (Or.inr rfl)]

theorem scanFrom_opening (position : Nat) (inner : List Char) :
    Scan.scanFrom position (text ++ '{' :: inner) =
      match inner.dropWhile (!isBrace ·) with
      | [] => ⟨Piece.ofPlain text, some (.unclosed, position + text.length)⟩
      | brace :: rest =>
        let body := inner.takeWhile (!isBrace ·)
        let ending := position + text.length + 1 + body.length
        if brace = '}' then
          if body = [] then ⟨Piece.ofPlain text, some (.empty, position + text.length)⟩
          else
            (Scan.scanFrom (ending + 1) rest).prepend
              (Piece.ofPlain text ++ [.braced body (position + text.length)])
        else if '}' ∈ rest then ⟨Piece.ofPlain text, some (.nested, ending)⟩
        else ⟨Piece.ofPlain text, some (.unclosed, position + text.length)⟩ := by
  rw [Scan.scanFrom]
  split
  · next found => simp [dropWhile_append_brace free] at found
  · next found =>
    rw [dropWhile_append_brace free (Or.inl rfl)] at found
    cases found
    rw [if_neg (by decide), takeWhile_append_brace free (Or.inl rfl)]
    split
    · next ended => simp only [ended]
    · next closed => simp only [closed]

end

theorem scanFrom_of_scans {position : Nat} {text : List Char} {scan : Scan}
    (scans : Scans position text scan) : Scan.scanFrom position text = scan := by
  induction scans with
  | plain free => exact scanFrom_plain free _
  | unmatched free => exact scanFrom_closing free _ _
  | @unclosed position text rest free never =>
    rw [scanFrom_opening free]
    split
    · rfl
    · next brace after found =>
      have suffix : brace :: after <:+ rest := found ▸ List.dropWhile_suffix _
      have opens : brace ≠ '}' := by
        rintro rfl
        exact never (suffix.mem List.mem_cons_self)
      have open_ : '}' ∉ after := fun member => never (suffix.mem (List.mem_cons_of_mem _ member))
      simp only [opens, open_, if_false]
  | nested free freeBody closed =>
    rw [scanFrom_opening free, dropWhile_append_brace freeBody (Or.inl rfl),
      takeWhile_append_brace freeBody (Or.inl rfl)]
    simp [closed]
  | empty free =>
    rw [scanFrom_opening free]
    rfl
  | braced free freeBody filled scans ih =>
    rw [scanFrom_opening free, dropWhile_append_brace freeBody (Or.inr rfl),
      takeWhile_append_brace freeBody (Or.inr rfl)]
    simp only [if_true, filled, if_false, ih]

theorem scanFrom_eq_iff {position : Nat} {text : List Char} {scan : Scan} :
    Scan.scanFrom position text = scan ↔ Scans position text scan :=
  ⟨fun same => same ▸ scans_scanFrom position text, scanFrom_of_scans⟩

theorem braceFree_nil : BraceFree [] :=
  fun _ member => nomatch member

def Piece.Formed (start : Nat) : Piece → Prop
  | .plain text => text ≠ [] ∧ BraceFree text
  | .braced body position => (body ≠ [] ∧ BraceFree body) ∧ position = start

theorem normal_nil (start : Nat) : Normal start [] :=
  ⟨fun _ member => (nomatch member), fun _ _ member => (nomatch member),
    fun _ _ _ _ split => absurd split.symm (by simp),
    fun _ _ _ _ split => absurd split.symm (by simp)⟩

theorem normal_cons {start : Nat} {piece : Piece} {rest : List Piece} :
    Normal start (piece :: rest) ↔
      piece.Formed start ∧
        (∀ text next after, piece = .plain text → rest ≠ .plain next :: after) ∧
        Normal (start + piece.render.length) rest := by
  constructor
  · intro normal
    refine ⟨?_, ?_, ?_⟩
    · cases piece with
      | plain text => exact normal.plain text List.mem_cons_self
      | braced body position =>
        exact ⟨normal.braced body position List.mem_cons_self,
          normal.placed [] body position rest rfl⟩
    · rintro text next after rfl rfl
      exact normal.apart [] text next after rfl
    · refine ⟨fun text member => normal.plain text (List.mem_cons_of_mem _ member),
        fun body position member => normal.braced body position (List.mem_cons_of_mem _ member),
        ?_, ?_⟩
      · rintro before text next after rfl
        exact normal.apart (piece :: before) text next after rfl
      · rintro before body position after rfl
        rw [normal.placed (piece :: before) body position after rfl, renderAll_cons,
          List.length_append, Nat.add_assoc]
  · rintro ⟨formed, apart, normal⟩
    refine ⟨?_, ?_, ?_, ?_⟩
    · intro text member
      rcases List.mem_cons.mp member with rfl | member
      · exact formed
      · exact normal.plain text member
    · intro body position member
      rcases List.mem_cons.mp member with rfl | member
      · exact formed.1
      · exact normal.braced body position member
    · intro before text next after split
      cases before with
      | nil =>
        cases split
        exact apart text next after rfl rfl
      | cons first before =>
        cases split
        exact normal.apart before text next after rfl
    · intro before body position after split
      cases before with
      | nil =>
        cases split
        exact formed.2
      | cons first before =>
        cases split
        rw [normal.placed before body position after rfl, renderAll_cons, List.length_append,
          Nat.add_assoc]

theorem normal_ofPlain {start : Nat} {text : List Char} (free : BraceFree text) :
    Normal start (Piece.ofPlain text) := by
  unfold Piece.ofPlain
  split
  · exact normal_nil start
  · next filled =>
    exact normal_cons.mpr ⟨⟨filled, free⟩, (fun _ _ _ _ same => nomatch same), normal_nil _⟩

theorem normal_ofPlain_braced {start : Nat} {text body : List Char} {rest : List Piece}
    (free : BraceFree text) (filled : body ≠ []) (freeBody : BraceFree body)
    (normal : Normal (start + text.length + 1 + body.length + 1) rest) :
    Normal start (Piece.ofPlain text ++ .braced body (start + text.length) :: rest) := by
  have braced : Normal (start + text.length) (.braced body (start + text.length) :: rest) := by
    refine normal_cons.mpr ⟨⟨⟨filled, freeBody⟩, rfl⟩, (fun _ _ _ same => nomatch same), ?_⟩
    rw [length_render_braced]
    exact normal
  unfold Piece.ofPlain
  split
  · next empty =>
    subst empty
    exact braced
  · next filled =>
    exact normal_cons.mpr ⟨⟨filled, free⟩, (fun _ _ _ _ same => nomatch same), braced⟩

/-! ## Scans that come to the end -/

theorem Scans.normal {position : Nat} {text : List Char} {scan : Scan}
    (scans : Scans position text scan) (ended : scan.fault = none) :
    Normal position scan.pieces ∧ Piece.renderAll scan.pieces = text := by
  induction scans with
  | plain free => exact ⟨normal_ofPlain free, renderAll_ofPlain _⟩
  | unmatched | unclosed | nested | empty => cases ended
  | braced free freeBody filled scans ih =>
    obtain ⟨normal, rendered⟩ := ih ended
    simp only [Scan.prepend, List.append_assoc, List.singleton_append]
    refine ⟨normal_ofPlain_braced free filled freeBody normal, ?_⟩
    simp [renderAll_append, renderAll_ofPlain, renderAll_cons, rendered, Piece.render]

-- Induction on the pieces. Plain text is not found as a piece before it is known what follows, so
-- the text that the scan has passed since the last brace is carried along.
theorem scans_of_normal {pieces : List Piece} {start : Nat} {text : List Char}
    (free : BraceFree text) (apart : text ≠ [] → ∀ next after, pieces ≠ .plain next :: after)
    (normal : Normal (start + text.length) pieces) :
    Scans start (text ++ Piece.renderAll pieces) ⟨Piece.ofPlain text ++ pieces, none⟩ := by
  induction pieces generalizing start text with
  | nil =>
    simp only [Piece.renderAll, List.flatMap_nil, List.append_nil]
    exact .plain free
  | cons piece rest ih =>
    obtain ⟨formed, later, normal⟩ := normal_cons.mp normal
    cases piece with
    | plain next =>
      have passed : text = [] := by
        by_contra filled
        exact apart filled next rest rfl
      subst passed
      have normal : Normal (start + next.length) rest := normal
      have found := ih formed.2 (fun _ other after => later next other after rfl) normal
      rw [Piece.ofPlain, if_neg formed.1] at found
      exact found
    | braced body position =>
      obtain ⟨⟨filled, freeBody⟩, rfl⟩ := formed
      rw [length_render_braced] at normal
      have found := ih braceFree_nil (fun filled => absurd rfl filled) normal
      have scans := Scans.braced free freeBody filled found
      simpa [renderAll_cons, Piece.render, Scan.prepend, Piece.ofPlain] using scans

theorem Scans.balanced {position : Nat} {text : List Char} {scan : Scan}
    (scans : Scans position text scan) (ended : scan.fault = none) : Balanced text := by
  obtain ⟨normal, rendered⟩ := scans.normal ended
  refine ⟨scan.pieces.map Piece.render, rendered.symm.trans List.flatMap_def, ?_⟩
  intro chunk member
  obtain ⟨piece, inside, rfl⟩ := List.mem_map.mp member
  cases piece with
  | plain text => exact Or.inl (normal.plain text inside).2
  | braced body place =>
    obtain ⟨filled, free⟩ := normal.braced body place inside
    exact Or.inr ⟨body, filled, free, rfl⟩

theorem scans_of_balanced {chunks : List (List Char)} {start : Nat} {text : List Char}
    (free : BraceFree text)
    (balanced : ∀ chunk ∈ chunks,
      BraceFree chunk ∨ ∃ body, body ≠ [] ∧ BraceFree body ∧ chunk = '{' :: body ++ ['}']) :
    ∃ pieces, Scans start (text ++ chunks.flatten) ⟨pieces, none⟩ := by
  induction chunks generalizing start text with
  | nil => exact ⟨_, by simpa using Scans.plain free⟩
  | cons chunk rest ih =>
    obtain ⟨first, later⟩ := List.forall_mem_cons.mp balanced
    rcases first with more | ⟨body, filled, freeBody, rfl⟩
    · have longer : BraceFree (text ++ chunk) := List.forall_mem_append.mpr ⟨free, more⟩
      obtain ⟨pieces, scans⟩ := ih longer later
      exact ⟨pieces, by simpa using scans⟩
    · obtain ⟨pieces, scans⟩ := ih braceFree_nil later
      exact ⟨_, by simpa [Scan.prepend] using Scans.braced free freeBody filled scans⟩

/-- Scanning and rendering are inverse on the texts that can be scanned to their end and the lists of
pieces in normal form, and such texts are those that are balanced. -/
theorem scan_inverts_render :
    (∀ (template : List Char) (pieces : List Piece),
      scan template = ⟨pieces, none⟩ ↔ Normal 0 pieces ∧ Piece.renderAll pieces = template) ∧
      ∀ template : List Char, (scan template).fault = none ↔ Balanced template := by
  refine ⟨fun template pieces => ?_, fun template => ?_⟩
  · rw [scan, scanFrom_eq_iff]
    constructor
    · exact fun scans => scans.normal rfl
    · rintro ⟨normal, rfl⟩
      exact scans_of_normal braceFree_nil (fun filled => absurd rfl filled) normal
  · constructor
    · exact (scans_scanFrom 0 template).balanced
    · rintro ⟨chunks, rfl, balanced⟩
      obtain ⟨pieces, scans⟩ : ∃ pieces, Scans 0 ([] ++ chunks.flatten) ⟨pieces, none⟩ :=
        scans_of_balanced braceFree_nil balanced
      rw [List.nil_append] at scans
      rw [scan, scanFrom_of_scans scans]

example : scan "a{b}{c}".toList = ⟨[.plain ['a'], .braced ['b'] 1, .braced ['c'] 4], none⟩ := by
  decide +kernel

end UriTemplate
