import UriTemplate.Entries
import UriTemplate.Pattern.Basic

/-! Matching of whole texts by rows of atoms. `search` says which captures are found; `sweep`
finds the same for every rest of the text at once, in time proportional to both lengths. -/

set_option autoImplicit false

namespace UriTemplate

abbrev Captures := List (List Char)

abbrev Extraction := Entries (List Char) (List Char)

namespace Captures

def extend (c : Char) : Captures → Captures
  | [] => []
  | first :: others => (c :: first) :: others

end Captures

namespace Atom

/-- Takes as many characters as it can, none if need be, and gives back what `next` needs. -/
def searchRun (accepts : Char → Bool) (next : List Char → Option Captures) :
    List Char → Option Captures
  | [] => (next []).map ([] :: ·)
  | c :: rest =>
    if accepts c then
      ((searchRun accepts next rest).map (Captures.extend c)).or ((next (c :: rest)).map ([] :: ·))
    else (next (c :: rest)).map ([] :: ·)

def searchSome (accepts : Char → Bool) (next : List Char → Option Captures) :
    List Char → Option Captures
  | [] => none
  | c :: rest =>
    if accepts c then (searchRun accepts next rest).map (Captures.extend c) else none

def searchChar (c : Char) (next : List Char → Option Captures) : List Char → Option Captures
  | [] => none
  | d :: rest => if c = d then next rest else none

def search (next : List Char → Option Captures) : Atom → List Char → Option Captures
  | char c => searchChar c next
  | capture kind =>
    if kind.acceptsEmpty then searchRun kind.accepts next else searchSome kind.accepts next

end Atom

/-- The captures of a text by a row of atoms, which has to match it whole: of all ways to match,
the one that makes each capture, from the left, as long as it can be. -/
def search : List Atom → List Char → Option Captures
  | [], text => if text = [] then some [] else none
  | atom :: atoms, text => atom.search (search atoms) text

def answers (next : List Char → Option Captures) : List Char → List (Option Captures)
  | [] => [next []]
  | c :: rest => next (c :: rest) :: answers next rest

/-- One row of answers from the row of what follows, from the end of the text to its front. A
step sees the character, the answers of what follows before and after it, and its own after it. -/
def sweepRow (last : Option Captures → Option Captures)
    (step : Char → Option Captures → Option Captures → Option Captures → Option Captures) :
    List Char → List (Option Captures) → List (Option Captures)
  | [], next => [last (next.headD none)]
  | c :: rest, next =>
    let below := sweepRow last step rest next.tail
    step c (next.headD none) (next.tail.headD none) (below.headD none) :: below

theorem headD_answers (next : List Char → Option Captures) (text : List Char) :
    (answers next text).headD none = next text := by
  cases text <;> rfl

theorem sweepRow_answers {last : Option Captures → Option Captures}
    {step : Char → Option Captures → Option Captures → Option Captures → Option Captures}
    {next own : List Char → Option Captures} (ends : own [] = last (next []))
    (steps : ∀ c rest, own (c :: rest) = step c (next (c :: rest)) (next rest) (own rest))
    (text : List Char) : sweepRow last step text (answers next text) = answers own text := by
  induction text with
  | nil => simp [sweepRow, answers, ends]
  | cons c rest ih =>
    simp only [sweepRow, answers, List.tail_cons, List.headD_cons, ih, headD_answers, steps]

namespace Atom

def sweepRun (accepts : Char → Bool) : List Char → List (Option Captures) → List (Option Captures) :=
  sweepRow (·.map ([] :: ·)) fun c here _ below =>
    if accepts c then (below.map (Captures.extend c)).or (here.map ([] :: ·))
    else here.map ([] :: ·)

def sweepSome (accepts : Char → Bool) (text : List Char) (next : List (Option Captures)) :
    List (Option Captures) :=
  sweepRow (fun _ => none)
    (fun c _ after _ => if accepts c then after.map (Captures.extend c) else none)
    text (sweepRun accepts text next)

def sweepChar (c : Char) : List Char → List (Option Captures) → List (Option Captures) :=
  sweepRow (fun _ => none) fun d _ after _ => if c = d then after else none

def sweep (text : List Char) (next : List (Option Captures)) : Atom → List (Option Captures)
  | char c => sweepChar c text next
  | capture kind =>
    if kind.acceptsEmpty then sweepRun kind.accepts text next
    else sweepSome kind.accepts text next

theorem sweepRun_answers (accepts : Char → Bool) (next : List Char → Option Captures)
    (text : List Char) :
    sweepRun accepts text (answers next text) = answers (searchRun accepts next) text :=
  sweepRow_answers rfl (fun _ _ => rfl) text

theorem sweep_answers (next : List Char → Option Captures) (atom : Atom) (text : List Char) :
    atom.sweep text (answers next text) = answers (atom.search next) text := by
  cases atom with
  | char c => exact sweepRow_answers rfl (fun _ _ => rfl) text
  | capture kind =>
    cases empty : kind.acceptsEmpty with
    | true => simp only [sweep, search, empty, if_true, sweepRun_answers]
    | false =>
      simp only [sweep, search, empty, Bool.false_eq_true, if_false, sweepSome, sweepRun_answers]
      exact sweepRow_answers rfl (fun _ _ => rfl) text

end Atom

def sweep : List Atom → List Char → List (Option Captures)
  | [], text => answers (search []) text
  | atom :: atoms, text => atom.sweep text (sweep atoms text)

theorem sweep_eq_answers (atoms : List Atom) (text : List Char) :
    sweep atoms text = answers (search atoms) text := by
  induction atoms with
  | nil => rfl
  | cons atom atoms ih =>
    rw [sweep, ih, Atom.sweep_answers]
    rfl

namespace Pattern

def captures (pattern : Pattern) (uri : List Char) : Option Captures :=
  (sweep pattern.atoms uri).headD none

theorem captures_eq_search (pattern : Pattern) (uri : List Char) :
    pattern.captures uri = search pattern.atoms uri := by
  rw [captures, sweep_eq_answers, headD_answers]

/-- Decoded captures under their labels. A label that occurs more than once has the last. -/
def extract (pattern : Pattern) (uri : List Char) : Option Extraction :=
  (pattern.captures uri).map fun captures =>
    Entries.ofList (pattern.labels.zip (captures.map Percent.decode))

end Pattern

end UriTemplate
