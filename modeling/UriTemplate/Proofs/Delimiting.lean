import UriTemplate.Proofs.Decoding
import UriTemplate.Proofs.Grammar

/-! Decoding piece by piece. No triplet goes across a character that no triplet has, and a sequence of
octets that is cut short gives one replacement whether such a character comes next or the text ends. So
it makes no difference whether a text is decoded as a whole or in the pieces between such characters;
for the characters of triplets it does. -/

set_option autoImplicit false

namespace UriTemplate.Percent

/-- The character keeps apart what is decoded on its two sides, of a text that is decoded token by
token or run by run, and of one with any number of such characters. -/
structure Divides (c : Char) : Prop where
  sides : ∀ before after, decode (before ++ c :: after) = decode before ++ c :: decode after
  runs : ∀ before after,
    decodeRuns (before ++ c :: after) = decodeRuns before ++ c :: decodeRuns after
  pieces : ∀ pieces, decode ([c].intercalate pieces) = [c].intercalate (pieces.map decode)
  cut : ∀ text, decode text = [c].intercalate ((text.splitOn c).map decode)

section
variable {c : Char} (plain : c ≠ '%') (notHex : Text.Hex.value? c = none)
include plain notHex

theorem decode_intercalate (pieces : List (List Char)) :
    decode ([c].intercalate pieces) = [c].intercalate (pieces.map decode) := by
  induction pieces with
  | nil => rfl
  | cons piece rest ih =>
    cases rest with
    | nil => simp only [List.map_cons, List.map_nil, List.intercalate_singleton]
    | cons next rest =>
      rw [List.intercalate_cons_cons, List.append_assoc, List.singleton_append,
        decode_append plain notHex, ih, List.map_cons, List.map_cons, List.map_cons,
        List.intercalate_cons_cons, List.append_assoc, List.singleton_append]

theorem divides_of_plain : Divides c where
  sides := decode_append plain notHex
  runs before after := by
    simp only [← decode_eq_decodeRuns, decode_append plain notHex]
  pieces := decode_intercalate plain notHex
  cut text := by
    rw [← decode_intercalate plain notHex, List.intercalate_splitOn]

end

theorem not_divides_hexDigit {c : Char} (digit : c ∈ Grammar.hexDigits) : ¬ Divides c := by
  have shorter : (Grammar.hexDigits.all fun c => decide
      (decode ("%4".toList ++ [c]) ≠ decode "%4".toList ++ [c])) = true := by decide +kernel
  intro divides
  exact of_decide_eq_true (List.all_eq_true.mp shorter c digit) (divides.sides "%4".toList [])

theorem not_divides_percent : ¬ Divides '%' := by
  intro divides
  exact absurd (divides.sides [] "41".toList) (by decide +kernel)

/-- The delimiters that cut text into pieces for decoding are all characters but those of triplets. -/
theorem divides_iff {c : Char} : Divides c ↔ c ≠ '%' ∧ c ∉ Grammar.hexDigits := by
  constructor
  · intro divides
    refine ⟨?_, fun digit => not_divides_hexDigit digit divides⟩
    rintro rfl
    exact not_divides_percent divides
  · rintro ⟨plain, other⟩
    apply divides_of_plain plain
    rw [← Option.not_isSome_iff_eq_none, ← Grammar.mem_hexDigits]
    exact other

-- Sequences that are cut short by the delimiter and by the end, and a triplet that is none.
example : decode "%E2%82&%4&%C3".toList = "\uFFFD&%4&\uFFFD".toList := by
  decide +kernel

end UriTemplate.Percent
