import UriTemplate.Proofs.RoundTrip
import UriTemplate.Proofs.UriText

/-! Reserved encoding as a retraction onto URI text: it gives such text, and leaves it as it is. What
unreserved encoding gives is URI text of a narrower kind, which a simple capture takes whole. -/

set_option autoImplicit false

namespace UriTemplate

def UnreservedChar (c : Char) : Prop :=
  c.isAlphanum = true ∨ c ∈ "-._~".toList

def upperHexDigits : List Char :=
  "0123456789ABCDEF".toList

/-- An unreserved character, or an octet as a triplet in upper case. -/
inductive EncodedUnit : List Char → Prop where
  | char {c : Char} : UnreservedChar c → EncodedUnit [c]
  | triplet {high low : Char} :
      high ∈ upperHexDigits → low ∈ upperHexDigits → EncodedUnit ['%', high, low]

def EncodedText (text : List Char) : Prop :=
  ∃ units : List (List Char), text = units.flatten ∧ ∀ unit ∈ units, EncodedUnit unit

theorem unreservedChar_iff {c : Char} : UnreservedChar c ↔ Percent.isUnreserved c = true := by
  simp only [UnreservedChar, Percent.isUnreserved, Bool.or_eq_true, beq_iff_eq, or_assoc]
  exact or_congr_right (by simp)

theorem uriChar_iff {c : Char} :
    UriChar c ↔ (Percent.isUnreserved c || Percent.isReserved c) = true := by
  rw [Bool.or_eq_true]
  constructor
  · have general : (":/?#[]@".toList.all Percent.isReserved) = true := by decide
    have inner : (['!', '$', '&', '\'', '(', ')', '*', '+', ',', ';', '='].all
      Percent.isReserved) = true := by decide
    rintro (letter | mark | delimiter | delimiter)
    · exact Or.inl (unreservedChar_iff.mp (Or.inl letter))
    · exact Or.inl (unreservedChar_iff.mp (Or.inr mark))
    · exact Or.inr (List.all_eq_true.mp general c delimiter)
    · exact Or.inr (List.all_eq_true.mp inner c delimiter)
  · exact fun kept => kept.elim uriChar_of_unreserved uriChar_of_reserved

theorem mem_hexDigits_of_upper {c : Char} (digit : c ∈ upperHexDigits) : c ∈ Grammar.hexDigits := by
  have all : (upperHexDigits.all fun c => decide (c ∈ Grammar.hexDigits)) = true := by decide
  exact of_decide_eq_true (List.all_eq_true.mp all c digit)

theorem EncodedText.uriText {text : List Char} (encoded : EncodedText text) : UriText text := by
  obtain ⟨units, rfl, all⟩ := encoded
  rw [List.flatten_eq_flatMap]
  apply UriText.flatMap
  intro unit member
  cases all unit member with
  | char unreserved => exact .single (uriChar_of_unreserved (unreservedChar_iff.mp unreserved))
  | triplet high low =>
    exact .triplet (mem_hexDigits_of_upper high) (mem_hexDigits_of_upper low) .nil

namespace Percent

/-! ## Reserved encoding of URI text -/

theorem encodeReserved_char {c : Char} (allowed : UriChar c) (rest : List Char) :
    encodeReserved (c :: rest) = c :: encodeReserved rest := by
  have kept := uriChar_iff.mp allowed
  simp only [encodeReserved, tokens_char allowed.ne_percent, List.flatMap_cons, kept, if_true,
    List.singleton_append]

theorem encodeReserved_triplet {high low : Char} (first : high ∈ Grammar.hexDigits)
    (second : low ∈ Grammar.hexDigits) (rest : List Char) :
    encodeReserved ('%' :: high :: low :: rest) = '%' :: high :: low :: encodeReserved rest := by
  have split := tokens_triplet ⟨high, Grammar.mem_hexDigits.mp first⟩
    ⟨low, Grammar.mem_hexDigits.mp second⟩ rest
  rw [encodeReserved, split, List.flatMap_cons]
  rfl

theorem encodeReserved_of_uriText {text : List Char} (clean : UriText text) :
    encodeReserved text = text := by
  induction clean with
  | nil => rfl
  | char allowed _ ih => rw [encodeReserved_char allowed, ih]
  | triplet first second _ ih => rw [encodeReserved_triplet first second, ih]

/-! ## Unreserved encoding -/

theorem encodedUnit_of_shield {c : Char} {token : Token}
    (member : token ∈ shield isUnreserved (.char c)) : EncodedUnit token.render := by
  have upper : ∀ d : Fin 16, Text.Hex.upper d ∈ upperHexDigits := by decide
  simp only [shield] at member
  split at member
  · next unreserved =>
    obtain rfl := List.mem_singleton.mp member
    exact .char (unreservedChar_iff.mpr unreserved)
  · obtain ⟨b, -, rfl⟩ := List.mem_map.mp member
    exact .triplet (upper _) (upper _)

theorem encodedText_encode (text : List Char) : EncodedText (encode text) := by
  refine ⟨_, (encode_eq_shield text).trans List.flatMap_def, ?_⟩
  rw [List.forall_mem_map]
  intro token member
  obtain ⟨origin, inside, member⟩ := List.mem_flatMap.mp member
  obtain ⟨c, -, rfl⟩ := List.mem_map.mp inside
  exact encodedUnit_of_shield member

theorem admits_encode_iff {text : List Char} :
    Capture.encoded.Admits (encode text) ↔ text ≠ [] := by
  constructor
  · rintro ⟨filled, -⟩ rfl
    exact filled rfl
  · intro filled
    have admitted : Operator.simple.capture.Admits (Operator.simple.encode text) :=
      Operator.admits_encode (Or.inl rfl) fun _ => filled
    exact admitted

end Percent

/-! ## A single capture -/

theorem cut_capture {kind : Capture} {uri : List Char} {captures : Captures} :
    Cut [.capture kind] uri captures ↔ kind.Admits uri ∧ captures = [uri] := by
  constructor
  · intro cut
    cases cut with
    | capture admits rest =>
      cases rest
      rw [List.append_nil]
      exact ⟨admits, rfl⟩
  · rintro ⟨admits, rfl⟩
    have cut := Cut.capture admits .nil
    rwa [List.append_nil] at cut

theorem captures_single {kind : Capture} {labels : List (List Char)} {uri : List Char}
    {captures : Captures} :
    (Pattern.mk [.capture kind] labels).captures uri = some captures ↔
      kind.Admits uri ∧ captures = [uri] := by
  have greatest : search ([Field.capture kind].flatMap Field.atoms) uri = some captures ↔
      Cut.Greatest [.capture kind] uri captures := search_eq_some
  rw [Pattern.captures_eq_search, ← cut_capture]
  refine greatest.trans ⟨And.left, fun cut => ⟨cut, fun others other => Or.inl ?_⟩⟩
  exact (cut_capture.mp other).2.trans (cut_capture.mp cut).2.symm

/-- URI text is what reserved encoding gives and what it leaves alone. The output of unreserved encoding
is such text, and a simple capture takes it whole unless there was nothing to encode. -/
theorem Percent.encodeReserved_retracts :
    (∀ text, UriText (encodeReserved text)) ∧
    (∀ text, encodeReserved text = text ↔ UriText text) ∧
    (∀ text, encodeReserved (encodeReserved text) = encodeReserved text ∧
      encodeReserved (encode text) = encode text) ∧
    ∀ text, EncodedText (encode text) ∧ (encode text = [] ↔ text = []) ∧
      (Capture.encoded.Admits (encode text) ↔ text ≠ []) ∧
      ∀ labels captures, (Pattern.mk [.capture .encoded] labels).captures (encode text) =
        some captures ↔ text ≠ [] ∧ captures = [encode text] := by
  refine ⟨uriText_encodeReserved, fun text => ⟨?_, encodeReserved_of_uriText⟩, fun text => ⟨?_, ?_⟩,
    fun text => ⟨encodedText_encode text, encode_eq_nil, admits_encode_iff, ?_⟩⟩
  · intro fixed
    exact fixed ▸ uriText_encodeReserved text
  · exact encodeReserved_of_uriText (uriText_encodeReserved text)
  · exact encodeReserved_of_uriText (encodedText_encode text).uriText
  · intro labels captures
    rw [captures_single, admits_encode_iff]

-- Percent signs before and inside of triplets, and one whose digits stand on both sides of another.
example : Percent.encodeReserved "%%41%4%41%".toList = "%25%41%254%41%25".toList := by
  decide +kernel

end UriTemplate
