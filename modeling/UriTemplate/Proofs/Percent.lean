import UriTemplate.Percent
import UriTemplate.Proofs.Text.Utf8

/-! Encoded text as tokens. Both encoders put triplets in the place of single tokens, and a reader
of tokens cannot tell: it finds the same characters. From this follow what decoding makes of
encoded text, and of which characters encoded text consists. -/

set_option autoImplicit false

namespace UriTemplate.Percent

open Text

/-! ## Tokens of rendered tokens -/

theorem tokens_triplet (high low : Hex.Digit) (rest : List Char) :
    tokens ('%' :: high.char :: low.char :: rest) = .triplet high low :: tokens rest := by
  simp only [tokens, Hex.Digit.ofChar?_char]

theorem tokens_char {c : Char} (plain : c ≠ '%') (rest : List Char) :
    tokens (c :: rest) = .char c :: tokens rest := by
  rw [tokens]
  intro h l after same
  exact absurd same plain

/-- Tokens can be read back unless a percent sign stands alone among them: it might form a triplet
with what follows. -/
theorem tokens_render {read : List Token} (whole : .char '%' ∉ read) :
    tokens (read.flatMap Token.render) = read := by
  induction read with
  | nil => rfl
  | cons token rest ih =>
    have after := ih fun member => whole (List.mem_cons_of_mem _ member)
    cases token with
    | triplet high low =>
      simp only [List.flatMap_cons, Token.render, List.cons_append, List.nil_append]
      rw [tokens_triplet, after]
    | char c =>
      have plain : c ≠ '%' := by
        rintro rfl
        exact whole List.mem_cons_self
      simp only [List.flatMap_cons, Token.render, List.cons_append, List.nil_append]
      rw [tokens_char plain, after]

/-! ## Encoders as replacements of tokens -/

def shield (keep : Char → Bool) : Token → List Token
  | .triplet high low => [.triplet high low]
  | .char c => if keep c then [.char c] else (Utf8.encode c).map triplet

theorem percent_not_mem_shield {keep : Char → Bool} (percent : keep '%' = false)
    (read : List Token) : .char '%' ∉ read.flatMap (shield keep) := by
  rw [List.mem_flatMap]
  rintro ⟨token, -, member⟩
  cases token with
  | triplet high low => simp [shield] at member
  | char c =>
    simp only [shield] at member
    split at member
    · next kept =>
      have same : '%' = c := by simpa using member
      rw [← same, percent] at kept
      cases kept
    · obtain ⟨b, -, same⟩ := List.mem_map.mp member
      cases same

theorem encode_eq_shield (text : List Char) :
    encode text = ((text.map Token.char).flatMap (shield isUnreserved)).flatMap Token.render := by
  rw [encode, List.flatMap_map, List.flatMap_assoc]
  congr 1
  funext c
  simp only [shield, encodeChar]
  split
  · rfl
  · rw [List.flatMap_map]

theorem encodeReserved_eq_shield (text : List Char) :
    encodeReserved text =
      ((tokens text).flatMap (shield fun c => isUnreserved c || isReserved c)).flatMap
        Token.render := by
  rw [encodeReserved, List.flatMap_assoc]
  congr 1
  funext token
  cases token with
  | triplet high low => simp [shield]
  | char c =>
    simp only [shield, encodeChar]
    split
    · rfl
    · rw [List.flatMap_map]

/-! ## Decoding -/

theorem decodeTokens_triplets (pending : Option Utf8.Pending) (octets : List Octet)
    (rest : List Token) :
    decodeTokens pending (octets.map triplet ++ rest) =
      (Utf8.read pending octets).1 ++ decodeTokens (Utf8.read pending octets).2 rest := by
  induction octets generalizing pending with
  | nil => rfl
  | cons b octets ih =>
    simp only [List.map_cons, List.cons_append, triplet, decodeTokens, octet_ofValue]
    exact (congrArg _ (ih _)).trans (List.append_assoc _ _ _).symm

/-- Triplets in the place of a character decode to it, and end what was open before as it does. -/
theorem decodeTokens_shield (keep : Char → Bool) (read : List Token)
    {pending : Option Utf8.Pending} (waits : ∀ p ∈ pending, p.Waits) :
    decodeTokens pending (read.flatMap (shield keep)) = decodeTokens pending read := by
  induction read generalizing pending with
  | nil => rfl
  | cons token rest ih =>
    rw [List.flatMap_cons]
    cases token with
    | triplet high low =>
      simp only [shield, List.cons_append, List.nil_append, decodeTokens]
      rw [ih (Utf8.step_waits _ _)]
    | char c =>
      simp only [shield, decodeTokens]
      -- Kept or encoded, the character closes what was open and leaves nothing open.
      split
      · simp only [List.cons_append, List.nil_append, decodeTokens]
        rw [ih Utf8.none_waits]
      · rw [decodeTokens_triplets, Utf8.read_encode_after waits, ih Utf8.none_waits,
          List.append_assoc]
        rfl

theorem decodeTokens_chars {read : List Token} (chars : ∀ token ∈ read, ∃ c, token = .char c) :
    decodeTokens none read = read.flatMap Token.render := by
  induction read with
  | nil => rfl
  | cons token rest ih =>
    obtain ⟨c, rfl⟩ := chars token List.mem_cons_self
    have after := ih fun other member => chars other (List.mem_cons_of_mem _ member)
    rw [decodeTokens, after, List.flatMap_cons]
    rfl

-- No percent sign stands alone in encoded text, so its tokens are those the encoder wrote, and
-- these decode like the characters they were written for.
theorem decode_encode (text : List Char) : decode (encode text) = text := by
  have chars : ∀ token ∈ text.map Token.char, ∃ c, token = .char c := by
    intro token member
    obtain ⟨c, -, same⟩ := List.mem_map.mp member
    exact ⟨c, same.symm⟩
  rw [decode, encode_eq_shield, tokens_render (percent_not_mem_shield (by decide) _),
    decodeTokens_shield isUnreserved _ Utf8.none_waits, decodeTokens_chars chars, List.flatMap_map]
  exact List.flatMap_singleton' text

theorem decode_encodeReserved (text : List Char) : decode (encodeReserved text) = decode text := by
  rw [decode, encodeReserved_eq_shield, tokens_render (percent_not_mem_shield (by decide) _),
    decodeTokens_shield _ _ Utf8.none_waits, decode]

def HasTriplet (text : List Char) : Prop :=
  ∃ before h l after, text = before ++ '%' :: h :: l :: after ∧
    (Hex.value? h).isSome ∧ (Hex.value? l).isSome

theorem hasTriplet_of_mem_tokens {text : List Char} {high low : Hex.Digit}
    (member : .triplet high low ∈ tokens text) : HasTriplet text := by
  obtain ⟨before, after, split⟩ := List.append_of_mem member
  have rendered := render_tokens text
  rw [split, List.flatMap_append, List.flatMap_cons] at rendered
  exact ⟨_, high.char, low.char, _, rendered.symm, high.isHex, low.isHex⟩

theorem decode_of_no_triplet {text : List Char} (free : ¬ HasTriplet text) :
    decode text = text := by
  have chars : ∀ token ∈ tokens text, ∃ c, token = .char c := by
    intro token member
    cases token with
    | triplet high low => exact absurd (hasTriplet_of_mem_tokens member) free
    | char c => exact ⟨c, rfl⟩
  rw [decode, decodeTokens_chars chars, render_tokens]

/-! ## The characters of encoded text -/

theorem isUnreserved_of_hex {c : Char} (hex : (Hex.value? c).isSome) : isUnreserved c = true := by
  unfold Hex.value? at hex
  split at hex
  all_goals first | decide | cases hex

theorem mem_triplet {high low : Hex.Digit} {c : Char}
    (member : c ∈ Token.render (.triplet high low)) : c = '%' ∨ isUnreserved c = true := by
  simp only [Token.render, List.mem_cons, List.not_mem_nil, or_false] at member
  rcases member with rfl | rfl | rfl
  · exact Or.inl rfl
  · exact Or.inr (isUnreserved_of_hex high.isHex)
  · exact Or.inr (isUnreserved_of_hex low.isHex)

theorem mem_shield_render {keep : Char → Bool} {read : List Token} {c : Char}
    (member : c ∈ (read.flatMap (shield keep)).flatMap Token.render) :
    keep c = true ∨ isUnreserved c = true ∨ c = '%' := by
  rw [List.mem_flatMap] at member
  obtain ⟨token, shielded, inside⟩ := member
  obtain ⟨origin, -, shielded⟩ := List.mem_flatMap.mp shielded
  cases token with
  | triplet high low => exact Or.inr (mem_triplet inside).symm
  | char d =>
    obtain rfl : c = d := by simpa [Token.render] using inside
    cases origin with
    | triplet high low => simp [shield] at shielded
    | char e =>
      simp only [shield] at shielded
      split at shielded
      · next kept =>
        have same : c = e := by simpa using shielded
        exact Or.inl (same ▸ kept)
      · obtain ⟨b, -, same⟩ := List.mem_map.mp shielded
        cases same

theorem mem_encode {text : List Char} {c : Char} (member : c ∈ encode text) :
    isUnreserved c = true ∨ c = '%' := by
  rw [encode_eq_shield] at member
  exact (mem_shield_render member).elim Or.inl id

theorem mem_encodeReserved {text : List Char} {c : Char} (member : c ∈ encodeReserved text) :
    isUnreserved c = true ∨ isReserved c = true ∨ c = '%' := by
  rw [encodeReserved_eq_shield] at member
  rcases mem_shield_render member with kept | unreserved | percent
  · rw [Bool.or_eq_true] at kept
    exact kept.elim Or.inl fun reserved => Or.inr (Or.inl reserved)
  · exact Or.inl unreserved
  · exact Or.inr (Or.inr percent)

theorem encode_eq_nil {text : List Char} : encode text = [] ↔ text = [] := by
  constructor
  · intro empty
    have read := decode_encode text
    rw [empty] at read
    exact read.symm
  · rintro rfl
    rfl

end UriTemplate.Percent
