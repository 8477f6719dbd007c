import UriTemplate.Proofs.Percent

/-! Decoding, told run by run: the ASCII characters that stand together are octets, which are read
as UTF-8 when the run is at its end, and other characters stand for themselves. The decoder goes
token by token instead and closes an open sequence where a character comes, which is the same. Told
either way, it finds the text that was encoded, and it cannot tell whether reserved encoding took
place. The octets that encoding writes are those of the text in a string. -/

set_option autoImplicit false

namespace UriTemplate

namespace Text.Utf8

def decode (octets : List Octet) : List Char :=
  (read none octets).1 ++ close (read none octets).2

end Text.Utf8

namespace Percent

open Text

/-- An octet as a triplet in upper case. -/
def upperTriplet (b : UInt8) : List Char :=
  have bound : b.toNat < 256 := b.toNat_lt
  ['%', Hex.upper ⟨b.toNat / 16, by omega⟩, Hex.upper ⟨b.toNat % 16, by omega⟩]

def isAscii (c : Char) : Bool :=
  c.toNat < 0x80

def Token.toOctet : Token → Octet
  | .triplet high low => octet high low
  | .char c => ⟨c.toNat % 256, Nat.mod_lt _ (by decide)⟩

def decodeRun (run : List Char) : List Char :=
  Utf8.decode ((tokens run).map Token.toOctet)

/-- Decodes a text that goes on from a run of ASCII characters. The run is decoded as a whole at its
end, and any other character stands for itself. -/
def decodeFrom (run : List Char) : List Char → List Char
  | [] => decodeRun run
  | c :: rest =>
    if isAscii c then decodeFrom (run ++ [c]) rest
    else decodeRun run ++ c :: decodeFrom [] rest

def decodeRuns (text : List Char) : List Char :=
  decodeFrom [] text

/-! ## Tokens of texts in a row -/

theorem ofChar?_of_not_hex {c : Char} (notHex : Hex.value? c = none) :
    Hex.Digit.ofChar? c = none := by
  simp [Hex.Digit.ofChar?, notHex]

theorem tokens_lone {text : List Char}
    (lone : ∀ h l rest, text = h :: l :: rest → Hex.value? h = none ∨ Hex.value? l = none) :
    tokens ('%' :: text) = .char '%' :: tokens text := by
  match text with
  | [] | [h] => rfl
  | h :: l :: rest =>
    rcases lone h l rest rfl with notHex | notHex
    · simp only [tokens, ofChar?_of_not_hex notHex]
    · simp only [tokens, ofChar?_of_not_hex notHex]
      cases Hex.Digit.ofChar? h <;> rfl

/-- No triplet goes across the place before a character that is no hexadecimal digit. -/
theorem tokens_append {c : Char} (notHex : Hex.value? c = none) (before rest : List Char) :
    tokens (before ++ c :: rest) = tokens before ++ tokens (c :: rest) := by
  fun_induction tokens before with
  | case1 => rfl
  | case2 h l more high low hh hl ih => simp [tokens, hh, hl, ih]
  | case3 h l more other ih =>
    simp only [List.cons_append, tokens]
    exact congrArg _ ih
  | case4 d more other ih =>
    rw [List.cons_append, List.cons_append, ← ih]
    by_cases percent : d = '%'
    · subst percent
      apply tokens_lone
      intro h l after same
      -- Behind a percent sign too little is left for a triplet, so one would need the character.
      rcases more with _ | ⟨x, _ | ⟨y, more⟩⟩
      · exact Or.inl ((List.cons.inj same).1 ▸ notHex)
      · exact Or.inr ((List.cons.inj (List.cons.inj same).2).1 ▸ notHex)
      · exact (other x y more rfl rfl).elim
    · exact tokens_char percent _

theorem hasTriplet_iff {text : List Char} :
    HasTriplet text ↔ ∃ high low, .triplet high low ∈ tokens text := by
  constructor
  · rintro ⟨before, h, l, after, rfl, high, low⟩
    refine ⟨⟨h, high⟩, ⟨l, low⟩, ?_⟩
    rw [tokens_append rfl, tokens_triplet ⟨h, high⟩ ⟨l, low⟩ after]
    exact List.mem_append_right _ List.mem_cons_self
  · rintro ⟨high, low, member⟩
    exact hasTriplet_of_mem_tokens member

/-! ## Runs -/

theorem isAscii_of_hex {c : Char} (hex : (Hex.value? c).isSome) : isAscii c = true := by
  unfold Hex.value? at hex
  split at hex
  all_goals first | decide | cases hex

theorem not_hex_of_not_ascii {c : Char} (foreign : isAscii c = false) : Hex.value? c = none := by
  cases hex : Hex.value? c with
  | none => rfl
  | some d =>
    rw [isAscii_of_hex (Option.isSome_of_eq_some hex)] at foreign
    cases foreign

theorem decodeTokens_append (pending : Option Utf8.Pending) (before rest : List Token) (c : Char) :
    decodeTokens pending (before ++ .char c :: rest) =
      decodeTokens pending before ++ c :: decodeTokens none rest := by
  induction before generalizing pending with
  | nil => rfl
  | cons token before ih =>
    cases token with
    | triplet high low => simp only [List.cons_append, decodeTokens, ih, List.append_assoc]
    | char d => simp only [List.cons_append, decodeTokens, ih, List.append_assoc]

/-- What stands on the two sides of a character that is part of no triplet is decoded apart. -/
theorem decode_append {c : Char} (plain : c ≠ '%') (notHex : Hex.value? c = none)
    (before rest : List Char) : decode (before ++ c :: rest) = decode before ++ c :: decode rest := by
  rw [decode, tokens_append notHex, tokens_char plain, decodeTokens_append]
  rfl

theorem step_ascii {pending : Option Utf8.Pending} (waits : ∀ p ∈ pending, p.Waits) {c : Char}
    (ascii : isAscii c = true) :
    Utf8.step pending (Token.char c).toOctet = (Utf8.close pending ++ [c], none) := by
  have small : c.toNat < 0x80 := of_decide_eq_true ascii
  have own : (Token.char c).toOctet.val = c.toNat := Nat.mod_eq_of_lt (by omega)
  rw [Utf8.step_of_opens waits (Or.inl (own ▸ small)), Utf8.start, own, if_pos small,
    Char.ofNat_toNat]

theorem decodeTokens_ascii {run : List Token} (ascii : ∀ c, .char c ∈ run → isAscii c = true)
    {pending : Option Utf8.Pending} (waits : ∀ p ∈ pending, p.Waits) :
    decodeTokens pending run =
      (Utf8.read pending (run.map Token.toOctet)).1 ++
        Utf8.close (Utf8.read pending (run.map Token.toOctet)).2 := by
  induction run generalizing pending with
  | nil => rfl
  | cons token rest ih =>
    have asciiRest : ∀ c, .char c ∈ rest → isAscii c = true :=
      fun c member => ascii c (List.mem_cons_of_mem _ member)
    cases token with
    | triplet high low =>
      rw [decodeTokens, ih asciiRest (Utf8.step_waits _ _)]
      exact (List.append_assoc _ _ _).symm
    | char c =>
      have stepped := step_ascii waits (ascii c List.mem_cons_self)
      rw [decodeTokens, List.map_cons, Utf8.read_cons stepped, ih asciiRest Utf8.none_waits,
        List.append_assoc, List.append_assoc, List.singleton_append]

theorem decode_of_ascii {run : List Char} (ascii : ∀ c ∈ run, isAscii c = true) :
    decode run = decodeRun run := by
  apply decodeTokens_ascii _ Utf8.none_waits
  intro c member
  apply ascii
  rw [← render_tokens run, List.mem_flatMap]
  exact ⟨.char c, member, List.mem_singleton_self c⟩

theorem decode_append_eq_decodeFrom {run : List Char} (ascii : ∀ c ∈ run, isAscii c = true)
    (text : List Char) : decode (run ++ text) = decodeFrom run text := by
  induction text generalizing run with
  | nil => rw [List.append_nil, decode_of_ascii ascii, decodeFrom]
  | cons c rest ih =>
    rw [decodeFrom]
    split
    next longer =>
      have asciiLonger : ∀ d ∈ run ++ [c], isAscii d = true :=
        List.forall_mem_append.mpr ⟨ascii, List.forall_mem_singleton.mpr longer⟩
      rw [← ih asciiLonger, List.append_assoc, List.singleton_append]
    next foreign =>
      have fresh : decode ([] ++ rest) = decodeFrom [] rest := ih (List.forall_mem_nil _)
      have plain : c ≠ '%' := by
        rintro rfl
        exact foreign rfl
      have notHex := not_hex_of_not_ascii (Bool.eq_false_iff.mpr foreign)
      rw [decode_append plain notHex, decode_of_ascii ascii, ← fresh, List.nil_append]

theorem decode_eq_decodeRuns (text : List Char) : decode text = decodeRuns text :=
  decode_append_eq_decodeFrom (List.forall_mem_nil _) text

/-! ## Encoded text -/

theorem encodeChar_eq_upperTriplets (c : Char) :
    encodeChar c = (String.utf8EncodeChar c).flatMap upperTriplet := by
  rw [encodeChar, ← Utf8.encode_eq_utf8EncodeChar, List.flatMap_map]
  congr 1
  funext b
  have same : (UInt8.ofNat b.val).toNat = b.val := UInt8.toNat_ofNat_of_lt b.isLt
  simp only [upperTriplet, same]
  rfl

/-- No two texts are encoded alike, since decoding gives back the one that was encoded. -/
theorem encode_lossless :
    (∀ text, decode (encode text) = text ∧ decodeRuns (encode text) = text ∧
      encode text = text.flatMap fun c =>
        if isUnreserved c then [c] else (String.utf8EncodeChar c).flatMap upperTriplet) ∧
      Function.Injective encode := by
  refine ⟨fun text => ⟨decode_encode text, ?_, ?_⟩, ?_⟩
  · rw [← decode_eq_decodeRuns, decode_encode]
  · simp only [encode, encodeChar_eq_upperTriplets]
  · exact Function.LeftInverse.injective decode_encode

/-- Reserved encoding turns the characters between runs into octets of one run, and shows neither
there nor at the triplets and percent signs that it meets. -/
theorem encodeReserved_decoded_alike (text : List Char) :
    decode (encodeReserved text) = decode text ∧
      decodeRuns (encodeReserved text) = decodeRuns text ∧
      (¬ HasTriplet text → decode (encodeReserved text) = text) := by
  refine ⟨decode_encodeReserved text, ?_, ?_⟩
  · rw [← decode_eq_decodeRuns, ← decode_eq_decodeRuns, decode_encodeReserved]
  · intro free
    rw [decode_encodeReserved, decode_of_no_triplet free]

theorem lone_percents_decoded_alike :
    ¬ HasTriplet "%é%2é%".toList ∧
      encodeReserved "%é%2é%".toList = "%25%C3%A9%252%C3%A9%25".toList ∧
      decode (encodeReserved "%é%2é%".toList) = "%é%2é%".toList := by
  have free : ¬ HasTriplet "%é%2é%".toList := by
    rw [hasTriplet_iff]
    rintro ⟨high, low, member⟩
    have chars : (tokens "%é%2é%".toList).all (· matches .char _) = true := by decide +kernel
    cases List.all_eq_true.mp chars _ member
  exact ⟨free, by decide +kernel, (encodeReserved_decoded_alike _).2.2 free⟩

-- A sequence that is cut short on both sides of a character, which then is a sequence of its own.
example : encodeReserved "%C3é%A9".toList = "%C3%C3%A9%A9".toList ∧
    decode "%C3%C3%A9%A9".toList = "\uFFFDé\uFFFD".toList := by
  decide +kernel

end Percent

end UriTemplate
