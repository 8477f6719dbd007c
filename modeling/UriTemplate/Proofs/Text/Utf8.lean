import UriTemplate.Text.Utf8

/-! What the reader makes of the octets of a character: that character alone, behind the
replacement for a sequence that was still open. -/

set_option autoImplicit false

namespace UriTemplate.Text.Utf8

/-- The characters that end within the octets, and the sequence that is open after them. -/
def read : Option Pending → List Octet → List Char × Option Pending
  | pending, [] => ([], pending)
  | pending, b :: rest =>
    let next := step pending b
    let after := read next.2 rest
    (next.1 ++ after.1, after.2)

theorem read_cons {pending next : Option Pending} {b : Octet} {out : List Char}
    (stepped : step pending b = (out, next)) (rest : List Octet) :
    read pending (b :: rest) = (out ++ (read next rest).1, (read next rest).2) := by
  simp only [read, stepped]

/-! ## Open sequences wait for octets that begin nothing -/

def Pending.Waits (p : Pending) : Prop :=
  0x80 ≤ p.low ∧ p.high ≤ 0xBF

def Opens (b : Octet) : Prop :=
  b.val < 0x80 ∨ 0xBF < b.val

theorem none_waits : ∀ p ∈ (none : Option Pending), p.Waits := by
  intro p member
  cases member

theorem start_waits (b : Octet) : ∀ p ∈ (start b).2, p.Waits := by
  intro p member
  simp only [start] at member
  -- The lead octets that narrow the range of the second still leave it among the tail octets.
  repeat' split at member
  all_goals
    simp only [Option.mem_def, Option.some.injEq, reduceCtorEq] at member
    try subst member
    try simp [Pending.Waits]

theorem step_waits (pending : Option Pending) (b : Octet) :
    ∀ p ∈ (step pending b).2, p.Waits := by
  cases pending with
  | none => exact start_waits b
  | some before =>
    intro p member
    simp only [step] at member
    split at member
    · split at member
      · simp at member
      · simp only [Option.mem_def, Option.some.injEq] at member
        subst member
        simp [Pending.Waits]
    · exact start_waits b p member

theorem step_of_opens {pending : Option Pending} (waits : ∀ p ∈ pending, p.Waits) {b : Octet}
    (opens : Opens b) : step pending b = (close pending ++ (start b).1, (start b).2) := by
  cases pending with
  | none => rfl
  | some p =>
    obtain ⟨low, high⟩ := waits p rfl
    have outside : ¬ (p.low ≤ b.val ∧ b.val ≤ p.high) := by
      simp only [Opens] at opens
      omega
    simp only [step, if_neg outside, close, List.singleton_append]

/-! ## The sequence of one code point -/

theorem sequence_opens (n : Nat) (bound : n < 0x110000) :
    ∃ b rest, sequence n bound = b :: rest ∧ Opens b := by
  unfold sequence
  split
  · exact ⟨_, _, rfl, Or.inl ‹_›⟩
  · split
    · exact ⟨_, _, rfl, Or.inr (by simp only; omega)⟩
    · split
      · exact ⟨_, _, rfl, Or.inr (by simp only; omega)⟩
      · exact ⟨_, _, rfl, Or.inr (by simp only; omega)⟩

/-- The octets of a character are those that it has in a string. -/
theorem encode_eq_utf8EncodeChar (c : Char) :
    (encode c).map (fun b => UInt8.ofNat b.val) = String.utf8EncodeChar c := by
  have bound := toNat_lt c
  have same : c.val.toNat = c.toNat := rfl
  simp only [encode, sequence, String.utf8EncodeChar, same]
  split
  · rw [if_pos (by omega)]
    rfl
  · rw [if_neg (by omega)]
    split
    · rw [if_pos (by omega)]
      simp only [List.map_cons, List.map_nil, List.cons.injEq, and_true]
      exact ⟨congrArg _ (by omega), congrArg _ (by omega)⟩
    · rw [if_neg (by omega)]
      split
      · rw [if_pos (by omega)]
        simp only [List.map_cons, List.map_nil, List.cons.injEq, and_true]
        exact ⟨congrArg _ (by omega), congrArg _ (by omega), congrArg _ (by omega)⟩
      · rw [if_neg (by omega)]
        simp only [List.map_cons, List.map_nil, List.cons.injEq, and_true]
        exact ⟨congrArg _ (by omega), congrArg _ (by omega), congrArg _ (by omega),
          congrArg _ (by omega)⟩

theorem step_last {bits low high : Nat} {b : Octet} (within : low ≤ b.val ∧ b.val ≤ high) :
    step (some ⟨bits, 0, low, high⟩) b = ([Char.ofNat (64 * bits + b.val % 64)], none) := by
  simp only [step, if_pos within]

theorem step_more {bits more low high : Nat} {b : Octet} (within : low ≤ b.val ∧ b.val ≤ high) :
    step (some ⟨bits, more + 1, low, high⟩) b =
      ([], some ⟨64 * bits + b.val % 64, more, 0x80, 0xBF⟩) := by
  simp only [step, if_pos within]

theorem start_two {n : Nat} (least : 0x80 ≤ n) (most : n < 0x800) {b : Octet}
    (lead : b.val = 0xC0 + n / 64) : start b = ([], some ⟨n / 64, 0, 0x80, 0xBF⟩) := by
  have notOne : ¬ 0xC0 + n / 64 < 0x80 := by omega
  have notTail : ¬ 0xC0 + n / 64 < 0xC2 := by omega
  have two : 0xC0 + n / 64 < 0xE0 := by omega
  simp only [start, lead, if_neg notOne, if_neg notTail, if_pos two, Nat.add_sub_cancel_left]

/-- The range for the second octet keeps out surrogates, which no character is. -/
theorem start_three {n : Nat} (least : 0x800 ≤ n) (most : n < 0x10000)
    (scalar : n < 0xD800 ∨ 0xDFFF < n) {b : Octet} (lead : b.val = 0xE0 + n / 4096) :
    ∃ low high, start b = ([], some ⟨n / 4096, 1, low, high⟩) ∧
      low ≤ 0x80 + n / 64 % 64 ∧ 0x80 + n / 64 % 64 ≤ high := by
  have notOne : ¬ 0xE0 + n / 4096 < 0x80 := by omega
  have notTail : ¬ 0xE0 + n / 4096 < 0xC2 := by omega
  have notTwo : ¬ 0xE0 + n / 4096 < 0xE0 := by omega
  simp only [start, lead, if_neg notOne, if_neg notTail, if_neg notTwo]
  split
  · next overlong =>
    have bits : n / 4096 = 0 := by omega
    exact ⟨0xA0, 0xBF, by rw [bits], by omega, by omega⟩
  · split
    · next surrogate =>
      have bits : n / 4096 = 13 := by omega
      exact ⟨0x80, 0x9F, by rw [bits], by omega, by omega⟩
    · have three : 0xE0 + n / 4096 < 0xF0 := by omega
      rw [if_pos three, Nat.add_sub_cancel_left]
      exact ⟨0x80, 0xBF, rfl, by omega, by omega⟩

theorem start_four {n : Nat} (least : 0x10000 ≤ n) (most : n < 0x110000) {b : Octet}
    (lead : b.val = 0xF0 + n / 262144) :
    ∃ low high, start b = ([], some ⟨n / 262144, 2, low, high⟩) ∧
      low ≤ 0x80 + n / 4096 % 64 ∧ 0x80 + n / 4096 % 64 ≤ high := by
  have notOne : ¬ 0xF0 + n / 262144 < 0x80 := by omega
  have notTail : ¬ 0xF0 + n / 262144 < 0xC2 := by omega
  have notTwo : ¬ 0xF0 + n / 262144 < 0xE0 := by omega
  have notFirst : ¬ 0xF0 + n / 262144 = 0xE0 := by omega
  have notSurrogate : ¬ 0xF0 + n / 262144 = 0xED := by omega
  have notThree : ¬ 0xF0 + n / 262144 < 0xF0 := by omega
  simp only [start, lead, if_neg notOne, if_neg notTail, if_neg notTwo, if_neg notFirst,
    if_neg notSurrogate, if_neg notThree]
  split
  · next overlong =>
    have bits : n / 262144 = 0 := by omega
    exact ⟨0x90, 0xBF, by rw [bits], by omega, by omega⟩
  · split
    · rw [Nat.add_sub_cancel_left]
      exact ⟨0x80, 0xBF, rfl, by omega, by omega⟩
    · have bits : n / 262144 = 4 := by omega
      have last : 0xF0 + n / 262144 = 0xF4 := by omega
      rw [if_pos last, bits]
      exact ⟨0x80, 0x8F, rfl, by omega, by omega⟩

-- One case for each length. The lead octet opens the sequence, the tail octets are within the
-- range it waits for, and their groups of six bits put the code point together again.
theorem read_sequence (n : Nat) (bound : n < 0x110000) (scalar : n < 0xD800 ∨ 0xDFFF < n) :
    read none (sequence n bound) = ([Char.ofNat n], none) := by
  unfold sequence
  split
  · next one => simp only [read, step, start, if_pos one, List.append_nil]
  · split
    · next notOne two =>
      let lead : Octet := ⟨0xC0 + n / 64, by omega⟩
      have begun : step none lead = ([], _) := start_two (Nat.le_of_not_lt notOne) two rfl
      have bits : 64 * (n / 64) + (0x80 + n % 64) % 64 = n := by omega
      rw [read_cons begun, read_cons (step_last (by simp only; omega))]
      simp only [read, List.nil_append, List.append_nil, bits]
    · split
      · next notTwo three =>
        let lead : Octet := ⟨0xE0 + n / 4096, by omega⟩
        obtain ⟨low, high, begun, second⟩ :=
          start_three (Nat.le_of_not_lt notTwo) three scalar (b := lead) rfl
        have bits : 64 * (64 * (n / 4096) + (0x80 + n / 64 % 64) % 64) +
            (0x80 + n % 64) % 64 = n := by omega
        have opened : step none lead = ([], some _) := begun
        rw [read_cons opened, read_cons (step_more second),
          read_cons (step_last (by simp only; omega))]
        simp only [read, List.nil_append, List.append_nil, bits]
      · next notThree =>
        let lead : Octet := ⟨0xF0 + n / 262144, by omega⟩
        obtain ⟨low, high, begun, second⟩ :=
          start_four (Nat.le_of_not_lt notThree) bound (b := lead) rfl
        have bits : 64 * (64 * (64 * (n / 262144) + (0x80 + n / 4096 % 64) % 64) +
            (0x80 + n / 64 % 64) % 64) + (0x80 + n % 64) % 64 = n := by omega
        have opened : step none lead = ([], some _) := begun
        rw [read_cons opened, read_cons (step_more second),
          read_cons (step_more (by simp only; omega)), read_cons (step_last (by simp only; omega))]
        simp only [read, List.nil_append, List.append_nil, bits]

theorem read_encode (c : Char) : read none (encode c) = ([c], none) := by
  have scalar : c.toNat < 0xD800 ∨ 0xDFFF < c.toNat := by
    have valid := c.valid
    simp only [UInt32.isValidChar, Nat.isValidChar] at valid
    simp only [Char.toNat]
    omega
  rw [encode, read_sequence c.toNat (toNat_lt c) scalar, Char.ofNat_toNat]

/-- A character ends the sequence before it, whatever its own octets are. -/
theorem read_encode_after {pending : Option Pending} (waits : ∀ p ∈ pending, p.Waits) (c : Char) :
    read pending (encode c) = (close pending ++ [c], none) := by
  obtain ⟨b, rest, octets, opens⟩ := sequence_opens c.toNat (toNat_lt c)
  have alone := read_encode c
  rw [encode, octets] at alone ⊢
  have single : step none b = ((start b).1, (start b).2) := rfl
  rw [read_cons single, Prod.mk.injEq] at alone
  -- From the second octet on both readers are in the same state.
  rw [read_cons (step_of_opens waits opens), List.append_assoc, alone.1, alone.2]

end UriTemplate.Text.Utf8
