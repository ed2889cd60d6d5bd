import Mathlib.Tactic.SplitIfs

/-!
# Base64

Three bytes are written as four symbols of six bits each, and one or two last bytes are filled up with
padding. A text is read back only if it is what would be written, so that both ways are inverse.
-/
namespace Perdition.Lib.Base64

/-- The symbol of six bits. -/
def symbol (bits : Nat) : UInt8 :=
  if bits < 26 then UInt8.ofNat (65 + bits)
  else if bits < 52 then UInt8.ofNat (71 + bits)
  else if bits < 62 then UInt8.ofNat (bits - 4)
  else if bits = 62 then 43
  else 47

/-- The six bits of a symbol. -/
def bits (c : UInt8) : Option Nat :=
  if 65 ≤ c ∧ c ≤ 90 then some (c.toNat - 65)
  else if 97 ≤ c ∧ c ≤ 122 then some (c.toNat - 71)
  else if 48 ≤ c ∧ c ≤ 57 then some (c.toNat + 4)
  else if c = 43 then some 62
  else if c = 47 then some 63
  else none

/-- What fills up the last group. -/
def pad : UInt8 := 61

/-- Bytes as text. -/
def encode : List UInt8 → List UInt8
  | [] => []
  | [a] => [symbol (a.toNat / 4), symbol (a.toNat % 4 * 16), pad, pad]
  | [a, b] =>
    [symbol (a.toNat / 4), symbol (a.toNat % 4 * 16 + b.toNat / 16), symbol (b.toNat % 16 * 4), pad]
  | a :: b :: c :: rest =>
    symbol (a.toNat / 4) :: symbol (a.toNat % 4 * 16 + b.toNat / 16) ::
      symbol (b.toNat % 16 * 4 + c.toNat / 64) :: symbol (c.toNat % 64) :: encode rest

/-- The byte of the last group that has two pads. -/
def lastOne (p q : UInt8) : Option (List UInt8) := do
  let p ← bits p
  let q ← bits q
  if q % 16 = 0 then some [UInt8.ofNat (p * 4 + q / 16)] else none

/-- The bytes of the last group that has one pad. -/
def lastTwo (p q r : UInt8) : Option (List UInt8) := do
  let p ← bits p
  let q ← bits q
  let r ← bits r
  if r % 4 = 0 then some [UInt8.ofNat (p * 4 + q / 16), UInt8.ofNat (q % 16 * 16 + r / 4)] else none

/-- The bytes of a full group. -/
def group (p q r s : UInt8) : Option (List UInt8) := do
  let p ← bits p
  let q ← bits q
  let r ← bits r
  let s ← bits s
  some [UInt8.ofNat (p * 4 + q / 16), UInt8.ofNat (q % 16 * 16 + r / 4),
    UInt8.ofNat (r % 4 * 64 + s)]

/-- The bytes of a text. -/
def decode : List UInt8 → Option (List UInt8)
  | [] => some []
  | p :: q :: r :: s :: rest =>
    if s = pad ∧ r = pad ∧ rest = [] then lastOne p q
    else if s = pad ∧ rest = [] then lastTwo p q r
    else do return (← group p q r s) ++ (← decode rest)
  | _ => none

/-- A symbol stands for its bits. -/
theorem bits_symbol {n : Nat} (small : n < 64) : bits (symbol n) = some n := by
  revert small
  exact (show ∀ n < 64, bits (symbol n) = some n by decide +kernel) n

/-- A symbol is not the pad. -/
theorem symbol_ne_pad {n : Nat} (small : n < 64) : symbol n ≠ pad := by
  revert small
  exact (show ∀ n < 64, symbol n ≠ pad by decide +kernel) n

/-- Bits are those of their symbol. -/
theorem symbol_bits {c : UInt8} {n : Nat} (read : bits c = some n) : n < 64 ∧ symbol n = c := by
  have each : ∀ c : Fin 256, ∀ n ∈ bits (UInt8.ofFin c), n < 64 ∧ symbol n = UInt8.ofFin c := by
    decide +kernel
  exact each c.toFin n read

private theorem byte_of {a : UInt8} {n : Nat} (same : n = a.toNat) : UInt8.ofNat n = a := by
  rw [same, UInt8.ofNat_toNat]

private theorem byte_lt (a : UInt8) : a.toNat < 256 := a.toNat_lt

/-- Text is read back. -/
theorem decode_encode (content : List UInt8) : decode (encode content) = some content := by
  induction content using encode.induct with
  | case1 => rfl
  | case2 a =>
    have small := byte_lt a
    have one : UInt8.ofNat (a.toNat / 4 * 4 + a.toNat % 4 * 16 / 16) = a := byte_of (by omega)
    rw [encode, decode, if_pos ⟨rfl, rfl, rfl⟩, lastOne, bits_symbol (by omega),
      bits_symbol (by omega)]
    change (if a.toNat % 4 * 16 % 16 = 0 then _ else _) = _
    rw [if_pos (by omega), one]
  | case3 a b =>
    have small := byte_lt a
    have small' := byte_lt b
    have one : UInt8.ofNat (a.toNat / 4 * 4 + (a.toNat % 4 * 16 + b.toNat / 16) / 16) = a :=
      byte_of (by omega)
    have two : UInt8.ofNat ((a.toNat % 4 * 16 + b.toNat / 16) % 16 * 16 + b.toNat % 16 * 4 / 4) =
        b := byte_of (by omega)
    rw [encode, decode, if_neg fun all => symbol_ne_pad (by omega) all.2.1, if_pos ⟨rfl, rfl⟩,
      lastTwo, bits_symbol (by omega), bits_symbol (by omega), bits_symbol (by omega)]
    change (if b.toNat % 16 * 4 % 4 = 0 then _ else _) = _
    rw [if_pos (by omega), one, two]
  | case4 a b c rest ih =>
    have small := byte_lt a
    have small' := byte_lt b
    have small'' := byte_lt c
    have one : UInt8.ofNat (a.toNat / 4 * 4 + (a.toNat % 4 * 16 + b.toNat / 16) / 16) = a :=
      byte_of (by omega)
    have two : UInt8.ofNat ((a.toNat % 4 * 16 + b.toNat / 16) % 16 * 16 +
        (b.toNat % 16 * 4 + c.toNat / 64) / 4) = b := byte_of (by omega)
    have three : UInt8.ofNat ((b.toNat % 16 * 4 + c.toNat / 64) % 4 * 64 + c.toNat % 64) = c :=
      byte_of (by omega)
    rw [encode, decode, if_neg fun all => symbol_ne_pad (by omega) all.1,
      if_neg fun all => symbol_ne_pad (by omega) all.1, group, bits_symbol (by omega),
      bits_symbol (by omega), bits_symbol (by omega), bits_symbol (by omega), ih]
    change some ([_, _, _] ++ rest) = _
    rw [one, two, three]
    rfl

/-- Bytes are those of their text. -/
theorem encode_decode (text : List UInt8) :
    ∀ content, decode text = some content → encode content = text := by
  induction text using decode.induct with
  | case1 =>
    intro content read
    obtain rfl : [] = content := by simpa [decode] using read
    rfl
  | case2 p q r s rest last =>
    intro content read
    have ⟨padS, padR, none_⟩ := last
    subst padS padR none_
    rw [decode, if_pos last, lastOne] at read
    cases readP : bits p with
    | none => simp [readP] at read
    | some p' =>
      cases readQ : bits q with
      | none => simp [readP, readQ] at read
      | some q' =>
        have ⟨smallP, backP⟩ := symbol_bits readP
        have ⟨smallQ, backQ⟩ := symbol_bits readQ
        simp only [readP, readQ, Option.bind_eq_bind, Option.bind_some,
          Option.ite_none_right_eq_some, Option.some.injEq] at read
        obtain ⟨even, rfl⟩ := read
        have value : (UInt8.ofNat (p' * 4 + q' / 16)).toNat = p' * 4 + q' / 16 :=
          UInt8.toNat_ofNat_of_lt' (show _ < 256 by omega)
        rw [encode, value, show (p' * 4 + q' / 16) / 4 = p' by omega,
          show (p' * 4 + q' / 16) % 4 * 16 = q' by omega, backP, backQ]
  | case3 p q r s rest other last =>
    intro content read
    have ⟨padS, none_⟩ := last
    subst padS none_
    rw [decode, if_neg other, if_pos last, lastTwo] at read
    cases readP : bits p with
    | none => simp [readP] at read
    | some p' =>
      cases readQ : bits q with
      | none => simp [readP, readQ] at read
      | some q' =>
        cases readR : bits r with
        | none => simp [readP, readQ, readR] at read
        | some r' =>
          have ⟨smallP, backP⟩ := symbol_bits readP
          have ⟨smallQ, backQ⟩ := symbol_bits readQ
          have ⟨smallR, backR⟩ := symbol_bits readR
          simp only [readP, readQ, readR, Option.bind_eq_bind, Option.bind_some,
            Option.ite_none_right_eq_some, Option.some.injEq] at read
          obtain ⟨even, rfl⟩ := read
          have first : (UInt8.ofNat (p' * 4 + q' / 16)).toNat = p' * 4 + q' / 16 :=
            UInt8.toNat_ofNat_of_lt' (show _ < 256 by omega)
          have second : (UInt8.ofNat (q' % 16 * 16 + r' / 4)).toNat = q' % 16 * 16 + r' / 4 :=
            UInt8.toNat_ofNat_of_lt' (show _ < 256 by omega)
          rw [encode, first, second, show (p' * 4 + q' / 16) / 4 = p' by omega,
            show (p' * 4 + q' / 16) % 4 * 16 + (q' % 16 * 16 + r' / 4) / 16 = q' by omega,
            show (q' % 16 * 16 + r' / 4) % 16 * 4 = r' by omega, backP, backQ, backR]
  | case4 p q r s rest other other' ih =>
    intro content read
    rw [decode, if_neg other, if_neg other', group] at read
    cases readP : bits p with
    | none => simp [readP] at read
    | some p' =>
      cases readQ : bits q with
      | none => simp [readP, readQ] at read
      | some q' =>
        cases readR : bits r with
        | none => simp [readP, readQ, readR] at read
        | some r' =>
          cases readS : bits s with
          | none => simp [readP, readQ, readR, readS] at read
          | some s' =>
            cases readRest : decode rest with
            | none => simp [readP, readQ, readR, readS, readRest] at read
            | some later =>
              have ⟨smallP, backP⟩ := symbol_bits readP
              have ⟨smallQ, backQ⟩ := symbol_bits readQ
              have ⟨smallR, backR⟩ := symbol_bits readR
              have ⟨smallS, backS⟩ := symbol_bits readS
              simp only [readP, readQ, readR, readS, readRest, Option.bind_eq_bind,
                Option.bind_some, pure, Option.some.injEq, List.cons_append,
                List.nil_append] at read
              subst read
              have first : (UInt8.ofNat (p' * 4 + q' / 16)).toNat = p' * 4 + q' / 16 :=
                UInt8.toNat_ofNat_of_lt' (show _ < 256 by omega)
              have second : (UInt8.ofNat (q' % 16 * 16 + r' / 4)).toNat = q' % 16 * 16 + r' / 4 :=
                UInt8.toNat_ofNat_of_lt' (show _ < 256 by omega)
              have third : (UInt8.ofNat (r' % 4 * 64 + s')).toNat = r' % 4 * 64 + s' :=
                UInt8.toNat_ofNat_of_lt' (show _ < 256 by omega)
              rw [encode, first, second, third, show (p' * 4 + q' / 16) / 4 = p' by omega,
                show (p' * 4 + q' / 16) % 4 * 16 + (q' % 16 * 16 + r' / 4) / 16 = q' by omega,
                show (q' % 16 * 16 + r' / 4) % 16 * 4 + (r' % 4 * 64 + s') / 64 = r' by omega,
                show (r' % 4 * 64 + s') % 64 = s' by omega, backP, backQ, backR, backS,
                ih later readRest]
  | case5 text none_ short =>
    intro content read
    rw [decode] at read
    · simp at read
    · exact none_
    · exact short

/-- The bytes of texts. -/
def isText (c : UInt8) : Bool := (bits c).isSome || c = pad

theorem isText_symbol {n : Nat} (small : n < 64) : isText (symbol n) = true := by
  simp [isText, bits_symbol small]

/-- A text holds symbols and pads only. -/
theorem isText_encode (content : List UInt8) : ∀ c ∈ encode content, isText c = true := by
  have padded : isText pad = true := by decide
  induction content using encode.induct with
  | case1 => simp [encode]
  | case2 a =>
    have small := byte_lt a
    simp only [encode, List.forall_mem_cons]
    exact ⟨isText_symbol (by omega), isText_symbol (by omega), padded, padded, by simp⟩
  | case3 a b =>
    have small := byte_lt a
    have small' := byte_lt b
    simp only [encode, List.forall_mem_cons]
    exact ⟨isText_symbol (by omega), isText_symbol (by omega), isText_symbol (by omega), padded,
      by simp⟩
  | case4 a b c rest ih =>
    have small := byte_lt a
    have small' := byte_lt b
    have small'' := byte_lt c
    simp only [encode, List.forall_mem_cons]
    exact ⟨isText_symbol (by omega), isText_symbol (by omega), isText_symbol (by omega),
      isText_symbol (by omega), ih⟩

/-- A text holds no NUL. -/
theorem noNul_encode (content : List UInt8) : (0 : UInt8) ∉ encode content := by
  intro member
  have text := isText_encode content 0 member
  exact absurd text (by decide)

end Perdition.Lib.Base64
