import ZingoIndexer.Wire.Value

/-!
# Hex-encoded transactions

The transaction bytes of `GetTransactionResponse` travel as hex strings. The writer is
`hex::serialize`, which `#[serde(with = "hex")]` puts on both variants; the reader is
`serde_json::from_value::<SerializedTransaction>`, whose type lives outside the sources and is
modelled from the spec's wire codec: a JSON string of hex digit pairs, non-hex or odd-length
input refused as malformed.
-/

namespace ZingoIndexer

/-- The lowercase digit of a value below 16. -/
def hexDigit (n : Nat) : Char := if n < 10 then Char.ofNat (48 + n) else Char.ofNat (87 + n)

/-- The value of a hex digit of either case. -/
def hexDigitValue (c : Char) : Option Nat :=
  if '0' ≤ c ∧ c ≤ '9' then some (c.toNat - 48)
  else if 'a' ≤ c ∧ c ≤ 'f' then some (c.toNat - 87)
  else if 'A' ≤ c ∧ c ≤ 'F' then some (c.toNat - 55)
  else none

theorem hexDigitValue_hexDigit : ∀ n, n < 16 → hexDigitValue (hexDigit n) = some n := by
  decide

def hexChars : List UInt8 → List Char
  | [] => []
  | b :: bs => hexDigit (b.toNat / 16) :: hexDigit (b.toNat % 16) :: hexChars bs

/-- `hex::encode`: two lowercase digits a byte, high half first. -/
def hexEncode (bytes : List UInt8) : String := ⟨hexChars bytes⟩

def hexDecodeChars : List Char → Option (List UInt8)
  | [] => some []
  | [_] => none
  | hi :: lo :: rest => do
    let h ← hexDigitValue hi
    let l ← hexDigitValue lo
    let bytes ← hexDecodeChars rest
    pure (UInt8.ofNat (16 * h + l) :: bytes)

/-- Modelled from the spec: hex digit pairs read back as bytes, `none` on a non-hex digit or an
odd number of them. -/
def hexDecode (s : String) : Option (List UInt8) := hexDecodeChars s.data

theorem hexDecode_hexEncode (bytes : List UInt8) : hexDecode (hexEncode bytes) = some bytes := by
  induction bytes with
  | nil => rfl
  | cons b bs ih =>
    have hb : b.toNat < 256 := b.toNat_lt_size
    have hbyte : UInt8.ofNat (16 * (b.toNat / 16) + b.toNat % 16) = b :=
      UInt8.toNat.inj (by rw [UInt8.toNat_ofNat_of_lt (by simp [UInt8.size]; omega)]; omega)
    simp only [hexDecode, hexEncode, hexChars, hexDecodeChars] at ih ⊢
    rw [hexDigitValue_hexDigit _ (by omega), hexDigitValue_hexDigit _ (by omega), ih]
    simp [hbyte]

/-- Modelled from the spec: how reading transaction bytes from a JSON value fails. -/
inductive HexError
  | malformedHex
  | notAString
  deriving DecidableEq, Repr

/-- `SerializedTransaction`: raw transaction bytes. -/
structure SerializedTransaction where
  bytes : List UInt8
  deriving DecidableEq, Repr

namespace SerializedTransaction

/-- Modelled from the spec: `serde_json::from_value::<SerializedTransaction>`. -/
def fromValue : Value → Except HexError SerializedTransaction
  | .string s =>
    match hexDecode s with
    | some bytes => .ok ⟨bytes⟩
    | none => .error .malformedHex
  | _ => .error .notAString

/-- `hex::serialize`: the JSON string `#[serde(with = "hex")]` writes. -/
def toHexValue (t : SerializedTransaction) : Value := .string (hexEncode t.bytes)

@[simp] theorem fromValue_toHexValue (t : SerializedTransaction) : fromValue t.toHexValue = .ok t := by
  simp [fromValue, toHexValue, hexDecode_hexEncode]

@[simp] theorem fromValue_object (entries : List (String × Value)) :
    fromValue (.object entries) = .error .notAString := rfl

end SerializedTransaction

end ZingoIndexer
