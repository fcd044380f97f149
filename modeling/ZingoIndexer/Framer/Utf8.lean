import Mathlib

/-!
# Rust strings

`read_nym_method` turns the method bytes into a `String` with `String::from_utf8`. A Rust
`String` is a byte vector that is well-formed UTF-8; the check is the table of well-formed
byte sequences that `core::str::from_utf8` runs (the second byte after `E0`, `ED`, `F0` and `F4`
has narrower bounds).
-/

namespace ZingoIndexer

/-- The continuation bytes `0x80..=0xBF`. -/
def isCont (b : UInt8) : Bool := 0x80 ≤ b && b ≤ 0xBF

/-- The bounds of the byte after the lead byte `a` of a three- or four-byte sequence. -/
def secondBounds (a : UInt8) : UInt8 × UInt8 :=
  if a = 0xE0 then (0xA0, 0xBF) else if a = 0xED then (0x80, 0x9F)
  else if a = 0xF0 then (0x90, 0xBF) else if a = 0xF4 then (0x80, 0x8F) else (0x80, 0xBF)

def inBounds (bounds : UInt8 × UInt8) (b : UInt8) : Bool := bounds.1 ≤ b && b ≤ bounds.2

/-- Well-formed UTF-8, one sequence at a time from its lead byte. -/
def validUtf8 : List UInt8 → Bool
  | [] => true
  | a :: rest =>
    if a < 0x80 then validUtf8 rest
    else if 0xC2 ≤ a && a ≤ 0xDF then
      match rest with
      | b :: rest => isCont b && validUtf8 rest
      | [] => false
    else if 0xE0 ≤ a && a ≤ 0xEF then
      match rest with
      | b :: c :: rest => inBounds (secondBounds a) b && isCont c && validUtf8 rest
      | _ => false
    else if 0xF0 ≤ a && a ≤ 0xF4 then
      match rest with
      | b :: c :: d :: rest =>
          inBounds (secondBounds a) b && isCont c && isCont d && validUtf8 rest
      | _ => false
    else false

/-- Overlong forms and encoded surrogates are refused. -/
example : validUtf8 [0x6D, 0xC3, 0xA9, 0xE2, 0x82, 0xAC] = true ∧ validUtf8 [0xC0, 0x80] = false ∧
    validUtf8 [0xED, 0xA0, 0x80] = false ∧ validUtf8 [0xF4, 0x90, 0x80, 0x80] = false := by
  decide

/-- Rust's `String`: bytes that are well-formed UTF-8. -/
structure RustString where
  bytes : List UInt8
  valid : validUtf8 bytes = true
  deriving DecidableEq

/-- `FromUtf8Error`: it hands back the bytes that were refused. -/
structure FromUtf8Error where
  bytes : List UInt8
  deriving DecidableEq, Repr

/-- `String::from_utf8`. -/
def RustString.fromUtf8 (bytes : List UInt8) : Except FromUtf8Error RustString :=
  if h : validUtf8 bytes = true then .ok ⟨bytes, h⟩ else .error ⟨bytes⟩

namespace RustString

def empty : RustString := ⟨[], rfl⟩

@[simp] theorem fromUtf8_bytes (s : RustString) : fromUtf8 s.bytes = .ok s := by
  simp [fromUtf8, s.valid]

theorem bytes_of_fromUtf8 {bytes : List UInt8} {s : RustString} (h : fromUtf8 bytes = .ok s) :
    s.bytes = bytes := by
  unfold fromUtf8 at h
  split at h <;> cases h
  rfl

end RustString

end ZingoIndexer
