import ZingoIndexer.Framer.Utf8
import ZingoIndexer.Result

/-!
# Byte cursors

`std::io::Cursor<&[u8]>` as the Nym framer reads it: `read_exact`, byteorder's `read_u8` and
little-endian `read_u16`/`read_u32`/`read_u64` on top of it, and the slicing
`&data[cursor.position() as usize..]`, which panics when the position is past the end.
A call that returns `Result<_, ParseError>` is modelled in `Except Fault`, where a `Fault` is
either the `Err` it returns or the panic it raises.
-/

namespace ZingoIndexer

inductive IoErrorKind
  | unexpectedEof
  | invalidInput
  deriving DecidableEq, Repr

/-- `std::io::Error`, by its kind and message. -/
structure IoError where
  kind : IoErrorKind
  message : String
  deriving DecidableEq, Repr

/-- What `read_exact` returns when the slice ends first. -/
def IoError.readExactEof : IoError := ⟨.unexpectedEof, "failed to fill whole buffer"⟩

/-- Modelled from the spec: `ParseError` of `crate::blockcache::utils` is not in the sources.
`InvalidData` is built by `check_nym_body`; `Io` and `FromUtf8Error` are the variants the `?`
conversions of `io::Error` and `FromUtf8Error` go to. -/
inductive ParseError
  | io (e : IoError)
  | invalidData (message : String)
  | fromUtf8Error (e : FromUtf8Error)
  deriving DecidableEq, Repr

/-- The panic of `&data[index..]` with `index > data.len()`. -/
inductive Panic
  | sliceStartIndexLenFail (index len : Nat)
  deriving DecidableEq, Repr

/-- How a call ends when it does not return `Ok`. -/
inductive Fault
  | err (e : ParseError)
  | panic (p : Panic)
  deriving DecidableEq, Repr

/-- The `?` on a `Result<_, E>` inside a function returning `Result<_, ParseError>`, where
`into` is the `From<E> for ParseError` conversion it applies. -/
def Fault.lift {ε α : Type} (into : ε → ParseError) (x : Except ε α) : Except Fault α :=
  x.mapError (.err ∘ into)

/-- A call that returns `Ok` or `Err`, and does not panic. -/
def NoPanic {α : Type} (x : Except Fault α) : Prop := ∀ p, x ≠ .error (.panic p)

section Lift

variable {ε α β : Type} {into : ε → ParseError}

@[simp] theorem Fault.lift_ok (a : α) : Fault.lift into (.ok a) = .ok a := rfl

@[simp] theorem Fault.lift_error (e : ε) :
    Fault.lift into (.error e : Except ε α) = .error (.err (into e)) := rfl

theorem Fault.lift_eq_ok {x : Except ε α} {a : α} (h : Fault.lift into x = .ok a) : x = .ok a := by
  cases x <;> cases h
  rfl

@[simp] theorem noPanic_ok (a : α) : NoPanic (.ok a) := fun _ h => by cases h

@[simp] theorem noPanic_err (e : ParseError) : NoPanic (.error (.err e) : Except Fault α) :=
  fun _ h => by cases h

theorem noPanic_lift (into : ε → ParseError) (x : Except ε α) : NoPanic (Fault.lift into x) := by
  cases x <;> intro _ h <;> cases h

theorem noPanic_bind {x : Except Fault α} {f : α → Except Fault β} (hx : NoPanic x)
    (hf : ∀ a, x = .ok a → NoPanic (f a)) : NoPanic (x >>= f) := by
  cases x with
  | error e =>
    intro p h
    cases h
    exact hx p rfl
  | ok a => exact hf a rfl

end Lift

/-- `std::io::Cursor` over a byte slice. -/
structure Cursor where
  inner : List UInt8
  pos : Nat
  deriving DecidableEq, Repr

namespace Cursor

def new (data : List UInt8) : Cursor := ⟨data, 0⟩

/-- `read_exact` of `n` bytes: what remains past the position (nothing once it is past the end)
must hold them; on success the position moves past them. -/
def readExact (c : Cursor) (n : Nat) : Except IoError (List UInt8 × Cursor) :=
  if n ≤ c.inner.length - c.pos then .ok ((c.inner.drop c.pos).take n, ⟨c.inner, c.pos + n⟩)
  else .error .readExactEof

/-- byteorder's `read_u8`. -/
def readU8 (c : Cursor) : Except IoError (UInt8 × Cursor) := do
  let (bytes, c) ← c.readExact 1
  pure (bytes.headD 0, c)

end Cursor

/-- The number little-endian bytes stand for. -/
def leValue : List UInt8 → Nat
  | [] => 0
  | b :: bs => b.toNat + 256 * leValue bs

/-- The `n` little-endian bytes of `v`, reduced modulo `256 ^ n`. -/
def leBytes : Nat → Nat → List UInt8
  | 0, _ => []
  | n + 1, v => UInt8.ofNat (v % 256) :: leBytes n (v / 256)

namespace Cursor

/-- byteorder's `read_u16`, `read_u32` and `read_u64` with `LittleEndian`, by their width. -/
def readLe (c : Cursor) (width : Nat) : Except IoError (Nat × Cursor) := do
  let (bytes, c) ← c.readExact width
  pure (leValue bytes, c)

def readU16Le (c : Cursor) : Except IoError (Nat × Cursor) := c.readLe 2
def readU32Le (c : Cursor) : Except IoError (Nat × Cursor) := c.readLe 4
def readU64Le (c : Cursor) : Except IoError (Nat × Cursor) := c.readLe 8

end Cursor

/-- Modelled from the spec: `read_bytes` of `crate::blockcache::utils` is not in the sources.
As its signature and its call in `read_nym_method` have it, it reads `n` bytes at the cursor and
reports a short read as `InvalidData(error_msg)`. -/
def readBytes (c : Cursor) (n : Nat) (errorMsg : String) :
    Except ParseError (List UInt8 × Cursor) :=
  (c.readExact n).mapError fun _ => .invalidData errorMsg

/-- `&data[p..]`. -/
def sliceFrom (data : List UInt8) (p : Nat) : Except Fault (List UInt8) :=
  if p ≤ data.length then .ok (data.drop p) else .error (.panic (.sliceStartIndexLenFail p data.length))

@[simp] theorem length_leBytes (n v : Nat) : (leBytes n v).length = n := by
  induction n generalizing v <;> simp [leBytes, *]

private theorem uint8_toNat_lt (b : UInt8) : b.toNat < 256 := b.toNat_lt_size

theorem leValue_lt (bs : List UInt8) : leValue bs < 256 ^ bs.length := by
  induction bs with
  | nil => simp [leValue]
  | cons b bs ih =>
    have := uint8_toNat_lt b
    rw [leValue, List.length_cons, Nat.pow_succ]
    omega

theorem leValue_leBytes (n v : Nat) : leValue (leBytes n v) = v % 256 ^ n := by
  induction n generalizing v with
  | zero => simp [leBytes, leValue, Nat.mod_one]
  | succ n ih =>
    rw [leBytes, leValue, ih, Nat.pow_succ', Nat.mod_mul,
      UInt8.toNat_ofNat_of_lt (Nat.mod_lt _ (by decide))]

theorem leBytes_leValue (bs : List UInt8) : leBytes bs.length (leValue bs) = bs := by
  induction bs with
  | nil => rfl
  | cons b bs ih =>
    have := uint8_toNat_lt b
    have hmod : (b.toNat + 256 * leValue bs) % 256 = b.toNat := by omega
    have hdiv : (b.toNat + 256 * leValue bs) / 256 = leValue bs := by omega
    rw [List.length_cons, leBytes, leValue, hmod, hdiv, ih,
      UInt8.toNat.inj (UInt8.toNat_ofNat_of_lt (uint8_toNat_lt b))]

namespace Cursor

theorem readExact_after (pre rest : List UInt8) (n : Nat) :
    readExact ⟨pre ++ rest, pre.length⟩ n =
      if n ≤ rest.length then .ok (rest.take n, ⟨pre ++ rest, pre.length + n⟩)
      else .error .readExactEof := by
  simp [readExact]

theorem readExact_eq_ok {c c' : Cursor} {n : Nat} {bs : List UInt8}
    (h : c.readExact n = .ok (bs, c')) :
    n ≤ c.inner.length - c.pos ∧ bs = (c.inner.drop c.pos).take n ∧ c' = ⟨c.inner, c.pos + n⟩ := by
  unfold readExact at h
  split at h
  · cases h
    exact ⟨‹_›, rfl, rfl⟩
  · cases h

@[simp] theorem readU8_new_nil : readU8 (new []) = .error .readExactEof := rfl

@[simp] theorem readU8_new_cons (b : UInt8) (rest : List UInt8) :
    readU8 (new (b :: rest)) = .ok (b, ⟨b :: rest, 1⟩) := by
  simp [readU8, readExact, new]

theorem readLe_after (pre rest : List UInt8) (width : Nat) :
    readLe ⟨pre ++ rest, pre.length⟩ width =
      if width ≤ rest.length then .ok (leValue (rest.take width), ⟨pre ++ rest, pre.length + width⟩)
      else .error .readExactEof := by
  rw [readLe, readExact_after]
  split <;> rfl

end Cursor

theorem readBytes_after (pre rest : List UInt8) (n : Nat) (errorMsg : String) :
    readBytes ⟨pre ++ rest, pre.length⟩ n errorMsg =
      if n ≤ rest.length then .ok (rest.take n, ⟨pre ++ rest, pre.length + n⟩)
      else .error (.invalidData errorMsg) := by
  rw [readBytes, Cursor.readExact_after]
  split <;> rfl

theorem readBytes_eq_ok {c c' : Cursor} {n : Nat} {errorMsg : String} {bs : List UInt8}
    (h : readBytes c n errorMsg = .ok (bs, c')) :
    n ≤ c.inner.length - c.pos ∧ bs = (c.inner.drop c.pos).take n ∧ c' = ⟨c.inner, c.pos + n⟩ := by
  unfold readBytes at h
  cases hr : c.readExact n with
  | error e => rw [hr] at h; cases h
  | ok r => rw [hr] at h; cases h; exact Cursor.readExact_eq_ok hr

theorem sliceFrom_of_le {data : List UInt8} {p : Nat} (h : p ≤ data.length) :
    sliceFrom data p = .ok (data.drop p) := if_pos h

@[simp] theorem sliceFrom_after (pre rest : List UInt8) :
    sliceFrom (pre ++ rest) pre.length = .ok rest := by
  simp [sliceFrom]

end ZingoIndexer
