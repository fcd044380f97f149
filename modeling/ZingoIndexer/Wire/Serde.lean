import ZingoIndexer.Wire.Hex
import ZingoIndexer.Result

/-!
# serde over JSON

What the derived `Serialize` and `Deserialize` impls of `zaino-fetch/src/jsonrpc/response.rs`
are built from: the errors `serde::de::Error` makes, serde's impls for the primitive field types
(`String`, `u32`, `u64`, `i64`, `Vec<T>`, `Option<T>`), `#[serde(with = "hex")]`, and the
`IndexMap` field of `GetBlockchainInfoResponse`. A field type that is defined outside the sources
(`ChainHeight`, `BlockHash`, ...) enters as a `Codec`: its encoder and decoder, with the law that
the decoder reads back what the encoder writes.
-/

namespace ZingoIndexer

/-- `serde::de::Unexpected`: how serde_json names a JSON value of the wrong type. -/
inductive Unexpected
  | bool (b : Bool)
  | unsigned (n : Nat)
  | signed (i : Int)
  | float (bits : UInt64)
  | str (s : String)
  | unit
  | seq
  | map
  deriving DecidableEq, Repr

/-- `serde_json::Error` as the derived impls raise it: by the `serde::de::Error` method that
builds it, and serde_json's own error for elements after the end of a struct's array. -/
inductive SerdeError
  | custom (message : String)
  | invalidType (unexp : Unexpected) (expected : String)
  | invalidValue (unexp : Unexpected) (expected : String)
  | invalidLength (len : Nat) (expected : String)
  | missingField (field : String)
  | duplicateField (field : String)
  | trailingCharacters
  deriving DecidableEq, Repr

namespace Value

def unexpected : Value → Unexpected
  | null => .unit
  | bool b => .bool b
  | number (.int i) => if 0 ≤ i.val then .unsigned i.val.toNat else .signed i.val
  | number (.float bits) => .float bits
  | string s => .str s
  | array _ => .seq
  | object _ => .map

/-- The number a `u64` serializes to. -/
def ofU64 (n : UInt64) : Value :=
  number (.int ⟨n.toNat, by omega, by have := n.toNat_lt_size; simp [UInt64.size] at this; omega⟩)

theorem toInt_bounds64 (x : BitVec 64) : -2 ^ 63 ≤ x.toInt ∧ x.toInt < 2 ^ 63 := by
  have := x.isLt
  rw [BitVec.toInt_eq_toNat_cond]
  split <;> omega

/-- The number an `i64` serializes to. -/
def ofI64 (x : BitVec 64) : Value :=
  number (.int ⟨x.toInt, by have := toInt_bounds64 x; omega, by have := toInt_bounds64 x; omega⟩)

end Value

/-- A field type's `Serialize` and `Deserialize` over JSON. The decoder reads back what the
encoder writes, and nothing is written as `null`, which is how `Option<T>` tells `None` apart. -/
structure Codec (α : Type) where
  encode : α → Value
  decode : Value → Except SerdeError α
  decode_encode : ∀ a, decode (encode a) = .ok a
  encode_ne_null : ∀ a, encode a ≠ .null

attribute [simp] Codec.decode_encode

/-- serde's `String`. -/
def decodeString : Value → Except SerdeError String
  | .string s => .ok s
  | v => .error (.invalidType v.unexpected "a string")

/-- serde's integer `Deserialize` for a type with range `[lo, hi]` named `expected`: `visit_u64`
and `visit_i64` take a JSON integer in range and refuse any other with `invalid_value`; a float
or anything else is `invalid_type`. -/
def decodeInt (lo hi : Int) (expected : String) : Value → Except SerdeError Int
  | .number (.int i) =>
    if lo ≤ i.val ∧ i.val ≤ hi then .ok i.val
    else .error (.invalidValue (Value.number (.int i)).unexpected expected)
  | v => .error (.invalidType v.unexpected expected)

def decodeU32 (v : Value) : Except SerdeError UInt32 :=
  (decodeInt 0 (2 ^ 32 - 1) "u32" v).map asU32

def decodeU64 (v : Value) : Except SerdeError UInt64 :=
  (decodeInt 0 (2 ^ 64 - 1) "u64" v).map fun n => UInt64.ofNat n.toNat

def decodeI64 (v : Value) : Except SerdeError (BitVec 64) :=
  (decodeInt (-2 ^ 63) (2 ^ 63 - 1) "i64" v).map (BitVec.ofInt 64)

/-- serde's `Option<T>`: `null` is `None`, anything else is read as `T`. -/
def decodeOption (dec : Value → Except SerdeError α) : Value → Except SerdeError (Option α)
  | .null => .ok none
  | v => (dec v).map some

/-- serde's `Vec<T>`: a JSON array read element by element, stopping at the first error. -/
def decodeVec (dec : Value → Except SerdeError α) : Value → Except SerdeError (List α)
  | .array items => items.mapM dec
  | v => .error (.invalidType v.unexpected "a sequence")

@[simp] theorem decodeInt_number {lo hi : Int} {expected : String} {i : JsonInt}
    (h : lo ≤ i.val ∧ i.val ≤ hi) : decodeInt lo hi expected (.number (.int i)) = .ok i.val :=
  if_pos h

theorem decodeInt_eq_ok {lo hi : Int} {expected : String} {v : Value} {n : Int}
    (h : decodeInt lo hi expected v = .ok n) :
    lo ≤ n ∧ n ≤ hi ∧ ∃ i : JsonInt, i.val = n ∧ v = .number (.int i) := by
  cases v with
  | number x =>
    cases x with
    | int i =>
      by_cases hr : lo ≤ i.val ∧ i.val ≤ hi
      · rw [decodeInt_number hr] at h
        cases h
        exact ⟨hr.1, hr.2, i, rfl, rfl⟩
      · simp [decodeInt, hr] at h
    | float _ => cases h
  | _ => cases h

@[simp] theorem decodeOption_ne_null {dec : Value → Except SerdeError α} {v : Value}
    (h : v ≠ .null) : decodeOption dec v = (dec v).map some := by
  cases v <;> first | rfl | exact absurd rfl h

theorem mapM_map_decode (c : Codec α) (xs : List α) :
    (xs.map c.encode).mapM c.decode = .ok xs := by
  induction xs with
  | nil => rfl
  | cons x xs ih => rw [List.map_cons, List.mapM_cons, c.decode_encode, ih]; rfl

namespace Codec

def string : Codec String where
  encode := .string
  decode := decodeString
  decode_encode _ := rfl
  encode_ne_null _ := nofun

def u32 : Codec UInt32 where
  encode := .ofU32
  decode := decodeU32
  decode_encode c := by
    have := c.toNat_lt_size
    simp only [Value.ofU32, decodeU32, UInt32.size] at this ⊢
    rw [decodeInt_number (by dsimp only; omega)]
    exact congrArg Except.ok (asU32_toNat c)
  encode_ne_null _ := nofun

def u64 : Codec UInt64 where
  encode := .ofU64
  decode := decodeU64
  decode_encode n := by
    have := n.toNat_lt_size
    simp only [Value.ofU64, decodeU64, UInt64.size] at this ⊢
    rw [decodeInt_number (by dsimp only; omega)]
    exact congrArg Except.ok (UInt64.toNat.inj (by simp [UInt64.toNat_ofNat_of_lt, *]))
  encode_ne_null _ := nofun

def i64 : Codec (BitVec 64) where
  encode := .ofI64
  decode := decodeI64
  decode_encode x := by
    have := Value.toInt_bounds64 x
    simp only [Value.ofI64, decodeI64]
    rw [decodeInt_number (by dsimp only; omega)]
    refine congrArg Except.ok (BitVec.eq_of_toInt_eq ?_)
    rw [BitVec.toInt_ofInt, Int.bmod]
    dsimp only
    split <;> omega
  encode_ne_null _ := nofun

def vec (c : Codec α) : Codec (List α) where
  encode xs := .array (xs.map c.encode)
  decode := decodeVec c.decode
  decode_encode := mapM_map_decode c
  encode_ne_null _ := nofun

end Codec

private theorem jsonInt_eq {i j : JsonInt} (h : i.val = j.val) : i = j := by
  cases i; cases j; simp only [JsonInt.mk.injEq]; exact h

/-- The `u32` decoder reads only the number a `u32` is written as: it refuses, and never wraps,
a number out of range. -/
theorem decodeU32_eq_ok {v : Value} {c : UInt32} (h : decodeU32 v = .ok c) : v = .ofU32 c := by
  obtain ⟨n, hn, rfl⟩ := map_eq_ok h
  obtain ⟨h0, h1, i, rfl, rfl⟩ := decodeInt_eq_ok hn
  exact congrArg (fun j => Value.number (.int j))
    (jsonInt_eq ((toNat_asU32_eq_iff _).mpr ⟨h0, by omega⟩).symm)

theorem decodeU64_eq_ok {v : Value} {n : UInt64} (h : decodeU64 v = .ok n) : v = .ofU64 n := by
  obtain ⟨m, hm, rfl⟩ := map_eq_ok h
  obtain ⟨h0, h1, i, rfl, rfl⟩ := decodeInt_eq_ok hm
  refine congrArg (fun j => Value.number (.int j)) (jsonInt_eq ?_)
  show i.val = ((UInt64.ofNat i.val.toNat).toNat : Int)
  rw [UInt64.toNat_ofNat_of_lt (by simp only [UInt64.size]; omega)]
  omega

theorem decodeI64_eq_ok {v : Value} {x : BitVec 64} (h : decodeI64 v = .ok x) : v = .ofI64 x := by
  obtain ⟨m, hm, rfl⟩ := map_eq_ok h
  obtain ⟨h0, h1, i, rfl, rfl⟩ := decodeInt_eq_ok hm
  refine congrArg (fun j => Value.number (.int j)) (jsonInt_eq ?_)
  show i.val = (BitVec.ofInt 64 i.val).toInt
  rw [BitVec.toInt_ofInt, Int.bmod]
  split <;> omega

/-- `ToHex` and `FromHex` of a type that `#[serde(with = "hex")]` writes, with the law that
`from_hex` reads back what `encode_hex` writes. Its error is kept as its `Display` text. -/
structure HexCodec (α : Type) where
  toHex : α → String
  fromHex : String → Except String α
  fromHex_toHex : ∀ a, fromHex (toHex a) = .ok a

/-- `hex::serialize` and `hex::deserialize`: a JSON string read by `from_hex`, with its error
made `custom`; the visitor takes nothing but a string. -/
def HexCodec.codec (h : HexCodec α) : Codec α where
  encode a := .string (h.toHex a)
  decode
    | .string s => (h.fromHex s).mapError .custom
    | v => .error (.invalidType v.unexpected "a hex encoded string")
  decode_encode a := by simp [h.fromHex_toHex, Except.mapError]
  encode_ne_null _ := nofun

@[simp] theorem HexCodec.codec_decode_object (h : HexCodec α) (entries : List (String × Value)) :
    h.codec.decode (.object entries) = .error (.invalidType .map "a hex encoded string") := rfl

/-- A newtype struct, which serde_json writes and reads as its one field, with
`#[serde(transparent)]` or without. -/
def Codec.newtype (c : Codec α) (mk : α → β) (get : β → α) (hget : ∀ b, mk (get b) = b) :
    Codec β where
  encode b := c.encode (get b)
  decode v := (c.decode v).map mk
  decode_encode b := by simp [Except.map, hget]
  encode_ne_null b := c.encode_ne_null (get b)

/-- Modelled from the spec: binary fields as the hex string of their bytes, refused as
`MalformedHex` when the string is not hex digit pairs. -/
def hexBytes : HexCodec (List UInt8) where
  toHex := hexEncode
  fromHex s :=
    match hexDecode s with
    | some bytes => .ok bytes
    | none => .error "MalformedHex"
  fromHex_toHex bytes := by simp [hexDecode_hexEncode]

/-- A map key type's `Serialize` and `Deserialize` as a JSON object key, with the law that a key
is read back from the string it is written as. -/
structure KeyCodec (K : Type) where
  toKey : K → String
  fromKey : String → Except SerdeError K
  fromKey_toKey : ∀ k, fromKey (toKey k) = .ok k

/-- A map key written as the hex string of its value, its `from_hex` error made `custom`. -/
def HexCodec.key (h : HexCodec α) : KeyCodec α where
  toKey := h.toHex
  fromKey s := (h.fromHex s).mapError .custom
  fromKey_toKey a := by simp [h.fromHex_toHex, Except.mapError]

/-- An `IndexMap`: its entries in insertion order, each key once. -/
structure IndexMap (K V : Type) where
  entries : List (K × V)
  nodup : (entries.map Prod.fst).Nodup

namespace IndexMap

variable {K V : Type} [DecidableEq K]

def empty : IndexMap K V := ⟨[], List.nodup_nil⟩

/-- `IndexMap::insert`: a new key goes last; a key already there keeps its place and takes the
new value. -/
def insert (m : IndexMap K V) (k : K) (v : V) : IndexMap K V :=
  if hk : k ∈ m.entries.map Prod.fst then
    ⟨m.entries.map fun e => if e.1 = k then (k, v) else e, by
      have hkeys : (m.entries.map fun e => if e.1 = k then (k, v) else e).map Prod.fst =
          m.entries.map Prod.fst := by
        rw [List.map_map]
        exact List.map_congr_left fun e _ => by by_cases h : e.1 = k <;> simp [h]
      rw [hkeys]
      exact m.nodup⟩
  else ⟨m.entries ++ [(k, v)], by
    rw [List.map_append]
    exact m.nodup.append (List.nodup_singleton k) (List.disjoint_singleton.mpr hk)⟩

theorem insert_of_not_mem (m : IndexMap K V) {k : K} (v : V) (hk : k ∉ m.entries.map Prod.fst) :
    (m.insert k v).entries = m.entries ++ [(k, v)] := by
  simp only [insert, dif_neg hk]

end IndexMap

/-- indexmap's `Deserialize`: the object's entries in order, each key and value read as it
comes, and each inserted. -/
def decodeIndexMap [DecidableEq K] (key : KeyCodec K) (val : Codec V) :
    Value → Except SerdeError (IndexMap K V)
  | .object entries => entries.foldlM (fun m kv => do
      let k ← key.fromKey kv.1
      let v ← val.decode kv.2
      pure (m.insert k v)) IndexMap.empty
  | v => .error (.invalidType v.unexpected "a map")

theorem foldlM_insert_encode [DecidableEq K] (key : KeyCodec K) (val : Codec V) :
    ∀ (l : List (K × V)) (m : IndexMap K V), (m.entries.map Prod.fst ++ l.map Prod.fst).Nodup →
      ∃ m', (l.map fun kv => (key.toKey kv.1, val.encode kv.2)).foldlM (fun m kv => do
        let k ← key.fromKey kv.1
        let v ← val.decode kv.2
        pure (m.insert k v)) m = .ok m' ∧ m'.entries = m.entries ++ l
  | [], m, _ => ⟨m, rfl, by simp⟩
  | (k, v) :: l, m, hnd => by
    have hk : k ∉ m.entries.map Prod.fst := fun h =>
      (List.nodup_append.mp hnd).2.2 h (List.mem_cons_self _ _)
    have hnd' : ((m.insert k v).entries.map Prod.fst ++ l.map Prod.fst).Nodup := by
      rw [IndexMap.insert_of_not_mem m v hk]
      simpa using hnd
    obtain ⟨m', hfold, hm'⟩ := foldlM_insert_encode key val l (m.insert k v) hnd'
    refine ⟨m', ?_, by rw [hm', IndexMap.insert_of_not_mem m v hk]; simp⟩
    simpa [key.fromKey_toKey] using hfold

/-- The `IndexMap` field: written as an object in insertion order, read back by indexmap. -/
def Codec.indexMap [DecidableEq K] (key : KeyCodec K) (val : Codec V) : Codec (IndexMap K V) where
  encode m := .object (m.entries.map fun kv => (key.toKey kv.1, val.encode kv.2))
  decode := decodeIndexMap key val
  decode_encode m := by
    obtain ⟨m', hfold, hm'⟩ := foldlM_insert_encode key val m.entries IndexMap.empty
      (by simpa [IndexMap.empty] using m.nodup)
    have : m' = m := by
      cases m; cases m'
      simp only [IndexMap.empty, List.nil_append] at hm'
      subst hm'; rfl
    subst this
    exact hfold
  encode_ne_null _ := nofun

end ZingoIndexer
