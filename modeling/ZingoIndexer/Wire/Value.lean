import Mathlib

/-!
# JSON values

`serde_json::Value` with the accessors the hand-written decoders of
`zaino-fetch/src/jsonrpc/response.rs` call: `get`, indexing by a key (`v["height"]`, which is
`Null` where there is nothing), `as_i64`, `as_u64`, `as_str`, `as_array`, and Rust's narrowing
`as` casts to `i32` and `u32` that follow them. An `i32` is a `BitVec 32` read with `toInt`.
-/

namespace ZingoIndexer

/-- A JSON integer as `serde_json::Number` holds it: `PosInt` up to `u64::MAX`, `NegInt` down to
`i64::MIN`, kept here as one integer. -/
structure JsonInt where
  val : Int
  ge_min : -2 ^ 63 ≤ val
  lt_max : val < 2 ^ 64
  deriving DecidableEq, Repr

/-- `serde_json::Number`; a float is kept as its bits, which no decoder reads. -/
inductive Number
  | int (i : JsonInt)
  | float (bits : UInt64)
  deriving DecidableEq, Repr

/-- `serde_json::Value`. An object is kept as its entries in the order of the text; `get` reads
them as serde_json's map does, where a repeated key keeps its last value. -/
inductive Value
  | null
  | bool (b : Bool)
  | number (n : Number)
  | string (s : String)
  | array (items : List Value)
  | object (entries : List (String × Value))
  deriving Repr

theorem toInt_bounds (h : BitVec 32) : -2 ^ 31 ≤ h.toInt ∧ h.toInt < 2 ^ 31 := by
  have := h.isLt
  rw [BitVec.toInt_eq_toNat_cond]
  split <;> omega

section Lookup

variable {β : Type} {l l₁ l₂ : List (String × β)} {k : String}

theorem not_mem_keys_of_lookup (h : l.lookup k = none) : k ∉ l.map Prod.fst := by
  simp only [List.lookup_eq_none_iff, bne_iff_ne, ne_eq] at h
  simp only [List.mem_map, not_exists, not_and]
  exact fun kv hkv hk => h kv hkv hk.symm

theorem lookup_of_not_mem_keys (h : k ∉ l.map Prod.fst) : l.lookup k = none := by
  simp only [List.lookup_eq_none_iff, bne_iff_ne, ne_eq]
  exact fun kv hkv hk => h (List.mem_map.mpr ⟨kv, hkv, hk.symm⟩)

theorem mem_of_lookup {v : β} (h : l.lookup k = some v) : (k, v) ∈ l := by
  obtain ⟨l₁, l₂, rfl, -⟩ := List.lookup_eq_some_iff.mp h
  simp

theorem lookup_of_mem {v : β} (hc : (l.map Prod.fst).count k ≤ 1) (h : (k, v) ∈ l) :
    l.lookup k = some v := by
  induction l with
  | nil => cases h
  | cons kv l ih =>
    obtain ⟨k', v'⟩ := kv
    by_cases hk : k' = k
    · subst hk
      rcases List.mem_cons.mp h with h | h
      · cases h; simp
      · have : k' ∈ l.map Prod.fst := List.mem_map.mpr ⟨_, h, rfl⟩
        have := List.count_pos_iff.mpr this
        simp only [List.map_cons, List.count_cons_self] at hc
        omega
    · have hne : (k' == k) = false := by simpa using hk
      rw [List.lookup_cons, show (k == k') = false by simpa using Ne.symm hk]
      simp only [List.map_cons, List.count_cons, hne] at hc
      exact ih (by simpa using hc) (by simpa [Ne.symm hk] using h)

theorem lookup_perm (hp : l₁.Perm l₂) (hc : (l₁.map Prod.fst).count k ≤ 1) :
    l₁.lookup k = l₂.lookup k := by
  have hkeys := hp.map Prod.fst
  cases h : l₁.lookup k with
  | none =>
    exact (lookup_of_not_mem_keys fun hk => not_mem_keys_of_lookup h (hkeys.mem_iff.mpr hk)).symm
  | some v =>
    exact (lookup_of_mem (hkeys.count_eq k ▸ hc) (hp.mem_iff.mp (mem_of_lookup h))).symm

theorem lookup_filter {p : String → Bool} (hp : p k = true) :
    (l.filter fun kv => p kv.1).lookup k = l.lookup k := by
  induction l with
  | nil => rfl
  | cons kv l ih =>
    obtain ⟨k', v'⟩ := kv
    by_cases hk : k' = k
    · subst hk; simp [hp]
    · have hne : (k == k') = false := by simpa using Ne.symm hk
      rw [List.filter_cons, List.lookup_cons, hne]
      split <;> simp only [List.lookup_cons, hne, ih]

end Lookup

namespace Value

/-- `Value::get`: the entry of an object, `None` on anything else. The map serde_json reads an
object into keeps the last value of a repeated key. -/
def get : Value → String → Option Value
  | object entries, key => entries.reverse.lookup key
  | _, _ => none

/-- `v[key]`. -/
def index (v : Value) (key : String) : Value := (v.get key).getD null

/-- `v[k₁][k₂]…`. -/
def path (v : Value) (keys : List String) : Value := keys.foldl index v

def asI64 : Value → Option Int
  | number (.int i) => if i.val < 2 ^ 63 then some i.val else none
  | _ => none

def asU64 : Value → Option Nat
  | number (.int i) => if 0 ≤ i.val then some i.val.toNat else none
  | _ => none

def asStr : Value → Option String
  | string s => some s
  | _ => none

def asArray : Value → Option (List Value)
  | array items => some items
  | _ => none

/-- The number an `i32` serializes to. -/
def ofI32 (h : BitVec 32) : Value :=
  number (.int ⟨h.toInt, by have := toInt_bounds h; omega, by have := toInt_bounds h; omega⟩)

/-- The number a `u32` serializes to. -/
def ofU32 (c : UInt32) : Value :=
  number (.int ⟨c.toNat, by omega, by have := c.toNat_lt_size; simp [UInt32.size] at this; omega⟩)

@[simp] theorem get_array (items : List Value) (key : String) : (array items).get key = none := rfl

@[simp] theorem asI64_ofI32 (h : BitVec 32) : (ofI32 h).asI64 = some h.toInt := by
  have := toInt_bounds h
  simp only [ofI32, asI64]
  rw [if_pos (by omega)]

@[simp] theorem asI64_ofU32 (c : UInt32) : (ofU32 c).asI64 = some (c.toNat : Int) := by
  have := c.toNat_lt_size
  simp only [ofU32, asI64, UInt32.size] at this ⊢
  rw [if_pos (by omega)]

@[simp] theorem asU64_ofU32 (c : UInt32) : (ofU32 c).asU64 = some c.toNat := by
  simp only [ofU32, asU64]
  rw [if_pos (by omega), Int.toNat_ofNat]

@[simp] theorem asStr_string (s : String) : (string s).asStr = some s := rfl

@[simp] theorem asArray_array (items : List Value) : (array items).asArray = some items := rfl

end Value

/-- Rust's `x as i32` for an `i64` `x`: the low 32 bits, as two's complement. -/
def asI32 (x : Int) : BitVec 32 := BitVec.ofInt 32 x

/-- Rust's `x as u32` for an `i64` or a `u64` `x`: the low 32 bits. -/
def asU32 (x : Int) : UInt32 := ⟨BitVec.ofInt 32 x⟩

theorem toInt_asI32 (x : Int) : (asI32 x).toInt = x.bmod (2 ^ 32) := BitVec.toInt_ofInt x

theorem toNat_asU32 (x : Int) : (asU32 x).toNat = (x % 2 ^ 32).toNat := BitVec.toNat_ofInt x

theorem toInt_asI32_eq_iff (x : Int) : (asI32 x).toInt = x ↔ -2 ^ 31 ≤ x ∧ x < 2 ^ 31 := by
  rw [toInt_asI32, Int.bmod]
  split <;> omega

theorem toNat_asU32_eq_iff (x : Int) : ((asU32 x).toNat : Int) = x ↔ 0 ≤ x ∧ x < 2 ^ 32 := by
  rw [toNat_asU32]
  omega

@[simp] theorem asI32_toInt (h : BitVec 32) : asI32 h.toInt = h :=
  BitVec.eq_of_toInt_eq ((toInt_asI32_eq_iff _).mpr (toInt_bounds h))

@[simp] theorem asU32_toNat (c : UInt32) : asU32 c.toNat = c := by
  apply UInt32.toNat.inj
  have := c.toNat_lt_size
  rw [toNat_asU32]
  simp only [UInt32.size] at this
  omega

end ZingoIndexer
