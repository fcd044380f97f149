import ZingoIndexer.Framer.Cursor

/-!
# Compact sizes

The variable-length integers of the Nym envelope. `CompactSize::read` and `CompactSize::write`
come from `crate::blockcache::utils`, which is not in the sources; they are modelled from the
spec's standard compact-size scheme: a value below 253 in one byte, any other behind an escape
byte `0xFD`, `0xFE` or `0xFF` as a 2, 4 or 8-byte little-endian value. The standard reader takes
each value only in its shortest form and only up to `MAX_COMPACT_SIZE`.
-/

namespace ZingoIndexer

/-- Modelled from the spec: the largest value the standard compact-size reader returns (32 MiB),
the bound Zcash puts on its compact sizes. -/
def MAX_COMPACT_SIZE : Nat := 0x02000000

namespace CompactSize

def nonCanonical : IoError := ⟨.invalidInput, "non-canonical CompactSize"⟩

def tooLarge : IoError := ⟨.invalidInput, "CompactSize too large"⟩

/-- One escape branch of `read`: the value its `read_u16`, `read_u32` or `read_u64` returns,
refused below `least`, the smallest value that needs that width. -/
def readEscaped (r : Except IoError (Nat × Cursor)) (least : Nat) :
    Except IoError (Nat × Cursor) := do
  let (n, c) ← r
  if n < least then throw nonCanonical else pure (n, c)

/-- Modelled from the spec: the value `CompactSize::read` decodes (its `result`), before the
range check. -/
def readResult (c : Cursor) : Except IoError (Nat × Cursor) := do
  let (flag, c) ← c.readU8
  if flag < 253 then pure (flag.toNat, c)
  else if flag = 253 then readEscaped c.readU16Le 253
  else if flag = 254 then readEscaped c.readU32Le 0x10000
  else readEscaped c.readU64Le 0x100000000

/-- Modelled from the spec: `CompactSize::read`. -/
def read (c : Cursor) : Except IoError (UInt64 × Cursor) := do
  let (n, c) ← readResult c
  if n > MAX_COMPACT_SIZE then throw tooLarge else pure (UInt64.ofNat n, c)

/-- Modelled from the spec: the canonical compact-size bytes of `v`, as `CompactSize::write`
emits them. -/
def write (v : Nat) : List UInt8 :=
  if v < 253 then [UInt8.ofNat v]
  else if v ≤ 0xFFFF then 253 :: leBytes 2 v
  else if v ≤ 0xFFFFFFFF then 254 :: leBytes 4 v
  else 255 :: leBytes 8 v

private theorem uint8_lt_iff (a b : UInt8) : a < b ↔ a.toNat < b.toNat := by
  rw [UInt8.lt_def, BitVec.lt_def]
  rfl

private theorem uint8_eq_iff (a b : UInt8) : a = b ↔ a.toNat = b.toNat :=
  ⟨congrArg UInt8.toNat, UInt8.toNat.inj⟩

private theorem readEscaped_after (flag : UInt8) (rest : List UInt8) (width least : Nat) :
    readEscaped (Cursor.readLe ⟨flag :: rest, 1⟩ width) least =
      if width ≤ rest.length then
        if leValue (rest.take width) < least then .error nonCanonical
        else .ok (leValue (rest.take width), ⟨flag :: rest, 1 + width⟩)
      else .error .readExactEof := by
  have h := Cursor.readLe_after [flag] rest width
  simp only [List.singleton_append, List.length_singleton] at h
  rw [readEscaped, h]
  split <;> rfl

theorem readEscaped_leBytes (flag : UInt8) {width least v : Nat} (hv : v < 256 ^ width)
    (hl : least ≤ v) (rest : List UInt8) :
    readEscaped (Cursor.readLe ⟨flag :: (leBytes width v ++ rest), 1⟩ width)
      least =
      .ok (v, ⟨flag :: (leBytes width v ++ rest), 1 + width⟩) := by
  have hlen : width ≤ (leBytes width v ++ rest).length := by simp
  have htake : (leBytes width v ++ rest).take width = leBytes width v := by simp
  rw [readEscaped_after, if_pos hlen, htake, leValue_leBytes, Nat.mod_eq_of_lt hv,
    if_neg (show ¬v < least by omega)]

theorem readEscaped_eq_ok {flag : UInt8} {rest : List UInt8} {width least n : Nat} {c : Cursor}
    (h : readEscaped (Cursor.readLe ⟨flag :: rest, 1⟩ width) least = .ok (n, c)) :
    leBytes width n = rest.take width ∧ least ≤ n ∧ n < 256 ^ width ∧
      c = ⟨flag :: rest, 1 + width⟩ := by
  rw [readEscaped_after] at h
  split at h
  · split at h
    · cases h
    · cases h
      have hlen : (rest.take width).length = width := by simp; omega
      refine ⟨?_, by omega, ?_, rfl⟩
      · simpa [hlen] using leBytes_leValue (rest.take width)
      · simpa [hlen] using leValue_lt (rest.take width)
  · cases h

theorem readResult_write {v : Nat} (hv : v < 2 ^ 64) (rest : List UInt8) :
    readResult (Cursor.new (write v ++ rest)) =
      .ok (v, ⟨write v ++ rest, (write v).length⟩) := by
  unfold write
  split_ifs with h1 h2 h3
  · have hv8 : (UInt8.ofNat v).toNat = v := UInt8.toNat_ofNat_of_lt (by simp [UInt8.size]; omega)
    have hlt : UInt8.ofNat v < 253 := by rw [uint8_lt_iff, hv8]; exact h1
    simp [readResult, hlt, hv8]
  · simp [readResult, Cursor.readU16Le,
      readEscaped_leBytes 253 (by omega : v < 256 ^ 2) (by omega : 253 ≤ v)]
  · simp [readResult, Cursor.readU32Le,
      readEscaped_leBytes 254 (by omega : v < 256 ^ 4) (by omega : 0x10000 ≤ v)]
  · simp [readResult, Cursor.readU64Le,
      readEscaped_leBytes 255 (by omega : v < 256 ^ 8) (by omega : 0x100000000 ≤ v)]

private theorem escaped_sound {flag : UInt8} {rest : List UInt8} {width least n : Nat}
    {c : Cursor} (hesc : (flag = 253 ∧ width = 2 ∧ least = 253) ∨
      (flag = 254 ∧ width = 4 ∧ least = 0x10000) ∨ (flag = 255 ∧ width = 8 ∧ least = 0x100000000))
    (h : readEscaped (Cursor.readLe ⟨flag :: rest, 1⟩ width) least = .ok (n, c)) :
    n < 2 ^ 64 ∧ c = ⟨flag :: rest, (write n).length⟩ ∧ write n <+: flag :: rest := by
  obtain ⟨hb, hl, hlt, rfl⟩ := readEscaped_eq_ok h
  have ⟨hn, hw⟩ : n < 2 ^ 64 ∧ write n = flag :: leBytes width n := by
    rcases hesc with ⟨rfl, rfl, rfl⟩ | ⟨rfl, rfl, rfl⟩ | ⟨rfl, rfl, rfl⟩ <;>
      refine ⟨by omega, ?_⟩ <;> unfold write <;> split_ifs <;> first | rfl | omega
  have hlen : (rest.take width).length = width := by rw [← hb, length_leBytes]
  rw [hw, hb]
  exact ⟨hn, by simp only [List.length_cons, hlen, Nat.add_comm],
    (List.prefix_cons_inj _).mpr (List.take_prefix _ _)⟩

/-- What the reader accepts is exactly the writer's bytes for the value it returns: no
truncated or non-canonical prefix gets through. -/
theorem readResult_eq_ok {data : List UInt8} {n : Nat} {c : Cursor}
    (h : readResult (Cursor.new data) = .ok (n, c)) :
    n < 2 ^ 64 ∧ c = ⟨data, (write n).length⟩ ∧ write n <+: data := by
  cases data with
  | nil => simp [readResult] at h
  | cons b rest =>
    have hb : b.toNat < 256 := b.toNat_lt_size
    simp only [readResult, Cursor.readU8_new_cons, ok_bind] at h
    split_ifs at h with h1 h2 h3
    · cases h
      rw [uint8_lt_iff] at h1
      have hw : write b.toNat = [b] := by
        rw [write, if_pos (by exact h1), UInt8.toNat.inj (UInt8.toNat_ofNat_of_lt (by exact hb))]
      exact ⟨by omega, by rw [hw]; rfl, by rw [hw]; exact ⟨rest, rfl⟩⟩
    · subst h2
      exact escaped_sound (.inl ⟨rfl, rfl, rfl⟩) h
    · subst h3
      exact escaped_sound (.inr (.inl ⟨rfl, rfl, rfl⟩)) h
    · rw [uint8_lt_iff] at h1
      rw [uint8_eq_iff] at h2 h3
      change ¬b.toNat < 253 at h1
      change ¬b.toNat = 253 at h2
      change ¬b.toNat = 254 at h3
      obtain rfl : b = 255 := UInt8.toNat.inj (show b.toNat = 255 by omega)
      exact escaped_sound (.inr (.inr ⟨rfl, rfl, rfl⟩)) h

theorem toNat_ofNat_of_le_max {n : Nat} (h : n ≤ MAX_COMPACT_SIZE) :
    (UInt64.ofNat n).toNat = n :=
  UInt64.toNat_ofNat_of_lt (by unfold MAX_COMPACT_SIZE at h; simp [UInt64.size]; omega)

/-- `CompactSize::read` returns every value up to `MAX_COMPACT_SIZE` the writer writes, and
refuses every larger one as too large. -/
theorem read_write {v : Nat} (hv : v < 2 ^ 64) (rest : List UInt8) :
    read (Cursor.new (write v ++ rest)) =
      if v ≤ MAX_COMPACT_SIZE then .ok (UInt64.ofNat v, ⟨write v ++ rest, (write v).length⟩)
      else .error tooLarge := by
  simp only [read, readResult_write hv, ok_bind]
  by_cases h : v ≤ MAX_COMPACT_SIZE
  · rw [if_pos h, if_neg (by omega), pure_eq_ok]
  · rw [if_neg h, if_pos (by omega), throw_eq_error]

theorem read_eq_ok {data : List UInt8} {v : UInt64} {c : Cursor}
    (h : read (Cursor.new data) = .ok (v, c)) :
    v.toNat ≤ MAX_COMPACT_SIZE ∧ c = ⟨data, (write v.toNat).length⟩ ∧ write v.toNat <+: data := by
  obtain ⟨⟨n, c'⟩, hr, h⟩ := bind_eq_ok h
  obtain ⟨-, rfl, hp⟩ := readResult_eq_ok hr
  dsimp only at h
  by_cases hn : n > MAX_COMPACT_SIZE
  · rw [if_pos hn] at h; cases h
  · rw [if_neg hn] at h
    cases h
    rw [toNat_ofNat_of_le_max (by omega)]
    exact ⟨by omega, rfl, hp⟩

theorem read_pos_le {data : List UInt8} {v : UInt64} {c : Cursor}
    (h : read (Cursor.new data) = .ok (v, c)) : c.pos ≤ data.length := by
  obtain ⟨-, rfl, hp⟩ := read_eq_ok h
  exact hp.length_le

end CompactSize

end ZingoIndexer
