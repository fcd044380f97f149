import ZingoIndexer.Framer.CompactSize

/-!
# Nym request framing

`read_nym_method`, `check_nym_body` and `read_nym_request_data` of `zingo-rpc/src/nym/utils.rs`.
A request is a compact-size id, a compact-size-prefixed UTF-8 method name and a
compact-size-prefixed body that must run to the end of the data. The reader accepts exactly
the envelopes the spec's `serialize_request` writes, with every compact size within
`MAX_COMPACT_SIZE`, returns the fields they were written from, and never panics.
-/

namespace ZingoIndexer

/-- `read_nym_method`. -/
def readNymMethod (data : List UInt8) : Except Fault (RustString × List UInt8) := do
  let (methodLen, cursor) ← Fault.lift .io (CompactSize.read (Cursor.new data))
  let (bytes, cursor) ← Fault.lift id (readBytes cursor methodLen.toNat "failed to read")
  let method ← Fault.lift .fromUtf8Error (RustString.fromUtf8 bytes)
  let rest ← sliceFrom data cursor.pos
  pure (method, rest)

/-- The error `check_nym_body` returns when the declared body length is not what remains. -/
def bodySizeError : Fault := .err (.invalidData "Incorrect request body size read.")

/-- `check_nym_body`. -/
def checkNymBody (data : List UInt8) : Except Fault (List UInt8) := do
  let (bodyLen, cursor) ← Fault.lift .io (CompactSize.read (Cursor.new data))
  if bodyLen.toNat ≠ (← sliceFrom data cursor.pos).length then
    throw bodySizeError
  sliceFrom data cursor.pos

/-- `read_nym_request_data`: the request id, the method and the body. -/
def readNymRequestData (data : List UInt8) : Except Fault (UInt64 × RustString × List UInt8) := do
  let (id, cursor) ← Fault.lift .io (CompactSize.read (Cursor.new data))
  let (method, data) ← readNymMethod (← sliceFrom data cursor.pos)
  let body ← checkNymBody data
  pure (id, method, body)

/-- A field behind its compact-size length. -/
def lengthPrefixed (bytes : List UInt8) : List UInt8 := CompactSize.write bytes.length ++ bytes

/-- Modelled from the spec: the envelope `serialize_request` writes (it is not in the sources),
`[compact-size id][compact-size-prefixed method][compact-size-prefixed body]`. -/
def serializeRequest (id : UInt64) (method : RustString) (body : List UInt8) : List UInt8 :=
  CompactSize.write id.toNat ++ lengthPrefixed method.bytes ++ lengthPrefixed body

section Completeness

private theorem lt_of_le_max {n : Nat} (h : n ≤ MAX_COMPACT_SIZE) : n < 2 ^ 64 := by
  unfold MAX_COMPACT_SIZE at h
  omega

private theorem read_write_of_le {n : Nat} (hn : n ≤ MAX_COMPACT_SIZE) (rest : List UInt8) :
    Fault.lift .io (CompactSize.read (Cursor.new (CompactSize.write n ++ rest))) =
      .ok (UInt64.ofNat n, ⟨CompactSize.write n ++ rest, (CompactSize.write n).length⟩) := by
  rw [CompactSize.read_write (lt_of_le_max hn), if_pos hn, Fault.lift_ok]

theorem readNymMethod_write {len : Nat} (hlen : len ≤ MAX_COMPACT_SIZE) (rest : List UInt8) :
    readNymMethod (CompactSize.write len ++ rest) =
      if len ≤ rest.length then
        Fault.lift .fromUtf8Error (RustString.fromUtf8 (rest.take len)) >>= fun method =>
          .ok (method, rest.drop len)
      else .error (.err (.invalidData "failed to read")) := by
  simp only [readNymMethod, read_write_of_le hlen, CompactSize.toNat_ofNat_of_le_max hlen,
    ok_bind, readBytes_after]
  split
  · next h =>
    have hs : sliceFrom (CompactSize.write len ++ rest) ((CompactSize.write len).length + len) =
        .ok (rest.drop len) := by
      rw [sliceFrom_of_le (by simp only [List.length_append]; omega), List.drop_append]
    simp only [Fault.lift_ok, ok_bind, hs, pure_eq_ok]
  · rfl

theorem readNymMethod_lengthPrefixed (method : RustString)
    (hm : method.bytes.length ≤ MAX_COMPACT_SIZE) (rest : List UInt8) :
    readNymMethod (lengthPrefixed method.bytes ++ rest) = .ok (method, rest) := by
  rw [lengthPrefixed, List.append_assoc, readNymMethod_write hm, if_pos (by simp)]
  simp

theorem checkNymBody_write {n : Nat} (hn : n ≤ MAX_COMPACT_SIZE) (rest : List UInt8) :
    checkNymBody (CompactSize.write n ++ rest) =
      if n = rest.length then .ok rest else .error bodySizeError := by
  simp only [checkNymBody, read_write_of_le hn, CompactSize.toNat_ofNat_of_le_max hn, ok_bind,
    sliceFrom_after]
  by_cases h : n = rest.length <;> simp [h]

private theorem uint64_ofNat_toNat (id : UInt64) : UInt64.ofNat id.toNat = id :=
  UInt64.toNat.inj (UInt64.toNat_ofNat_of_lt id.toNat_lt_size)

theorem readNymRequestData_write {id : UInt64} (hid : id.toNat ≤ MAX_COMPACT_SIZE)
    (rest : List UInt8) :
    readNymRequestData (CompactSize.write id.toNat ++ rest) =
      readNymMethod rest >>= fun r => checkNymBody r.2 >>= fun body => .ok (id, r.1, body) := by
  simp only [readNymRequestData, read_write_of_le hid, uint64_ofNat_toNat, ok_bind,
    sliceFrom_after, pure_eq_ok]

theorem readNymRequestData_write_of_gt {id : UInt64} (hid : ¬id.toNat ≤ MAX_COMPACT_SIZE)
    (rest : List UInt8) :
    readNymRequestData (CompactSize.write id.toNat ++ rest) =
      .error (.err (.io CompactSize.tooLarge)) := by
  have hv : id.toNat < 2 ^ 64 := id.toNat_lt_size
  simp only [readNymRequestData, CompactSize.read_write hv, if_neg hid, Fault.lift_error,
    error_bind]

/-- Bytes after a well-formed envelope are taken for body bytes that its length does not
count, so the request is refused. -/
theorem readNymRequestData_append {id : UInt64} {method : RustString} {body : List UInt8}
    (hid : id.toNat ≤ MAX_COMPACT_SIZE) (hm : method.bytes.length ≤ MAX_COMPACT_SIZE)
    (hb : body.length ≤ MAX_COMPACT_SIZE) (extra : List UInt8) :
    readNymRequestData (serializeRequest id method body ++ extra) =
      if extra = [] then .ok (id, method, body) else .error bodySizeError := by
  have hne : body.length = (body ++ extra).length ↔ extra = [] := by simp
  simp only [serializeRequest, List.append_assoc, readNymRequestData_write hid,
    readNymMethod_lengthPrefixed method hm, ok_bind]
  rw [lengthPrefixed, List.append_assoc, checkNymBody_write hb]
  by_cases h : extra = [] <;> simp [h, hne]

end Completeness

section Soundness

theorem readNymMethod_eq_ok {data rest : List UInt8} {method : RustString}
    (h : readNymMethod data = .ok (method, rest)) :
    method.bytes.length ≤ MAX_COMPACT_SIZE ∧ data = lengthPrefixed method.bytes ++ rest := by
  obtain ⟨⟨len, c⟩, hr, -⟩ := bind_eq_ok h
  obtain ⟨hmax, -, t, rfl⟩ := CompactSize.read_eq_ok (Fault.lift_eq_ok hr)
  rw [readNymMethod_write hmax] at h
  split at h
  · next hle =>
    obtain ⟨m, hm, h⟩ := bind_eq_ok h
    cases h
    have hbytes := RustString.bytes_of_fromUtf8 (Fault.lift_eq_ok hm)
    have hlen : method.bytes.length = len.toNat := by rw [hbytes, List.length_take]; omega
    refine ⟨hlen ▸ hmax, ?_⟩
    rw [lengthPrefixed, hlen, List.append_assoc, hbytes, List.take_append_drop]
  · cases h

theorem checkNymBody_eq_ok {data body : List UInt8} (h : checkNymBody data = .ok body) :
    body.length ≤ MAX_COMPACT_SIZE ∧ data = lengthPrefixed body := by
  obtain ⟨⟨len, c⟩, hr, -⟩ := bind_eq_ok h
  obtain ⟨hmax, -, t, rfl⟩ := CompactSize.read_eq_ok (Fault.lift_eq_ok hr)
  rw [checkNymBody_write hmax] at h
  split at h
  · next hlen =>
    cases h
    rw [lengthPrefixed, ← hlen]
    exact ⟨hlen ▸ hmax, rfl⟩
  · cases h

theorem readNymRequestData_eq_ok {data : List UInt8} {id : UInt64} {method : RustString}
    {body : List UInt8} (h : readNymRequestData data = .ok (id, method, body)) :
    id.toNat ≤ MAX_COMPACT_SIZE ∧ method.bytes.length ≤ MAX_COMPACT_SIZE ∧
      body.length ≤ MAX_COMPACT_SIZE ∧ data = serializeRequest id method body := by
  obtain ⟨⟨v, c⟩, hr, -⟩ := bind_eq_ok h
  obtain ⟨hid, -, t, rfl⟩ := CompactSize.read_eq_ok (Fault.lift_eq_ok hr)
  rw [readNymRequestData_write hid] at h
  obtain ⟨⟨m, rest⟩, hm, h⟩ := bind_eq_ok h
  obtain ⟨b, hb, h⟩ := bind_eq_ok h
  cases h
  obtain ⟨hmm, rfl⟩ := readNymMethod_eq_ok hm
  obtain ⟨hbb, rfl⟩ := checkNymBody_eq_ok hb
  exact ⟨hid, hmm, hbb, by rw [serializeRequest, List.append_assoc]⟩

end Soundness

section NoPanic

theorem readNymMethod_noPanic (data : List UInt8) : NoPanic (readNymMethod data) := by
  refine noPanic_bind (noPanic_lift _ _) fun ⟨len, c⟩ hr => ?_
  obtain ⟨-, rfl, hp⟩ := CompactSize.read_eq_ok (Fault.lift_eq_ok hr)
  refine noPanic_bind (noPanic_lift _ _) fun ⟨bytes, c'⟩ hb => ?_
  obtain ⟨hle, -, rfl⟩ := readBytes_eq_ok (Fault.lift_eq_ok hb)
  refine noPanic_bind (noPanic_lift _ _) fun m _ => ?_
  have := hp.length_le
  rw [sliceFrom_of_le (by simp only at hle ⊢; omega)]
  exact noPanic_ok _

theorem checkNymBody_noPanic (data : List UInt8) : NoPanic (checkNymBody data) := by
  refine noPanic_bind (noPanic_lift _ _) fun ⟨len, c⟩ hr => ?_
  have hle := CompactSize.read_pos_le (Fault.lift_eq_ok hr)
  simp only [sliceFrom_of_le hle, ok_bind]
  split <;> simp [bodySizeError]

end NoPanic

/-- The reader takes back every envelope whose method and body lengths are within
`MAX_COMPACT_SIZE`, as long as the id is too; a larger id is refused by the compact-size reader. -/
theorem readNymRequestData_serializeRequest (id : UInt64) (method : RustString)
    (body : List UInt8) (hm : method.bytes.length ≤ MAX_COMPACT_SIZE)
    (hb : body.length ≤ MAX_COMPACT_SIZE) :
    readNymRequestData (serializeRequest id method body) =
      if id.toNat ≤ MAX_COMPACT_SIZE then .ok (id, method, body)
      else .error (.err (.io CompactSize.tooLarge)) := by
  split_ifs with hid
  · simpa using readNymRequestData_append hid hm hb []
  · have hv : id.toNat < 2 ^ 64 := id.toNat_lt_size
    simp only [readNymRequestData, serializeRequest, List.append_assoc, CompactSize.read_write hv,
      if_neg hid, Fault.lift_error, error_bind]

theorem readNymRequestData_serializeRequest_seven :
    RustString.empty.bytes.length ≤ MAX_COMPACT_SIZE ∧
      ([1, 2] : List UInt8).length ≤ MAX_COMPACT_SIZE ∧
      readNymRequestData (serializeRequest 7 RustString.empty [1, 2]) =
        .ok (7, RustString.empty, [1, 2]) :=
  ⟨by decide, by decide, by
    rw [readNymRequestData_serializeRequest 7 RustString.empty [1, 2] (by decide) (by decide),
      if_pos (by decide)]⟩

theorem readNymRequestData_rejects_id_above_max :
    readNymRequestData (serializeRequest 0x02000001 RustString.empty []) =
      .error (.err (.io CompactSize.tooLarge)) := rfl

/-- Whatever the reader accepts is the envelope of the fields it returns, and no strict prefix
or strict extension of an accepted input is accepted. -/
theorem readNymRequestData_accepts_only_envelopes (data : List UInt8) (id : UInt64)
    (method : RustString) (body : List UInt8)
    (h : readNymRequestData data = .ok (id, method, body)) :
    data = serializeRequest id method body ∧
      ∀ other : List UInt8, other ≠ data → (data <+: other ∨ other <+: data) →
        ∀ r, readNymRequestData other ≠ .ok r := by
  obtain ⟨hid, hm, hb, rfl⟩ := readNymRequestData_eq_ok h
  refine ⟨rfl, fun other hne hpre ⟨id', m', b'⟩ hr => ?_⟩
  rcases hpre with ⟨extra, rfl⟩ | ⟨extra, hext⟩
  · have hx : extra ≠ [] := by rintro rfl; simp at hne
    rw [readNymRequestData_append hid hm hb, if_neg hx] at hr
    cases hr
  · obtain ⟨hid', hm', hb', rfl⟩ := readNymRequestData_eq_ok hr
    have hx : extra ≠ [] := by rintro rfl; simp at hext; exact hne hext
    rw [← hext, readNymRequestData_append hid' hm' hb', if_neg hx] at h
    cases h

theorem readNymRequestData_accepts_only_envelopes_seven :
    readNymRequestData [7, 0, 2, 1, 2] = .ok (7, RustString.empty, [1, 2]) ∧
      [7, 0, 2, 1, 2] = serializeRequest 7 RustString.empty [1, 2] ∧
      ∀ other : List UInt8, other ≠ [7, 0, 2, 1, 2] →
        ([7, 0, 2, 1, 2] <+: other ∨ other <+: [7, 0, 2, 1, 2]) →
        ∀ r, readNymRequestData other ≠ .ok r :=
  have h : readNymRequestData [7, 0, 2, 1, 2] = .ok (7, RustString.empty, [1, 2]) := rfl
  ⟨h, readNymRequestData_accepts_only_envelopes _ 7 RustString.empty [1, 2] h⟩

/-- `read_nym_request_data` returns `Ok` or `Err` on every input: none of its three slicings
is ever past the end. -/
theorem readNymRequestData_never_panics (data : List UInt8) :
    (∃ r, readNymRequestData data = .ok r) ∨ ∃ e, readNymRequestData data = .error (.err e) := by
  have hnp : NoPanic (readNymRequestData data) := by
    refine noPanic_bind (noPanic_lift _ _) fun ⟨id, c⟩ hr => ?_
    simp only [sliceFrom_of_le (CompactSize.read_pos_le (Fault.lift_eq_ok hr)), ok_bind]
    refine noPanic_bind (readNymMethod_noPanic _) fun ⟨m, rest⟩ _ => ?_
    exact noPanic_bind (checkNymBody_noPanic _) fun b _ => noPanic_ok _
  rcases hx : readNymRequestData data with (_ | e) | r
  · exact .inr ⟨_, rfl⟩
  · exact absurd hx (hnp e)
  · exact .inl ⟨r, rfl⟩

/-- `read_nym_request_data` accepts exactly the envelopes whose three compact sizes fit in
`MAX_COMPACT_SIZE`, and returns the fields they were written from. -/
theorem readNymRequestData_eq_ok_iff (data : List UInt8) (id : UInt64) (method : RustString)
    (body : List UInt8) :
    readNymRequestData data = .ok (id, method, body) ↔
      id.toNat ≤ MAX_COMPACT_SIZE ∧ method.bytes.length ≤ MAX_COMPACT_SIZE ∧
        body.length ≤ MAX_COMPACT_SIZE ∧ data = serializeRequest id method body := by
  refine ⟨readNymRequestData_eq_ok, fun ⟨hid, hm, hb, h⟩ => ?_⟩
  simpa [h] using readNymRequestData_append hid hm hb []

section ErrorPaths

variable {id : UInt64} (hid : id.toNat ≤ MAX_COMPACT_SIZE)
include hid

theorem readNymRequestData_body_length_mismatch {method : RustString} {n : Nat}
    (hm : method.bytes.length ≤ MAX_COMPACT_SIZE) (hn : n ≤ MAX_COMPACT_SIZE)
    (rest : List UInt8) (hne : n ≠ rest.length) :
    readNymRequestData (CompactSize.write id.toNat ++ lengthPrefixed method.bytes ++
      CompactSize.write n ++ rest) = .error bodySizeError := by
  simp only [List.append_assoc, readNymRequestData_write hid, readNymMethod_lengthPrefixed method hm,
    ok_bind, checkNymBody_write hn, if_neg hne, error_bind]

end ErrorPaths

theorem readNymRequestData_invalid_utf8 (id : UInt64) {bytes : List UInt8}
    (hb : bytes.length ≤ MAX_COMPACT_SIZE) (hv : validUtf8 bytes = false) (rest : List UInt8) :
    readNymRequestData (CompactSize.write id.toNat ++ lengthPrefixed bytes ++ rest) =
      if id.toNat ≤ MAX_COMPACT_SIZE then .error (.err (.fromUtf8Error ⟨bytes⟩))
      else .error (.err (.io CompactSize.tooLarge)) := by
  rw [List.append_assoc]
  split_ifs with hid
  · have hu : RustString.fromUtf8 bytes = .error ⟨bytes⟩ := by simp [RustString.fromUtf8, hv]
    rw [readNymRequestData_write hid, lengthPrefixed, List.append_assoc, readNymMethod_write hb,
      if_pos (by simp), List.take_left, hu]
    rfl
  · exact readNymRequestData_write_of_gt hid _

theorem readNymRequestData_truncated_method (id : UInt64) {len : Nat}
    (hlen : len ≤ MAX_COMPACT_SIZE) (rest : List UInt8) (hshort : rest.length < len) :
    readNymRequestData (CompactSize.write id.toNat ++ CompactSize.write len ++ rest) =
      if id.toNat ≤ MAX_COMPACT_SIZE then .error (.err (.invalidData "failed to read"))
      else .error (.err (.io CompactSize.tooLarge)) := by
  rw [List.append_assoc]
  split_ifs with hid
  · rw [readNymRequestData_write hid, readNymMethod_write hlen, if_neg (by omega)]
    rfl
  · exact readNymRequestData_write_of_gt hid _


/-- The spec's case: a body length of 5 with 3 bytes left. -/
theorem readNymRequestData_body_length_mismatch_five :
    (0 : UInt64).toNat ≤ MAX_COMPACT_SIZE ∧ RustString.empty.bytes.length ≤ MAX_COMPACT_SIZE ∧
      5 ≤ MAX_COMPACT_SIZE ∧ 5 ≠ [1, 2, 3].length ∧
      readNymRequestData (CompactSize.write (0 : UInt64).toNat ++
        lengthPrefixed RustString.empty.bytes ++ CompactSize.write 5 ++ [1, 2, 3]) =
        .error bodySizeError :=
  ⟨by decide, by decide, by decide, by decide,
    readNymRequestData_body_length_mismatch (by decide) (by decide) (by decide) [1, 2, 3] (by decide)⟩

theorem readNymRequestData_invalid_utf8_ff :
    [0xFF].length ≤ MAX_COMPACT_SIZE ∧ validUtf8 [0xFF] = false ∧
      readNymRequestData (CompactSize.write (0 : UInt64).toNat ++ lengthPrefixed [0xFF] ++ []) =
        .error (.err (.fromUtf8Error ⟨[0xFF]⟩)) :=
  ⟨by decide, by decide,
    (readNymRequestData_invalid_utf8 0 (by decide) (by decide) []).trans (if_pos (by decide))⟩

theorem readNymRequestData_truncated_method_four :
    4 ≤ MAX_COMPACT_SIZE ∧ [1].length < 4 ∧
      readNymRequestData (CompactSize.write (0 : UInt64).toNat ++ CompactSize.write 4 ++ [1]) =
        .error (.err (.invalidData "failed to read")) ∧
      readNymRequestData (CompactSize.write (0x02000001 : UInt64).toNat ++ CompactSize.write 4 ++
        [1]) = .error (.err (.io CompactSize.tooLarge)) :=
  ⟨by decide, by decide,
    (readNymRequestData_truncated_method 0 (by decide) [1] (by decide)).trans (if_pos (by decide)),
    (readNymRequestData_truncated_method 0x02000001 (by decide) [1] (by decide)).trans
      (if_neg (by decide))⟩

end ZingoIndexer
