import ZingoIndexer.Wire.Hex
import ZingoIndexer.Result

/-!
# Node responses

`TxidsResponse`, `GetTreestateResponse` and `GetTransactionResponse` of
`zaino-fetch/src/jsonrpc/response.rs`, with their hand-written `Deserialize` impls, read here
over the `serde_json::Value` they start from, and the serde-derived `Serialize` of the two
whose encoding is fully in the sources. `GetTransactionResponse` takes the verbose object
first, then the mempool object, then the bare hex string.
-/

namespace ZingoIndexer

/-- `serde::de::Error` as the decoders build it; `hex` is the `custom` error made from the
transaction decoder's own error. -/
inductive DeError
  | custom (message : String)
  | missingField (field : String)
  | hex (e : HexError)
  deriving DecidableEq, Repr

/-- Vec of transaction ids, as a JSON array. -/
structure TxidsResponse where
  transactions : List String
  deriving DecidableEq, Repr

namespace TxidsResponse

def deserialize (v : Value) : Except DeError TxidsResponse := do
  let items ← okOr v.asArray (.custom "Expected the JSON to be an array")
  pure ⟨items.filterMap Value.asStr⟩

/-- The derived `Serialize` of the struct: an object with its one field. -/
def serialize (x : TxidsResponse) : Value :=
  .object [("transactions", .array (x.transactions.map .string))]

end TxidsResponse

structure CommitmentTreestate where
  finalState : String
  deriving DecidableEq, Repr

structure SaplingTreestate where
  commitments : CommitmentTreestate
  deriving DecidableEq, Repr

structure OrchardTreestate where
  commitments : CommitmentTreestate
  deriving DecidableEq, Repr

structure GetTreestateResponse where
  height : BitVec 32
  hash : String
  time : UInt32
  sapling : SaplingTreestate
  orchard : OrchardTreestate
  deriving DecidableEq, Repr

def GetTreestateResponse.deserialize (v : Value) : Except DeError GetTreestateResponse := do
  let height ← okOr (v.index "height").asI64 (.missingField "height")
  let hash ← okOr (v.index "hash").asStr (.missingField "hash")
  let time ← okOr (v.index "time").asI64 (.missingField "time")
  let saplingFinalState ← okOr (v.path ["sapling", "commitments", "finalState"]).asStr
    (.missingField "sapling final state")
  let orchardFinalState ← okOr (v.path ["orchard", "commitments", "finalState"]).asStr
    (.missingField "orchard final state")
  pure { height := asI32 height, hash, time := asU32 time,
         sapling := ⟨⟨saplingFinalState⟩⟩, orchard := ⟨⟨orchardFinalState⟩⟩ }

inductive GetTransactionResponse
  | raw (tx : SerializedTransaction)
  | object (hex : SerializedTransaction) (height : BitVec 32) (confirmations : UInt32)
  deriving DecidableEq, Repr

namespace GetTransactionResponse

/-- `serde_json::from_value(..).map_err(serde::de::Error::custom)` for the transaction bytes. -/
def readHex (v : Value) : Except DeError SerializedTransaction :=
  (SerializedTransaction.fromValue v).mapError .hex

def deserialize (v : Value) : Except DeError GetTransactionResponse :=
  if (v.get "height").isSome && (v.get "confirmations").isSome then do
    let hex ← readHex (v.index "hex")
    let height ← okOr (v.index "height").asI64 (.custom "Missing or invalid height")
    let confirmations ← okOr (v.index "confirmations").asU64
      (.custom "Missing or invalid confirmations")
    pure (.object hex (asI32 height) (asU32 confirmations))
  else if (v.get "hex").isSome && (v.get "txid").isSome then do
    let hex ← readHex (v.index "hex")
    pure (.object hex (-1) 0)
  else do
    let raw ← readHex v
    pure (.raw raw)

/-- The derived `Serialize` of the enum, externally tagged: it carries no `#[serde(untagged)]`. -/
def serialize : GetTransactionResponse → Value
  | raw tx => .object [("Raw", tx.toHexValue)]
  | object hex height confirmations =>
    .object [("Object", .object [("hex", hex.toHexValue), ("height", .ofI32 height),
      ("confirmations", .ofU32 confirmations)])]

@[simp] theorem readHex_toHexValue (t : SerializedTransaction) : readHex t.toHexValue = .ok t := by
  simp [readHex, Except.mapError]

theorem readHex_eq_error {v : Value} {e : DeError} (h : readHex v = .error e) :
    ∃ he, e = .hex he := by
  rw [readHex] at h
  cases hv : SerializedTransaction.fromValue v with
  | error he => rw [hv] at h; cases h; exact ⟨he, rfl⟩
  | ok t => rw [hv] at h; cases h

theorem deserialize_eq_error {v : Value} {e : DeError} (h : deserialize v = .error e) :
    (∃ he, e = .hex he) ∨
      ((v.index "height").asI64 = none ∧ e = .custom "Missing or invalid height") ∨
      ((v.index "confirmations").asU64 = none ∧ e = .custom "Missing or invalid confirmations") := by
  unfold deserialize at h
  split_ifs at h
  · rcases bind_eq_error h with h | ⟨_, -, h⟩
    · exact .inl (readHex_eq_error h)
    rcases bind_eq_error h with h | ⟨_, -, h⟩
    · exact .inr (.inl (okOr_eq_error h))
    rcases bind_eq_error h with h | ⟨_, -, h⟩
    · exact .inr (.inr (okOr_eq_error h))
    · cases h
  all_goals
    rcases bind_eq_error h with h | ⟨_, -, h⟩
    · exact .inl (readHex_eq_error h)
    · cases h

end GetTransactionResponse

theorem TxidsResponse.deserialize_eq_error {v : Value} {e : DeError}
    (h : TxidsResponse.deserialize v = .error e) :
    v.asArray = none ∧ e = .custom "Expected the JSON to be an array" := by
  rcases bind_eq_error h with h | ⟨_, -, h⟩
  · exact okOr_eq_error h
  · cases h

theorem GetTreestateResponse.deserialize_eq_error {v : Value} {e : DeError}
    (h : GetTreestateResponse.deserialize v = .error e) :
    ((v.index "height").asI64 = none ∧ e = .missingField "height") ∨
      ((v.index "hash").asStr = none ∧ e = .missingField "hash") ∨
      ((v.index "time").asI64 = none ∧ e = .missingField "time") ∨
      ((v.path ["sapling", "commitments", "finalState"]).asStr = none ∧
        e = .missingField "sapling final state") ∨
      ((v.path ["orchard", "commitments", "finalState"]).asStr = none ∧
        e = .missingField "orchard final state") := by
  rcases bind_eq_error h with h | ⟨_, -, h⟩
  · exact .inl (okOr_eq_error h)
  rcases bind_eq_error h with h | ⟨_, -, h⟩
  · exact .inr (.inl (okOr_eq_error h))
  rcases bind_eq_error h with h | ⟨_, -, h⟩
  · exact .inr (.inr (.inl (okOr_eq_error h)))
  rcases bind_eq_error h with h | ⟨_, -, h⟩
  · exact .inr (.inr (.inr (.inl (okOr_eq_error h))))
  rcases bind_eq_error h with h | ⟨_, -, h⟩
  · exact .inr (.inr (.inr (.inr (okOr_eq_error h))))
  · cases h

/-- The derived encoders write shapes the hand-written decoders refuse: the struct
`TxidsResponse` becomes an object, and the externally tagged `GetTransactionResponse` an object
keyed by its variant name, which falls through to the bare-string branch. -/
theorem derived_serialize_is_refused :
    (∀ x : TxidsResponse,
      TxidsResponse.deserialize x.serialize = .error (.custom "Expected the JSON to be an array")) ∧
    (∀ x : GetTransactionResponse,
      GetTransactionResponse.deserialize x.serialize = .error (.hex .notAString)) :=
  ⟨fun _ => rfl, fun x => by cases x <;> rfl⟩

/-- A JSON height of `2 ^ 31` decodes to the `i32` `-2 ^ 31`, and a confirmation count of
`2 ^ 32` to `0`: the `as` casts wrap instead of failing. -/
theorem decoders_wrap_out_of_range_integers :
    GetTreestateResponse.deserialize (.object [("height", .number (.int ⟨2 ^ 31, by decide, by decide⟩)),
        ("hash", .string ""), ("time", .ofU32 0),
        ("sapling", .object [("commitments", .object [("finalState", .string "")])]),
        ("orchard", .object [("commitments", .object [("finalState", .string "")])])]) =
      .ok ⟨asI32 (2 ^ 31), "", 0, ⟨⟨""⟩⟩, ⟨⟨""⟩⟩⟩ ∧ (asI32 (2 ^ 31)).toInt = -2 ^ 31 ∧
    GetTransactionResponse.deserialize (.object [("hex", .string ""), ("height", .ofI32 0),
        ("confirmations", .number (.int ⟨2 ^ 32, by decide, by decide⟩))]) =
      .ok (.object ⟨[]⟩ 0 (asU32 (2 ^ 32))) ∧ (asU32 (2 ^ 32)).toNat = 0 :=
  ⟨rfl, by decide, rfl, by decide⟩

theorem getTreestateResponse_integers_wrap {v : Value} {r : GetTreestateResponse}
    (h : GetTreestateResponse.deserialize v = .ok r) :
    ∃ height time : Int, (v.index "height").asI64 = some height ∧
      (v.index "time").asI64 = some time ∧ r.height = asI32 height ∧ r.time = asU32 time ∧
      (r.height.toInt = height ↔ -2 ^ 31 ≤ height ∧ height < 2 ^ 31) ∧
      ((r.time.toNat : Int) = time ↔ 0 ≤ time ∧ time < 2 ^ 32) := by
  obtain ⟨height, hh, h⟩ := bind_eq_ok h
  obtain ⟨_, -, h⟩ := bind_eq_ok h
  obtain ⟨time, ht, h⟩ := bind_eq_ok h
  obtain ⟨_, -, h⟩ := bind_eq_ok h
  obtain ⟨_, -, h⟩ := bind_eq_ok h
  cases h
  exact ⟨height, time, okOr_eq_ok hh, okOr_eq_ok ht, rfl, rfl, toInt_asI32_eq_iff height,
    toNat_asU32_eq_iff time⟩

theorem getTransactionResponse_integers_wrap {v : Value} {t : SerializedTransaction}
    {h : BitVec 32} {c : UInt32} (hd : GetTransactionResponse.deserialize v = .ok (.object t h c))
    (hh : (v.get "height").isSome) (hc : (v.get "confirmations").isSome) :
    ∃ (height : Int) (conf : Nat), (v.index "height").asI64 = some height ∧
      (v.index "confirmations").asU64 = some conf ∧ h = asI32 height ∧ c = asU32 conf ∧
      (h.toInt = height ↔ -2 ^ 31 ≤ height ∧ height < 2 ^ 31) ∧
      (c.toNat = conf ↔ conf < 2 ^ 32) := by
  rw [GetTransactionResponse.deserialize, if_pos (by simp [hh, hc])] at hd
  obtain ⟨_, -, hd⟩ := bind_eq_ok hd
  obtain ⟨height, hhgt, hd⟩ := bind_eq_ok hd
  obtain ⟨conf, hconf, hd⟩ := bind_eq_ok hd
  cases hd
  refine ⟨height, conf, okOr_eq_ok hhgt, okOr_eq_ok hconf, rfl, rfl, toInt_asI32_eq_iff height, ?_⟩
  have := toNat_asU32_eq_iff conf
  omega

end ZingoIndexer
