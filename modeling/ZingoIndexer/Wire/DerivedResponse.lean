import ZingoIndexer.Wire.Derive

/-!
# Responses with derived impls

The response types of `zaino-fetch/src/jsonrpc/response.rs` whose `Serialize` and
`Deserialize` are both derived, with their serde attributes: the renames, `with = "hex"`, the
transparent and plain newtypes, the untagged `GetBlockResponse` and its
`skip_serializing_if = "Option::is_none"` fields. The field types defined outside the sources
are type parameters, each with a `Codec`, `HexCodec` or `KeyCodec`.
-/

namespace ZingoIndexer

/-- Response to a `getinfo` request. -/
structure GetInfoResponse where
  build : String
  subversion : String
  deriving DecidableEq, Repr

namespace GetInfoResponse

def fields : List FieldSpec := [Codec.string.field "build", Codec.string.field "subversion"]

def entries (x : GetInfoResponse) : List (String × Value) :=
  [("build", Codec.string.encode x.build), ("subversion", Codec.string.encode x.subversion)]

def serialize (x : GetInfoResponse) : Value := .object x.entries

def deserialize (v : Value) : Except SerdeError GetInfoResponse := do
  let seen ← visitStruct "GetInfoResponse" fields v
  let build ← takeField seen Codec.string "build"
  let subversion ← takeField seen Codec.string "subversion"
  pure ⟨build, subversion⟩

theorem deserialize_perm (x : GetInfoResponse) (es extra : List (String × Value))
    (hextra : ∀ kv ∈ extra, kv.1 ∉ fields.map FieldSpec.name)
    (hperm : es.Perm (x.entries ++ extra)) : deserialize (.object es) = .ok x := by
  obtain ⟨r, hv, hl⟩ := visitMap_perm (by simp [entries])
    (by simp [fields, entries, List.lookup]) hextra hperm
  simp only [deserialize, visitStruct, hv, ok_bind]
  simp [takeField, hl, fields, entries, List.lookup]

end GetInfoResponse

/-- Response to a `getblockchaininfo` request. -/
structure GetBlockchainInfoResponse (ChainHeight BlockHash BranchId UpgradeInfo TipBranch : Type)
    where
  chain : String
  blocks : ChainHeight
  bestBlockHash : BlockHash
  estimatedHeight : ChainHeight
  upgrades : IndexMap BranchId UpgradeInfo
  consensus : TipBranch

namespace GetBlockchainInfoResponse

section

variable {ChainHeight BlockHash BranchId UpgradeInfo TipBranch : Type} [DecidableEq BranchId]
  (chainHeight : Codec ChainHeight) (blockHash : HexCodec BlockHash) (branchId : KeyCodec BranchId)
  (upgradeInfo : Codec UpgradeInfo) (tipBranch : Codec TipBranch)

def fields : List FieldSpec :=
  [Codec.string.field "chain", chainHeight.field "blocks", blockHash.codec.field "bestblockhash",
    chainHeight.field "estimatedheight", (Codec.indexMap branchId upgradeInfo).field "upgrades",
    tipBranch.field "consensus"]

def entries (x : GetBlockchainInfoResponse ChainHeight BlockHash BranchId UpgradeInfo TipBranch) :
    List (String × Value) :=
  [("chain", Codec.string.encode x.chain), ("blocks", chainHeight.encode x.blocks),
    ("bestblockhash", blockHash.codec.encode x.bestBlockHash),
    ("estimatedheight", chainHeight.encode x.estimatedHeight),
    ("upgrades", (Codec.indexMap branchId upgradeInfo).encode x.upgrades),
    ("consensus", tipBranch.encode x.consensus)]

def serialize (x : GetBlockchainInfoResponse ChainHeight BlockHash BranchId UpgradeInfo TipBranch) :
    Value :=
  .object (entries chainHeight blockHash branchId upgradeInfo tipBranch x)

def deserialize (v : Value) :
    Except SerdeError
      (GetBlockchainInfoResponse ChainHeight BlockHash BranchId UpgradeInfo TipBranch) := do
  let seen ← visitStruct "GetBlockchainInfoResponse"
    (fields chainHeight blockHash branchId upgradeInfo tipBranch) v
  let chain ← takeField seen Codec.string "chain"
  let blocks ← takeField seen chainHeight "blocks"
  let bestBlockHash ← takeField seen blockHash.codec "bestblockhash"
  let estimatedHeight ← takeField seen chainHeight "estimatedheight"
  let upgrades ← takeField seen (Codec.indexMap branchId upgradeInfo) "upgrades"
  let consensus ← takeField seen tipBranch "consensus"
  pure ⟨chain, blocks, bestBlockHash, estimatedHeight, upgrades, consensus⟩

theorem deserialize_perm
    (x : GetBlockchainInfoResponse ChainHeight BlockHash BranchId UpgradeInfo TipBranch)
    (es extra : List (String × Value))
    (hextra : ∀ kv ∈ extra,
      kv.1 ∉ (fields chainHeight blockHash branchId upgradeInfo tipBranch).map FieldSpec.name)
    (hperm : es.Perm (entries chainHeight blockHash branchId upgradeInfo tipBranch x ++ extra)) :
    deserialize chainHeight blockHash branchId upgradeInfo tipBranch (.object es) = .ok x := by
  obtain ⟨r, hv, hl⟩ := visitMap_perm (by simp [entries])
    (by simp [fields, entries, List.lookup]) hextra hperm
  simp only [deserialize, visitStruct, hv, ok_bind]
  simp [takeField, hl, fields, entries, List.lookup]

end

end GetBlockchainInfoResponse

/-- The transparent balance of a set of addresses. -/
structure GetBalanceResponse where
  balance : UInt64
  deriving DecidableEq, Repr

namespace GetBalanceResponse

def fields : List FieldSpec := [Codec.u64.field "balance"]

def entries (x : GetBalanceResponse) : List (String × Value) :=
  [("balance", Codec.u64.encode x.balance)]

def serialize (x : GetBalanceResponse) : Value := .object x.entries

def deserialize (v : Value) : Except SerdeError GetBalanceResponse := do
  let seen ← visitStruct "GetBalanceResponse" fields v
  let balance ← takeField seen Codec.u64 "balance"
  pure ⟨balance⟩

theorem deserialize_perm (x : GetBalanceResponse) (es extra : List (String × Value))
    (hextra : ∀ kv ∈ extra, kv.1 ∉ fields.map FieldSpec.name)
    (hperm : es.Perm (x.entries ++ extra)) : deserialize (.object es) = .ok x := by
  obtain ⟨r, hv, hl⟩ := visitMap_perm (by simp [entries])
    (by simp [fields, entries, List.lookup]) hextra hperm
  simp only [deserialize, visitStruct, hv, ok_bind]
  simp [takeField, hl, fields, entries, List.lookup]

end GetBalanceResponse

/-- The hash of a sent transaction: a newtype over the hex `TransactionHash`. -/
structure SendTransactionResponse (TransactionHash : Type) where
  hash : TransactionHash

def SendTransactionResponse.codec (txHash : HexCodec TransactionHash) :
    Codec (SendTransactionResponse TransactionHash) :=
  txHash.codec.newtype SendTransactionResponse.mk SendTransactionResponse.hash fun _ => rfl

/-- `GetBlockHash`: `#[serde(transparent)]` over the hex `BlockHash`. -/
structure GetBlockHash (BlockHash : Type) where
  hash : BlockHash

def GetBlockHash.codec (blockHash : HexCodec BlockHash) : Codec (GetBlockHash BlockHash) :=
  blockHash.codec.newtype GetBlockHash.mk GetBlockHash.hash fun _ => rfl

/-- Response to a `getblock` request, `#[serde(untagged)]`: the raw block as hex, or the block
object, whose `height` and `time` are left out when they are `None`. -/
inductive GetBlockResponse (SerializedBlock BlockHash ChainHeight TreeSize : Type)
  | raw (block : SerializedBlock)
  | object (hash : GetBlockHash BlockHash) (confirmations : BitVec 64) (height : Option ChainHeight)
      (time : Option (BitVec 64)) (tx : List String) (trees : TreeSize)

namespace GetBlockResponse

section

variable {SerializedBlock BlockHash ChainHeight TreeSize : Type}
  (block : HexCodec SerializedBlock) (blockHash : HexCodec BlockHash)
  (chainHeight : Codec ChainHeight) (treeSize : Codec TreeSize)

def objectFields : List FieldSpec :=
  [(GetBlockHash.codec blockHash).field "hash", Codec.i64.field "confirmations",
    chainHeight.optionField "height", Codec.i64.optionField "time",
    (Codec.vec Codec.string).field "tx", treeSize.field "trees"]

def objectEntries (hash : GetBlockHash BlockHash) (confirmations : BitVec 64)
    (height : Option ChainHeight) (time : Option (BitVec 64)) (tx : List String)
    (trees : TreeSize) : List (String × Value) :=
  [("hash", (GetBlockHash.codec blockHash).encode hash),
    ("confirmations", Codec.i64.encode confirmations)] ++
    optionEntry chainHeight "height" height ++ optionEntry Codec.i64 "time" time ++
    [("tx", (Codec.vec Codec.string).encode tx), ("trees", treeSize.encode trees)]

def serialize : GetBlockResponse SerializedBlock BlockHash ChainHeight TreeSize → Value
  | raw b => block.codec.encode b
  | object hash confirmations height time tx trees =>
    .object (objectEntries blockHash chainHeight treeSize hash confirmations height time tx trees)

/-- The visitor of the `Object` variant. -/
def deserializeObject (v : Value) :
    Except SerdeError (GetBlockResponse SerializedBlock BlockHash ChainHeight TreeSize) := do
  let seen ← visitVariant "GetBlockResponse::Object" (objectFields blockHash chainHeight treeSize) v
  let hash ← takeField seen (GetBlockHash.codec blockHash) "hash"
  let confirmations ← takeField seen Codec.i64 "confirmations"
  let height ← takeOptionField seen chainHeight "height"
  let time ← takeOptionField seen Codec.i64 "time"
  let tx ← takeField seen (Codec.vec Codec.string) "tx"
  let trees ← takeField seen treeSize "trees"
  pure (object hash confirmations height time tx trees)

/-- The derived `Deserialize` of the untagged enum: each variant in turn on the buffered input,
the first that reads it wins, and if none does, one `custom` error. -/
def deserialize (v : Value) :
    Except SerdeError (GetBlockResponse SerializedBlock BlockHash ChainHeight TreeSize) :=
  match block.codec.decode v with
  | .ok b => .ok (raw b)
  | .error _ =>
    match deserializeObject blockHash chainHeight treeSize v with
    | .ok r => .ok r
    | .error _ => .error (.custom "data did not match any variant of untagged enum GetBlockResponse")

theorem deserializeObject_perm (hash : GetBlockHash BlockHash) (confirmations : BitVec 64)
    (height : Option ChainHeight) (time : Option (BitVec 64)) (tx : List String) (trees : TreeSize)
    (es extra : List (String × Value))
    (hextra : ∀ kv ∈ extra, kv.1 ∉ (objectFields blockHash chainHeight treeSize).map FieldSpec.name)
    (hperm : es.Perm (objectEntries blockHash chainHeight treeSize hash confirmations height time
      tx trees ++ extra)) :
    @deserializeObject SerializedBlock _ _ _ blockHash chainHeight treeSize
      (.object es) = .ok (object hash confirmations height time tx trees) := by
  obtain ⟨r, hv, hl⟩ := visitMap_perm
    (by cases height <;> cases time <;> simp [objectEntries, optionEntry])
    (by simp [objectFields, objectEntries, List.lookup_append, List.lookup]) hextra hperm
  have hh : r.lookup "height" = height.map chainHeight.encode := by
    simp [hl, objectFields, objectEntries, List.lookup_append, List.lookup]
  have ht : r.lookup "time" = time.map Codec.i64.encode := by
    simp [hl, objectFields, objectEntries, List.lookup_append, List.lookup]
  simp only [deserializeObject, visitVariant, hv, ok_bind, takeOptionField_of_lookup hh,
    takeOptionField_of_lookup ht]
  simp [takeField, hl, objectFields, objectEntries, List.lookup_append, List.lookup]

theorem deserialize_object (es : List (String × Value)) :
    deserialize block blockHash chainHeight treeSize (.object es) =
      match deserializeObject blockHash chainHeight treeSize (.object es) with
      | .ok r => .ok r
      | .error _ =>
        .error (.custom "data did not match any variant of untagged enum GetBlockResponse") := by
  simp only [deserialize, HexCodec.codec_decode_object]

end

end GetBlockResponse

/-- The hash of the best block: `#[serde(transparent)]` over the hex `BlockHash`. -/
structure BestBlockHashResponse (BlockHash : Type) where
  hash : BlockHash

def BestBlockHashResponse.codec (blockHash : HexCodec BlockHash) :
    Codec (BestBlockHashResponse BlockHash) :=
  blockHash.codec.newtype BestBlockHashResponse.mk BestBlockHashResponse.hash fun _ => rfl

/-- Response to a `z_getsubtreesbyindex` request. -/
structure GetSubtreesResponse (SubtreeIndex SubtreeData : Type) where
  pool : String
  startIndex : SubtreeIndex
  subtrees : List SubtreeData

namespace GetSubtreesResponse

section

variable {SubtreeIndex SubtreeData : Type} (subtreeIndex : Codec SubtreeIndex)
  (subtreeData : Codec SubtreeData)

def fields : List FieldSpec :=
  [Codec.string.field "pool", subtreeIndex.field "start_index",
    (Codec.vec subtreeData).field "subtrees"]

def entries (x : GetSubtreesResponse SubtreeIndex SubtreeData) : List (String × Value) :=
  [("pool", Codec.string.encode x.pool), ("start_index", subtreeIndex.encode x.startIndex),
    ("subtrees", (Codec.vec subtreeData).encode x.subtrees)]

def serialize (x : GetSubtreesResponse SubtreeIndex SubtreeData) : Value :=
  .object (entries subtreeIndex subtreeData x)

def deserialize (v : Value) : Except SerdeError (GetSubtreesResponse SubtreeIndex SubtreeData) := do
  let seen ← visitStruct "GetSubtreesResponse" (fields subtreeIndex subtreeData) v
  let pool ← takeField seen Codec.string "pool"
  let startIndex ← takeField seen subtreeIndex "start_index"
  let subtrees ← takeField seen (Codec.vec subtreeData) "subtrees"
  pure ⟨pool, startIndex, subtrees⟩

theorem deserialize_perm (x : GetSubtreesResponse SubtreeIndex SubtreeData)
    (es extra : List (String × Value))
    (hextra : ∀ kv ∈ extra, kv.1 ∉ (fields subtreeIndex subtreeData).map FieldSpec.name)
    (hperm : es.Perm (entries subtreeIndex subtreeData x ++ extra)) :
    deserialize subtreeIndex subtreeData (.object es) = .ok x := by
  obtain ⟨r, hv, hl⟩ := visitMap_perm (by simp [entries])
    (by simp [fields, entries, List.lookup]) hextra hperm
  simp only [deserialize, visitStruct, hv, ok_bind]
  simp [takeField, hl, fields, entries, List.lookup]

end

end GetSubtreesResponse

/-- Response to a `getaddressutxos` request: one transparent output. -/
structure GetUtxosResponse (Address TransactionHash ZcashScript ChainHeight : Type) where
  address : Address
  txid : TransactionHash
  outputIndex : UInt32
  script : ZcashScript
  satoshis : UInt64
  height : ChainHeight

namespace GetUtxosResponse

section

variable {Address TransactionHash ZcashScript ChainHeight : Type} (address : Codec Address)
  (txHash : HexCodec TransactionHash) (zcashScript : HexCodec ZcashScript)
  (chainHeight : Codec ChainHeight)

def fields : List FieldSpec :=
  [address.field "address", txHash.codec.field "txid", Codec.u32.field "outputIndex",
    zcashScript.codec.field "script", Codec.u64.field "satoshis", chainHeight.field "height"]

def entries (x : GetUtxosResponse Address TransactionHash ZcashScript ChainHeight) :
    List (String × Value) :=
  [("address", address.encode x.address), ("txid", txHash.codec.encode x.txid),
    ("outputIndex", Codec.u32.encode x.outputIndex), ("script", zcashScript.codec.encode x.script),
    ("satoshis", Codec.u64.encode x.satoshis), ("height", chainHeight.encode x.height)]

def serialize (x : GetUtxosResponse Address TransactionHash ZcashScript ChainHeight) : Value :=
  .object (entries address txHash zcashScript chainHeight x)

def deserialize (v : Value) :
    Except SerdeError (GetUtxosResponse Address TransactionHash ZcashScript ChainHeight) := do
  let seen ← visitStruct "GetUtxosResponse" (fields address txHash zcashScript chainHeight) v
  let address ← takeField seen address "address"
  let txid ← takeField seen txHash.codec "txid"
  let outputIndex ← takeField seen Codec.u32 "outputIndex"
  let script ← takeField seen zcashScript.codec "script"
  let satoshis ← takeField seen Codec.u64 "satoshis"
  let height ← takeField seen chainHeight "height"
  pure ⟨address, txid, outputIndex, script, satoshis, height⟩

theorem deserialize_perm (x : GetUtxosResponse Address TransactionHash ZcashScript ChainHeight)
    (es extra : List (String × Value))
    (hextra : ∀ kv ∈ extra,
      kv.1 ∉ (fields address txHash zcashScript chainHeight).map FieldSpec.name)
    (hperm : es.Perm (entries address txHash zcashScript chainHeight x ++ extra)) :
    deserialize address txHash zcashScript chainHeight (.object es) = .ok x := by
  obtain ⟨r, hv, hl⟩ := visitMap_perm (by simp [entries])
    (by simp [fields, entries, List.lookup]) hextra hperm
  simp only [deserialize, visitStruct, hv, ok_bind]
  simp [takeField, hl, fields, entries, List.lookup]

end

end GetUtxosResponse

section RoundTrip

variable {SerializedBlock BlockHash ChainHeight TreeSize TransactionHash ZcashScript Address
  SubtreeIndex SubtreeData BranchId UpgradeInfo TipBranch : Type} [DecidableEq BranchId]
  (block : HexCodec SerializedBlock) (blockHash : HexCodec BlockHash)
  (txHash : HexCodec TransactionHash) (zcashScript : HexCodec ZcashScript)
  (chainHeight : Codec ChainHeight) (treeSize : Codec TreeSize) (address : Codec Address)
  (subtreeIndex : Codec SubtreeIndex) (subtreeData : Codec SubtreeData)
  (branchId : KeyCodec BranchId) (upgradeInfo : Codec UpgradeInfo) (tipBranch : Codec TipBranch)

/-- Every response type whose impls are both derived reads back what it writes, the untagged
`GetBlockResponse` with its left-out `None` fields included, given field types that do. -/
theorem derived_responses_round_trip :
    (∀ x : GetInfoResponse, GetInfoResponse.deserialize x.serialize = .ok x) ∧
    (∀ x, GetBlockchainInfoResponse.deserialize chainHeight blockHash branchId upgradeInfo tipBranch
      (GetBlockchainInfoResponse.serialize chainHeight blockHash branchId upgradeInfo tipBranch x) =
        .ok x) ∧
    (∀ x : GetBalanceResponse, GetBalanceResponse.deserialize x.serialize = .ok x) ∧
    (∀ x, (SendTransactionResponse.codec txHash).decode
      ((SendTransactionResponse.codec txHash).encode x) = .ok x) ∧
    (∀ x, (GetBlockHash.codec blockHash).decode ((GetBlockHash.codec blockHash).encode x) = .ok x) ∧
    (∀ x, GetBlockResponse.deserialize block blockHash chainHeight treeSize
      (GetBlockResponse.serialize block blockHash chainHeight treeSize x) = .ok x) ∧
    (∀ x, (BestBlockHashResponse.codec blockHash).decode
      ((BestBlockHashResponse.codec blockHash).encode x) = .ok x) ∧
    (∀ x, GetSubtreesResponse.deserialize subtreeIndex subtreeData
      (GetSubtreesResponse.serialize subtreeIndex subtreeData x) = .ok x) ∧
    (∀ x, GetUtxosResponse.deserialize address txHash zcashScript chainHeight
      (GetUtxosResponse.serialize address txHash zcashScript chainHeight x) = .ok x) := by
  refine ⟨fun x => GetInfoResponse.deserialize_perm x _ [] (by simp) (by simp),
    fun x => GetBlockchainInfoResponse.deserialize_perm _ _ _ _ _ x _ [] (by simp)
      (by simp),
    fun x => GetBalanceResponse.deserialize_perm x _ [] (by simp) (by simp),
    fun x => by simp, fun x => by simp, fun x => ?_, fun x => by simp,
    fun x => GetSubtreesResponse.deserialize_perm _ _ x _ [] (by simp) (by simp),
    fun x => GetUtxosResponse.deserialize_perm _ _ _ _ x _ [] (by simp) (by simp)⟩
  cases x with
  | raw b => simp [GetBlockResponse.deserialize, GetBlockResponse.serialize]
  | object hash confirmations height time tx trees =>
    rw [GetBlockResponse.serialize, GetBlockResponse.deserialize_object,
      GetBlockResponse.deserializeObject_perm _ _ _ hash confirmations height time tx trees
        _ [] (by simp) (by simp)]

theorem derived_responses_round_trip_hex_fields :
    GetBlockchainInfoResponse.deserialize Codec.u32 hexBytes hexBytes.key Codec.string Codec.string
      (GetBlockchainInfoResponse.serialize Codec.u32 hexBytes hexBytes.key Codec.string
        Codec.string ⟨"main", 7, [1], 8, ⟨[([0x76, 0xb8], "active")], by decide⟩, "c"⟩) =
      .ok ⟨"main", 7, [1], 8, ⟨[([0x76, 0xb8], "active")], by decide⟩, "c"⟩ ∧
    GetBlockResponse.deserialize hexBytes hexBytes Codec.u32 Codec.u64
      (GetBlockResponse.serialize hexBytes hexBytes Codec.u32 Codec.u64
        (.object ⟨[7]⟩ 3 (some 9) none ["ab"] 2)) =
      .ok (.object ⟨[7]⟩ 3 (some 9) none ["ab"] 2) :=
  have h := derived_responses_round_trip hexBytes hexBytes hexBytes hexBytes Codec.u32 Codec.u64
    Codec.string Codec.u32 Codec.string hexBytes.key Codec.string Codec.string
  ⟨h.2.1 _, h.2.2.2.2.2.1 _⟩

/-- The block object is read whatever the order of its entries and whatever entries under other
keys it carries: only each field's one value counts, and a `None` field may be left out. -/
theorem getBlockResponse_reads_any_field_order (hash : GetBlockHash BlockHash)
    (confirmations : BitVec 64) (height : Option ChainHeight) (time : Option (BitVec 64))
    (tx : List String) (trees : TreeSize) (es extra : List (String × Value))
    (hextra : ∀ kv ∈ extra,
      kv.1 ∉ (GetBlockResponse.objectFields blockHash chainHeight treeSize).map FieldSpec.name)
    (hperm : es.Perm (GetBlockResponse.objectEntries blockHash chainHeight treeSize hash
      confirmations height time tx trees ++ extra)) :
    GetBlockResponse.deserialize block blockHash chainHeight treeSize (.object es) =
      .ok (.object hash confirmations height time tx trees) := by
  rw [GetBlockResponse.deserialize_object, GetBlockResponse.deserializeObject_perm _ _ _ hash
    confirmations height time tx trees es extra hextra hperm]

theorem getBlockResponse_reads_any_field_order_reversed :
    (∀ kv ∈ [("txid", Value.string "ab")],
      kv.1 ∉ (GetBlockResponse.objectFields hexBytes Codec.u32 Codec.u64).map FieldSpec.name) ∧
    (GetBlockResponse.objectEntries hexBytes Codec.u32 Codec.u64 ⟨[7]⟩ 3 (some 9) none ["ab"] 2 ++
      [("txid", Value.string "ab")]).reverse.Perm
      (GetBlockResponse.objectEntries hexBytes Codec.u32 Codec.u64 ⟨[7]⟩ 3 (some 9) none ["ab"] 2 ++
        [("txid", Value.string "ab")]) ∧
    GetBlockResponse.deserialize hexBytes hexBytes Codec.u32 Codec.u64
      (.object (GetBlockResponse.objectEntries hexBytes Codec.u32 Codec.u64 ⟨[7]⟩ 3 (some 9) none
        ["ab"] 2 ++ [("txid", Value.string "ab")]).reverse) =
      .ok (.object ⟨[7]⟩ 3 (some 9) none ["ab"] 2) :=
  have hextra : ∀ kv ∈ [("txid", Value.string "ab")],
      kv.1 ∉ (GetBlockResponse.objectFields hexBytes Codec.u32 Codec.u64).map FieldSpec.name := by
    decide
  ⟨hextra, List.reverse_perm _, getBlockResponse_reads_any_field_order hexBytes hexBytes Codec.u32
    Codec.u64 ⟨[7]⟩ 3 (some 9) none ["ab"] 2 _ _ hextra (List.reverse_perm _)⟩

theorem getBlockResponse_refuses_repeated_field (es : List (String × Value)) (name : String)
    (hname : name ∈ (GetBlockResponse.objectFields blockHash chainHeight treeSize).map
      FieldSpec.name)
    (hdup : 2 ≤ (es.map Prod.fst).count name) :
    GetBlockResponse.deserialize block blockHash chainHeight treeSize (.object es) =
      .error (.custom "data did not match any variant of untagged enum GetBlockResponse") := by
  rw [GetBlockResponse.deserialize_object]
  split
  · next r h =>
    obtain ⟨seen, hv, -⟩ := bind_eq_ok h
    exact absurd hv (visitMap_ne_ok_of_repeated hname hdup)
  · rfl

theorem getBlockResponse_refuses_repeated_field_tx :
    "tx" ∈ (GetBlockResponse.objectFields hexBytes Codec.u32 Codec.u64).map FieldSpec.name ∧
    2 ≤ ((GetBlockResponse.objectEntries hexBytes Codec.u32 Codec.u64 ⟨[7]⟩ 3 none none ["ab"] 2 ++
      [("tx", Value.array [])]).map Prod.fst).count "tx" ∧
    GetBlockResponse.deserialize hexBytes hexBytes Codec.u32 Codec.u64
      (.object (GetBlockResponse.objectEntries hexBytes Codec.u32 Codec.u64 ⟨[7]⟩ 3 none none ["ab"]
        2 ++ [("tx", Value.array [])])) =
      .error (.custom "data did not match any variant of untagged enum GetBlockResponse") :=
  have hname : "tx" ∈ (GetBlockResponse.objectFields hexBytes Codec.u32 Codec.u64).map
      FieldSpec.name := by decide
  have hdup : 2 ≤ ((GetBlockResponse.objectEntries hexBytes Codec.u32 Codec.u64 ⟨[7]⟩ 3 none none
      ["ab"] 2 ++ [("tx", Value.array [])]).map Prod.fst).count "tx" := by decide
  ⟨hname, hdup, getBlockResponse_refuses_repeated_field hexBytes hexBytes Codec.u32 Codec.u64 _ _
    hname hdup⟩

/-- The UTXO decoder returns the object's `outputIndex` and `satoshis` exactly: an integer out of
the range of `u32` or `u64` is refused, never cut to its low bits. -/
theorem getUtxosResponse_keeps_integers {es : List (String × Value)}
    {r : GetUtxosResponse Address TransactionHash ZcashScript ChainHeight}
    (h : GetUtxosResponse.deserialize address txHash zcashScript chainHeight (.object es) = .ok r) :
    es.lookup "outputIndex" = some (.ofU32 r.outputIndex) ∧
      es.lookup "satoshis" = some (.ofU64 r.satoshis) := by
  obtain ⟨seen, hv, h⟩ := bind_eq_ok h
  obtain ⟨_, -, h⟩ := bind_eq_ok h
  obtain ⟨_, -, h⟩ := bind_eq_ok h
  obtain ⟨_, hoi, h⟩ := bind_eq_ok h
  obtain ⟨_, -, h⟩ := bind_eq_ok h
  obtain ⟨_, hsat, h⟩ := bind_eq_ok h
  obtain ⟨_, -, h⟩ := bind_eq_ok h
  cases h
  obtain ⟨v, hv1, hd1⟩ := takeField_eq_ok hoi
  obtain ⟨w, hw1, hd2⟩ := takeField_eq_ok hsat
  rw [← visitMap_lookup hv "outputIndex" (by simp [GetUtxosResponse.fields]),
    ← visitMap_lookup hv "satoshis" (by simp [GetUtxosResponse.fields]), hv1, hw1,
    decodeU32_eq_ok hd1, decodeU64_eq_ok hd2]
  exact ⟨rfl, rfl⟩

theorem getUtxosResponse_keeps_integers_sample :
    GetUtxosResponse.deserialize Codec.string hexBytes hexBytes Codec.u32
      (.object (GetUtxosResponse.entries Codec.string hexBytes hexBytes Codec.u32
        ⟨"t1", [1], 0, [0x51], 5000, 7⟩)) = .ok ⟨"t1", [1], 0, [0x51], 5000, 7⟩ ∧
    (GetUtxosResponse.entries Codec.string hexBytes hexBytes Codec.u32
      ⟨"t1", [1], 0, [0x51], 5000, 7⟩).lookup "outputIndex" = some (.ofU32 0) ∧
    (GetUtxosResponse.entries Codec.string hexBytes hexBytes Codec.u32
      ⟨"t1", [1], 0, [0x51], 5000, 7⟩).lookup "satoshis" = some (.ofU64 5000) :=
  have h := GetUtxosResponse.deserialize_perm Codec.string hexBytes hexBytes Codec.u32
    ⟨"t1", [1], 0, [0x51], 5000, 7⟩ _ [] (by simp) (by simp)
  ⟨h, getUtxosResponse_keeps_integers _ _ _ _ h⟩

theorem getBlockResponse_keeps_integers {es : List (String × Value)} {hash : GetBlockHash BlockHash}
    {confirmations : BitVec 64} {height : Option ChainHeight} {time : Option (BitVec 64)}
    {tx : List String} {trees : TreeSize}
    (h : GetBlockResponse.deserialize block blockHash chainHeight treeSize (.object es) =
      .ok (.object hash confirmations height time tx trees)) :
    es.lookup "confirmations" = some (.ofI64 confirmations) ∧
      ∀ t, time = some t → es.lookup "time" = some (.ofI64 t) := by
  rw [GetBlockResponse.deserialize_object] at h
  split at h
  · next r hr =>
    cases h
    obtain ⟨seen, hv, hr⟩ := bind_eq_ok hr
    obtain ⟨_, -, hr⟩ := bind_eq_ok hr
    obtain ⟨_, hc, hr⟩ := bind_eq_ok hr
    obtain ⟨_, -, hr⟩ := bind_eq_ok hr
    obtain ⟨_, ht, hr⟩ := bind_eq_ok hr
    obtain ⟨_, -, hr⟩ := bind_eq_ok hr
    obtain ⟨_, -, hr⟩ := bind_eq_ok hr
    cases hr
    obtain ⟨v, hv1, hd1⟩ := takeField_eq_ok hc
    refine ⟨?_, fun t htime => ?_⟩
    · rw [← visitMap_lookup hv "confirmations" (by simp [GetBlockResponse.objectFields]), hv1,
        decodeI64_eq_ok hd1]
    · subst htime
      obtain ⟨w, hw1, hd2⟩ := takeOptionField_eq_some ht
      rw [← visitMap_lookup hv "time" (by simp [GetBlockResponse.objectFields]), hw1,
        decodeI64_eq_ok hd2]
  · cases h

theorem getBlockResponse_keeps_integers_sample :
    GetBlockResponse.deserialize hexBytes hexBytes Codec.u32 Codec.u64
      (.object (GetBlockResponse.objectEntries hexBytes Codec.u32 Codec.u64 ⟨[7]⟩ 3 (some 9)
        (some 1700000000) ["ab"] 2)) = .ok (.object ⟨[7]⟩ 3 (some 9) (some 1700000000) ["ab"] 2) ∧
    (GetBlockResponse.objectEntries hexBytes Codec.u32 Codec.u64 ⟨[7]⟩ 3 (some 9) (some 1700000000)
      ["ab"] 2).lookup "confirmations" = some (.ofI64 3) ∧
    ∀ t, some (1700000000 : BitVec 64) = some t →
      (GetBlockResponse.objectEntries hexBytes Codec.u32 Codec.u64 ⟨[7]⟩ 3 (some 9)
        (some 1700000000) ["ab"] 2).lookup "time" = some (.ofI64 t) :=
  have h : GetBlockResponse.deserialize hexBytes hexBytes Codec.u32 Codec.u64
      (.object (GetBlockResponse.objectEntries hexBytes Codec.u32 Codec.u64 ⟨[7]⟩ 3 (some 9)
        (some 1700000000) ["ab"] 2)) =
      .ok (.object ⟨[7]⟩ 3 (some 9) (some 1700000000) ["ab"] 2) := by
    rw [GetBlockResponse.deserialize_object, GetBlockResponse.deserializeObject_perm _ _ _ ⟨[7]⟩ 3
      (some 9) (some 1700000000) ["ab"] 2 _ [] (by simp) (by simp)]
  ⟨h, getBlockResponse_keeps_integers _ _ _ _ h⟩

/-- A UTXO is also read from the array of its field values in declaration order, serde's
sequence form of a struct, and from no array of another length; the untagged `GetBlockResponse`,
whose object variant has no sequence form, reads no array at all. -/
theorem derived_decoders_positional_arrays :
    (∀ x, GetUtxosResponse.deserialize address txHash zcashScript chainHeight
      (.array ((GetUtxosResponse.entries address txHash zcashScript chainHeight x).map Prod.snd)) =
        .ok x) ∧
    (∀ items r, GetUtxosResponse.deserialize address txHash zcashScript chainHeight
      (.array items) = .ok r → items.length = 6) ∧
    (∀ items, GetBlockResponse.deserialize block blockHash chainHeight treeSize (.array items) =
      .error (.custom "data did not match any variant of untagged enum GetBlockResponse")) := by
  refine ⟨fun x => ?_, fun items r h => ?_, fun items => rfl⟩
  · simp [GetUtxosResponse.deserialize, visitStruct, visitSeq, GetUtxosResponse.fields,
      GetUtxosResponse.entries, takeField, List.lookup]
  · obtain ⟨_, hv, -⟩ := bind_eq_ok h
    exact visitSeq_length hv

end RoundTrip

end ZingoIndexer
