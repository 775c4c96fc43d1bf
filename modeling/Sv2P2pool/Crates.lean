import Sv2P2pool.Bitcoin.Transaction
import Sv2P2pool.Framework.Sha256

/-! # The Library Functions the Engine Calls

    The engine links `rust-bitcoin` for decoding and hashing and
    `unicode-normalization` for identifiers. They are a parameter of the
    model: `Crates` holds the functions the engine calls, with the documented
    behaviour of the two decoders as laws. Nothing is assumed about the hash
    functions and the normalization.
-/

namespace Sv2P2pool

open ByteCodec Bitcoin

structure Crates where
  /-- `bitcoin::VarInt::consensus_decode`, with the rest of the slice. -/
  decodeVarInt : Bytes → Option (Nat × Bytes)
  /-- `bitcoin::Transaction::consensus_decode` on a slice. -/
  consensusDecode : Bytes → Option Transaction
  /-- `Transaction::compute_txid`. -/
  computeTxid : Transaction → Txid
  /-- `Transaction::compute_wtxid`. -/
  computeWtxid : Transaction → Wtxid
  /-- `TxMerkleNode::from_engine` over two encoded nodes. -/
  hashNodes : TxMerkleNode → TxMerkleNode → TxMerkleNode
  /-- `sha256d::Hash::hash`. -/
  sha256d : Bytes → U256
  /-- `Block::block_hash`. -/
  blockHash : Header → BlockHash
  /-- `UnicodeNormalization::nfkc`. -/
  nfkc : String → String
  /-- `VarInt` decoding accepts exactly the minimal encodings of the integers
      up to `maxCompactSize`. -/
  decodeVarInt_iff : ∀ bs n rest,
    decodeVarInt bs = some (n, rest) ↔ n ≤ maxCompactSize ∧ bs = encodeVarInt n ++ rest
  /-- Transaction decoding accepts exactly the slices that start with a
      serialization, legacy or BIP 144, within the reader's size limit. -/
  consensusDecode_iff : ∀ bs tx,
    consensusDecode bs = some tx ↔
      tx.serialize.length ≤ maxVecSize ∧ ∃ rest, bs = tx.serialize ++ rest

namespace Crates

variable (cr : Crates)

/-- Decoding determines the transaction. -/
theorem consensusDecode_serialize {tx : Transaction} (h : tx.serialize.length ≤ maxVecSize)
    (rest : Bytes) : cr.consensusDecode (tx.serialize ++ rest) = some tx :=
  (cr.consensusDecode_iff _ _).mpr ⟨h, rest, rfl⟩

theorem decodeVarInt_encode {n : Nat} (h : n ≤ maxCompactSize) (rest : Bytes) :
    cr.decodeVarInt (encodeVarInt n ++ rest) = some (n, rest) :=
  (cr.decodeVarInt_iff _ _ _).mpr ⟨h, rfl⟩

/-- A larger integer is refused, whatever follows it. -/
theorem decodeVarInt_encode_of_large {n : Nat} (h : maxCompactSize < n) (hn : n < 2 ^ 64)
    (rest : Bytes) : cr.decodeVarInt (encodeVarInt n ++ rest) = none := by
  rw [Option.eq_none_iff_forall_ne_some]
  intro p hp
  obtain ⟨hle, heq⟩ := (cr.decodeVarInt_iff _ _ _).mp hp
  -- an encoding has no other reading
  obtain ⟨rfl, -⟩ := varInt.encode_append_inj hn (hle.trans_lt maxCompactSize_lt) heq
  omega

/-! ## Executable crates

    The wire decoders and the double SHA-256 hashes Bitcoin defines, for the
    concrete inputs the model is run on. -/

/-- SHA-256 applied twice. -/
def doubleSha (bs : Bytes) : U256 := ⟨Sha256.hash (Sha256.hash bs), Sha256.hash_length _⟩

/-- The legacy layout whether or not there are witnesses: what a txid hashes. -/
def strippedBytes (tx : Transaction) : Bytes :=
  i32.encode tx.version ++ (vec txInCodec).encode (tx.input.map TxIn.strip) ++
    (vec txOutCodec).encode tx.output ++ u32.encode tx.lockTime

/-- The 80 bytes of a block header. -/
def headerBytes (h : Header) : Bytes :=
  i32.encode h.version ++ h.prevBlockhash.bytes ++ h.merkleRoot.bytes ++ u32.encode h.time ++
    u32.encode h.bits ++ u32.encode h.nonce

/-- The crates as Bitcoin defines them. Only the normalization is left open:
    it is the identity on ASCII identifiers. -/
def wire (nfkc : String → String) : Crates where
  decodeVarInt := Bitcoin.decodeBoundedVarInt
  consensusDecode := Bitcoin.consensusDecode
  computeTxid := fun tx => doubleSha (strippedBytes tx)
  computeWtxid := fun tx => doubleSha tx.serialize
  hashNodes := fun a b => doubleSha (a.bytes ++ b.bytes)
  sha256d := doubleSha
  blockHash := fun h => doubleSha (headerBytes h)
  nfkc := nfkc
  decodeVarInt_iff := Bitcoin.decodeBoundedVarInt_iff
  consensusDecode_iff := Bitcoin.consensusDecode_iff

end Crates

end Sv2P2pool
