import Sv2P2pool.Crates
import Sv2P2pool.Framework.Merkle

/-! # Coinbase Reconstruction and the Merkle Path (`coinbase.rs`)

    A JDC publishes its coinbase as two byte strings with a hole between them
    for the extranonce. The helpers find the size of the hole from a scriptSig
    length they read at a fixed offset of the first string, fill the hole and
    decode the result.
-/

namespace Sv2P2pool

open ByteCodec Bitcoin

/-- `COINBASE_PREFIX_LEN`: version, marker and flag, input count, outpoint. -/
def coinbasePrefixLen : Nat := 43

inductive CoinbaseReconstructError where
  | prefixTooShort
  | badScriptSigVarInt
  | scriptSigOverflow
  | extranonceSizeMismatch (expected got : Nat)
  | decode
  deriving DecidableEq

/-- The size of the extranonce hole: the scriptSig length read at offset 43,
    less the scriptSig bytes the prefix already holds. Both reconstruction
    functions start with these checks. -/
def extranonceSize (cr : Crates) (coinbaseTxPrefix : Bytes) :
    Except CoinbaseReconstructError Nat :=
  if coinbaseTxPrefix.length < coinbasePrefixLen then .error .prefixTooShort
  else
    -- bytes 4 to 6 (marker, flag, input count) are never looked at
    match cr.decodeVarInt (coinbaseTxPrefix.drop coinbasePrefixLen) with
    | none => .error .badScriptSigVarInt
    | some (scriptSigSize, _) =>
      let scriptSigOffset := coinbasePrefixLen + varIntSize scriptSigSize
      if coinbaseTxPrefix.length < scriptSigOffset then .error .prefixTooShort
      else
        let scriptSigBytesInPrefix := coinbaseTxPrefix.length - scriptSigOffset
        -- the rest of the scriptSig must come after the prefix
        if scriptSigBytesInPrefix > scriptSigSize then .error .scriptSigOverflow
        else .ok (scriptSigSize - scriptSigBytesInPrefix)

/-- Decode the two strings with `hole` between them. -/
def decodeFilled (cr : Crates) (coinbaseTxPrefix hole coinbaseTxSuffix : Bytes) :
    Except CoinbaseReconstructError Transaction :=
  match cr.consensusDecode (coinbaseTxPrefix ++ hole ++ coinbaseTxSuffix) with
  | some tx => .ok tx
  | none => .error .decode

/-- `reconstruct_coinbase`: fill the hole with zeros. -/
def reconstructCoinbase (cr : Crates) (coinbaseTxPrefix coinbaseTxSuffix : Bytes) :
    Except CoinbaseReconstructError Transaction :=
  match extranonceSize cr coinbaseTxPrefix with
  | .error e => .error e
  | .ok fullExtranonceSize =>
    decodeFilled cr coinbaseTxPrefix (List.replicate fullExtranonceSize 0) coinbaseTxSuffix

/-- `reconstruct_coinbase_with_extranonce`: fill the hole with an extranonce
    of exactly its size. -/
def reconstructCoinbaseWithExtranonce (cr : Crates)
    (coinbaseTxPrefix extranonce coinbaseTxSuffix : Bytes) :
    Except CoinbaseReconstructError Transaction :=
  match extranonceSize cr coinbaseTxPrefix with
  | .error e => .error e
  | .ok expectedExtranonceSize =>
    if extranonce.length ≠ expectedExtranonceSize then
      .error (.extranonceSizeMismatch expectedExtranonceSize extranonce.length)
    else decodeFilled cr coinbaseTxPrefix extranonce coinbaseTxSuffix

/-! ## Merkle levels -/

/-- The `for idx in 0..half` loop of both tree functions, every index in
    bounds: `next_level[idx]` hashes nodes `2 * idx` and
    `min (2 * idx + 1) (len - 1)`. -/
def nextLevel (cr : Crates) (hashes : List TxMerkleNode) : List TxMerkleNode :=
  List.ofFn fun idx : Fin ((hashes.length + 1) / 2) =>
    cr.hashNodes (hashes.get ⟨2 * idx, by omega⟩)
      (hashes.get ⟨min (2 * idx + 1) (hashes.length - 1), by omega⟩)

theorem nextLevel_eq_levelUp (cr : Crates) (hashes : List TxMerkleNode) :
    nextLevel cr hashes = Merkle.levelUp cr.hashNodes hashes := by
  apply List.ext_getElem?
  intro i
  -- inside the level both sides hash the same pair, past it both are empty
  by_cases hi : i < (hashes.length + 1) / 2
  · rw [Merkle.getElem?_levelUp cr.hashNodes hashes i
      (hashes.get ⟨2 * i, by omega⟩)
      (hashes.get ⟨min (2 * i + 1) (hashes.length - 1), by omega⟩)]
    · simp [nextLevel, hi]
    · rw [List.getElem?_eq_getElem (by omega)]
      rfl
    · rw [List.getElem?_eq_getElem (by omega)]
      rfl
  · rw [List.getElem?_eq_none (by simp [nextLevel]; omega),
      List.getElem?_eq_none (by rw [Merkle.length_levelUp]; omega)]

/-- The `while hashes.len() > 1` loop of `merkle_path`. Every level is
    shorter than the one below, so `fuel = hashes.length` is enough. -/
def merklePathLoop (cr : Crates) : Nat → List TxMerkleNode → List TxMerkleNode
  | 0, _ => []
  | fuel + 1, hashes =>
    match hashes with
    | _ :: sibling :: _ => sibling :: merklePathLoop cr fuel (nextLevel cr hashes)
    | _ => []

/-- `merkle_path`: the sibling of the leftmost node at every level. -/
def merklePath (cr : Crates) (coinbaseTxid : Txid) (txidList : List Txid) : List TxMerkleNode :=
  merklePathLoop cr (1 + txidList.length) (coinbaseTxid :: txidList)

end Sv2P2pool
