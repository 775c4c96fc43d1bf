import Sv2P2pool.Coinbase
import Sv2P2pool.Messages
import Mathlib.Data.List.Forall2

/-! # Block Reconstruction (`block.rs`)

    The declared-job snapshot the engine caches, and the functions that turn
    it into a block: for a `PushSolution`, which is submitted to bitcoind, and
    for a `SetCustomMiningJob`, which is only proposed to it.
-/

namespace Sv2P2pool

open ByteCodec Bitcoin

/-- `TipMetadata`: the Bitcoin tip captured at declare time. -/
structure TipMetadata where
  prevHash : BlockHash
  nbits : UInt32
  minNtime : UInt32
  deriving DecidableEq

/-- `TipMetadata::default()`: the placeholder without a template provider. -/
def TipMetadata.default : TipMetadata := ⟨U256.allZeros, 0, 0⟩

structure DeclaredJob where
  version : UInt32
  coinbaseTxPrefix : Bytes
  coinbaseTxSuffix : Bytes
  wtxidList : List Wtxid
  txidList : Option (List Txid)
  tip : TipMetadata
  templateId : Option UInt64
  shareChainTip : Option BlockHash
  validated : Bool
  allocatedToken : Option JdToken
  deriving DecidableEq

/-- Errors of block reconstruction. A `U256` always has 32 bytes, so
    `BadPrevHash` has no counterpart. -/
inductive BlockReconstructError where
  | declaredJobNotValidated
  | coinbase (e : CoinbaseReconstructError)
  | txBodyCountMismatch (expected got : Nat)
  | txBodyTxidMismatch (index : Nat) (expected got : Txid)
  deriving DecidableEq

/-- The `while hashes.len() > 1` loop of `compute_merkle_root_from_txids`. -/
def merkleRootLoop (cr : Crates) : Nat → List TxMerkleNode → TxMerkleNode
  | 0, hashes => hashes.headD U256.allZeros
  | fuel + 1, hashes =>
    match hashes with
    | _ :: _ :: _ => merkleRootLoop cr fuel (nextLevel cr hashes)
    | _ => hashes.headD U256.allZeros

/-- `compute_merkle_root_from_txids`. -/
def computeMerkleRootFromTxids (cr : Crates) (coinbaseTxid : Txid) (txidList : List Txid) :
    TxMerkleNode :=
  merkleRootLoop cr (1 + txidList.length) (coinbaseTxid :: txidList)

/-- The cross-check of fetched bodies against the cached `txid_list`: first
    the count, then every txid in order. -/
def checkTxBodies (cr : Crates) (txidList : List Txid) (txBodies : List Transaction) :
    Except BlockReconstructError Unit :=
  if txBodies.length ≠ txidList.length then
    .error (.txBodyCountMismatch txidList.length txBodies.length)
  else
    -- the first mismatch is the one reported
    match ((txBodies.map cr.computeTxid).zip txidList).zipIdx.find? fun p => p.1.1 ≠ p.1.2 with
    | some ((computed, expected), idx) => .error (.txBodyTxidMismatch idx expected computed)
    | none => .ok ()

/-- `reconstruct_header`. -/
def reconstructHeader (cr : Crates) (declaredJob : DeclaredJob) (pushSolution : PushSolution) :
    Except BlockReconstructError Header :=
  match declaredJob.txidList with
  | none => .error .declaredJobNotValidated
  | some txidList =>
    match reconstructCoinbaseWithExtranonce cr declaredJob.coinbaseTxPrefix
        pushSolution.extranonce declaredJob.coinbaseTxSuffix with
    | .error e => .error (.coinbase e)
    | .ok coinbaseTx =>
      .ok { version := pushSolution.version.toInt32
            prevBlockhash := pushSolution.prevHash
            merkleRoot := computeMerkleRootFromTxids cr (cr.computeTxid coinbaseTx) txidList
            time := pushSolution.ntime
            bits := pushSolution.nbits
            nonce := pushSolution.nonce }

/-- `reconstruct_block`. -/
def reconstructBlock (cr : Crates) (declaredJob : DeclaredJob) (pushSolution : PushSolution)
    (txBodies : List Transaction) : Except BlockReconstructError Block :=
  match declaredJob.txidList with
  | none => .error .declaredJobNotValidated
  | some txidList =>
    match checkTxBodies cr txidList txBodies with
    | .error e => .error e
    | .ok () =>
      match reconstructCoinbaseWithExtranonce cr declaredJob.coinbaseTxPrefix
          pushSolution.extranonce declaredJob.coinbaseTxSuffix with
      | .error e => .error (.coinbase e)
      | .ok coinbaseTx =>
        .ok { header :=
                { version := pushSolution.version.toInt32
                  prevBlockhash := pushSolution.prevHash
                  merkleRoot := computeMerkleRootFromTxids cr (cr.computeTxid coinbaseTx) txidList
                  time := pushSolution.ntime
                  bits := pushSolution.nbits
                  nonce := pushSolution.nonce }
              txdata := coinbaseTx :: txBodies }

/-- `build_candidate_block`: the proposal block of a custom job, with a zero
    extranonce and a zero nonce. -/
def buildCandidateBlock (cr : Crates) (declared : DeclaredJob) (scmj : SetCustomMiningJob)
    (txBodies : List Transaction) : Except BlockReconstructError Block :=
  match declared.txidList with
  | none => .error .declaredJobNotValidated
  | some txidList =>
    match checkTxBodies cr txidList txBodies with
    | .error e => .error e
    | .ok () =>
      -- the extranonce is not known yet, so the hole is filled with zeros
      match reconstructCoinbase cr declared.coinbaseTxPrefix declared.coinbaseTxSuffix with
      | .error e => .error (.coinbase e)
      | .ok coinbaseTx =>
        .ok { header :=
                { version := scmj.version.toInt32
                  prevBlockhash := scmj.prevHash
                  merkleRoot := computeMerkleRootFromTxids cr (cr.computeTxid coinbaseTx) txidList
                  time := scmj.minNtime
                  bits := scmj.nbits
                  nonce := 0 }
              txdata := coinbaseTx :: txBodies }

/-! ## What the checks accept -/

section

variable {cr : Crates}

/-- The indexed comparison of two lists of one length finds no difference
    exactly when they are equal. -/
theorem find_zipIdx_ne {l l' : List Txid} (hlen : l.length = l'.length) :
    ((l.zip l').zipIdx.find? fun p => p.1.1 ≠ p.1.2) = none ↔ l = l' := by
  rw [List.find?_eq_none]
  constructor
  · intro h
    rw [← List.forall₂_eq_eq_eq, List.forall₂_iff_zip]
    refine ⟨hlen, fun {a b} hmem => ?_⟩
    obtain ⟨i, hi⟩ := List.getElem?_of_mem hmem
    simpa using h ((a, b), i) (List.mk_mem_zipIdx_iff_getElem?.mpr hi)
  · intro heq p hmem
    subst heq
    obtain ⟨⟨a, b⟩, i⟩ := p
    have hzip := List.mem_of_getElem? (List.mk_mem_zipIdx_iff_getElem?.mp hmem)
    have hrefl : List.Forall₂ (· = ·) l l := by
      rw [List.forall₂_eq_eq_eq]
    simpa using (List.forall₂_zip hrefl hzip)

/-- The body check accepts exactly the bodies with the cached txids. -/
theorem checkTxBodies_eq_ok {txidList : List Txid} {txBodies : List Transaction} {u : Unit} :
    checkTxBodies cr txidList txBodies = .ok u ↔ txBodies.map cr.computeTxid = txidList := by
  unfold checkTxBodies
  split_ifs with hlen
  · constructor
    · intro h
      cases h
    · intro heq
      subst heq
      exact absurd (by simp) hlen
  · rw [← find_zipIdx_ne (by simpa using hlen)]
    constructor
    · intro h
      split at h
      · cases h
      · next hfind => exact hfind
    · intro hfind
      rw [hfind]

/-- The common shape of the two block builders: the cached txids, the body
    check, the coinbase, and then a block from the coinbase and the txids. -/
theorem checked_build_eq_ok {txids : Option (List Txid)} {txBodies : List Transaction}
    {coinbaseTx : Except CoinbaseReconstructError Transaction}
    {build : Transaction → List Txid → Block} {block : Block} :
    (match txids with
      | none => .error .declaredJobNotValidated
      | some txidList =>
        match checkTxBodies cr txidList txBodies with
        | .error e => .error e
        | .ok () =>
          match coinbaseTx with
          | .error e => .error (.coinbase e)
          | .ok cb => .ok (build cb txidList)) = Except.ok block ↔
      txids = some (txBodies.map cr.computeTxid) ∧
      ∃ cb, coinbaseTx = .ok cb ∧ block = build cb (txBodies.map cr.computeTxid) := by
  cases txids with
  | none => simp
  | some txidList =>
    simp only
    cases hcheck : checkTxBodies cr txidList txBodies with
    -- a failed body check excludes the right-hand side
    | error e =>
      simp only [reduceCtorEq, Option.some.injEq, false_iff, not_and]
      intro heq
      subst heq
      have hok : checkTxBodies cr (txBodies.map cr.computeTxid) txBodies = .ok () :=
        checkTxBodies_eq_ok.mpr rfl
      rw [hok] at hcheck
      cases hcheck
    | ok u =>
      obtain rfl := checkTxBodies_eq_ok.mp hcheck
      cases coinbaseTx with
      | error e => simp
      | ok cb => simp [eq_comm]

/-- A solution's block is rebuilt exactly from bodies with the cached txids
    and a coinbase that decodes with the extranonce. -/
theorem reconstructBlock_eq_ok {job : DeclaredJob} {ps : PushSolution}
    {txBodies : List Transaction} {block : Block} :
    reconstructBlock cr job ps txBodies = .ok block ↔
      job.txidList = some (txBodies.map cr.computeTxid) ∧
      ∃ cb, reconstructCoinbaseWithExtranonce cr job.coinbaseTxPrefix ps.extranonce
          job.coinbaseTxSuffix = .ok cb ∧
        block = { header :=
                    { version := ps.version.toInt32
                      prevBlockhash := ps.prevHash
                      merkleRoot := computeMerkleRootFromTxids cr (cr.computeTxid cb)
                        (txBodies.map cr.computeTxid)
                      time := ps.ntime
                      bits := ps.nbits
                      nonce := ps.nonce }
                  txdata := cb :: txBodies } :=
  checked_build_eq_ok

/-- A candidate block is built exactly from such bodies and a coinbase that
    decodes with zeros. -/
theorem buildCandidateBlock_eq_ok {job : DeclaredJob} {m : SetCustomMiningJob}
    {txBodies : List Transaction} {block : Block} :
    buildCandidateBlock cr job m txBodies = .ok block ↔
      job.txidList = some (txBodies.map cr.computeTxid) ∧
      ∃ cb, reconstructCoinbase cr job.coinbaseTxPrefix job.coinbaseTxSuffix = .ok cb ∧
        block = { header :=
                    { version := m.version.toInt32
                      prevBlockhash := m.prevHash
                      merkleRoot := computeMerkleRootFromTxids cr (cr.computeTxid cb)
                        (txBodies.map cr.computeTxid)
                      time := m.minNtime
                      bits := m.nbits
                      nonce := 0 }
                  txdata := cb :: txBodies } :=
  checked_build_eq_ok

end

end Sv2P2pool
