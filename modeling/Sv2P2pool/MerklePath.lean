import Sv2P2pool.Runs

/-! # The Merkle Path of a Custom Job

    `handle_set_custom_mining_job` compares the message's path with the one
    `merkle_path` computes for the zero-extranonce coinbase, while the miner
    folds it from the coinbase of the extranonce it found. Both tree loops
    compute the abstract path and root of the leftmost leaf, and the path
    does not depend on that leaf.
-/

namespace Sv2P2pool

open ByteCodec Bitcoin Interleave

section loops

variable (cr : Crates)

/-- The loop of `merkle_path` computes the leftmost path. -/
theorem merklePathLoop_eq (fuel : Nat) : ∀ (a : TxMerkleNode) (l : List TxMerkleNode),
    l.length < fuel → merklePathLoop cr fuel (a :: l) = Merkle.leftPath cr.hashNodes l := by
  induction fuel with
  | zero => exact fun _ _ h => absurd h (Nat.not_lt_zero _)
  | succ fuel ih =>
    intro a l hfuel
    cases l with
    | nil => simp [merklePathLoop, Merkle.leftPath]
    | cons b l =>
      rw [Merkle.leftPath, merklePathLoop, nextLevel_eq_levelUp, Merkle.levelUp_cons_cons, ih]
      rw [Merkle.length_levelUp]
      rw [List.length_cons] at hfuel
      omega

/-- The loop of `compute_merkle_root_from_txids` computes the root. -/
theorem merkleRootLoop_eq (fuel : Nat) : ∀ (a : TxMerkleNode) (l : List TxMerkleNode),
    l.length < fuel → merkleRootLoop cr fuel (a :: l) = Merkle.rootFrom cr.hashNodes a l := by
  induction fuel with
  | zero => exact fun _ _ h => absurd h (Nat.not_lt_zero _)
  | succ fuel ih =>
    intro a l hfuel
    cases l with
    | nil => simp [merkleRootLoop, Merkle.rootFrom]
    | cons b l =>
      rw [Merkle.rootFrom, merkleRootLoop, nextLevel_eq_levelUp, Merkle.levelUp_cons_cons, ih]
      rw [Merkle.length_levelUp]
      rw [List.length_cons] at hfuel
      omega

theorem merklePath_eq (coinbaseTxid : Txid) (txidList : List Txid) :
    merklePath cr coinbaseTxid txidList = Merkle.leftPath cr.hashNodes txidList :=
  merklePathLoop_eq cr _ _ _ (by omega)

theorem computeMerkleRootFromTxids_eq (coinbaseTxid : Txid) (txidList : List Txid) :
    computeMerkleRootFromTxids cr coinbaseTxid txidList =
      Merkle.rootFrom cr.hashNodes coinbaseTxid txidList :=
  merkleRootLoop_eq cr _ _ _ (by omega)

end loops

/-! ## Path and root -/

section

variable {cr : Crates} {w : Wiring}

theorem reconstructHeader_merkleRoot {job : DeclaredJob} {ps : PushSolution}
    {txidList : List Txid} {cb : Transaction} (htxids : job.txidList = some txidList)
    (hcb : reconstructCoinbaseWithExtranonce cr job.coinbaseTxPrefix ps.extranonce
      job.coinbaseTxSuffix = .ok cb) :
    ∃ header, reconstructHeader cr job ps = .ok header ∧
      header.merkleRoot = computeMerkleRootFromTxids cr (cr.computeTxid cb) txidList := by
  simp [reconstructHeader, htxids, hcb]

theorem reconstructBlock_merkleRoot {job : DeclaredJob} {ps : PushSolution}
    {txBodies : List Transaction} {block : Block} {txidList : List Txid} {cb : Transaction}
    (htxids : job.txidList = some txidList)
    (hcb : reconstructCoinbaseWithExtranonce cr job.coinbaseTxPrefix ps.extranonce
      job.coinbaseTxSuffix = .ok cb)
    (h : reconstructBlock cr job ps txBodies = .ok block) :
    block.header.merkleRoot = computeMerkleRootFromTxids cr (cr.computeTxid cb) txidList := by
  simp only [reconstructBlock, htxids, hcb] at h
  split at h
  · simp at h
  · simp only [Except.ok.injEq] at h
    rw [← h]

/-- The path of an accepted custom job, folded from the coinbase of any
    extranonce, gives the merkle root of the header and of the block that are
    rebuilt for that extranonce. -/
theorem merklePath_folds_to_root {s : Engine} (hs : Reachable cr w s) (env : Env)
    {m : SetCustomMiningJob} {t : JdToken} {job : DeclaredJob}
    (hjob : (s.consume t).1 = some job)
    (hok : (run env.oracle (handleSetCustomMiningJob cr w m t) s).1 = .success)
    (ps : PushSolution) {cb : Transaction}
    (hcb : reconstructCoinbaseWithExtranonce cr job.coinbaseTxPrefix ps.extranonce
      job.coinbaseTxSuffix = .ok cb) :
    (∃ header, reconstructHeader cr job ps = .ok header ∧
      m.merklePath.foldl cr.hashNodes (cr.computeTxid cb) = header.merkleRoot) ∧
    ∀ txBodies block, reconstructBlock cr job ps txBodies = .ok block →
      m.merklePath.foldl cr.hashNodes (cr.computeTxid cb) = block.header.merkleRoot := by
  obtain ⟨declared, hjob', hchecked, -⟩ := run_setCustom_success cr w env hs.quiet hok
  obtain rfl : job = declared := Option.some.inj (hjob.symm.trans hjob')
  obtain ⟨tx, input0, rest, txidList, -, -, -, -, -, -, -, htxids, hpath⟩ := hchecked.coinbase
  -- the zero-extranonce coinbase `tx` leaves no trace in the path
  have hfold : m.merklePath.foldl cr.hashNodes (cr.computeTxid cb) =
      computeMerkleRootFromTxids cr (cr.computeTxid cb) txidList := by
    rw [← hpath, merklePath_eq, Merkle.foldl_leftPath, computeMerkleRootFromTxids_eq]
  rw [hfold]
  refine ⟨?_, fun txBodies block h => (reconstructBlock_merkleRoot htxids hcb h).symm⟩
  obtain ⟨header, hheader, hroot⟩ := reconstructHeader_merkleRoot htxids hcb
  exact ⟨header, hheader, hroot.symm⟩

end

/-- The one-sibling path of a declared job with one transaction, folded from
    the coinbase with extranonce `01020304`. -/
theorem merklePath_folds_to_root_one_sibling :
    let s := Engine.new.after Sample.crates Sample.wiring
      (Sample.announce (U256.fill 1) ++ [(Sample.online, Sample.declare 7 3 [9])])
    (s.consume 3).1 = some (Sample.job (U256.fill 1) 3 [9]) ∧
    (run Sample.online.oracle (handleSetCustomMiningJob Sample.crates Sample.wiring
      (Sample.customJob (U256.fill 1) [9]) 3) s).1 = .success ∧
    ∃ header, reconstructHeader Sample.crates (Sample.job (U256.fill 1) 3 [9])
        (Sample.solution (U256.fill 1)) = .ok header ∧
      (Sample.customJob (U256.fill 1) [9]).merklePath.foldl Sample.crates.hashNodes
        (Sample.crates.computeTxid (Sample.coinbase [9] [1, 2, 3, 4])) = header.merkleRoot := by
  intro s
  have hjob : (s.consume 3).1 = some (Sample.job (U256.fill 1) 3 [9]) := by decide +kernel
  have hok : (run Sample.online.oracle (handleSetCustomMiningJob Sample.crates Sample.wiring
      (Sample.customJob (U256.fill 1) [9]) 3) s).1 = .success := by decide +kernel
  have hcb : reconstructCoinbaseWithExtranonce Sample.crates
      (Sample.job (U256.fill 1) 3 [9]).coinbaseTxPrefix [1, 2, 3, 4]
      (Sample.job (U256.fill 1) 3 [9]).coinbaseTxSuffix =
        .ok (Sample.coinbase [9] [1, 2, 3, 4]) := by decide +kernel
  exact ⟨hjob, hok, (merklePath_folds_to_root (reachable_after _ _ _) Sample.online hjob hok
    (Sample.solution (U256.fill 1)) hcb).1⟩

end Sv2P2pool
