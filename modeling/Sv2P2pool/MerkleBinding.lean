import Sv2P2pool.MerklePath

/-! # What a Merkle Path Determines

    `merkle_path` and `compute_merkle_root_from_txids` walk the same levels,
    one keeping node 1 of each and the other only the last. Both are written
    here a second time, with every index checked and every test of the loop
    counted. The pairs that the loop hashes are the pairs a collision of two
    paths is found among.
-/

namespace Sv2P2pool

open ByteCodec Bitcoin Interleave

section loops

variable (cr : Crates)

/-! ## The loops with checked indices -/

/-- `next_level` after the first rounds of the `for idx in 0..half` loop;
    `none` is an index out of bounds. -/
def nextLevelChecked (hashes : List TxMerkleNode) : Nat → Option (List TxMerkleNode)
  | 0 => some []
  | idx + 1 => do
    let nextLevel ← nextLevelChecked hashes idx
    let left ← hashes[2 * idx]?
    let right ← hashes[min (2 * idx + 1) (hashes.length - 1)]?
    some (nextLevel ++ [cr.hashNodes left right])

/-- The loop of `merkle_path`, for so many tests of `hashes.len() > 1`; `none`
    is an index out of bounds or a test too many. -/
def merklePathLoopChecked : Nat → List TxMerkleNode → List TxMerkleNode →
    Option (List TxMerkleNode)
  | 0, _, _ => none
  | tests + 1, hashes, branch =>
    if hashes.length > 1 then do
      let sibling ← hashes[1]?
      let nextLevel ← nextLevelChecked cr hashes ((hashes.length + 1) / 2)
      merklePathLoopChecked tests nextLevel (branch ++ [sibling])
    else some branch

/-- `merkle_path`. -/
def merklePathChecked (tests : Nat) (coinbaseTxid : Txid) (txidList : List Txid) :
    Option (List TxMerkleNode) :=
  let hashes := coinbaseTxid :: txidList
  if hashes.length = 1 then some [] else merklePathLoopChecked cr tests hashes []

/-- The loop of `compute_merkle_root_from_txids`, up to its last level. -/
def merkleRootLoopChecked : Nat → List TxMerkleNode → Option (List TxMerkleNode)
  | 0, _ => none
  | tests + 1, hashes =>
    if hashes.length > 1 then do
      let nextLevel ← nextLevelChecked cr hashes ((hashes.length + 1) / 2)
      merkleRootLoopChecked tests nextLevel
    else some hashes

/-- `compute_merkle_root_from_txids`. -/
def computeMerkleRootFromTxidsChecked (tests : Nat) (coinbaseTxid : Txid)
    (txidList : List Txid) : Option TxMerkleNode := do
  let hashes := coinbaseTxid :: txidList
  if hashes.isEmpty then some U256.allZeros
  else do
    let hashes ← merkleRootLoopChecked cr tests hashes
    hashes[0]?

/-- The first rounds hash the first pairs, all of them in bounds. -/
theorem nextLevelChecked_eq (hashes : List TxMerkleNode) (idx : Nat)
    (hidx : idx ≤ (hashes.length + 1) / 2) :
    nextLevelChecked cr hashes idx = some ((Merkle.levelUp cr.hashNodes hashes).take idx) := by
  induction idx with
  | zero => rfl
  | succ idx ih =>
    have hleft : hashes[2 * idx]? = some (hashes.get ⟨2 * idx, by omega⟩) :=
      List.getElem?_eq_getElem (by omega)
    have hright : hashes[min (2 * idx + 1) (hashes.length - 1)]? =
        some (hashes.get ⟨min (2 * idx + 1) (hashes.length - 1), by omega⟩) :=
      List.getElem?_eq_getElem (by omega)
    rw [nextLevelChecked, ih (by omega), List.take_add_one,
      Merkle.getElem?_levelUp cr.hashNodes hashes idx _ _ hleft hright, hleft, hright]
    rfl

theorem nextLevelChecked_level (hashes : List TxMerkleNode) :
    nextLevelChecked cr hashes ((hashes.length + 1) / 2) =
      some (Merkle.levelUp cr.hashNodes hashes) := by
  rw [nextLevelChecked_eq cr hashes _ (Nat.le_refl _), ← Merkle.length_levelUp cr.hashNodes,
    List.take_length]

/-- The loop goes up the levels and adds the path to the branch. -/
theorem merklePathLoopChecked_eq (tests : Nat) :
    ∀ (a : TxMerkleNode) (l branch : List TxMerkleNode), Nat.clog 2 (a :: l).length < tests →
      merklePathLoopChecked cr tests (a :: l) branch =
        some (branch ++ Merkle.leftPath cr.hashNodes l) := by
  induction tests with
  | zero => exact fun _ _ _ h => absurd h (Nat.not_lt_zero _)
  | succ tests ih =>
    intro a l branch h
    cases l with
    | nil => simp [merklePathLoopChecked, Merkle.leftPath]
    | cons b l =>
      rw [merklePathLoopChecked, if_pos (by simp), nextLevelChecked_level]
      show merklePathLoopChecked cr tests (Merkle.levelUp cr.hashNodes (a :: b :: l)) _ = _
      rw [Merkle.clog_length_levelUp cr.hashNodes a b (cr.hashNodes a b)] at h
      rw [Merkle.levelUp_cons_cons, ih _ _ _ (Nat.lt_of_succ_lt_succ h), Merkle.leftPath,
        List.append_assoc]
      rfl

theorem merkleRootLoopChecked_eq (tests : Nat) : ∀ (a : TxMerkleNode) (l : List TxMerkleNode),
    Nat.clog 2 (a :: l).length < tests →
      merkleRootLoopChecked cr tests (a :: l) = some [Merkle.rootFrom cr.hashNodes a l] := by
  induction tests with
  | zero => exact fun _ _ h => absurd h (Nat.not_lt_zero _)
  | succ tests ih =>
    intro a l h
    cases l with
    | nil => simp [merkleRootLoopChecked, Merkle.rootFrom]
    | cons b l =>
      rw [merkleRootLoopChecked, if_pos (by simp), nextLevelChecked_level]
      show merkleRootLoopChecked cr tests (Merkle.levelUp cr.hashNodes (a :: b :: l)) = _
      rw [Merkle.clog_length_levelUp cr.hashNodes a b (cr.hashNodes a b)] at h
      rw [Merkle.levelUp_cons_cons, ih _ _ (Nat.lt_of_succ_lt_succ h), Merkle.rootFrom]

/-- The path does not depend on the coinbase, folds from any coinbase to the
    root, and has one sibling for each level. With one test of the loop more
    than there are levels, both functions return, and read no index out of
    bounds. -/
theorem merkle_path_and_root_agree (coinbaseTxid coinbaseTxid' : Txid) (txidList : List Txid) :
    merklePath cr coinbaseTxid txidList = merklePath cr coinbaseTxid' txidList ∧
    (merklePath cr coinbaseTxid' txidList).foldl cr.hashNodes coinbaseTxid =
      computeMerkleRootFromTxids cr coinbaseTxid txidList ∧
    (merklePath cr coinbaseTxid txidList).length = Nat.clog 2 (txidList.length + 1) ∧
    ∀ tests, Nat.clog 2 (txidList.length + 1) < tests →
      merklePathChecked cr tests coinbaseTxid txidList =
        some (merklePath cr coinbaseTxid txidList) ∧
      computeMerkleRootFromTxidsChecked cr tests coinbaseTxid txidList =
        some (computeMerkleRootFromTxids cr coinbaseTxid txidList) := by
  rw [merklePath_eq, merklePath_eq, computeMerkleRootFromTxids_eq]
  refine ⟨rfl, Merkle.foldl_leftPath _ _ _, Merkle.length_leftPath _ _, fun tests htests => ?_⟩
  constructor
  · have hloop := merklePathLoopChecked_eq cr tests coinbaseTxid txidList [] htests
    cases txidList with
    | nil => simp [merklePathChecked, Merkle.leftPath]
    | cons b l => simpa [merklePathChecked] using hloop
  · unfold computeMerkleRootFromTxidsChecked
    simp [merkleRootLoopChecked_eq cr tests coinbaseTxid txidList htests]

/-! ## The pairs that are hashed -/

theorem left_lt {hashes : List TxMerkleNode} (idx : Fin ((hashes.length + 1) / 2)) :
    2 * idx.val < hashes.length := by
  omega

theorem right_lt {hashes : List TxMerkleNode} (idx : Fin ((hashes.length + 1) / 2)) :
    min (2 * idx.val + 1) (hashes.length - 1) < hashes.length := by
  omega

/-- The pairs that the `for idx in 0..half` loop hashes. -/
def levelHashed (hashes : List TxMerkleNode) : List (TxMerkleNode × TxMerkleNode) :=
  List.ofFn fun idx : Fin ((hashes.length + 1) / 2) =>
    (hashes.get ⟨2 * idx, left_lt idx⟩,
      hashes.get ⟨min (2 * idx + 1) (hashes.length - 1), right_lt idx⟩)

theorem levelHashed_eq_levelPairs (hashes : List TxMerkleNode) :
    levelHashed hashes = Merkle.levelPairs hashes := by
  apply List.ext_getElem?
  intro i
  by_cases hi : i < (hashes.length + 1) / 2
  · rw [Merkle.getElem?_levelPairs hashes i
      (hashes.get ⟨2 * i, by omega⟩)
      (hashes.get ⟨min (2 * i + 1) (hashes.length - 1), by omega⟩)]
    · simp [levelHashed, hi]
    · rw [List.getElem?_eq_getElem (by omega)]
      rfl
    · rw [List.getElem?_eq_getElem (by omega)]
      rfl
  · rw [List.getElem?_eq_none (by simp [levelHashed]; omega),
      List.getElem?_eq_none (by rw [Merkle.length_levelPairs]; omega)]

/-- The pairs that the loop of `merkle_path` hashes. -/
def merklePathLoopHashed : Nat → List TxMerkleNode → List (TxMerkleNode × TxMerkleNode)
  | 0, _ => []
  | fuel + 1, hashes =>
    match hashes with
    | _ :: _ :: _ => levelHashed hashes ++ merklePathLoopHashed fuel (nextLevel cr hashes)
    | _ => []

/-- The pairs that `merkle_path` hashes. -/
def merklePathHashed (coinbaseTxid : Txid) (txidList : List Txid) :
    List (TxMerkleNode × TxMerkleNode) :=
  merklePathLoopHashed cr (1 + txidList.length) (coinbaseTxid :: txidList)

theorem merklePathLoopHashed_eq (fuel : Nat) : ∀ (a : TxMerkleNode) (l : List TxMerkleNode),
    l.length < fuel →
      merklePathLoopHashed cr fuel (a :: l) = Merkle.treePairs cr.hashNodes a l := by
  induction fuel with
  | zero => exact fun _ _ h => absurd h (Nat.not_lt_zero _)
  | succ fuel ih =>
    intro a l hfuel
    cases l with
    | nil => simp [merklePathLoopHashed, Merkle.treePairs]
    | cons b l =>
      rw [Merkle.treePairs, merklePathLoopHashed, nextLevel_eq_levelUp, Merkle.levelUp_cons_cons,
        ih, levelHashed_eq_levelPairs]
      rw [Merkle.length_levelUp]
      rw [List.length_cons] at hfuel
      omega

theorem merklePathHashed_eq (coinbaseTxid : Txid) (txidList : List Txid) :
    merklePathHashed cr coinbaseTxid txidList =
      Merkle.treePairs cr.hashNodes coinbaseTxid txidList :=
  merklePathLoopHashed_eq cr _ _ _ (by omega)

/-- Two paths agree only for the same list, or among the pairs that were
    hashed for them two have one hash. -/
theorem eq_or_collides_of_merklePath_eq {coinbaseTxid coinbaseTxid' : Txid}
    {txidList txidList' : List Txid} (hlen : txidList.length = txidList'.length)
    (hpath : merklePath cr coinbaseTxid txidList = merklePath cr coinbaseTxid' txidList') :
    txidList = txidList' ∨
      Merkle.Collides cr.hashNodes (merklePathHashed cr coinbaseTxid txidList)
        (merklePathHashed cr coinbaseTxid' txidList') := by
  rw [merklePath_eq, merklePath_eq] at hpath
  rw [merklePathHashed_eq, merklePathHashed_eq]
  exact Merkle.eq_or_collides_of_leftPath_eq _ _ _ _ _ hpath hlen

end loops

/-! ## The path binds the transaction list -/

/-- A message that passes the checks carries the path of the declared
    transactions. -/
theorem crossCheck_merklePath {cr : Crates} {declared : DeclaredJob} {m : SetCustomMiningJob}
    {tx : Transaction} {txidList : List Txid} (hok : crossCheck cr declared m = .ok ())
    (hcb : reconstructCoinbase cr declared.coinbaseTxPrefix declared.coinbaseTxSuffix = .ok tx)
    (htxids : declared.txidList = some txidList) :
    merklePath cr (cr.computeTxid tx) txidList = m.merklePath := by
  obtain ⟨tx', _, _, l, hcb', -, -, -, -, -, -, hl, hpath⟩ := (crossCheck_ok cr hok).coinbase
  obtain rfl : tx = tx' := Except.ok.inj (hcb.symm.trans hcb')
  obtain rfl : txidList = l := Option.some.inj (htxids.symm.trans hl)
  exact hpath

/-- The path of a list binds it, up to two pairs with one hash among those
    hashed for the paths. So two declared jobs with equally many transactions
    that one message passes the checks of declare the same transactions in the
    same order. -/
theorem merkle_path_binds (cr : Crates) {txidList txidList' : List Txid}
    (hlen : txidList.length = txidList'.length) :
    (∀ coinbaseTxid, merklePath cr coinbaseTxid txidList = merklePath cr coinbaseTxid txidList' →
      txidList = txidList' ∨ ∃ p ∈ merklePathHashed cr coinbaseTxid txidList,
        ∃ q ∈ merklePathHashed cr coinbaseTxid txidList', p ≠ q ∧
          cr.hashNodes p.1 p.2 = cr.hashNodes q.1 q.2) ∧
    ∀ declared declared' m tx tx', declared.txidList = some txidList →
      declared'.txidList = some txidList' →
      reconstructCoinbase cr declared.coinbaseTxPrefix declared.coinbaseTxSuffix = .ok tx →
      reconstructCoinbase cr declared'.coinbaseTxPrefix declared'.coinbaseTxSuffix = .ok tx' →
      crossCheck cr declared m = .ok () → crossCheck cr declared' m = .ok () →
      txidList = txidList' ∨ ∃ p ∈ merklePathHashed cr (cr.computeTxid tx) txidList,
        ∃ q ∈ merklePathHashed cr (cr.computeTxid tx') txidList', p ≠ q ∧
          cr.hashNodes p.1 p.2 = cr.hashNodes q.1 q.2 := by
  refine ⟨fun coinbaseTxid hpath => eq_or_collides_of_merklePath_eq cr hlen hpath, ?_⟩
  intro declared declared' m tx tx' htxids htxids' hcb hcb' hok hok'
  have hpath := crossCheck_merklePath hok hcb htxids
  have hpath' := crossCheck_merklePath hok' hcb' htxids'
  exact eq_or_collides_of_merklePath_eq cr hlen (hpath.trans hpath'.symm)

/-- With a constant hash, swapping the last two of three transactions leaves
    the path as it was, and two hashed pairs collide. -/
theorem merkle_path_binds_swapped :
    let cr := { Sample.crates with hashNodes := fun _ _ => U256.allZeros }
    let l : List Txid := [U256.fill 1, U256.fill 2, U256.fill 3]
    let l' : List Txid := [U256.fill 1, U256.fill 3, U256.fill 2]
    merklePath cr (U256.fill 9) l = merklePath cr (U256.fill 9) l' ∧
    ∃ p ∈ merklePathHashed cr (U256.fill 9) l, ∃ q ∈ merklePathHashed cr (U256.fill 9) l',
      p ≠ q ∧ cr.hashNodes p.1 p.2 = cr.hashNodes q.1 q.2 := by
  intro cr l l'
  have hlen : l.length = l'.length := rfl
  have hpath : merklePath cr (U256.fill 9) l = merklePath cr (U256.fill 9) l' := by
    decide +kernel
  have hne : l ≠ l' := by decide +kernel
  exact ⟨hpath, ((merkle_path_binds cr hlen).1 (U256.fill 9) hpath).resolve_left hne⟩

end Sv2P2pool
