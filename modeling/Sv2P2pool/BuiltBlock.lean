import Sv2P2pool.MerklePath

/-! # The Blocks the Engine Builds

    The header's merkle root comes from the cached `txid_list`, the body of
    the block from the Template Provider. The body check ties the two, so a
    block that is built at all commits to its own transactions.
-/

namespace Sv2P2pool

open ByteCodec Bitcoin

section

variable {cr : Crates}

/-- The loop computes the root of the tree over all txids. -/
theorem root_computeMerkleRoot (coinbaseTxid : Txid) (txidList : List Txid) :
    Merkle.root cr.hashNodes (coinbaseTxid :: txidList) =
      some (computeMerkleRootFromTxids cr coinbaseTxid txidList) := by
  rw [computeMerkleRootFromTxids_eq, Merkle.root_eq_rootFrom]

/-- A block of a job: the coinbase, the given bodies, the cached txids, and a
    header that commits to the transactions. -/
structure BuiltFrom (cr : Crates) (job : DeclaredJob) (cb : Transaction)
    (txBodies : List Transaction) (block : Block) : Prop where
  txdata : block.txdata = cb :: txBodies
  txids : job.txidList = some (block.txdata.tail.map cr.computeTxid)
  merkleRoot : Merkle.root cr.hashNodes (block.txdata.map cr.computeTxid) =
    some block.header.merkleRoot

theorem builtFrom {job : DeclaredJob} {cb : Transaction} {txBodies : List Transaction}
    {block : Block} (htxids : job.txidList = some (txBodies.map cr.computeTxid))
    (htxdata : block.txdata = cb :: txBodies)
    (hroot : block.header.merkleRoot =
      computeMerkleRootFromTxids cr (cr.computeTxid cb) (txBodies.map cr.computeTxid)) :
    BuiltFrom cr job cb txBodies block := by
  refine ⟨htxdata, ?_, ?_⟩
  · rw [htxdata]
    exact htxids
  · rw [htxdata, hroot, List.map_cons, root_computeMerkleRoot]

theorem exists_error_of_ne_ok {ε α : Type} {x : Except ε α} (h : ∀ a, x ≠ .ok a) :
    ∃ e, x = .error e := by
  cases x with
  | error e => exact ⟨e, rfl⟩
  | ok a => exact absurd rfl (h a)

/-- Every block the engine builds, for a solution or as a candidate, consists
    of the job's coinbase and the given bodies, has the cached txids and
    commits to them; other bodies give an error. -/
theorem built_block_consistent (job : DeclaredJob) (txBodies : List Transaction) :
    (∀ ps block, reconstructBlock cr job ps txBodies = .ok block →
      ∃ cb, reconstructCoinbaseWithExtranonce cr job.coinbaseTxPrefix ps.extranonce
          job.coinbaseTxSuffix = .ok cb ∧ BuiltFrom cr job cb txBodies block) ∧
    (∀ m block, buildCandidateBlock cr job m txBodies = .ok block →
      ∃ cb, reconstructCoinbase cr job.coinbaseTxPrefix job.coinbaseTxSuffix = .ok cb ∧
        BuiltFrom cr job cb txBodies block) ∧
    (job.txidList ≠ some (txBodies.map cr.computeTxid) →
      (∀ ps, ∃ e, reconstructBlock cr job ps txBodies = .error e) ∧
      ∀ m, ∃ e, buildCandidateBlock cr job m txBodies = .error e) := by
  refine ⟨?_, ?_, ?_⟩
  · intro ps block h
    obtain ⟨htxids, cb, hcb, rfl⟩ := reconstructBlock_eq_ok.mp h
    exact ⟨cb, hcb, builtFrom htxids rfl rfl⟩
  · intro m block h
    obtain ⟨htxids, cb, hcb, rfl⟩ := buildCandidateBlock_eq_ok.mp h
    exact ⟨cb, hcb, builtFrom htxids rfl rfl⟩
  · intro hne
    refine ⟨fun ps => exists_error_of_ne_ok ?_, fun m => exists_error_of_ne_ok ?_⟩
    · intro block h
      exact hne (reconstructBlock_eq_ok.mp h).1
    · intro block h
      exact hne (buildCandidateBlock_eq_ok.mp h).1

end

/-! ## One construction

    `build_candidate_block`, `reconstruct_block` and `reconstruct_header`
    repeat each other's steps. The candidate is the block of the solution that
    finds the custom job's header with a zero extranonce, and the header is
    the one of the block. -/

/-- The solution whose block the candidate of a custom job is: the message's
    header fields, a zero nonce and zeros in the hole, of whatever size the
    prefix implies. -/
structure Anticipates (cr : Crates) (job : DeclaredJob) (m : SetCustomMiningJob)
    (ps : PushSolution) : Prop where
  prevHash : ps.prevHash = m.prevHash
  nbits : ps.nbits = m.nbits
  version : ps.version = m.version
  ntime : ps.ntime = m.minNtime
  nonce : ps.nonce = 0
  extranonce : ∀ size, extranonceSize cr job.coinbaseTxPrefix = .ok size →
    ps.extranonce = List.replicate size 0

section

variable {cr : Crates}

/-- Zeros of the implied size make the two coinbase helpers one, errors
    included. -/
theorem reconstructCoinbaseWithExtranonce_zeros {p x e : Bytes}
    (he : ∀ size, extranonceSize cr p = .ok size → e = List.replicate size 0) :
    reconstructCoinbaseWithExtranonce cr p e x = reconstructCoinbase cr p x := by
  unfold reconstructCoinbaseWithExtranonce reconstructCoinbase
  cases hsize : extranonceSize cr p with
  | error err => rfl
  | ok size =>
    obtain rfl := he size hsize
    simp only [List.length_replicate, ne_eq, not_true_eq_false, if_false]

theorem buildCandidateBlock_eq {job : DeclaredJob} {m : SetCustomMiningJob} {ps : PushSolution}
    (h : Anticipates cr job m ps) (txBodies : List Transaction) :
    buildCandidateBlock cr job m txBodies = reconstructBlock cr job ps txBodies := by
  unfold buildCandidateBlock reconstructBlock
  rw [h.prevHash, h.nbits, h.version, h.ntime, h.nonce,
    reconstructCoinbaseWithExtranonce_zeros h.extranonce]

theorem reconstructHeader_of_block {job : DeclaredJob} {ps : PushSolution}
    {txBodies : List Transaction} {block : Block}
    (h : reconstructBlock cr job ps txBodies = .ok block) :
    reconstructHeader cr job ps = .ok block.header := by
  obtain ⟨htxids, cb, hcb, rfl⟩ := reconstructBlock_eq_ok.mp h
  simp only [reconstructHeader, htxids, hcb]

/-- A header comes with a block, for the bodies that have the cached txids. -/
theorem reconstructBlock_of_header {job : DeclaredJob} {ps : PushSolution} {header : Header}
    {txBodies : List Transaction} (htxids : job.txidList = some (txBodies.map cr.computeTxid))
    (h : reconstructHeader cr job ps = .ok header) :
    ∃ block, reconstructBlock cr job ps txBodies = .ok block ∧ block.header = header := by
  unfold reconstructHeader at h
  simp only [htxids] at h
  cases hcb : reconstructCoinbaseWithExtranonce cr job.coinbaseTxPrefix ps.extranonce
      job.coinbaseTxSuffix with
  | error e =>
    rw [hcb] at h
    cases h
  | ok cb =>
    rw [hcb] at h
    exact ⟨_, reconstructBlock_eq_ok.mpr ⟨htxids, cb, hcb, rfl⟩, Except.ok.inj h⟩

end

/-- The candidate of a custom job is the block of the solution it anticipates,
    or fails with the same error; and header and block of a solution belong
    together. -/
theorem candidate_is_solution_block (cr : Crates) (job : DeclaredJob)
    (txBodies : List Transaction) :
    (∀ m ps, Anticipates cr job m ps →
      buildCandidateBlock cr job m txBodies = reconstructBlock cr job ps txBodies) ∧
    (∀ ps block, reconstructBlock cr job ps txBodies = .ok block →
      reconstructHeader cr job ps = .ok block.header) ∧
    ∀ ps header, reconstructHeader cr job ps = .ok header →
      job.txidList = some (txBodies.map cr.computeTxid) →
        ∃ block, reconstructBlock cr job ps txBodies = .ok block ∧ block.header = header := by
  refine ⟨fun m ps h => buildCandidateBlock_eq h txBodies, fun ps block h => ?_,
    fun ps header h htxids => ?_⟩
  · exact reconstructHeader_of_block h
  · exact reconstructBlock_of_header htxids h

/-- The zero solution of the sample job. -/
def Sample.zeroSolution : PushSolution :=
  { Sample.solution (U256.fill 1) with extranonce := [0, 0, 0, 0] }

theorem candidate_is_solution_block_sample :
    let job := Sample.job (U256.fill 1) 3 [9]
    Anticipates Sample.crates job (Sample.customJob (U256.fill 1) [9]) Sample.zeroSolution ∧
      ∃ block, buildCandidateBlock Sample.crates job (Sample.customJob (U256.fill 1) [9])
          [Sample.body] = .ok block ∧
        reconstructBlock Sample.crates job Sample.zeroSolution [Sample.body] = .ok block ∧
        reconstructHeader Sample.crates job Sample.zeroSolution = .ok block.header := by
  intro job
  have hsize : extranonceSize Sample.crates job.coinbaseTxPrefix = .ok 4 := by decide +kernel
  have hant : Anticipates Sample.crates job (Sample.customJob (U256.fill 1) [9])
      Sample.zeroSolution := by
    refine ⟨rfl, rfl, rfl, rfl, rfl, fun size h => ?_⟩
    rw [hsize] at h
    cases h
    rfl
  have htxids : job.txidList = some ([Sample.body].map Sample.crates.computeTxid) := rfl
  have hcb : reconstructCoinbase Sample.crates job.coinbaseTxPrefix job.coinbaseTxSuffix =
      .ok (Sample.coinbase [9] [0, 0, 0, 0]) := by decide +kernel
  obtain ⟨hcandidate, hheader, -⟩ := candidate_is_solution_block Sample.crates job [Sample.body]
  obtain ⟨block, hblock⟩ : ∃ block, buildCandidateBlock Sample.crates job
      (Sample.customJob (U256.fill 1) [9]) [Sample.body] = .ok block :=
    ⟨_, buildCandidateBlock_eq_ok.mpr ⟨htxids, _, hcb, rfl⟩⟩
  have hblock' := (hcandidate _ _ hant).symm.trans hblock
  exact ⟨hant, block, hblock, hblock', hheader _ _ hblock'⟩

end Sv2P2pool
