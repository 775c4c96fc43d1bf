import Sv2P2pool.CoinbaseLayout

/-! # Which Cached Jobs Can Be Solved

    A declaration is accepted when its coinbase decodes with the hole filled
    by zeros, whatever the size of the hole. A `PushSolution` fills the hole
    with its extranonce, which the wire type bounds by 32 bytes, so a job with
    a larger hole is cached and can never be rebuilt.
-/

namespace Sv2P2pool

open ByteCodec Bitcoin Interleave

/-- The longest extranonce of a `PushSolution`, a `B032`. -/
def maxExtranonce : Nat := 32

/-- Some extranonce that fits a `PushSolution` rebuilds the block, from any
    bodies with the cached txids. -/
def DeclaredJob.Solvable (cr : Crates) (job : DeclaredJob) : Prop :=
  ∃ e : Bytes, e.length ≤ maxExtranonce ∧ ∀ ps txBodies, ps.extranonce = e →
    job.txidList = some (txBodies.map cr.computeTxid) →
      ∃ block, reconstructBlock cr job ps txBodies = .ok block

/-- The scriptSig length at offset 43 exceeds the scriptSig bytes of the
    prefix by at most the longest extranonce. -/
def FillableHole (cr : Crates) (coinbaseTxPrefix : Bytes) : Prop :=
  ∃ n rest, cr.decodeVarInt (coinbaseTxPrefix.drop coinbasePrefixLen) = some (n, rest) ∧
    n ≤ rest.length + maxExtranonce

section

variable {cr : Crates} {w : Wiring} {job : DeclaredJob} {size : Nat}

theorem fillableHole_iff {p : Bytes} (h : extranonceSize cr p = .ok size) :
    FillableHole cr p ↔ size ≤ maxExtranonce := by
  obtain ⟨-, n, rest, hvar, hn⟩ := extranonceSize_ok h
  unfold FillableHole coinbasePrefixLen
  constructor
  · intro hfill
    obtain ⟨n', rest', hvar', hle⟩ := hfill
    rw [hvar] at hvar'
    obtain ⟨rfl, rfl⟩ := Prod.mk.inj (Option.some.inj hvar')
    omega
  · intro hle
    exact ⟨n, rest, hvar, by omega⟩

/-- A coinbase that decodes has a hole of some size, and zeros of that size
    fill it. -/
theorem reconstructCoinbase_ok {p x : Bytes} {tx : Transaction}
    (h : reconstructCoinbase cr p x = .ok tx) :
    ∃ size, extranonceSize cr p = .ok size ∧
      reconstructCoinbaseWithExtranonce cr p (List.replicate size 0) x = .ok tx := by
  obtain ⟨size, hsize, hdec⟩ := reconstructCoinbase_eq_ok.mp h
  refine ⟨size, hsize, reconstructCoinbaseWithExtranonce_eq_ok.mpr ⟨?_, hdec⟩⟩
  rw [List.length_replicate, hsize]

/-- An extranonce that fills the hole has its size. -/
theorem reconstructCoinbaseWithExtranonce_length {p e x : Bytes} {tx : Transaction}
    (hsize : extranonceSize cr p = .ok size)
    (h : reconstructCoinbaseWithExtranonce cr p e x = .ok tx) : e.length = size := by
  have hlen := (reconstructCoinbaseWithExtranonce_eq_ok.mp h).1
  rw [hsize] at hlen
  exact (Except.ok.inj hlen).symm

/-- For a job whose coinbase decodes, from bodies that exist. -/
theorem DeclaredJob.solvable_iff {tx : Transaction} {txBodies : List Transaction}
    (hcb : reconstructCoinbase cr job.coinbaseTxPrefix job.coinbaseTxSuffix = .ok tx)
    (htxids : job.txidList = some (txBodies.map cr.computeTxid)) :
    job.Solvable cr ↔ FillableHole cr job.coinbaseTxPrefix := by
  obtain ⟨size, hsize, hzeros⟩ := reconstructCoinbase_ok hcb
  rw [fillableHole_iff hsize]
  constructor
  · intro hsolv
    obtain ⟨e, he, hall⟩ := hsolv
    obtain ⟨block, hblock⟩ :=
      hall { extranonce := e, prevHash := U256.allZeros, ntime := 0, nonce := 0, nbits := 0,
             version := 0 } txBodies rfl htxids
    obtain ⟨-, cb, hwith, -⟩ := reconstructBlock_eq_ok.mp hblock
    rw [← reconstructCoinbaseWithExtranonce_length hsize hwith]
    exact he
  · intro hle
    refine ⟨List.replicate size 0, by simpa using hle, fun ps bodies hps hbodies => ?_⟩
    exact ⟨_, reconstructBlock_eq_ok.mpr ⟨hbodies, tx, by rw [hps]; exact hzeros, rfl⟩⟩

/-- The job an accepted declaration caches can be solved exactly when the hole
    of its coinbase is no longer than an extranonce. -/
theorem declared_job_solvable_iff {s s' : Engine} {d : DeclareMiningJob}
    {pmts : Option ProvideMissingTransactionsSuccess}
    (h : CallStep cr w s ⟨.declare d pmts, .success⟩ s') :
    ∃ job, s'.declaredJobs.lookup d.requestId = some job ∧
      (job.Solvable cr ↔ FillableHole cr d.coinbaseTxPrefix) := by
  obtain ⟨env, t, txs, hcheck, hjobs, -⟩ := CallStep.stored h
  obtain ⟨-, ⟨tx, hcb, -⟩, -⟩ := checkDeclaration_ok hcheck
  refine ⟨jobFor cr w env s d t txs, ?_, ?_⟩
  · rw [hjobs]
    exact AList.lookup_insert _
  · show (jobFor cr w env s d t txs).Solvable cr ↔
      FillableHole cr (jobFor cr w env s d t txs).coinbaseTxPrefix
    exact DeclaredJob.solvable_iff hcb rfl

end

/-- The job of the sample declaration can be solved. -/
theorem sample_job_solvable :
    let s := Engine.new.after Sample.crates Sample.wiring Sample.declared
    ∃ job, s.declaredJobs.lookup 7 = some job ∧ job.Solvable Sample.crates := by
  intro s
  have hdecl : CallStep Sample.crates Sample.wiring _ ⟨Sample.declare 7 3 [9], .success⟩ _ :=
    Sample.declare_step (Sample.announce (U256.fill 1)) (by decide +kernel)
  obtain ⟨job, hjob, hiff⟩ := declared_job_solvable_iff hdecl
  exact ⟨job, hjob, hiff.mpr ⟨8, [3, 1, 1, 1], by decide +kernel, by decide⟩⟩

/-- The sample declaration with a scriptSig of 37 bytes, four of them in the
    prefix. -/
def Sample.wideDeclaration : DeclareMiningJob :=
  { Sample.declaration 7 3 [9] with
    coinbaseTxPrefix := [2, 0, 0, 0, 0, 1, 1] ++ List.replicate 32 0 ++ List.replicate 4 255 ++
      [37, 3, 1, 1, 1] }

/-- It is accepted and cached, and no extranonce of a `PushSolution` fills the
    33 bytes of its hole. -/
theorem unsolvable_job_cached :
    let calls := [(Sample.online,
      Call.declare Sample.wideDeclaration (some ⟨[Sample.body.serialize]⟩))]
    (run Sample.online.oracle (handleDeclareMiningJob Sample.crates Sample.wiring
      Sample.wideDeclaration (some ⟨[Sample.body.serialize]⟩)) Engine.new).1 = .success ∧
    ∃ job, (Engine.new.after Sample.crates Sample.wiring calls).declaredJobs.lookup 7 = some job ∧
      extranonceSize Sample.crates job.coinbaseTxPrefix = .ok 33 ∧
      ¬ job.Solvable Sample.crates := by
  intro calls
  have hsuccess : (run Sample.online.oracle (handleDeclareMiningJob Sample.crates Sample.wiring
      Sample.wideDeclaration (some ⟨[Sample.body.serialize]⟩)) Engine.new).1 = .success := by
    decide +kernel
  have hstep : CallStep Sample.crates Sample.wiring Engine.new
      ⟨.declare Sample.wideDeclaration (some ⟨[Sample.body.serialize]⟩), .success⟩
      (Engine.new.after Sample.crates Sample.wiring calls) :=
    ⟨Sample.online, Prod.ext hsuccess.symm rfl⟩
  obtain ⟨env, t, txs, hcheck, hjobs, -⟩ := CallStep.stored hstep
  obtain ⟨-, ⟨tx, hcb, -⟩, -⟩ := checkDeclaration_ok hcheck
  have hsize : extranonceSize Sample.crates Sample.wideDeclaration.coinbaseTxPrefix = .ok 33 := by
    decide +kernel
  refine ⟨hsuccess, jobFor Sample.crates Sample.wiring env Engine.new Sample.wideDeclaration t txs,
    ?_, hsize, ?_⟩
  · rw [hjobs]
    exact AList.lookup_insert _
  · rw [DeclaredJob.solvable_iff hcb rfl]
    intro hfill
    exact absurd ((fillableHole_iff hsize).mp hfill) (by decide)

end Sv2P2pool
