import Sv2P2pool.Runs

/-! # The Key of a Block's Credit

    `handle_push_solution` records the hash of the block it rebuilds under
    `synthetic_share_hash`, a hash over four of the six fields of the
    solution. The extranonce is not one of them, nor is the job, and both
    decide the merkle root: two found blocks can share their key, and the
    credit of the first is then overwritten by the second.
-/

namespace Sv2P2pool

open ByteCodec Bitcoin Interleave

section

variable {cr : Crates} {w : Wiring} {env : Env} {s : Engine} {ps ps' : PushSolution}

/-- The block `handle_push_solution` rebuilds, if it comes that far. -/
def Env.rebuilt (cr : Crates) (w : Wiring) (env : Env) (s : Engine) (ps : PushSolution) :
    Option Block :=
  if w.tdp then
    (env.solutionJob s ps).bind fun e => e.2.templateId.bind fun k =>
      (env.txBodies cr k).toOption.bind fun txBodies =>
        (reconstructBlock cr e.2 ps txBodies).toOption
  else none

theorem toOption_eq_some {ε α : Type} {x : Except ε α} {a : α} :
    x.toOption = some a ↔ x = .ok a := by
  cases x <;> simp [Except.toOption]

theorem rebuilt_eq_some {block : Block} :
    env.rebuilt cr w s ps = some block ↔ w.tdp = true ∧ ∃ e k txBodies,
      env.solutionJob s ps = some e ∧ e.2.templateId = some k ∧
      env.txBodies cr k = .ok txBodies ∧ reconstructBlock cr e.2 ps txBodies = .ok block := by
  unfold Env.rebuilt
  cases w.tdp with
  | false => simp
  | true => simp [Option.bind_eq_some_iff, toOption_eq_some]

/-- The handler records the credit of the block it rebuilds, and submits it. -/
theorem effects_of_rebuilt (hq : s.tdp.Quiet) {block : Block}
    (h : env.rebuilt cr w s ps = some block) :
    effects env (handlePushSolution cr w ps) s =
      .credit (cr.sha256d (syntheticShareBytes ps)) (cr.blockHash block.header) ::
        if w.handles then [.submit block] else [] := by
  obtain ⟨htdp, e, k, txBodies, hjob, hk, hbodies, hblock⟩ := rebuilt_eq_some.mp h
  rw [effects_push cr w env hq, if_pos htdp, hjob]
  simp only [solveEffects, hk, hbodies, hblock]
  rfl

/-- The header of a rebuilt block has the fields of the solution. -/
theorem rebuilt_header {block : Block} (h : env.rebuilt cr w s ps = some block) :
    block.header = { version := ps.version.toInt32, prevBlockhash := ps.prevHash
                     merkleRoot := block.header.merkleRoot, time := ps.ntime, bits := ps.nbits
                     nonce := ps.nonce } := by
  obtain ⟨-, e, k, txBodies, -, -, -, hblock⟩ := rebuilt_eq_some.mp h
  obtain ⟨-, cb, -, rfl⟩ := reconstructBlock_eq_ok.mp hblock
  rfl

/-- Two solutions agree on everything the key is built from. -/
def SameCreditFields (ps ps' : PushSolution) : Prop :=
  ps.prevHash = ps'.prevHash ∧ ps.nonce = ps'.nonce ∧ ps.ntime = ps'.ntime ∧
    ps.version = ps'.version

instance (ps ps' : PushSolution) : Decidable (SameCreditFields ps ps') :=
  inferInstanceAs (Decidable (_ ∧ _ ∧ _ ∧ _))

theorem u32_append_inj {a b : UInt32} {r r' : Bytes}
    (h : u32.encode a ++ r = u32.encode b ++ r') : a = b ∧ r = r' :=
  u32.encode_append_inj (u32_valid a) (u32_valid b) h

/-- The four fields have fixed widths, so the bytes determine them. -/
theorem syntheticShareBytes_inj :
    syntheticShareBytes ps = syntheticShareBytes ps' ↔ SameCreditFields ps ps' := by
  unfold syntheticShareBytes
  constructor
  · intro h
    simp only [List.append_assoc] at h
    obtain ⟨hprev, h⟩ := List.append_inj h (by rw [ps.prevHash.length_eq, ps'.prevHash.length_eq])
    obtain ⟨hnonce, h⟩ := u32_append_inj h
    obtain ⟨hntime, h⟩ := u32_append_inj h
    rw [← List.append_nil (u32.encode ps.version), ← List.append_nil (u32.encode ps'.version)] at h
    have hbytes : ps.prevHash = ps'.prevHash := by
      cases hp : ps.prevHash
      cases hp' : ps'.prevHash
      simpa [hp, hp'] using hprev
    exact ⟨hbytes, hnonce, hntime, (u32_append_inj h).1⟩
  · intro h
    obtain ⟨hprev, hnonce, hntime, hversion⟩ := h
    rw [hprev, hnonce, hntime, hversion]

/-- Two found blocks with different headers: their keys are hashed from
    different bytes exactly when the solutions differ in a field of the key.
    Otherwise the headers differ in the merkle root or the bits only. -/
theorem credit_keys_distinct_iff {w' : Wiring} {s' : Engine} (hs : Reachable cr w s)
    (hs' : Reachable cr w' s') {env' : Env} {block block' : Block}
    (hb : env.rebuilt cr w s ps = some block) (hb' : env'.rebuilt cr w' s' ps' = some block')
    (hne : block.header ≠ block'.header) :
    .credit (cr.sha256d (syntheticShareBytes ps)) (cr.blockHash block.header) ∈
        effects env (handlePushSolution cr w ps) s ∧
    .credit (cr.sha256d (syntheticShareBytes ps')) (cr.blockHash block'.header) ∈
        effects env' (handlePushSolution cr w' ps') s' ∧
    (syntheticShareBytes ps ≠ syntheticShareBytes ps' ↔ ¬ SameCreditFields ps ps') ∧
    (SameCreditFields ps ps' →
      block.header.merkleRoot ≠ block'.header.merkleRoot ∨ ps.nbits ≠ ps'.nbits) := by
  refine ⟨?_, ?_, not_congr syntheticShareBytes_inj, fun hsame => ?_⟩
  · rw [effects_of_rebuilt hs.quiet hb]
    exact List.mem_cons_self
  · rw [effects_of_rebuilt hs'.quiet hb']
    exact List.mem_cons_self
  · by_contra hnot
    push Not at hnot
    obtain ⟨hroot, hbits⟩ := hnot
    obtain ⟨hprev, hnonce, hntime, hversion⟩ := hsame
    apply hne
    rw [rebuilt_header hb, rebuilt_header hb', hroot, hbits, hprev, hnonce, hntime, hversion]

end

/-- A later nonce gives another block under another key. -/
theorem credit_keys_of_two_nonces :
    let s := Engine.new.after Sample.crates Sample.wiring Sample.declared
    let ps := Sample.solution (U256.fill 1)
    let ps' := { ps with nonce := 1 }
    (∃ block block', Sample.online.rebuilt Sample.crates Sample.wiring s ps = some block ∧
      Sample.online.rebuilt Sample.crates Sample.wiring s ps' = some block' ∧
      block.header ≠ block'.header) ∧
    syntheticShareBytes ps ≠ syntheticShareBytes ps' := by
  intro s ps ps'
  have hs : Reachable Sample.crates Sample.wiring s := reachable_after _ _ _
  have hrebuilt : (Sample.online.rebuilt Sample.crates Sample.wiring s ps).isSome = true ∧
      (Sample.online.rebuilt Sample.crates Sample.wiring s ps').isSome = true := by
    decide +kernel
  obtain ⟨block, hblock⟩ := Option.isSome_iff_exists.mp hrebuilt.1
  obtain ⟨block', hblock'⟩ := Option.isSome_iff_exists.mp hrebuilt.2
  have hne : block.header ≠ block'.header := by
    intro heq
    have hnonce := congrArg Header.nonce heq
    rw [rebuilt_header hblock, rebuilt_header hblock'] at hnonce
    replace hnonce : (0 : UInt32) = 1 := hnonce
    exact absurd hnonce (by decide)
  exact ⟨⟨block, block', hblock, hblock', hne⟩,
    (credit_keys_distinct_iff hs hs hblock hblock' hne).2.2.1.mpr (by decide)⟩

/-- The same client finds two blocks with different extranonces: both are
    submitted, and one credit is left. -/
theorem credit_overwritten :
    let s := Engine.new.after Sample.crates Sample.wiring Sample.declared
    let ps := Sample.solution (U256.fill 1)
    let ps' := { ps with extranonce := [4, 3, 2, 1] }
    let final := Engine.new.after Sample.crates Sample.wiring
      (Sample.declared ++ [(Sample.online, .push ps), (Sample.online, .push ps')])
    (∃ block block', Sample.online.rebuilt Sample.crates Sample.wiring s ps = some block ∧
      Sample.online.rebuilt Sample.crates Sample.wiring s ps' = some block' ∧
      block.header ≠ block'.header) ∧
    syntheticShareBytes ps = syntheticShareBytes ps' ∧
    final.submitted.length = 2 ∧ final.recentSolutions.len = 1 := by
  intro s ps ps' final
  have hrebuilt : (Sample.online.rebuilt Sample.crates Sample.wiring s ps).isSome = true ∧
      (Sample.online.rebuilt Sample.crates Sample.wiring s ps').isSome = true ∧
      (Sample.online.rebuilt Sample.crates Sample.wiring s ps).map (·.header.merkleRoot) ≠
        (Sample.online.rebuilt Sample.crates Sample.wiring s ps').map (·.header.merkleRoot) := by
    decide +kernel
  have hfinal : final.submitted.length = 2 ∧ final.recentSolutions.len = 1 := by decide +kernel
  obtain ⟨hb, hb', hne⟩ := hrebuilt
  obtain ⟨block, hblock⟩ := Option.isSome_iff_exists.mp hb
  obtain ⟨block', hblock'⟩ := Option.isSome_iff_exists.mp hb'
  refine ⟨⟨block, block', hblock, hblock', fun heq => hne ?_⟩, by decide, hfinal⟩
  rw [hblock, hblock', Option.map_some, Option.map_some, heq]

end Sv2P2pool
