import Sv2P2pool.CachedJobs

/-! # The Coinbase of a Custom Job

    A miner that works on a custom job builds its own coinbase: the fields of
    `SetCustomMiningJob`, with the scriptSig `coinbase_prefix` followed by the
    extranonce. A found share is rebuilt from the declared job instead. The
    handler only asks that `coinbase_prefix` begins the declared scriptSig
    with its zero-filled hole, so the two coinbases can differ.
-/

namespace Sv2P2pool

open ByteCodec Bitcoin Interleave

/-! ## The miner's coinbase -/

/-- The outpoint a coinbase spends. -/
def nullOutPoint : OutPoint := ⟨U256.allZeros, 0xffffffff⟩

/-- The input of the miner's coinbase, for one extranonce. -/
def customInput (m : SetCustomMiningJob) (extranonce : Bytes) : TxIn where
  previousOutput := nullOutPoint
  scriptSig := m.coinbasePrefix ++ extranonce
  sequence := m.coinbaseTxInputNSequence
  witness := []

/-- What the miner hashes into the txid of its coinbase. -/
def customCoinbaseBytes (m : SetCustomMiningJob) (extranonce : Bytes) : Bytes :=
  i32.encode m.coinbaseTxVersion.toInt32 ++ (vec txInCodec).encode [customInput m extranonce] ++
    m.coinbaseTxOutputs ++ u32.encode m.coinbaseTxLocktime

section

variable {cr : Crates} {m : SetCustomMiningJob} {e p x : Bytes} {tx : Transaction} {size : Nat}

theorem map_strip_eq_singleton {l : List TxIn} {j : TxIn} (h : l.map TxIn.strip = [j]) :
    ∃ i, l = [i] ∧ i.strip = j := by
  match l with
  | [] => cases h
  | [i] => exact ⟨i, rfl, List.singleton_inj.mp h⟩

theorem customInput_valid (hlen : (m.coinbasePrefix ++ e).length < 2 ^ 64) :
    (vec txInCodec).valid [customInput m e] := by
  refine ⟨show 1 < 2 ^ 64 by decide, rfl, fun i hi => ?_⟩
  obtain rfl := List.mem_singleton.mp hi
  exact ⟨⟨⟨⟨u256_valid _, u32_valid _⟩, rfl⟩, ⟨hlen, rfl⟩, u32_valid _⟩, rfl⟩

/-- What is hashed into a txid is part of the serialization. -/
theorem strippedBytes_length_le (tx : Transaction) :
    (Crates.strippedBytes tx).length ≤ tx.serialize.length := by
  unfold Crates.strippedBytes Transaction.serialize
  split_ifs
  · simp only [List.length_append]
    omega
  · exact le_rfl

/-- The hashed bytes agree exactly when the fields do. -/
theorem strippedBytes_eq_custom (hle : tx.serialize.length ≤ maxVecSize) :
    Crates.strippedBytes tx = customCoinbaseBytes m e ↔
      tx.version = m.coinbaseTxVersion.toInt32 ∧ (∃ i, tx.input = [i] ∧ i.strip = customInput m e) ∧
      (vec txOutCodec).encode tx.output = m.coinbaseTxOutputs ∧
      tx.lockTime = m.coinbaseTxLocktime := by
  have hmax : maxVecSize < 2 ^ 64 := by decide
  constructor
  · intro h
    have hlen : (m.coinbasePrefix ++ e).length < 2 ^ 64 := by
      have hbytes := congrArg List.length h
      have hstripped := strippedBytes_length_le tx
      simp only [customCoinbaseBytes, vec_encode, Codec.encodeAll_cons, txInCodec_encode,
        varBytes_encode, customInput, List.length_append] at hbytes ⊢
      omega
    have hfits : tx.Fits := fits_of_serialize_length (by omega)
    unfold Crates.strippedBytes customCoinbaseBytes at h
    simp only [List.append_assoc] at h
    obtain ⟨hversion, h⟩ := i32.encode_append_inj (i32_valid _) (i32_valid _) h
    obtain ⟨hinput, h⟩ := (vec txInCodec).encode_append_inj hfits.1 (customInput_valid hlen) h
    -- the lock time has four bytes, so the outputs are what precedes it
    obtain ⟨houtput, hlock⟩ := List.append_inj' h (by simp)
    rw [← List.append_nil (u32.encode tx.lockTime),
      ← List.append_nil (u32.encode m.coinbaseTxLocktime)] at hlock
    exact ⟨hversion, map_strip_eq_singleton hinput, houtput,
      (u32.encode_append_inj (u32_valid _) (u32_valid _) hlock).1⟩
  · intro h
    obtain ⟨hversion, ⟨i, hinput, hstrip⟩, houtput, hlock⟩ := h
    unfold Crates.strippedBytes customCoinbaseBytes
    rw [hversion, hinput, houtput, hlock, List.map_singleton, hstrip]

/-! ## Where the hole lies -/

/-- Two fillings of one hole that differ in a run of the hole's size only: the
    run is the hole. -/
theorem hole_position {F G G' : Bytes}
    (h₀ : p ++ List.replicate size 0 ++ x = F ++ List.replicate size 0 ++ G)
    (h₁ : p ++ List.replicate size 1 ++ x = F ++ List.replicate size 1 ++ G')
    (hsize : 0 < size) : p.length = F.length := by
  have hrun : ∀ (b : UInt8) (A C : Bytes),
      (A ++ List.replicate size b ++ C)[A.length]? = some b := by
    intro b A C
    rw [List.append_assoc, List.getElem?_append_right (by omega),
      List.getElem?_append_left (by simpa using hsize)]
    simp [hsize]
  have hfront : ∀ (b : UInt8) (A C : Bytes) (q : Nat), q < A.length →
      (A ++ List.replicate size b ++ C)[q]? = A[q]? := by
    intro b A C q hq
    rw [List.append_assoc, List.getElem?_append_left hq]
  -- the first byte of a run is no common byte of the other side
  have hle : ¬ p.length < F.length := by
    intro hlt
    have hz := hrun 0 p x
    have ho := hrun 1 p x
    rw [h₀, hfront 0 F G _ hlt] at hz
    rw [h₁, hfront 1 F G' _ hlt] at ho
    simp [hz] at ho
  have hge : ¬ F.length < p.length := by
    intro hlt
    have hz := hrun 0 F G
    have ho := hrun 1 F G'
    rw [← h₀, hfront 0 p x _ hlt] at hz
    rw [← h₁, hfront 1 p x _ hlt] at ho
    simp [hz] at ho
  omega

/-- Where the scriptSig length stands, by the marker of BIP 144. -/
def scriptSigStart (coinbaseTxPrefix : Bytes) : Nat :=
  if coinbaseTxPrefix[4]? = some 0 then 43 else 41

/-- The declared coinbase spends the null outpoint, `coinbase_prefix` is its
    scriptSig up to the extranonce, and the hole is the end of the scriptSig. -/
structure PrefixComplete (m : SetCustomMiningJob) (coinbaseTxPrefix : Bytes) (size : Nat)
    (input : TxIn) : Prop where
  outpoint : input.previousOutput = nullOutPoint
  length : m.coinbasePrefix.length + size = input.scriptSig.length
  hole : size = 0 ∨ coinbaseTxPrefix.length + size =
    scriptSigStart coinbaseTxPrefix + (varBytes.encode input.scriptSig).length

variable {tx₀ : Transaction} {i₀ : TxIn}

theorem scriptSigStart_eq (hin : tx₀.input = [i₀])
    (hdec : cr.consensusDecode (p ++ e ++ x) = some tx₀) (hp : 43 ≤ p.length) :
    scriptSigStart p = (inputHead i₀.witness tx₀.version i₀.previousOutput).length := by
  unfold scriptSigStart
  rw [prefix_marker hin hdec hp, inputHead_length]
  split_ifs <;> simp_all

/-! ## Declared and mined coinbase -/

/-- Whatever the extranonce, the miner hashes the same coinbase as the one
    rebuilt from the declared job. -/
def SameCoinbase (cr : Crates) (m : SetCustomMiningJob) (p x : Bytes) (size : Nat) : Prop :=
  ∀ e : Bytes, e.length = size → ∃ tx,
    reconstructCoinbaseWithExtranonce cr p e x = .ok tx ∧
      Crates.strippedBytes tx = customCoinbaseBytes m e

theorem reconstructWith_eq_ok (hsize : extranonceSize cr p = .ok size) (he : e.length = size) :
    reconstructCoinbaseWithExtranonce cr p e x = .ok tx ↔
      cr.consensusDecode (p ++ e ++ x) = some tx := by
  rw [reconstructCoinbaseWithExtranonce_eq_ok, hsize, he]
  simp

/-- The declared byte string, filled with an extranonce, in the layout of the
    miner's coinbase. -/
theorem same_layout (hsize : extranonceSize cr p = .ok size)
    (hsame : SameCoinbase cr m p x size) (he : e.length = size) :
    ∃ tx i tail, cr.consensusDecode (p ++ e ++ x) = some tx ∧ tx.input = [i] ∧
      i.strip = customInput m e ∧
      p ++ e ++ x = inputHead i.witness m.coinbaseTxVersion.toInt32 nullOutPoint ++
        encodeVarInt (m.coinbasePrefix.length + size) ++ m.coinbasePrefix ++ e ++ tail := by
  obtain ⟨tx, htx, hbytes⟩ := hsame e he
  rw [reconstructWith_eq_ok hsize he] at htx
  obtain ⟨hle, rest, hstream⟩ := (cr.consensusDecode_iff _ _).mp htx
  obtain ⟨hversion, ⟨i, hin, hstrip⟩, -⟩ := (strippedBytes_eq_custom hle).mp hbytes
  have hprev : i.previousOutput = nullOutPoint := congrArg TxIn.previousOutput hstrip
  have hscript : i.scriptSig = m.coinbasePrefix ++ e := congrArg TxIn.scriptSig hstrip
  refine ⟨tx, i, inputTail i.witness i.sequence tx.output tx.lockTime ++ rest, htx, hin, hstrip, ?_⟩
  rw [hstream, serialize_single hin, hversion, hprev, hscript, List.length_append, he]
  simp only [List.append_assoc]

theorem prefixComplete_of_same (hsize : extranonceSize cr p = .ok size)
    (hdec : cr.consensusDecode (p ++ List.replicate size 0 ++ x) = some tx₀)
    (hin : tx₀.input = [i₀]) (hsame : SameCoinbase cr m p x size) :
    PrefixComplete m p size i₀ := by
  obtain ⟨hp, -⟩ := extranonceSize_ok hsize
  -- with zeros, the miner's coinbase is the declared one
  obtain ⟨tx, i, tail, hdec', hin', hstrip, h₀⟩ := same_layout hsize hsame List.length_replicate
  obtain rfl : tx₀ = tx := Option.some.inj (hdec.symm.trans hdec')
  obtain rfl : i₀ = i := by simpa using hin.symm.trans hin'
  have hscript : i₀.scriptSig = m.coinbasePrefix ++ List.replicate size 0 :=
    congrArg TxIn.scriptSig hstrip
  have hlen : m.coinbasePrefix.length + size = i₀.scriptSig.length := by
    rw [hscript, List.length_append, List.length_replicate]
  refine ⟨congrArg TxIn.previousOutput hstrip, hlen, ?_⟩
  rcases Nat.eq_zero_or_pos size with hzero | hpos
  · exact Or.inl hzero
  · -- with ones, the coinbase differs from it in the hole only
    right
    obtain ⟨tx₁, i₁, tail₁, hdec₁, hin₁, -, h₁⟩ := same_layout hsize hsame List.length_replicate
    have hmarker := (prefix_marker hin hdec hp).symm.trans (prefix_marker hin₁ hdec₁ hp)
    have hempty : i₁.witness.isEmpty = i₀.witness.isEmpty := by
      revert hmarker
      cases i₀.witness.isEmpty <;> cases i₁.witness.isEmpty <;> decide
    have hhead : ∀ version, inputHead i₁.witness version nullOutPoint =
        inputHead i₀.witness version nullOutPoint := by
      intro version
      unfold inputHead
      rw [hempty]
    rw [hhead] at h₁
    have hcut := hole_position h₀ h₁ hpos
    rw [scriptSigStart_eq hin hdec hp, inputHead_length, varBytes_length, hcut, ← hlen]
    simp only [List.length_append, inputHead_length, varIntSize]
    omega

theorem same_of_prefixComplete (hsize : extranonceSize cr p = .ok size)
    (hdec : cr.consensusDecode (p ++ List.replicate size 0 ++ x) = some tx₀)
    (hin : tx₀.input = [i₀]) (hversion : tx₀.version = m.coinbaseTxVersion.toInt32)
    (hbegins : m.coinbasePrefix <+: i₀.scriptSig)
    (hsequence : i₀.sequence = m.coinbaseTxInputNSequence)
    (houtputs : (vec txOutCodec).encode tx₀.output = m.coinbaseTxOutputs)
    (hlock : tx₀.lockTime = m.coinbaseTxLocktime) (hcomplete : PrefixComplete m p size i₀) :
    SameCoinbase cr m p x size := by
  obtain ⟨hp, -⟩ := extranonceSize_ok hsize
  obtain ⟨hle, rest, hstream⟩ := (cr.consensusDecode_iff _ _).mp hdec
  have hstrip : ∀ script e, script = m.coinbasePrefix ++ e →
      ({ i₀ with scriptSig := script } : TxIn).strip = customInput m e := by
    intro script e heq
    rw [heq, TxIn.strip, customInput, hcomplete.outpoint, hsequence]
  intro e he
  simp only [reconstructWith_eq_ok hsize he]
  rcases hcomplete.hole with hzero | hend
  · -- an empty hole leaves nothing to fill
    subst hzero
    obtain rfl := List.eq_nil_of_length_eq_zero he
    have hscript : i₀.scriptSig = m.coinbasePrefix ++ [] := by
      rw [List.append_nil]
      exact (hbegins.eq_of_length (by simpa using hcomplete.length)).symm
    exact ⟨tx₀, hdec, (strippedBytes_eq_custom hle).mpr
      ⟨hversion, ⟨i₀, hin, hstrip i₀.scriptSig [] hscript⟩, houtputs, hlock⟩⟩
  · rw [scriptSigStart_eq hin hdec hp, varBytes_length] at hend
    -- the prefix ends right before the last `size` bytes of the scriptSig
    have hall : p ++ (List.replicate size 0 ++ x) =
        (inputHead i₀.witness tx₀.version i₀.previousOutput ++
          encodeVarInt i₀.scriptSig.length) ++ (i₀.scriptSig ++
            (inputTail i₀.witness i₀.sequence tx₀.output tx₀.lockTime ++ rest)) := by
      simpa only [serialize_single hin, List.append_assoc] using hstream
    have hlength := hcomplete.length
    obtain ⟨r, hr⟩ := cut_front hall (by
      simp only [List.length_append, varIntSize] at hend ⊢
      omega)
    have hrlen : r.length + size = i₀.scriptSig.length := by
      have hplen := congrArg List.length hr
      simp only [List.length_append, varIntSize] at hplen hend
      omega
    have hvar : cr.decodeVarInt (p.drop (inputHead i₀.witness tx₀.version
        i₀.previousOutput).length) = some (i₀.scriptSig.length, r) := by
      rw [hr, List.append_assoc, List.drop_left]
      exact cr.decodeVarInt_encode (scriptSig_length_le hin hle) r
    obtain ⟨-, after, hscript, hfill⟩ := fill_scriptSig_eq hin hdec rfl (by
      rw [hr]
      simp only [List.length_append]
      omega) hvar hrlen.le
    obtain rfl : after = [] := by
      have hslen := congrArg List.length hscript
      simp only [List.length_append, List.length_replicate] at hslen
      exact List.eq_nil_of_length_eq_zero (by omega)
    have hr_eq : m.coinbasePrefix = r := by
      have hsub : r <+: i₀.scriptSig := ⟨List.replicate size 0 ++ [], by simp [hscript]⟩
      exact (List.prefix_of_prefix_length_le hbegins hsub (by omega)).eq_of_length (by omega)
    refine ⟨_, hfill e he, ?_⟩
    obtain ⟨hle', -⟩ := (cr.consensusDecode_iff _ _).mp (hfill e he)
    exact (strippedBytes_eq_custom hle').mpr
      ⟨hversion, ⟨_, rfl, hstrip _ e (by simp [hr_eq])⟩, houtputs, hlock⟩

/-- For a custom job the engine accepts: the miner hashes the coinbase that is
    rebuilt from the declared job, for every extranonce, exactly when
    `coinbase_prefix` is complete; then the two txids agree. -/
theorem custom_coinbase_iff {w : Wiring} {s : Engine} {env : Env} {t : JdToken}
    (htxid : ∀ tx, cr.computeTxid tx = cr.sha256d (Crates.strippedBytes tx))
    (hs : Reachable cr w s)
    (hok : (run env.oracle (handleSetCustomMiningJob cr w m t) s).1 = .success) :
    ∃ job tx₀ i₀ size, (s.consume t).1 = some job ∧
      extranonceSize cr job.coinbaseTxPrefix = .ok size ∧
      reconstructCoinbase cr job.coinbaseTxPrefix job.coinbaseTxSuffix = .ok tx₀ ∧
      tx₀.input = [i₀] ∧
      (SameCoinbase cr m job.coinbaseTxPrefix job.coinbaseTxSuffix size ↔
        PrefixComplete m job.coinbaseTxPrefix size i₀) ∧
      (PrefixComplete m job.coinbaseTxPrefix size i₀ → ∀ e : Bytes, e.length = size → ∃ tx,
        reconstructCoinbaseWithExtranonce cr job.coinbaseTxPrefix e job.coinbaseTxSuffix = .ok tx ∧
          cr.computeTxid tx = cr.sha256d (customCoinbaseBytes m e)) := by
  obtain ⟨job, hjob, hchecked, -⟩ := run_setCustom_success cr w env hs.quiet hok
  obtain ⟨tx₀, i₀, rest, txidList, hcb, hversion, hin, hbegins, hsequence, houtputs, hlock, -, -⟩ :=
    hchecked.coinbase
  -- a cached coinbase has one input
  obtain ⟨r, -, hcached⟩ := consume_eq_some hjob
  obtain ⟨tx, htx, hone⟩ := (hs.jobsAccepted r job hcached).coinbase
  obtain rfl : tx₀ = tx := Except.ok.inj (hcb.symm.trans htx)
  obtain rfl : rest = [] := by simpa [hin] using hone
  obtain ⟨size, hsize, hzeros⟩ := reconstructCoinbase_ok hcb
  rw [reconstructWith_eq_ok hsize List.length_replicate] at hzeros
  have hiff : SameCoinbase cr m job.coinbaseTxPrefix job.coinbaseTxSuffix size ↔
      PrefixComplete m job.coinbaseTxPrefix size i₀ :=
    ⟨prefixComplete_of_same hsize hzeros hin,
      same_of_prefixComplete hsize hzeros hin hversion (List.isPrefixOf_iff_prefix.mp hbegins)
        hsequence houtputs hlock⟩
  refine ⟨job, tx₀, i₀, size, hjob, hsize, hcb, hin, hiff, fun hcomplete e he => ?_⟩
  obtain ⟨tx, htx, hbytes⟩ := hiff.mpr hcomplete e he
  exact ⟨tx, htx, by rw [htxid, hbytes]⟩

end

/-- The sample custom job with the whole scriptSig before the extranonce. -/
def Sample.completeJob : SetCustomMiningJob :=
  { Sample.customJob (U256.fill 1) [9] with coinbasePrefix := [3, 1, 1, 1] }

/-- A share mined with the extranonce `[1, 2, 3, 4]` has the txid of the
    declared coinbase. -/
theorem complete_job_mined :
    ∃ tx, reconstructCoinbaseWithExtranonce Sample.crates Sample.coinbaseTxPrefix [1, 2, 3, 4]
        (Sample.coinbaseTxSuffix [9]) = .ok tx ∧
      Sample.crates.computeTxid tx =
        Sample.crates.sha256d (customCoinbaseBytes Sample.completeJob [1, 2, 3, 4]) := by
  have hreach : Reachable Sample.crates Sample.wiring _ :=
    reachable_after Sample.crates Sample.wiring Sample.declared
  have hok : (run Sample.online.oracle (handleSetCustomMiningJob Sample.crates Sample.wiring
      Sample.completeJob 3) (Engine.new.after Sample.crates Sample.wiring Sample.declared)).1 =
        .success := by decide +kernel
  obtain ⟨job, tx₀, i₀, size, hjob, hsize, hcb, hin, -, htxid⟩ :=
    custom_coinbase_iff (fun _ => rfl) hreach hok
  have hcached : ((Engine.new.after Sample.crates Sample.wiring Sample.declared).consume 3).1 =
      some (Sample.job (U256.fill 1) 3 [9]) := by decide +kernel
  obtain rfl : Sample.job (U256.fill 1) 3 [9] = job := Option.some.inj (hcached.symm.trans hjob)
  have hfour : extranonceSize Sample.crates Sample.coinbaseTxPrefix = .ok 4 := by decide +kernel
  obtain rfl : 4 = size := Except.ok.inj (hfour.symm.trans hsize)
  have hdeclared : reconstructCoinbase Sample.crates Sample.coinbaseTxPrefix
      (Sample.coinbaseTxSuffix [9]) = .ok (Sample.coinbase [9] [0, 0, 0, 0]) := by decide +kernel
  obtain rfl : Sample.coinbase [9] [0, 0, 0, 0] = tx₀ :=
    Except.ok.inj (hdeclared.symm.trans hcb)
  obtain rfl : _ = i₀ := List.singleton_inj.mp hin
  exact htxid ⟨rfl, rfl, Or.inr (by decide +kernel)⟩ [1, 2, 3, 4] rfl

/-- The sample custom job announces two bytes of the scriptSig only. It is
    accepted, and the share it mines is another coinbase than the declared
    one. -/
theorem short_prefix_accepted :
    let s := Engine.new.after Sample.crates Sample.wiring Sample.declared
    let m := Sample.customJob (U256.fill 1) [9]
    (run Sample.online.oracle (handleSetCustomMiningJob Sample.crates Sample.wiring m 3) s).1 =
      .success ∧
    (s.consume 3).1 = some (Sample.job (U256.fill 1) 3 [9]) ∧
    extranonceSize Sample.crates Sample.coinbaseTxPrefix = .ok 4 ∧
    reconstructCoinbaseWithExtranonce Sample.crates Sample.coinbaseTxPrefix [1, 2, 3, 4]
      (Sample.coinbaseTxSuffix [9]) = .ok (Sample.coinbase [9] [1, 2, 3, 4]) ∧
    Sample.crates.computeTxid (Sample.coinbase [9] [1, 2, 3, 4]) ≠
      Sample.crates.sha256d (customCoinbaseBytes m [1, 2, 3, 4]) := by
  intro s m
  exact ⟨by decide +kernel, by decide +kernel, by decide +kernel, by decide +kernel,
    by decide +kernel⟩

end Sv2P2pool
