import Sv2P2pool.Runs

/-! # The Hole in the Coinbase

    `reconstruct_coinbase` and `reconstruct_coinbase_with_extranonce` take the
    extranonce hole from a scriptSig length at offset 43, where the BIP 144
    layout has it; the decoder accepts the legacy layout too, where the
    scriptSig length stands at offset 41. In the legacy layout the hole can
    lie anywhere behind the prefix, and the extranonce then rewrites whatever
    is there.
-/

namespace Sv2P2pool

open ByteCodec Bitcoin

/-! ## One-input transactions -/

/-- What precedes the scriptSig. -/
def inputHead (witness : List Bytes) (version : Int32) (previousOutput : OutPoint) : Bytes :=
  i32.encode version ++ (if witness.isEmpty then [] else [0, 1]) ++ [1] ++
    outPointCodec.encode previousOutput

/-- What follows the scriptSig. -/
def inputTail (witness : List Bytes) (sequence : UInt32) (output : List TxOut)
    (lockTime : UInt32) : Bytes :=
  u32.encode sequence ++ (vec txOutCodec).encode output ++
    (if witness.isEmpty then [] else witnessCodec.encode witness) ++ u32.encode lockTime

theorem outPointCodec_encode (o : OutPoint) :
    outPointCodec.encode o = u256.encode o.txid ++ u32.encode o.vout := rfl

theorem serialize_single {tx : Transaction} {i : TxIn} (h : tx.input = [i]) :
    tx.serialize = inputHead i.witness tx.version i.previousOutput ++
      encodeVarInt i.scriptSig.length ++ i.scriptSig ++
      inputTail i.witness i.sequence tx.output tx.lockTime := by
  have hone : encodeVarInt 1 = [1] := rfl
  have hcount : (vec txInCodec).encode [i.strip] = 1 :: (outPointCodec.encode i.previousOutput ++
      (encodeVarInt i.scriptSig.length ++ i.scriptSig ++ u32.encode i.sequence)) := by
    simp [vec_encode, hone, txInCodec_encode, varBytes_encode, outPointCodec_encode, TxIn.strip]
  by_cases hw : i.witness.isEmpty = true
  · simp [Transaction.serialize, Transaction.usesSegwit, h, hw, hcount, inputHead, inputTail]
  · simp [Transaction.serialize, Transaction.usesSegwit, h, hw, hcount, inputHead, inputTail,
      Codec.encodeAll]

theorem inputHead_length (witness : List Bytes) (version : Int32) (previousOutput : OutPoint) :
    (inputHead witness version previousOutput).length = if witness.isEmpty then 41 else 43 := by
  unfold inputHead
  split_ifs <;> simp [outPointCodec_encode]

/-- The fifth byte tells the layouts apart. -/
theorem inputHead_marker (witness : List Bytes) (version : Int32) (previousOutput : OutPoint) :
    (inputHead witness version previousOutput)[4]? =
      some (if witness.isEmpty then 1 else 0) := by
  unfold inputHead
  split_ifs <;> simp

theorem inputTail_length_pos (witness : List Bytes) (sequence : UInt32) (output : List TxOut)
    (lockTime : UInt32) : 0 < (inputTail witness sequence output lockTime).length := by
  simp only [inputTail, List.length_append, u32_length]
  omega

/-! ## Filling the hole -/

/-- The same length, and different only where zeros were replaced by `e`. -/
def Filled (e : Bytes) (script₀ script : ScriptBuf) : Prop :=
  script.length = script₀.length ∧
    (script = script₀ ∨ ∃ before after,
      script₀ = before ++ List.replicate e.length 0 ++ after ∧ script = before ++ e ++ after)

/-- One input on both sides, and everything but the extranonce the same. -/
structure SameButExtranonce (e : Bytes) (tx₀ tx : Transaction) : Prop where
  version : tx.version = tx₀.version
  output : tx.output = tx₀.output
  lockTime : tx.lockTime = tx₀.lockTime
  input : ∃ i₀ i, tx₀.input = [i₀] ∧ tx.input = [i] ∧
    i.previousOutput = i₀.previousOutput ∧ i.sequence = i₀.sequence ∧
    Filled e i₀.scriptSig i.scriptSig

/-- The hole behind the prefix cannot reach anything but the scriptSig: the
    prefix has the BIP 144 marker, the hole is empty, the scriptSig of the
    legacy layout spans the hole, or the prefix alone is a transaction. -/
def HoleConfined (cr : Crates) (coinbaseTxPrefix : Bytes) (size : Nat) : Prop :=
  coinbaseTxPrefix[4]? = some 0 ∨ size = 0 ∨
    (∃ n r, cr.decodeVarInt (coinbaseTxPrefix.drop 41) = some (n, r) ∧ r.length + size ≤ n) ∨
    ∃ tx, cr.consensusDecode coinbaseTxPrefix = some tx

section

variable {cr : Crates} {p x : Bytes} {size : Nat} {tx₀ : Transaction} {i₀ : TxIn}

theorem same_refl (e : Bytes) (hin : tx₀.input = [i₀]) : SameButExtranonce e tx₀ tx₀ :=
  ⟨rfl, rfl, rfl, i₀, i₀, hin, hin, rfl, rfl, rfl, Or.inl rfl⟩

theorem scriptSig_length_le (hin : tx₀.input = [i₀]) (hle : tx₀.serialize.length ≤ maxVecSize) :
    i₀.scriptSig.length ≤ maxCompactSize := by
  have hser := congrArg List.length (serialize_single hin)
  simp only [List.length_append] at hser
  have hmax : maxVecSize ≤ maxCompactSize := by decide
  omega

/-- With the scriptSig length where the decoder looks for it and the hole
    inside the scriptSig, the extranonce takes the place of the zeros. -/
theorem fill_scriptSig_eq (hin : tx₀.input = [i₀])
    (hdec : cr.consensusDecode (p ++ List.replicate size 0 ++ x) = some tx₀)
    {k n : Nat} {r : Bytes} (hk : (inputHead i₀.witness tx₀.version i₀.previousOutput).length = k)
    (hp : k ≤ p.length) (hvar : cr.decodeVarInt (p.drop k) = some (n, r))
    (hr : r.length + size ≤ n) :
    n = i₀.scriptSig.length ∧ ∃ after, i₀.scriptSig = r ++ List.replicate size 0 ++ after ∧
      ∀ e : Bytes, e.length = size → cr.consensusDecode (p ++ e ++ x) =
        some { tx₀ with input := [{ i₀ with scriptSig := r ++ e ++ after }] } := by
  obtain ⟨hle, rest, hstream⟩ := (cr.consensusDecode_iff _ _).mp hdec
  obtain ⟨hn, hdrop⟩ := (cr.decodeVarInt_iff _ _ _).mp hvar
  have hser := serialize_single hin
  have hss := scriptSig_length_le hin hle
  -- the prefix is the head, the length and the scriptSig bytes before the hole
  have hsplit : p = p.take k ++ (encodeVarInt n ++ r) := by rw [← hdrop, List.take_append_drop]
  rw [hser, hsplit] at hstream
  simp only [List.append_assoc] at hstream
  obtain ⟨hhead, hbody⟩ := List.append_inj hstream (by simp [hk, hp])
  obtain ⟨rfl, hfill⟩ := varInt.encode_append_inj (hn.trans_lt maxCompactSize_lt)
    (hss.trans_lt maxCompactSize_lt) hbody
  obtain ⟨after, hscript, hx⟩ : ∃ after, i₀.scriptSig = r ++ List.replicate size 0 ++ after ∧
      x = after ++ (inputTail i₀.witness i₀.sequence tx₀.output tx₀.lockTime ++ rest) := by
    rw [← List.append_assoc] at hfill
    rcases List.append_eq_append_iff.mp hfill with ⟨after, h, hx⟩ | ⟨c, h, hx⟩
    · exact ⟨after, h, hx⟩
    · have hlen := congrArg List.length h
      simp only [List.length_append, List.length_replicate] at hlen
      obtain rfl : c = [] := List.eq_nil_of_length_eq_zero (by omega)
      exact ⟨[], by simpa using h.symm, by simpa using hx.symm⟩
  refine ⟨rfl, after, hscript, fun e he => ?_⟩
  have hlen : (r ++ e ++ after).length = i₀.scriptSig.length := by
    rw [hscript]
    simp [he]
  have hser' : ({ tx₀ with input := [{ i₀ with scriptSig := r ++ e ++ after }] } :
      Transaction).serialize = _ :=
    serialize_single (i := { i₀ with scriptSig := r ++ e ++ after }) rfl
  refine (cr.consensusDecode_iff _ _).mpr ⟨?_, rest, ?_⟩
  · rw [hser', List.length_append, List.length_append, List.length_append, hlen]
    simp only [hser, List.length_append] at hle
    exact hle
  · rw [hser', hsplit, hhead, hx, hlen]
    simp only [List.append_assoc]

/-- So the extranonce replaces scriptSig bytes only. -/
theorem fill_scriptSig (hin : tx₀.input = [i₀])
    (hdec : cr.consensusDecode (p ++ List.replicate size 0 ++ x) = some tx₀)
    {k n : Nat} {r : Bytes} (hk : (inputHead i₀.witness tx₀.version i₀.previousOutput).length = k)
    (hp : k ≤ p.length) (hvar : cr.decodeVarInt (p.drop k) = some (n, r))
    (hr : r.length + size ≤ n) {e : Bytes} (he : e.length = size) :
    ∃ tx, cr.consensusDecode (p ++ e ++ x) = some tx ∧ SameButExtranonce e tx₀ tx := by
  obtain ⟨-, after, hscript, hfill⟩ := fill_scriptSig_eq hin hdec hk hp hvar hr
  refine ⟨_, hfill e he, rfl, rfl, rfl, i₀, _, hin, rfl, rfl, rfl, ?_, Or.inr ⟨r, after, ?_, rfl⟩⟩
  · rw [hscript]
    simp [he]
  · rw [he]
    exact hscript

theorem extranonceSize_ok (h : extranonceSize cr p = .ok size) :
    43 ≤ p.length ∧
      ∃ n r, cr.decodeVarInt (p.drop 43) = some (n, r) ∧ r.length + size = n := by
  unfold extranonceSize coinbasePrefixLen at h
  split_ifs at h with hlen
  refine ⟨by omega, ?_⟩
  match hvar : cr.decodeVarInt (p.drop 43) with
  | none => simp [hvar] at h
  | some (n, r) =>
    simp only [hvar] at h
    split_ifs at h with hshort hover
    have hdrop := congrArg List.length ((cr.decodeVarInt_iff _ _ _).mp hvar).2
    simp only [List.length_drop, List.length_append] at hdrop
    simp only [Except.ok.injEq, varIntSize] at h hshort hover
    exact ⟨n, r, rfl, by omega⟩

theorem decodeFilled_eq_ok {hole : Bytes} {tx : Transaction} :
    decodeFilled cr p hole x = .ok tx ↔ cr.consensusDecode (p ++ hole ++ x) = some tx := by
  unfold decodeFilled
  match cr.consensusDecode (p ++ hole ++ x) with
  | some tx' => simp
  | none => simp

theorem reconstructCoinbase_eq_ok {tx : Transaction} :
    reconstructCoinbase cr p x = .ok tx ↔ ∃ size, extranonceSize cr p = .ok size ∧
      cr.consensusDecode (p ++ List.replicate size 0 ++ x) = some tx := by
  unfold reconstructCoinbase
  cases extranonceSize cr p with
  | error e => simp
  | ok size => simp [decodeFilled_eq_ok]

theorem reconstructCoinbaseWithExtranonce_eq_ok {e : Bytes} {tx : Transaction} :
    reconstructCoinbaseWithExtranonce cr p e x = .ok tx ↔
      extranonceSize cr p = .ok e.length ∧ cr.consensusDecode (p ++ e ++ x) = some tx := by
  unfold reconstructCoinbaseWithExtranonce
  cases extranonceSize cr p with
  | error e => simp
  | ok size =>
    simp only [Except.ok.injEq]
    split_ifs with hlen
    · simp [Ne.symm hlen]
    · simp [decodeFilled_eq_ok, not_not.mp hlen]

/-- The prefix holds the byte that tells the layouts apart. -/
theorem prefix_marker (hin : tx₀.input = [i₀]) {hole : Bytes}
    (hdec : cr.consensusDecode (p ++ hole ++ x) = some tx₀) (hp : 43 ≤ p.length) :
    p[4]? = some (if i₀.witness.isEmpty then 1 else 0) := by
  obtain ⟨-, rest, hstream⟩ := (cr.consensusDecode_iff _ _).mp hdec
  have hbyte := congrArg (·[4]?) hstream
  have hhead : 4 < (inputHead i₀.witness tx₀.version i₀.previousOutput).length := by
    rw [inputHead_length]
    split_ifs <;> omega
  simp only [serialize_single hin, List.append_assoc] at hbyte
  rw [List.getElem?_append_left (by omega), List.getElem?_append_left hhead,
    inputHead_marker] at hbyte
  exact hbyte

/-- Two fillings of one hole that agree before and after a field: the hole
    lies in the field, or behind everything. -/
theorem hole_of_two_fillings {A B field₀ field₁ rest₀ rest₁ : Bytes}
    (h₀ : p ++ List.replicate size 0 ++ x = A ++ field₀ ++ B ++ rest₀)
    (h₁ : p ++ List.replicate size 1 ++ x = A ++ field₁ ++ B ++ rest₁)
    (hlen : field₁.length = field₀.length) (hB : 0 < B.length) (hsize : 0 < size) :
    A.length ≤ p.length ∧
      (p.length + size ≤ A.length + field₀.length ∨
        A.length + field₀.length + B.length ≤ p.length) := by
  have hhole : ∀ (b : UInt8) (q : Nat), p.length ≤ q → q < p.length + size →
      (p ++ List.replicate size b ++ x)[q]? = some b := by
    intro b q hlo hhi
    rw [List.append_assoc, List.getElem?_append_right hlo,
      List.getElem?_append_left (by simp; omega), List.getElem?_replicate, if_pos (by omega)]
  -- a position of the hole carries different bytes, so it is in neither part
  have hbefore : ∀ q, p.length ≤ q → q < p.length + size → ¬ q < A.length := by
    intro q hlo hhi hq
    have hz := hhole 0 q hlo hhi
    have ho := hhole 1 q hlo hhi
    rw [h₀] at hz
    rw [h₁] at ho
    simp only [List.append_assoc, List.getElem?_append_left hq] at hz ho
    simp [hz] at ho
  have hafter : ∀ q, p.length ≤ q → q < p.length + size → A.length + field₀.length ≤ q →
      ¬ q < A.length + field₀.length + B.length := by
    intro q hlo hhi hge hlt
    have hz := hhole 0 q hlo hhi
    have ho := hhole 1 q hlo hhi
    rw [h₀, List.append_assoc, List.getElem?_append_right (by simpa using hge),
      List.getElem?_append_left (by simp; omega)] at hz
    rw [h₁, List.append_assoc, List.getElem?_append_right (by simpa [hlen] using hge),
      List.getElem?_append_left (by simp [hlen]; omega)] at ho
    simp only [List.length_append, hlen] at hz ho
    simp [hz] at ho
  have hA : A.length ≤ p.length := by
    by_contra hlt
    exact hbefore p.length (by omega) (by omega) (by omega)
  refine ⟨hA, ?_⟩
  by_contra hnot
  push Not at hnot
  by_cases hp : p.length < A.length + field₀.length
  · exact hafter (A.length + field₀.length) (by omega) (by omega) (by omega) (by omega)
  · exact hafter p.length (by omega) (by omega) (by omega) (by omega)

/-- The front of a byte string, if the prefix is long enough to hold it. -/
theorem cut_front {front behind rest : Bytes} (h : p ++ rest = front ++ behind)
    (hlen : front.length ≤ p.length) : ∃ r, p = front ++ r := by
  obtain ⟨r, hr⟩ := List.prefix_of_prefix_length_le ⟨behind, h.symm⟩ ⟨rest, rfl⟩ hlen
  exact ⟨r, hr.symm⟩

/-- In the legacy layout, a hole that only ever changes the scriptSig lies
    inside it, unless the prefix is a whole transaction. -/
theorem legacy_hole (hin : tx₀.input = [i₀]) (hw : i₀.witness = []) (hp : 43 ≤ p.length)
    (hdec : cr.consensusDecode (p ++ List.replicate size 0 ++ x) = some tx₀) {tx : Transaction}
    (hdec' : cr.consensusDecode (p ++ List.replicate size 1 ++ x) = some tx)
    (hsame : SameButExtranonce (List.replicate size 1) tx₀ tx) (hsize : 0 < size) :
    (∃ n r, cr.decodeVarInt (p.drop 41) = some (n, r) ∧ r.length + size ≤ n) ∨
      ∃ tx, cr.consensusDecode p = some tx := by
  obtain ⟨i₀', i, hin₀, hin', hprev, hseq, hlen, -⟩ := hsame.input
  obtain rfl : i₀ = i₀' := by simpa using hin.symm.trans hin₀
  have hw' : i.witness = [] := by
    have h₀ := prefix_marker hin hdec hp
    have h₁ := prefix_marker hin' hdec' hp
    rw [h₀, hw] at h₁
    by_contra hne
    have : i.witness.isEmpty = false := by simpa using hne
    simp [this] at h₁
  obtain ⟨hle, rest₀, h₀⟩ := (cr.consensusDecode_iff _ _).mp hdec
  obtain ⟨-, rest₁, h₁⟩ := (cr.consensusDecode_iff _ _).mp hdec'
  have hser := serialize_single hin
  rw [hser] at h₀
  rw [serialize_single hin', hw', hlen, hprev, hseq, hsame.version, hsame.output, hsame.lockTime,
    ← hw] at h₁
  -- two fillings that differ everywhere: the hole is in the scriptSig or behind
  -- the whole transaction
  obtain ⟨hA, hfield | hbehind⟩ := hole_of_two_fillings h₀ h₁ hlen
    (inputTail_length_pos _ _ _ _) hsize
  · left
    have hhead : (inputHead i₀.witness tx₀.version i₀.previousOutput).length = 41 := by
      rw [inputHead_length, hw]
      rfl
    obtain ⟨r, hr⟩ := cut_front (by simpa only [List.append_assoc] using h₀) hA
    have hss := scriptSig_length_le hin hle
    refine ⟨i₀.scriptSig.length, r, ?_, ?_⟩
    · rw [hr, List.append_assoc, ← hhead, List.drop_left]
      exact cr.decodeVarInt_encode hss r
    · have hplen := congrArg List.length hr
      simp only [List.length_append] at hplen hfield
      omega
  · right
    have hall : p ++ (List.replicate size 0 ++ x) = tx₀.serialize ++ rest₀ := by
      simpa only [hser, List.append_assoc] using h₀
    obtain ⟨r, hr⟩ := cut_front hall (by
      rw [hser]
      simpa only [List.length_append] using hbehind)
    exact ⟨tx₀, (cr.consensusDecode_iff _ _).mpr ⟨hle, r, hr⟩⟩

/-! ## What is validated is what is mined -/

/-- For a coinbase the declaration accepts: every extranonce of the implied
    size gives the same transaction but for extranonce bytes in the scriptSig
    exactly when the hole is confined. -/
theorem mined_coinbase_iff (hsize : extranonceSize cr p = .ok size)
    (hok : reconstructCoinbase cr p x = .ok tx₀) (hone : tx₀.input.length = 1) :
    (∀ e : Bytes, e.length = size →
      ∃ tx, reconstructCoinbaseWithExtranonce cr p e x = .ok tx ∧ SameButExtranonce e tx₀ tx) ↔
    HoleConfined cr p size := by
  obtain ⟨i₀, hin⟩ := List.length_eq_one_iff.mp hone
  obtain ⟨hp, n, r, hvar, hn⟩ := extranonceSize_ok hsize
  have hdec : cr.consensusDecode (p ++ List.replicate size 0 ++ x) = some tx₀ := by
    simpa only [reconstructCoinbase, hsize, decodeFilled_eq_ok] using hok
  have hwith : ∀ e tx, e.length = size →
      (reconstructCoinbaseWithExtranonce cr p e x = .ok tx ↔
        cr.consensusDecode (p ++ e ++ x) = some tx) := by
    intro e tx he
    simp [reconstructCoinbaseWithExtranonce, hsize, he, decodeFilled_eq_ok]
  have hmarker := prefix_marker hin hdec hp
  constructor
  · intro hall
    by_cases hw : i₀.witness = []
    · rcases Nat.eq_zero_or_pos size with hzero | hpos
      · exact Or.inr (Or.inl hzero)
      -- ones instead of zeros show where the hole is
      obtain ⟨tx, htx, hsame⟩ := hall (List.replicate size 1) List.length_replicate
      rw [hwith _ _ List.length_replicate] at htx
      exact Or.inr (Or.inr (legacy_hole hin hw hp hdec htx hsame hpos))
    · left
      rw [hmarker, if_neg (by simpa using hw)]
  · intro hconf e he
    simp only [hwith e _ he]
    by_cases hw : i₀.witness = []
    · have hhead : (inputHead i₀.witness tx₀.version i₀.previousOutput).length = 41 := by
        rw [inputHead_length, hw]
        rfl
      rcases hconf with h | rfl | ⟨n', r', hvar', hr'⟩ | ⟨tx, htx⟩
      · simp [hmarker, hw] at h
      · obtain rfl : e = [] := List.eq_nil_of_length_eq_zero he
        exact ⟨tx₀, by simpa using hdec, same_refl _ hin⟩
      · exact fill_scriptSig hin hdec hhead (by omega) hvar' hr' he
      · obtain ⟨hle, rest, rfl⟩ := (cr.consensusDecode_iff _ _).mp htx
        obtain rfl : tx = tx₀ := by
          simp only [List.append_assoc, cr.consensusDecode_serialize hle] at hdec
          exact Option.some.inj hdec
        refine ⟨tx, ?_, same_refl _ hin⟩
        simp only [List.append_assoc, cr.consensusDecode_serialize hle]
    · have hhead : (inputHead i₀.witness tx₀.version i₀.previousOutput).length = 43 := by
        rw [inputHead_length, if_neg (by simpa using hw)]
      exact fill_scriptSig hin hdec hhead hp hvar (by omega) he

end

/-- Every extranonce of a BIP 144 coinbase ends up in the scriptSig. -/
theorem mined_coinbase_bip144 :
    reconstructCoinbase Sample.crates Sample.coinbaseTxPrefix (Sample.coinbaseTxSuffix [9]) =
      .ok (Sample.coinbase [9] [0, 0, 0, 0]) ∧
    ∀ e : Bytes, e.length = 4 →
      ∃ tx, reconstructCoinbaseWithExtranonce Sample.crates Sample.coinbaseTxPrefix e
          (Sample.coinbaseTxSuffix [9]) = .ok tx ∧
        SameButExtranonce e (Sample.coinbase [9] [0, 0, 0, 0]) tx := by
  have hok : reconstructCoinbase Sample.crates Sample.coinbaseTxPrefix
      (Sample.coinbaseTxSuffix [9]) = .ok (Sample.coinbase [9] [0, 0, 0, 0]) := by decide +kernel
  exact ⟨hok, (mined_coinbase_iff (by decide +kernel) hok rfl).mpr (Or.inl (by decide))⟩

/-- A legacy coinbase up to its output count, with the scriptSig `[0, 13]`:
    the byte at offset 43 is 13, so the hole is the 8-byte output value. -/
def Sample.legacyPrefix : Bytes :=
  [2, 0, 0, 0, 1] ++ List.replicate 32 0 ++ List.replicate 4 255 ++ [2, 0, 13] ++
    List.replicate 4 255 ++ [1]

/-- The empty output script and the lock time. -/
def Sample.legacySuffix : Bytes := [0, 0, 0, 0, 0]

def Sample.legacyCoinbase (value : UInt64) : Transaction where
  version := 2
  lockTime := 0
  input := [⟨⟨U256.allZeros, 0xffffffff⟩, [0, 13], 0xffffffff, []⟩]
  output := [⟨value, []⟩]

/-- The declaration is checked with an output value of zero; the extranonce
    raises it to 50 BTC. -/
theorem extranonce_rewrites_output_value :
    extranonceSize Sample.crates Sample.legacyPrefix = .ok 8 ∧
    reconstructCoinbase Sample.crates Sample.legacyPrefix Sample.legacySuffix =
      .ok (Sample.legacyCoinbase 0) ∧
    reconstructCoinbaseWithExtranonce Sample.crates Sample.legacyPrefix
      (u64.encode 5000000000) Sample.legacySuffix = .ok (Sample.legacyCoinbase 5000000000) ∧
    ¬ SameButExtranonce (u64.encode 5000000000) (Sample.legacyCoinbase 0)
      (Sample.legacyCoinbase 5000000000) := by
  refine ⟨by decide +kernel, by decide +kernel, by decide +kernel, fun hsame => ?_⟩
  have hout : (Sample.legacyCoinbase 5000000000).output = (Sample.legacyCoinbase 0).output :=
    hsame.output
  revert hout
  decide

end Sv2P2pool
