import Sv2P2pool.CoinbaseLayout

/-! # Coinbase Bytes and Coinbase Transactions

    A JDC publishes bytes, the miners hash bytes, and the engine works on the
    transaction it decodes from them. In one direction, a BIP 144 coinbase
    that is cut anywhere in its scriptSig is put together again, whatever
    its size. In the other one, the decoder reads one transaction from the
    front and ignores what follows, so the bytes of an accepted coinbase need
    not be the serialization of what was accepted.
-/

namespace Sv2P2pool

open ByteCodec Bitcoin

/-! ## Cutting a coinbase -/

/-- The two published strings and the bytes between them. -/
structure CoinbaseCut where
  coinbaseTxPrefix : Bytes
  extranonce : Bytes
  coinbaseTxSuffix : Bytes

/-- `split_coinbase` of the engine's tests, with the bytes it leaves out: the
    cut is `extranonceBytes` before the end of a scriptSig that starts behind
    the BIP 144 layout's 43 bytes and the scriptSig length. -/
def splitCoinbase (tx : Transaction) (scriptSigLen extranonceBytes : Nat) : CoinbaseCut :=
  let serialized := tx.serialize
  let splitAt := coinbasePrefixLen + varIntSize scriptSigLen + (scriptSigLen - extranonceBytes)
  ⟨serialized.take splitAt, (serialized.drop splitAt).take extranonceBytes,
    serialized.drop (splitAt + extranonceBytes)⟩

/-- The transaction with another script in its only input. -/
def withScriptSig (tx : Transaction) (i : TxIn) (script : ScriptBuf) : Transaction :=
  { tx with input := [{ i with scriptSig := script }] }

/-- The last `k` bytes of a script zeroed. -/
def zeroLast (script : ScriptBuf) (k : Nat) : ScriptBuf :=
  script.take (script.length - k) ++ List.replicate k 0

section

variable {cr : Crates} {tx : Transaction} {i : TxIn} {before hole : Bytes}

theorem inputHead_length_bip144 (hw : i.witness ≠ []) :
    (inputHead i.witness tx.version i.previousOutput).length = coinbasePrefixLen := by
  rw [inputHead_length, if_neg (by simpa using hw)]
  rfl

/-- Where the cut falls. -/
theorem splitCoinbase_eq (hin : tx.input = [i]) (hw : i.witness ≠ [])
    (hscript : i.scriptSig = before ++ hole) :
    splitCoinbase tx i.scriptSig.length hole.length =
      ⟨inputHead i.witness tx.version i.previousOutput ++ encodeVarInt i.scriptSig.length ++ before,
        hole, inputTail i.witness i.sequence tx.output tx.lockTime⟩ := by
  have hser : tx.serialize = (inputHead i.witness tx.version i.previousOutput ++
      encodeVarInt i.scriptSig.length ++ before) ++
        (hole ++ inputTail i.witness i.sequence tx.output tx.lockTime) := by
    rw [serialize_single hin]
    nth_rewrite 2 [hscript]
    simp only [List.append_assoc]
  have hlen : i.scriptSig.length = before.length + hole.length := by
    rw [hscript, List.length_append]
  have hfront : (inputHead i.witness tx.version i.previousOutput ++
      encodeVarInt i.scriptSig.length ++ before).length =
        coinbasePrefixLen + varIntSize i.scriptSig.length +
          (i.scriptSig.length - hole.length) := by
    rw [List.length_append, List.length_append, inputHead_length_bip144 hw, varIntSize]
    omega
  unfold splitCoinbase
  simp only [hser, ← hfront]
  rw [List.take_left, List.drop_left, List.take_left, ← List.drop_drop, List.drop_left,
    List.drop_left]

/-- The implied size of the hole, from the layout of the prefix. -/
theorem extranonceSize_layout {head : Bytes} (hhead : head.length = coinbasePrefixLen) {n : Nat}
    (hn : n ≤ maxCompactSize) (hbefore : before.length ≤ n) :
    extranonceSize cr (head ++ encodeVarInt n ++ before) = .ok (n - before.length) := by
  have hlen : (head ++ encodeVarInt n ++ before).length =
      coinbasePrefixLen + varIntSize n + before.length := by
    rw [List.length_append, List.length_append, hhead, varIntSize]
  have hdrop : (head ++ encodeVarInt n ++ before).drop coinbasePrefixLen =
      encodeVarInt n ++ before := by
    rw [List.append_assoc, ← hhead, List.drop_left]
  unfold extranonceSize
  simp only [hdrop, cr.decodeVarInt_encode hn, hlen]
  rw [if_neg (by omega), if_neg (by omega), if_neg (by omega)]
  congr 1
  omega

/-- A scriptSig length that the decoder does not read. -/
theorem extranonceSize_large {head : Bytes} (hhead : head.length = coinbasePrefixLen) {n : Nat}
    (hlarge : maxCompactSize < n) (hn : n < 2 ^ 64) :
    extranonceSize cr (head ++ encodeVarInt n ++ before) = .error .badScriptSigVarInt := by
  have hdrop : (head ++ encodeVarInt n ++ before).drop coinbasePrefixLen =
      encodeVarInt n ++ before := by
    rw [List.append_assoc, ← hhead, List.drop_left]
  have hlen : coinbasePrefixLen ≤ (head ++ encodeVarInt n ++ before).length := by
    rw [List.length_append, List.length_append, hhead]
    omega
  unfold extranonceSize
  rw [if_neg (by omega), hdrop, cr.decodeVarInt_encode_of_large hlarge hn]

/-- A script of the old one's size changes the serialization in its place. -/
theorem serialize_withScriptSig {script : ScriptBuf} (hin : tx.input = [i])
    (hlen : script.length = i.scriptSig.length) :
    (withScriptSig tx i script).serialize = inputHead i.witness tx.version i.previousOutput ++
      encodeVarInt i.scriptSig.length ++ script ++
        inputTail i.witness i.sequence tx.output tx.lockTime ∧
    (withScriptSig tx i script).serialize.length = tx.serialize.length := by
  have hone : (withScriptSig tx i script).input = [{ i with scriptSig := script }] := rfl
  have hser := serialize_single hone
  rw [hlen] at hser
  refine ⟨hser, ?_⟩
  rw [hser, serialize_single hin]
  simp only [List.length_append, hlen]
  rfl

/-- Whatever fills the hole, the decoder gives back the transaction with those
    scriptSig bytes, within its size limit. -/
theorem decode_refilled (cr : Crates) (hin : tx.input = [i])
    (hscript : i.scriptSig = before ++ hole) {e : Bytes} (he : e.length = hole.length) :
    cr.consensusDecode (inputHead i.witness tx.version i.previousOutput ++
        encodeVarInt i.scriptSig.length ++ before ++ e ++
          inputTail i.witness i.sequence tx.output tx.lockTime) =
        some (withScriptSig tx i (before ++ e)) ↔ tx.serialize.length ≤ maxVecSize := by
  have hlen : (before ++ e).length = i.scriptSig.length := by
    rw [hscript, List.length_append, List.length_append, he]
  obtain ⟨hser, hsize⟩ := serialize_withScriptSig hin hlen
  rw [cr.consensusDecode_iff, hsize, hser]
  constructor
  · intro h
    exact h.1
  · intro hle
    exact ⟨hle, [], by simp only [List.append_assoc, List.append_nil]⟩

/-- The checks of both reconstruction functions find the hole again. -/
theorem extranonceSize_split (hw : i.witness ≠ []) (hn : i.scriptSig.length ≤ maxCompactSize)
    (hscript : i.scriptSig = before ++ hole) :
    extranonceSize cr (inputHead i.witness tx.version i.previousOutput ++
      encodeVarInt i.scriptSig.length ++ before) = .ok hole.length := by
  have hlen : i.scriptSig.length = before.length + hole.length := by
    rw [hscript, List.length_append]
  rw [extranonceSize_layout (inputHead_length_bip144 hw) hn (by omega)]
  congr 1
  omega

/-- A one-input BIP 144 transaction, cut anywhere in its scriptSig: the cut
    loses nothing, both functions put the parts together again exactly when the
    serialization is within the decoder's size limit, and an extranonce of
    another size is refused by its size; but where the scriptSig length is
    more than the decoder reads, every extranonce is refused for it. -/
theorem split_reconstruct (cr : Crates) (tx : Transaction) (i : TxIn) (k : Nat)
    (hin : tx.input = [i]) (hw : i.witness ≠ []) (hk : k ≤ i.scriptSig.length) :
    let cut := splitCoinbase tx i.scriptSig.length k
    (cut.coinbaseTxPrefix ++ cut.extranonce ++ cut.coinbaseTxSuffix = tx.serialize ∧
      cut.extranonce = i.scriptSig.drop (i.scriptSig.length - k)) ∧
    (reconstructCoinbaseWithExtranonce cr cut.coinbaseTxPrefix cut.extranonce
        cut.coinbaseTxSuffix = .ok tx ↔ tx.serialize.length ≤ maxVecSize) ∧
    (reconstructCoinbase cr cut.coinbaseTxPrefix cut.coinbaseTxSuffix =
        .ok (withScriptSig tx i (zeroLast i.scriptSig k)) ↔ tx.serialize.length ≤ maxVecSize) ∧
    (i.scriptSig.length ≤ maxCompactSize → ∀ e : Bytes, e.length ≠ k →
      reconstructCoinbaseWithExtranonce cr cut.coinbaseTxPrefix e cut.coinbaseTxSuffix =
        .error (.extranonceSizeMismatch k e.length)) ∧
    (maxCompactSize < i.scriptSig.length → i.scriptSig.length < 2 ^ 64 → ∀ e : Bytes,
      reconstructCoinbaseWithExtranonce cr cut.coinbaseTxPrefix e cut.coinbaseTxSuffix =
        .error .badScriptSigVarInt) := by
  intro cut
  -- the script as what stays in the prefix and what is cut out
  obtain ⟨before, hole, hscript, hlen, hbefore, hhole⟩ : ∃ before hole,
      i.scriptSig = before ++ hole ∧ hole.length = k ∧
      before = i.scriptSig.take (i.scriptSig.length - k) ∧
      hole = i.scriptSig.drop (i.scriptSig.length - k) := by
    refine ⟨_, _, (List.take_append_drop (i.scriptSig.length - k) _).symm, ?_, rfl, rfl⟩
    rw [List.length_drop]
    omega
  have hcut : cut = ⟨inputHead i.witness tx.version i.previousOutput ++
      encodeVarInt i.scriptSig.length ++ before, hole,
      inputTail i.witness i.sequence tx.output tx.lockTime⟩ := by
    rw [← splitCoinbase_eq hin hw hscript, hlen]
  have hlt : tx.serialize.length ≤ maxVecSize → i.scriptSig.length ≤ maxCompactSize :=
    scriptSig_length_le hin
  rw [hcut]
  refine ⟨⟨?_, hhole⟩, ?_, ?_, ?_, ?_⟩
  · rw [serialize_single hin, hscript]
    simp only [List.append_assoc]
  · -- the bytes that were cut out fill the hole
    have horig : withScriptSig tx i (before ++ hole) = tx := by
      rw [← hscript]
      cases tx
      cases hin
      rfl
    have hdec := decode_refilled cr hin hscript (e := hole) rfl
    rw [horig] at hdec
    rw [reconstructCoinbaseWithExtranonce_eq_ok, hdec]
    exact ⟨fun h => h.2, fun h => ⟨extranonceSize_split hw (hlt h) hscript, h⟩⟩
  · -- zeros fill it
    have hzeros : zeroLast i.scriptSig k = before ++ List.replicate k 0 := by
      rw [zeroLast, hbefore]
    have hfill : (List.replicate k (0 : UInt8)).length = hole.length := by
      rw [List.length_replicate, hlen]
    have hdec := decode_refilled cr hin hscript hfill
    have hsize : (withScriptSig tx i (before ++ List.replicate k 0)).serialize.length =
        tx.serialize.length := by
      refine (serialize_withScriptSig hin ?_).2
      rw [hscript, List.length_append, List.length_append, hfill]
    rw [reconstructCoinbase_eq_ok, hzeros]
    constructor
    · intro h
      obtain ⟨size, -, hsome⟩ := h
      rw [← hsize]
      exact ((cr.consensusDecode_iff _ _).mp hsome).1
    · intro h
      exact ⟨k, hlen ▸ extranonceSize_split hw (hlt h) hscript, hdec.mpr h⟩
  · intro hn e he
    unfold reconstructCoinbaseWithExtranonce
    simp only [extranonceSize_split hw hn hscript, hlen, if_pos he]
  · intro hlarge hn e
    unfold reconstructCoinbaseWithExtranonce
    simp only [extranonceSize_large (inputHead_length_bip144 hw) hlarge hn]

end

/-- A coinbase with the last four of its eight scriptSig bytes cut out. -/
theorem split_reconstruct_sample :
    let tx := Sample.coinbase [9] [1, 2, 3, 4]
    let cut := splitCoinbase tx 8 4
    reconstructCoinbaseWithExtranonce Sample.crates cut.coinbaseTxPrefix cut.extranonce
        cut.coinbaseTxSuffix = .ok tx ∧
      reconstructCoinbaseWithExtranonce Sample.crates cut.coinbaseTxPrefix [] cut.coinbaseTxSuffix =
        .error (.extranonceSizeMismatch 4 0) := by
  intro tx cut
  have hsplit := split_reconstruct Sample.crates tx _ 4 rfl (by decide) (by decide)
  have hle : tx.serialize.length ≤ maxVecSize := by decide +kernel
  exact ⟨hsplit.2.1.mpr hle, hsplit.2.2.2.1 (by decide) [] (by decide)⟩

/-- A coinbase with a scriptSig of four million bytes. -/
def Sample.hugeCoinbase : Transaction :=
  withScriptSig (Sample.coinbase [9] []) ⟨⟨U256.allZeros, 0xffffffff⟩, [], 0xffffffff, [[0]]⟩
    (List.replicate 4000000 0)

/-- It is more than the decoder reads at once, so it is not put together
    again. -/
theorem huge_coinbase_not_reconstructed :
    let tx := Sample.hugeCoinbase
    let cut := splitCoinbase tx 4000000 4
    (∃ i, tx.input = [i] ∧ i.witness ≠ [] ∧ i.scriptSig.length = 4000000) ∧
      reconstructCoinbaseWithExtranonce Sample.crates cut.coinbaseTxPrefix cut.extranonce
        cut.coinbaseTxSuffix ≠ .ok tx := by
  intro tx cut
  have hscript : (List.replicate 4000000 (0 : UInt8)).length = 4000000 := List.length_replicate
  refine ⟨⟨_, rfl, by simp, hscript⟩, fun hok => ?_⟩
  rw [reconstructCoinbaseWithExtranonce_eq_ok] at hok
  have hle : tx.serialize.length ≤ maxVecSize :=
    ((Sample.crates.consensusDecode_iff _ _).mp hok.2).1
  have hone : tx.input = [_] := rfl
  have hser := serialize_single hone
  have hlen := congrArg List.length hser
  simp only [List.length_append] at hlen
  rw [hscript] at hlen
  have hpos := encodeVarInt_length_pos 4000000
  have hmax : maxVecSize = 4000000 := rfl
  omega

/-! ## What follows the transaction -/

/-- The two strings a JDC publishes. -/
structure PublishedCoinbase where
  coinbaseTxPrefix : Bytes
  coinbaseTxSuffix : Bytes
  deriving DecidableEq

/-- The bytes the miners hash: the two strings with `e` between them. -/
def PublishedCoinbase.filled (d : PublishedCoinbase) (e : Bytes) : Bytes :=
  d.coinbaseTxPrefix ++ e ++ d.coinbaseTxSuffix

/-- The hole at the same place and of the same size. -/
def PublishedCoinbase.SameHole (cr : Crates) (d d' : PublishedCoinbase) : Prop :=
  d.coinbaseTxPrefix.length = d'.coinbaseTxPrefix.length ∧
    extranonceSize cr d.coinbaseTxPrefix = extranonceSize cr d'.coinbaseTxPrefix

/-- Among the fillings in `S`: what is accepted is the serialization of the
    accepted transaction, and the published strings can be read off it. -/
structure ReconstructsExactly (cr : Crates) (S : PublishedCoinbase → Bytes → Prop) : Prop where
  extranonce : ∀ d e tx, S d e →
    reconstructCoinbaseWithExtranonce cr d.coinbaseTxPrefix e d.coinbaseTxSuffix = .ok tx →
      tx.serialize = d.filled e
  zeros : ∀ d size tx, S d (List.replicate size 0) →
    extranonceSize cr d.coinbaseTxPrefix = .ok size →
    reconstructCoinbase cr d.coinbaseTxPrefix d.coinbaseTxSuffix = .ok tx →
      tx.serialize = d.filled (List.replicate size 0)
  injective : ∀ d d' e e' tx, S d e → S d' e' → d.SameHole cr d' →
    reconstructCoinbaseWithExtranonce cr d.coinbaseTxPrefix e d.coinbaseTxSuffix = .ok tx →
    reconstructCoinbaseWithExtranonce cr d'.coinbaseTxPrefix e' d'.coinbaseTxSuffix = .ok tx →
      d = d'

/-- The extranonce does not fit the hole, or no proper front of the filled
    bytes is a transaction. -/
def NothingFollows (cr : Crates) (d : PublishedCoinbase) (e : Bytes) : Prop :=
  extranonceSize cr d.coinbaseTxPrefix = .ok e.length →
    ∀ n, n < (d.filled e).length → cr.consensusDecode ((d.filled e).take n) = none

section

variable {cr : Crates} {d d' : PublishedCoinbase} {e e' : Bytes} {tx : Transaction}

/-- A slice that no shorter slice of the same start is a transaction of is
    read to its end. -/
theorem serialize_eq_of_shortest {bs : Bytes} (hdec : cr.consensusDecode bs = some tx)
    (hshort : ∀ n, n < bs.length → cr.consensusDecode (bs.take n) = none) :
    tx.serialize = bs := by
  obtain ⟨hle, rest, rfl⟩ := (cr.consensusDecode_iff _ _).mp hdec
  have hfront : cr.consensusDecode ((tx.serialize ++ rest).take tx.serialize.length) = some tx := by
    rw [List.take_left]
    simpa using cr.consensusDecode_serialize hle []
  -- a rest that is not empty leaves the serialization a shorter slice
  by_cases hrest : rest = []
  · simp [hrest]
  · have hlt : tx.serialize.length < (tx.serialize ++ rest).length := by
      have := List.length_pos_iff.mpr hrest
      rw [List.length_append]
      omega
    rw [hshort _ hlt] at hfront
    cases hfront

/-- Bytes behind a whole transaction are lost in the decoding. -/
theorem serialize_ne_of_take {bs : Bytes} {n : Nat} (hn : n < bs.length) {tx : Transaction}
    (hdec : cr.consensusDecode (bs.take n) = some tx) :
    cr.consensusDecode bs = some tx ∧ tx.serialize ≠ bs := by
  obtain ⟨hle, rest, htake⟩ := (cr.consensusDecode_iff _ _).mp hdec
  have hbs : bs = tx.serialize ++ (rest ++ bs.drop n) := by
    rw [← List.append_assoc, ← htake, List.take_append_drop]
  refine ⟨(cr.consensusDecode_iff _ _).mpr ⟨hle, _, hbs⟩, fun heq => ?_⟩
  have hlen := congrArg List.length htake
  rw [List.length_take, List.length_append, heq] at hlen
  omega

theorem NothingFollows.serialize_eq (h : NothingFollows cr d e)
    (hok : reconstructCoinbaseWithExtranonce cr d.coinbaseTxPrefix e d.coinbaseTxSuffix = .ok tx) :
    tx.serialize = d.filled e := by
  rw [reconstructCoinbaseWithExtranonce_eq_ok] at hok
  exact serialize_eq_of_shortest hok.2 (h hok.1)

/-- Two fillings of one size at one place have one result only if everything
    is the same. -/
theorem PublishedCoinbase.eq_of_filled
    (hlen : d.coinbaseTxPrefix.length = d'.coinbaseTxPrefix.length)
    (he : e.length = e'.length) (h : d.filled e = d'.filled e') : d = d' := by
  unfold PublishedCoinbase.filled at h
  obtain ⟨hfront, hsuffix⟩ := List.append_inj h (by simp [hlen, he])
  obtain ⟨hfirst, -⟩ := List.append_inj hfront hlen
  cases d
  cases d'
  simp_all

end

/-- Among any fillings of published strings, the accepted coinbases are exactly
    the bytes that were filled, and determine them, if and only if no filling
    goes on behind a whole transaction. -/
theorem reconstructs_exactly_iff (cr : Crates) (S : PublishedCoinbase → Bytes → Prop) :
    ReconstructsExactly cr S ↔ ∀ d e, S d e → NothingFollows cr d e := by
  constructor
  · intro h d e hS hsize n hn
    cases hdec : cr.consensusDecode ((d.filled e).take n) with
    | none => rfl
    | some tx =>
      obtain ⟨hwhole, hne⟩ := serialize_ne_of_take hn hdec
      have hok := reconstructCoinbaseWithExtranonce_eq_ok.mpr ⟨hsize, hwhole⟩
      exact absurd (h.extranonce d e tx hS hok) hne
  · intro h
    refine ⟨fun d e tx hS hok => (h d e hS).serialize_eq hok, fun d size tx hS hsize hok => ?_,
      fun d d' e e' tx hS hS' hhole hok hok' => ?_⟩
    · rw [reconstructCoinbase_eq_ok] at hok
      obtain ⟨size', hsize', hdec⟩ := hok
      rw [hsize] at hsize'
      cases hsize'
      apply (h d _ hS).serialize_eq
      rw [reconstructCoinbaseWithExtranonce_eq_ok, List.length_replicate]
      exact ⟨hsize, hdec⟩
    · have hfilled : d.filled e = d'.filled e' :=
        ((h d e hS).serialize_eq hok).symm.trans ((h d' e' hS').serialize_eq hok')
      rw [reconstructCoinbaseWithExtranonce_eq_ok] at hok hok'
      have hsize := hok.1.symm.trans (hhole.2.trans hok'.1)
      exact PublishedCoinbase.eq_of_filled hhole.1 (Except.ok.inj hsize) hfilled

/-- The published strings of a sample coinbase, with bytes added at the end. -/
def Sample.published (more : Bytes) : PublishedCoinbase :=
  ⟨Sample.coinbaseTxPrefix, Sample.coinbaseTxSuffix [9] ++ more⟩

/-- One more byte at the end of the suffix: the same transaction is accepted,
    and the miners hash other bytes. -/
theorem trailing_byte_accepted :
    let tx := Sample.coinbase [9] [0, 0, 0, 0]
    reconstructCoinbase Sample.crates Sample.coinbaseTxPrefix (Sample.coinbaseTxSuffix [9]) =
        .ok tx ∧
      reconstructCoinbase Sample.crates Sample.coinbaseTxPrefix
        (Sample.coinbaseTxSuffix [9] ++ [0]) = .ok tx ∧
      tx.serialize ≠ (Sample.published [0]).filled [0, 0, 0, 0] ∧
      ¬ ReconstructsExactly Sample.crates fun _ _ => True := by
  intro tx
  have hne : tx.serialize ≠ (Sample.published [0]).filled [0, 0, 0, 0] := by decide +kernel
  have hok : reconstructCoinbase Sample.crates Sample.coinbaseTxPrefix
      (Sample.coinbaseTxSuffix [9] ++ [0]) = .ok tx := by decide +kernel
  exact ⟨by decide +kernel, hok, hne, fun h =>
    hne (h.zeros (Sample.published [0]) 4 tx trivial (by decide +kernel) hok)⟩

end Sv2P2pool
