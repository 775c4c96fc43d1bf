import Sv2P2pool.Bitcoin.CompactSize

/-! # Bitcoin Transactions and their Consensus Serialization

    The transaction data type and the two wire layouts Bitcoin uses for it:
    the legacy one, and the extended one of BIP 144 with a marker, a flag and
    the input witnesses. A transaction has exactly one serialization: the
    extended layout when some input carries a witness (or there is no input
    at all, to keep the two layouts apart), the legacy one otherwise.

    `decodeTransaction` reads one transaction from the front of a byte string
    and ignores what follows; `decodeTransaction_iff` says it accepts exactly
    the serializations.
-/

namespace Bitcoin

open ByteCodec

/-! ## Data types -/

/-- 32 bytes: hashes, ids and SV2's `U256`. -/
structure U256 where
  bytes : Bytes
  length_eq : bytes.length = 32
  deriving DecidableEq

/-- `[b; 32]`. -/
def U256.fill (b : UInt8) : U256 := ⟨List.replicate 32 b, List.length_replicate⟩

/-- `BlockHash::all_zeros()`. -/
def U256.allZeros : U256 := U256.fill 0

abbrev BlockHash := U256
abbrev Txid := U256
abbrev Wtxid := U256
abbrev TxMerkleNode := U256
abbrev ScriptBuf := Bytes

structure OutPoint where
  txid : Txid
  vout : UInt32
  deriving DecidableEq

structure TxIn where
  previousOutput : OutPoint
  scriptSig : ScriptBuf
  sequence : UInt32
  /-- The witness stack, empty for a non-segwit input. -/
  witness : List Bytes
  deriving DecidableEq

structure TxOut where
  /-- `Amount`, in satoshi. -/
  value : UInt64
  scriptPubkey : ScriptBuf
  deriving DecidableEq

structure Transaction where
  version : Int32
  lockTime : UInt32
  input : List TxIn
  output : List TxOut
  deriving DecidableEq

structure Header where
  version : Int32
  prevBlockhash : BlockHash
  merkleRoot : TxMerkleNode
  time : UInt32
  bits : UInt32
  nonce : UInt32
  deriving DecidableEq

structure Block where
  header : Header
  txdata : List Transaction
  deriving DecidableEq

/-! ## Field codecs -/

def u32 : Codec UInt32 :=
  (leNat 4).map UInt32.ofNat UInt32.toNat fun n h => by
    rw [UInt32.toNat_ofNat']
    exact Nat.mod_eq_of_lt h

def u64 : Codec UInt64 :=
  (leNat 8).map UInt64.ofNat UInt64.toNat fun n h => by
    rw [UInt64.toNat_ofNat']
    exact Nat.mod_eq_of_lt h

def i32 : Codec Int32 := u32.map UInt32.toInt32 Int32.toUInt32 fun _ _ => rfl

def u256 : Codec U256 :=
  (Codec.raw 32).map (fun bs => if h : bs.length = 32 then ⟨bs, h⟩ else U256.allZeros)
    U256.bytes fun bs h => by
      have hlen : bs.length = 32 := h
      simp [hlen]

/-- A length-prefixed byte string: scripts and witness items. -/
def varBytes : Codec Bytes := Codec.counted varInt Codec.raw List.length fun _ _ h => h

/-- A length-prefixed list. -/
def vec {α : Type} (c : Codec α) : Codec (List α) :=
  Codec.counted varInt (fun n => c.times n) List.length fun _ _ h => h.1

@[simp] theorem u32_valid (x : UInt32) : u32.valid x :=
  ⟨x.toNat_lt, UInt32.ofNat_toNat⟩

@[simp] theorem u64_valid (x : UInt64) : u64.valid x :=
  ⟨x.toNat_lt, UInt64.ofNat_toNat⟩

@[simp] theorem i32_valid (x : Int32) : i32.valid x := ⟨u32_valid _, rfl⟩

@[simp] theorem u256_valid (x : U256) : u256.valid x :=
  ⟨x.length_eq, by simp [x.length_eq]⟩

@[simp] theorem u32_length (x : UInt32) : (u32.encode x).length = 4 :=
  encodeLE_length 4 _

@[simp] theorem i32_length (x : Int32) : (i32.encode x).length = 4 :=
  encodeLE_length 4 _

@[simp] theorem u64_length (x : UInt64) : (u64.encode x).length = 8 :=
  encodeLE_length 8 _

@[simp] theorem u256_length (x : U256) : (u256.encode x).length = 32 := x.length_eq

theorem varBytes_encode (bs : Bytes) : varBytes.encode bs = encodeVarInt bs.length ++ bs := rfl

theorem vec_encode {α : Type} (c : Codec α) (l : List α) :
    (vec c).encode l = encodeVarInt l.length ++ c.encodeAll l := rfl

def outPointCodec : Codec OutPoint :=
  (u256.pair u32).map (fun p => ⟨p.1, p.2⟩) (fun o => (o.txid, o.vout)) fun _ _ => rfl

/-- An input without its witness, which the wire format keeps elsewhere. -/
def txInCodec : Codec TxIn :=
  (outPointCodec.pair (varBytes.pair u32)).map
    (fun p => ⟨p.1, p.2.1, p.2.2, []⟩)
    (fun i => (i.previousOutput, i.scriptSig, i.sequence)) fun _ _ => rfl

def txOutCodec : Codec TxOut :=
  (u64.pair varBytes).map (fun p => ⟨p.1, p.2⟩) (fun o => (o.value, o.scriptPubkey)) fun _ _ => rfl

def witnessCodec : Codec (List Bytes) := vec varBytes

/-! ## Transactions -/

/-- `Transaction::uses_segwit_serialization`. -/
def Transaction.usesSegwit (tx : Transaction) : Bool :=
  tx.input.any (fun i => !i.witness.isEmpty) || tx.input.isEmpty

/-- Drop an input's witness. -/
def TxIn.strip (i : TxIn) : TxIn := { i with witness := [] }

/-- `bitcoin::consensus::serialize` for a transaction. -/
def Transaction.serialize (tx : Transaction) : Bytes :=
  if tx.usesSegwit then
    i32.encode tx.version ++ [0, 1] ++ (vec txInCodec).encode (tx.input.map TxIn.strip) ++
      (vec txOutCodec).encode tx.output ++ witnessCodec.encodeAll (tx.input.map TxIn.witness) ++
      u32.encode tx.lockTime
  else
    i32.encode tx.version ++ (vec txInCodec).encode (tx.input.map TxIn.strip) ++
      (vec txOutCodec).encode tx.output ++ u32.encode tx.lockTime

/-- Put witness stacks on the inputs they belong to. -/
def withWitnesses (input : List TxIn) (ws : List (List Bytes)) : List TxIn :=
  List.zipWith (fun i w => { i with witness := w }) input ws

/-- The rest of the extended layout, after the marker and the flag. -/
def decodeSegwitBody (version : Int32) (bs : Bytes) : Option (Transaction × Bytes) := do
  let (input, r) ← (vec txInCodec).decode bs
  let (output, r) ← (vec txOutCodec).decode r
  let (ws, r) ← (witnessCodec.times input.length).decode r
  -- "witness flag set but no witnesses present"
  if !input.isEmpty && ws.all List.isEmpty then none
  else
    let (lockTime, r) ← u32.decode r
    some (⟨version, lockTime, withWitnesses input ws, output⟩, r)

/-- Read one transaction. An empty input list is the marker of the extended
    layout, so the flag byte after it must be `1`. -/
def decodeTransaction (bs : Bytes) : Option (Transaction × Bytes) := do
  let (version, r) ← i32.decode bs
  let (input, r) ← (vec txInCodec).decode r
  -- the marker byte 0 reads as an empty input list
  match input with
  | [] =>
    match r with
    | 1 :: r => decodeSegwitBody version r
    | _ => none
  | _ :: _ =>
    let (output, r) ← (vec txOutCodec).decode r
    let (lockTime, r) ← u32.decode r
    some (⟨version, lockTime, input, output⟩, r)

/-! ## The decoder accepts exactly the serializations -/

/-- Every count and length of the transaction fits its CompactSize field. -/
def Transaction.Fits (tx : Transaction) : Prop :=
  (vec txInCodec).valid (tx.input.map TxIn.strip) ∧ (vec txOutCodec).valid tx.output ∧
    ∀ i ∈ tx.input, witnessCodec.valid i.witness

theorem vec_encode_nil {α : Type} (c : Codec α) : (vec c).encode [] = [0] := rfl

theorem vec_valid_nil {α : Type} (c : Codec α) : (vec c).valid [] := by
  refine ⟨?_, rfl, by simp⟩
  show (0 : Nat) < 2 ^ 64
  decide

/-- What the input codec reads carries no witness. -/
theorem strip_eq_of_valid {i : TxIn} (h : txInCodec.valid i) : i.strip = i := h.2

theorem map_strip_of_valid {l : List TxIn} (h : (vec txInCodec).valid l) :
    l.map TxIn.strip = l := by
  conv_rhs => rw [← List.map_id l]
  exact List.map_congr_left fun i hi => strip_eq_of_valid (h.2.2 i hi)

theorem map_witness_withWitnesses {l : List TxIn} {ws : List (List Bytes)}
    (h : ws.length = l.length) : (withWitnesses l ws).map TxIn.witness = ws := by
  induction l generalizing ws with
  | nil => simp [withWitnesses, List.length_eq_zero_iff.mp h]
  | cons i l ih =>
    match ws, h with
    | w :: ws, h =>
      have hlen : ws.length = l.length := by simpa using h
      have ih' := ih hlen
      simp only [withWitnesses] at ih'
      simp [withWitnesses, ih']

theorem map_strip_withWitnesses {l : List TxIn} {ws : List (List Bytes)}
    (h : ws.length = l.length) : (withWitnesses l ws).map TxIn.strip = l.map TxIn.strip := by
  induction l generalizing ws with
  | nil => simp [withWitnesses]
  | cons i l ih =>
    match ws, h with
    | w :: ws, h =>
      have hlen : ws.length = l.length := by simpa using h
      have ih' := ih hlen
      simp only [withWitnesses] at ih'
      simp [withWitnesses, ih', TxIn.strip]

theorem withWitnesses_strip (l : List TxIn) :
    withWitnesses (l.map TxIn.strip) (l.map TxIn.witness) = l := by
  induction l with
  | nil => rfl
  | cons i l ih =>
    simp only [withWitnesses] at ih
    simp [withWitnesses, ih, TxIn.strip]

theorem usesSegwit_iff (tx : Transaction) :
    tx.usesSegwit = true ↔ tx.input = [] ∨ ∃ i ∈ tx.input, i.witness ≠ [] := by
  simp [Transaction.usesSegwit, or_comm]

/-- The witness-flag check of the decoder, read off the finished transaction. -/
theorem usesSegwit_withWitnesses {l : List TxIn} {ws : List (List Bytes)} (v : Int32) (lt : UInt32)
    (out : List TxOut) (h : ws.length = l.length) :
    (⟨v, lt, withWitnesses l ws, out⟩ : Transaction).usesSegwit =
      !(!l.isEmpty && ws.all List.isEmpty) := by
  have hw : (withWitnesses l ws).any (fun i => !i.witness.isEmpty) =
      ws.any fun w => !w.isEmpty := by
    rw [← map_witness_withWitnesses h, List.any_map]
    simp only [map_witness_withWitnesses h]
    rfl
  have he : (withWitnesses l ws).isEmpty = l.isEmpty := by
    rw [← List.isEmpty_map (f := TxIn.strip), map_strip_withWitnesses h, List.isEmpty_map]
  simp only [Transaction.usesSegwit, hw, he, Bool.not_and, Bool.not_not, List.not_all_eq_any_not]
  rw [Bool.or_comm]

theorem decodeSegwitBody_iff (v : Int32) (bs : Bytes) (tx : Transaction) (rest : Bytes) :
    decodeSegwitBody v bs = some (tx, rest) ↔
      (tx.Fits ∧ tx.usesSegwit = true ∧ tx.version = v) ∧
      bs = (vec txInCodec).encode (tx.input.map TxIn.strip) ++ (vec txOutCodec).encode tx.output ++
        witnessCodec.encodeAll (tx.input.map TxIn.witness) ++ u32.encode tx.lockTime ++ rest := by
  constructor
  · intro h
    simp only [decodeSegwitBody, Option.bind_eq_bind, Option.bind_eq_some_iff, Prod.exists] at h
    obtain ⟨input, r1, hin, output, r2, hout, ws, r3, hws, h⟩ := h
    split_ifs at h with hflag
    simp only [Option.bind_eq_some_iff, Prod.exists, Option.some.injEq, Prod.mk.injEq] at h
    obtain ⟨lt, r4, hlt, rfl, rfl⟩ := h
    obtain ⟨hvin, rfl⟩ := ((vec txInCodec).decode_iff _ _ _).mp hin
    obtain ⟨hvout, rfl⟩ := ((vec txOutCodec).decode_iff _ _ _).mp hout
    obtain ⟨⟨hlen, hvws⟩, rfl⟩ := (witnessCodec.decodeTimes_iff _ _ _ _).mp hws
    obtain ⟨-, rfl⟩ := (u32.decode_iff _ _ _).mp hlt
    -- decoded inputs carry no witness, so stripping gives them back
    have hstrip : (withWitnesses input ws).map TxIn.strip = input := by
      rw [map_strip_withWitnesses hlen, map_strip_of_valid hvin]
    refine ⟨⟨⟨by rw [hstrip]; exact hvin, hvout, ?_⟩, ?_, rfl⟩, ?_⟩
    · intro i hi
      apply hvws
      rw [← map_witness_withWitnesses hlen]
      exact List.mem_map_of_mem hi
    · rw [usesSegwit_withWitnesses v lt output hlen, Bool.not_eq_true', ← Bool.not_eq_true]
      exact hflag
    · simp only [hstrip, map_witness_withWitnesses hlen, List.append_assoc]
  · intro h
    obtain ⟨⟨⟨hvin, hvout, hvw⟩, hseg, rfl⟩, rfl⟩ := h
    have hlen : (tx.input.map TxIn.witness).length = (tx.input.map TxIn.strip).length := by simp
    -- one witness stack for each input, read back in order
    have hws := (witnessCodec.decodeTimes_iff (tx.input.map TxIn.strip).length
      (witnessCodec.encodeAll (tx.input.map TxIn.witness) ++ (u32.encode tx.lockTime ++ rest))
      (tx.input.map TxIn.witness) (u32.encode tx.lockTime ++ rest)).mpr
        ⟨⟨hlen, by simpa using hvw⟩, rfl⟩
    have hflag := usesSegwit_withWitnesses tx.version tx.lockTime tx.output hlen
    rw [withWitnesses_strip, hseg] at hflag
    simp only [decodeSegwitBody, List.append_assoc, (vec txInCodec).decode_encode hvin,
      (vec txOutCodec).decode_encode hvout, Option.bind_eq_bind, Option.bind_some, Codec.times,
      hws, u32.decode_encode (u32_valid tx.lockTime), withWitnesses_strip]
    rw [if_neg]
    rw [Bool.not_eq_true, ← Bool.not_eq_true']
    exact hflag.symm

theorem decodeTransaction_iff (bs : Bytes) (tx : Transaction) (rest : Bytes) :
    decodeTransaction bs = some (tx, rest) ↔ tx.Fits ∧ bs = tx.serialize ++ rest := by
  constructor
  · intro h
    simp only [decodeTransaction, Option.bind_eq_bind, Option.bind_eq_some_iff, Prod.exists] at h
    obtain ⟨v, r1, hv, input, r2, hin, h⟩ := h
    obtain ⟨-, rfl⟩ := (i32.decode_iff _ _ _).mp hv
    obtain ⟨hvin, rfl⟩ := ((vec txInCodec).decode_iff _ _ _).mp hin
    cases input with
    | nil =>
      cases r2 with
      | nil => simp at h
      | cons b r =>
        by_cases hb : b = 1
        · subst hb
          obtain ⟨⟨hfits, hseg, rfl⟩, rfl⟩ := (decodeSegwitBody_iff _ _ _ _).mp h
          refine ⟨hfits, ?_⟩
          simp [Transaction.serialize, hseg, vec_encode_nil]
        · simp only at h
          split at h
          · next heq => exact absurd (List.cons.inj heq).1 hb
          · simp at h
    | cons i is =>
      simp only [Option.bind_eq_some_iff, Prod.exists, Option.some.injEq, Prod.mk.injEq] at h
      obtain ⟨output, r3, hout, lt, r4, hlt, rfl, rfl⟩ := h
      obtain ⟨hvout, rfl⟩ := ((vec txOutCodec).decode_iff _ _ _).mp hout
      obtain ⟨-, rfl⟩ := (u32.decode_iff _ _ _).mp hlt
      have hstrip := map_strip_of_valid hvin
      -- legacy layout: the input codec leaves every witness empty
      have hwit : ∀ j ∈ i :: is, j.witness = [] := by
        intro j hj
        have := strip_eq_of_valid (hvin.2.2 j hj)
        rw [← this]
        rfl
      have hseg : (⟨v, lt, i :: is, output⟩ : Transaction).usesSegwit = false := by
        rw [Bool.eq_false_iff, ne_eq, usesSegwit_iff]
        intro h
        rcases h with h | ⟨j, hj, hne⟩
        · simp at h
        · exact hne (hwit j hj)
      refine ⟨⟨by rw [hstrip]; exact hvin, hvout, ?_⟩, ?_⟩
      · intro j hj
        rw [hwit j hj]
        exact vec_valid_nil _
      · simp [Transaction.serialize, hseg, hstrip]
  · intro h
    obtain ⟨hfits, rfl⟩ := h
    by_cases hseg : tx.usesSegwit = true
    -- extended layout: the empty input list is the marker
    · have hbody := (decodeSegwitBody_iff tx.version _ tx rest).mpr ⟨⟨hfits, hseg, rfl⟩, rfl⟩
      have hmark : ∀ r, (vec txInCodec).decode (0 :: r) = some ([], r) := fun r =>
        ((vec txInCodec).decode_iff _ _ _).mpr ⟨vec_valid_nil _, rfl⟩
      simp only [List.append_assoc] at hbody
      simp [decodeTransaction, Transaction.serialize, hseg, i32.decode_encode, hmark, hbody]
    · have hseg' := hseg
      rw [usesSegwit_iff, not_or] at hseg'
      obtain ⟨hne, hwit⟩ := hseg'
      push Not at hwit
      have hstrip : tx.input.map TxIn.strip = tx.input := by
        conv_rhs => rw [← List.map_id tx.input]
        refine List.map_congr_left fun i hi => ?_
        have := hwit i hi
        cases i
        simp_all [TxIn.strip]
      have hvin := hfits.1
      rw [hstrip] at hvin
      -- legacy layout: at least one input, so the decoder takes the second branch
      obtain ⟨i, is, his⟩ := List.exists_cons_of_ne_nil hne
      simp only [decodeTransaction, Transaction.serialize, hseg, hstrip, List.append_assoc,
        i32.decode_encode (i32_valid tx.version), (vec txInCodec).decode_encode hvin,
        Option.bind_eq_bind, Option.bind_some, Bool.false_eq_true, if_false]
      rw [his]
      simp only [(vec txOutCodec).decode_encode hfits.2.1, Option.bind_some,
        u32.decode_encode (u32_valid tx.lockTime)]
      rw [← his]

/-! ## Decoding a slice

    `Transaction::consensus_decode` on a slice reads through a reader that
    stops after `MAX_VEC_SIZE` bytes, and ignores what follows the
    transaction. The size limit also bounds every count and length, so no
    further condition is left. -/

/-- `MAX_VEC_SIZE`: how many bytes one `consensus_decode` may read. -/
def maxVecSize : Nat := 4000000

def consensusDecode (bs : Bytes) : Option Transaction :=
  (decodeTransaction (bs.take maxVecSize)).map Prod.fst

theorem vec_valid_of_length {α : Type} {c : Codec α} {l : List α}
    (hpos : ∀ a, 0 < (c.encode a).length) (hval : ∀ a ∈ l, c.valid a)
    (hlen : (c.encodeAll l).length < 2 ^ 64) : (vec c).valid l := by
  refine ⟨?_, rfl, hval⟩
  show l.length < 2 ^ 64
  have := c.length_le_encodeAll hpos l
  omega

theorem varBytes_length (bs : Bytes) :
    (varBytes.encode bs).length = varIntSize bs.length + bs.length := by
  simp [varBytes_encode, varIntSize]

theorem varBytes_valid_of_length {bs : Bytes} (h : (varBytes.encode bs).length < 2 ^ 64) :
    varBytes.valid bs := by
  rw [varBytes_length] at h
  exact ⟨show bs.length < 2 ^ 64 by omega, rfl⟩

theorem txInCodec_encode (i : TxIn) :
    txInCodec.encode i = u256.encode i.previousOutput.txid ++ u32.encode i.previousOutput.vout ++
      (varBytes.encode i.scriptSig ++ u32.encode i.sequence) := rfl

theorem txOutCodec_encode (o : TxOut) :
    txOutCodec.encode o = u64.encode o.value ++ varBytes.encode o.scriptPubkey := rfl

theorem txInCodec_valid_strip {i : TxIn} (h : (txInCodec.encode i.strip).length < 2 ^ 64) :
    txInCodec.valid i.strip := by
  have hs : varBytes.valid i.scriptSig := by
    apply varBytes_valid_of_length
    simp only [txInCodec_encode, TxIn.strip, List.length_append] at h
    omega
  exact ⟨⟨⟨⟨u256_valid _, u32_valid _⟩, rfl⟩, hs, u32_valid _⟩, rfl⟩

theorem txOutCodec_valid {o : TxOut} (h : (txOutCodec.encode o).length < 2 ^ 64) :
    txOutCodec.valid o := by
  have hs : varBytes.valid o.scriptPubkey := by
    apply varBytes_valid_of_length
    simp only [txOutCodec_encode, List.length_append] at h
    omega
  exact ⟨⟨u64_valid _, hs⟩, rfl⟩

theorem varBytes_length_pos (bs : Bytes) : 0 < (varBytes.encode bs).length := by
  have := encodeVarInt_length_pos bs.length
  rw [varBytes_length, varIntSize]
  omega

theorem witnessCodec_valid {w : List Bytes} (h : (witnessCodec.encode w).length < 2 ^ 64) :
    witnessCodec.valid w := by
  have hall : (varBytes.encodeAll w).length < 2 ^ 64 := by
    simp only [witnessCodec, vec_encode, List.length_append] at h
    omega
  refine vec_valid_of_length varBytes_length_pos (fun b hb => ?_) hall
  exact varBytes_valid_of_length
    (lt_of_le_of_lt (varBytes.encode_length_le_encodeAll hb) hall)

/-- The parts of a transaction are no longer than its serialization. -/
theorem serialize_length_parts (tx : Transaction) :
    (txInCodec.encodeAll (tx.input.map TxIn.strip)).length ≤ tx.serialize.length ∧
    (txOutCodec.encodeAll tx.output).length ≤ tx.serialize.length ∧
    ∀ i ∈ tx.input, i.witness ≠ [] →
      (witnessCodec.encode i.witness).length ≤ tx.serialize.length := by
  refine ⟨?_, ?_, ?_⟩
  · unfold Transaction.serialize
    split_ifs <;> simp only [vec_encode, List.length_append] <;> omega
  · unfold Transaction.serialize
    split_ifs <;> simp only [vec_encode, List.length_append] <;> omega
  · intro i hi hne
    have hseg : tx.usesSegwit = true := (usesSegwit_iff tx).mpr (Or.inr ⟨i, hi, hne⟩)
    have hw := witnessCodec.encode_length_le_encodeAll
      (List.mem_map_of_mem (f := TxIn.witness) hi)
    simp only [Transaction.serialize, hseg, if_true, List.length_append]
    omega

theorem fits_of_serialize_length {tx : Transaction} (h : tx.serialize.length < 2 ^ 64) :
    tx.Fits := by
  obtain ⟨hin, hout, hwit⟩ := serialize_length_parts tx
  refine ⟨?_, ?_, ?_⟩
  · refine vec_valid_of_length (fun i => ?_) (fun i hi => ?_) (lt_of_le_of_lt hin h)
    · simp only [txInCodec_encode, List.length_append, u256_length]
      omega
    · obtain ⟨j, -, rfl⟩ := List.mem_map.mp hi
      exact txInCodec_valid_strip (lt_of_le_of_lt
        (le_trans (txInCodec.encode_length_le_encodeAll hi) hin) h)
  · refine vec_valid_of_length (fun o => ?_) (fun o ho => ?_) (lt_of_le_of_lt hout h)
    · simp only [txOutCodec_encode, List.length_append, u64_length]
      omega
    · exact txOutCodec_valid (lt_of_le_of_lt
        (le_trans (txOutCodec.encode_length_le_encodeAll ho) hout) h)
  · intro i hi
    by_cases hne : i.witness = []
    · rw [hne]
      exact vec_valid_nil _
    · exact witnessCodec_valid (lt_of_le_of_lt (hwit i hi hne) h)

/-- `consensus_decode` accepts a slice exactly when it starts with the
    serialization of a transaction within the size limit. -/
theorem consensusDecode_iff (bs : Bytes) (tx : Transaction) :
    consensusDecode bs = some tx ↔
      tx.serialize.length ≤ maxVecSize ∧ ∃ rest, bs = tx.serialize ++ rest := by
  simp only [consensusDecode, Option.map_eq_some_iff, Prod.exists, exists_and_right,
    exists_eq_right, decodeTransaction_iff]
  constructor
  · intro h
    obtain ⟨r, -, htake⟩ := h
    have hlen : (bs.take maxVecSize).length = tx.serialize.length + r.length := by
      rw [htake, List.length_append]
    have hle : (bs.take maxVecSize).length ≤ maxVecSize := List.length_take_le _ _
    -- what the reader did not see is part of the ignored rest
    refine ⟨by omega, r ++ bs.drop maxVecSize, ?_⟩
    rw [← List.append_assoc, ← htake, List.take_append_drop]
  · intro h
    obtain ⟨hle, rest, rfl⟩ := h
    have hfits : tx.Fits := fits_of_serialize_length (lt_of_le_of_lt hle (by decide))
    exact ⟨rest.take (maxVecSize - tx.serialize.length), hfits,
      by rw [List.take_append, List.take_of_length_le hle]⟩

end Bitcoin
