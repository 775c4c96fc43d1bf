import Sv2P2pool.Framework.Codec

/-! # Bitcoin's CompactSize Integers

    The `VarInt` of Bitcoin's consensus serialization: one byte below 253,
    otherwise a marker byte followed by a 2-, 4- or 8-byte little-endian
    integer. The decoder rejects non-minimal spellings, so every integer has
    one encoding.
-/

namespace Bitcoin

open ByteCodec

/-- Shortest-form encoding of a 64-bit integer. -/
def encodeVarInt (n : Nat) : Bytes :=
  if n < 0xFD then [UInt8.ofNat n]
  else if n < 0x10000 then 0xFD :: encodeLE 2 n
  else if n < 0x100000000 then 0xFE :: encodeLE 4 n
  else 0xFF :: encodeLE 8 n

/-- `VarInt::size`: the number of bytes of the encoding. -/
def varIntSize (n : Nat) : Nat := (encodeVarInt n).length

/-- The payload of a marker: `w` bytes, rejected when a shorter form would
    have done. -/
def decodeMarked (w least : Nat) (bs : Bytes) : Option (Nat × Bytes) :=
  (decodeLE w bs).filter fun p => least ≤ p.1

/-- Read a CompactSize integer, rejecting non-minimal encodings. -/
def decodeVarInt : Bytes → Option (Nat × Bytes)
  | [] => none
  | b :: bs =>
    if b.toNat < 0xFD then some (b.toNat, bs)
    else if b.toNat = 0xFD then decodeMarked 2 0xFD bs
    else if b.toNat = 0xFE then decodeMarked 4 0x10000 bs
    else decodeMarked 8 0x100000000 bs

theorem decodeMarked_iff (w least : Nat) (bs : Bytes) (n : Nat) (rest : Bytes) :
    decodeMarked w least bs = some (n, rest) ↔
      (least ≤ n ∧ n < 256 ^ w) ∧ bs = encodeLE w n ++ rest := by
  simp only [decodeMarked, Option.filter_eq_some_iff, decodeLE_iff, decide_eq_true_eq]
  tauto

theorem toNat_ofNat_of_lt {n : Nat} (h : n < 256) : (UInt8.ofNat n).toNat = n := by
  rw [UInt8.toNat_ofNat']
  exact Nat.mod_eq_of_lt h

theorem decodeVarInt_encode {n : Nat} (hn : n < 2 ^ 64) (rest : Bytes) :
    decodeVarInt (encodeVarInt n ++ rest) = some (n, rest) := by
  unfold encodeVarInt
  split_ifs with h1 h2 h3
  · have hb : (UInt8.ofNat n).toNat = n := toNat_ofNat_of_lt (by omega)
    simp [decodeVarInt, hb, h1]
  · have hd := (decodeMarked_iff 2 0xFD (encodeLE 2 n ++ rest) n rest).mpr
      ⟨⟨by omega, by omega⟩, rfl⟩
    simp [decodeVarInt, hd]
  · have hd := (decodeMarked_iff 4 0x10000 (encodeLE 4 n ++ rest) n rest).mpr
      ⟨⟨by omega, by omega⟩, rfl⟩
    simp [decodeVarInt, hd]
  · have hd := (decodeMarked_iff 8 0x100000000 (encodeLE 8 n ++ rest) n rest).mpr
      ⟨⟨by omega, by omega⟩, rfl⟩
    simp [decodeVarInt, hd]

/-- A marked payload that was accepted is the encoding of its value, provided
    the marker is the one the encoder picks for that range. -/
theorem decodeMarked_sound {w least : Nat} {b : UInt8} {bs : Bytes} {n : Nat} {rest : Bytes}
    (hw : 256 ^ w ≤ 2 ^ 64)
    (henc : ∀ m, least ≤ m → m < 256 ^ w → encodeVarInt m = b :: encodeLE w m)
    (h : decodeMarked w least bs = some (n, rest)) :
    n < 2 ^ 64 ∧ b :: bs = encodeVarInt n ++ rest := by
  obtain ⟨⟨hlo, hhi⟩, rfl⟩ := (decodeMarked_iff _ _ _ _ _).mp h
  refine ⟨by omega, ?_⟩
  rw [henc n hlo hhi]
  rfl

theorem decodeVarInt_sound {bs : Bytes} {n : Nat} {rest : Bytes}
    (h : decodeVarInt bs = some (n, rest)) : n < 2 ^ 64 ∧ bs = encodeVarInt n ++ rest := by
  match bs, h with
  | b :: bs, h =>
    have hb256 : b.toNat < 256 := b.toNat_lt
    simp only [decodeVarInt] at h
    -- one case for each marker; the payload bound makes the encoder pick it again
    split_ifs at h with h1 h2 h3
    · simp only [Option.some.injEq, Prod.mk.injEq] at h
      obtain ⟨rfl, rfl⟩ := h
      refine ⟨by omega, ?_⟩
      simp [encodeVarInt, h1]
    · obtain rfl : b = 0xFD := UInt8.toNat_inj.mp h2
      refine decodeMarked_sound ?_ ?_ h
      · decide
      · intro m hlo hhi
        rw [encodeVarInt, if_neg (by omega), if_pos (by omega)]
    · obtain rfl : b = 0xFE := UInt8.toNat_inj.mp h3
      refine decodeMarked_sound ?_ ?_ h
      · decide
      · intro m hlo hhi
        rw [encodeVarInt, if_neg (by omega), if_neg (by omega), if_pos (by omega)]
    · obtain rfl : b = 0xFF := UInt8.toNat_inj.mp (by change b.toNat = 255; omega)
      refine decodeMarked_sound ?_ ?_ h
      · decide
      · intro m hlo hhi
        rw [encodeVarInt, if_neg (by omega), if_neg (by omega), if_neg (by omega)]

/-! ## The decoder's bound -/

/-- The largest integer that `rust-bitcoin` decodes, which is larger than any
    length in a message. -/
def maxCompactSize : Nat := 0x02000000

/-- The decoder as a caller sees it: a minimal encoding of a larger integer is
    an error, too. -/
def decodeBoundedVarInt (bs : Bytes) : Option (Nat × Bytes) :=
  (decodeVarInt bs).filter fun p => p.1 ≤ maxCompactSize

theorem maxCompactSize_lt : maxCompactSize < 2 ^ 64 := by decide

theorem decodeBoundedVarInt_iff (bs : Bytes) (n : Nat) (rest : Bytes) :
    decodeBoundedVarInt bs = some (n, rest) ↔
      n ≤ maxCompactSize ∧ bs = encodeVarInt n ++ rest := by
  simp only [decodeBoundedVarInt, Option.filter_eq_some_iff, decide_eq_true_eq]
  constructor
  · intro h
    exact ⟨h.2, (decodeVarInt_sound h.1).2⟩
  · intro h
    obtain ⟨hn, rfl⟩ := h
    exact ⟨decodeVarInt_encode (hn.trans_lt maxCompactSize_lt) rest, hn⟩

/-- CompactSize as a codec: valid for every 64-bit integer. -/
def varInt : Codec Nat where
  encode := encodeVarInt
  decode := decodeVarInt
  valid n := n < 2 ^ 64
  decode_iff := by
    intro bs n rest
    constructor
    · exact decodeVarInt_sound
    · intro h
      obtain ⟨hn, rfl⟩ := h
      exact decodeVarInt_encode hn rest

theorem encodeVarInt_length_pos (n : Nat) : 0 < (encodeVarInt n).length := by
  unfold encodeVarInt
  split_ifs <;> simp

end Bitcoin
