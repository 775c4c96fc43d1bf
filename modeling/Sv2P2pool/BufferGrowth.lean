import Sv2P2pool.CoinbaseLayout

/-! # The Buffer of `reconstruct_coinbase`

    The hole of a declared coinbase is as large as the client's `VarInt` says,
    and the zeros that fill it are allocated before anything is decoded. A
    `Vec` never holds more than `isize::MAX` bytes: growing it further panics.
    Here `reconstruct_coinbase` is followed allocation by allocation, with
    `none` for the panic. It does not check the size itself: what keeps the
    buffer small is that the decoder of the `VarInt` refuses large integers.
-/

namespace Sv2P2pool

open ByteCodec Bitcoin

/-- `isize::MAX` on a 64-bit target. -/
def isizeMax : Nat := 2 ^ 63 - 1

/-- The longest `B064K`. -/
def maxB064K : Nat := 65535

/-- `Vec::reserve` on a buffer of `len` bytes; `none` is "capacity overflow". -/
def reserve (len additional : Nat) : Option Unit :=
  if len + additional ≤ isizeMax then some () else none

/-- The buffer `prefix + zeros + suffix`, grown in two steps. -/
def declaredCoinbaseTx (coinbaseTxPrefix : Bytes) (fullExtranonceSize : Nat)
    (coinbaseTxSuffix : Bytes) : Option Bytes := do
  reserve coinbaseTxPrefix.length fullExtranonceSize
  let declared := coinbaseTxPrefix ++ List.replicate fullExtranonceSize 0
  reserve declared.length coinbaseTxSuffix.length
  return declared ++ coinbaseTxSuffix

/-- `reconstruct_coinbase` with its allocations; `none` is a panic. -/
def reconstructCoinbaseAlloc (cr : Crates) (coinbaseTxPrefix coinbaseTxSuffix : Bytes) :
    Option (Except CoinbaseReconstructError Transaction) :=
  match extranonceSize cr coinbaseTxPrefix with
  | .error e => some (.error e)
  | .ok fullExtranonceSize =>
    (declaredCoinbaseTx coinbaseTxPrefix fullExtranonceSize coinbaseTxSuffix).map fun declared =>
      match cr.consensusDecode declared with
      | some tx => .ok tx
      | none => .error .decode

section

variable {cr : Crates} {p x : Bytes} {size : Nat}

theorem declaredCoinbaseTx_eq (p x : Bytes) (size : Nat) :
    declaredCoinbaseTx p size x =
      if p.length + size + x.length ≤ isizeMax then some (p ++ List.replicate size 0 ++ x)
      else none := by
  unfold declaredCoinbaseTx reserve
  by_cases hfit : p.length + size + x.length ≤ isizeMax
  · have hhole : p.length + size ≤ isizeMax := by omega
    simp [hfit, hhole]
  · by_cases hhole : p.length + size ≤ isizeMax
    · simp [hfit, hhole]
    · simp [hfit, hhole]

/-- Where it returns, it returns what the unbounded buffer gives. -/
theorem reconstructCoinbaseAlloc_eq {result : Except CoinbaseReconstructError Transaction}
    (h : reconstructCoinbaseAlloc cr p x = some result) : result = reconstructCoinbase cr p x := by
  unfold reconstructCoinbaseAlloc at h
  unfold reconstructCoinbase
  cases hsize : extranonceSize cr p with
  | error e =>
    rw [hsize] at h
    exact (Option.some.inj h).symm
  | ok size =>
    simp only [hsize, declaredCoinbaseTx_eq] at h
    by_cases hfit : p.length + size + x.length ≤ isizeMax
    · rw [if_pos hfit] at h
      exact (Option.some.inj h).symm
    · rw [if_neg hfit] at h
      cases h

/-- Only the size of the buffer can make it panic. -/
theorem reconstructCoinbaseAlloc_returns :
    (∃ result, reconstructCoinbaseAlloc cr p x = some result) ↔
      ∀ size, extranonceSize cr p = .ok size → p.length + size + x.length ≤ isizeMax := by
  unfold reconstructCoinbaseAlloc
  cases hsize : extranonceSize cr p with
  | error e => simp
  | ok size =>
    simp only [declaredCoinbaseTx_eq, Except.ok.injEq, forall_eq']
    by_cases hfit : p.length + size + x.length ≤ isizeMax
    · simp [hfit]
    · simp [hfit]

theorem varIntSize_le (n : Nat) : varIntSize n ≤ 9 := by
  unfold varIntSize encodeVarInt
  split_ifs <;> simp [encodeLE_length]

/-- The buffer ends where the scriptSig ends, plus the suffix: the scriptSig
    bytes of the prefix cancel out. -/
theorem extranonceSize_buffer (h : extranonceSize cr p = .ok size) :
    ∃ v rest, cr.decodeVarInt (p.drop coinbasePrefixLen) = some (v, rest) ∧
      p.length + size = coinbasePrefixLen + varIntSize v + v := by
  obtain ⟨hlen, v, rest, hvar, hv⟩ := extranonceSize_ok h
  have hbytes := congrArg List.length ((cr.decodeVarInt_iff _ _ _).mp hvar).2
  simp only [List.length_drop, List.length_append] at hbytes
  refine ⟨v, rest, hvar, ?_⟩
  unfold coinbasePrefixLen varIntSize
  omega

/-- The decoded integer bounds the buffer: 43 bytes before it, at most 9 of its
    own, and the suffix. -/
theorem extranonceSize_le (h : extranonceSize cr p = .ok size) :
    p.length + size ≤ maxCompactSize + 52 := by
  obtain ⟨v, rest, hvar, hbuffer⟩ := extranonceSize_buffer h
  have hv := ((cr.decodeVarInt_iff _ _ _).mp hvar).1
  have hmarker := varIntSize_le v
  unfold coinbasePrefixLen at hbuffer
  omega

/-- `reconstruct_coinbase` always returns: for every prefix, and every suffix
    that a message holds, the buffer stays within `isize::MAX`. -/
theorem reconstruct_coinbase_returns (cr : Crates) (p : Bytes) (hx : x.length ≤ maxB064K) :
    reconstructCoinbaseAlloc cr p x = some (reconstructCoinbase cr p x) ∧
      ∀ size, extranonceSize cr p = .ok size → p.length + size + x.length ≤ isizeMax := by
  have hfit : ∀ size, extranonceSize cr p = .ok size →
      p.length + size + x.length ≤ isizeMax := by
    intro size hsize
    have hle := extranonceSize_le hsize
    unfold maxCompactSize at hle
    unfold maxB064K at hx
    unfold isizeMax
    omega
  refine ⟨?_, hfit⟩
  obtain ⟨result, hresult⟩ := reconstructCoinbaseAlloc_returns.mpr hfit
  rw [hresult, reconstructCoinbaseAlloc_eq hresult]

end

/-- 52 bytes from a client: the outpoint of a coinbase and the largest
    `VarInt` there is. -/
def Sample.endlessPrefix : Bytes :=
  [2, 0, 0, 0, 0, 1, 1] ++ List.replicate 32 0 ++ List.replicate 4 255 ++ List.replicate 9 255

/-- The sample coinbase is put together, and the endless one is refused. -/
theorem sample_coinbase_returns :
    (∃ tx, reconstructCoinbaseAlloc Sample.crates Sample.coinbaseTxPrefix
      (Sample.coinbaseTxSuffix [9]) = some (.ok tx)) ∧
    reconstructCoinbaseAlloc Sample.crates Sample.endlessPrefix [] =
      some (.error .badScriptSigVarInt) := by
  constructor
  · have hreturns := (reconstruct_coinbase_returns Sample.crates Sample.coinbaseTxPrefix
      (show (Sample.coinbaseTxSuffix [9]).length ≤ maxB064K by decide)).1
    refine ⟨Sample.coinbase [9] (List.replicate 4 0), hreturns.trans (congrArg some ?_)⟩
    decide +kernel
  · have hreturns := (reconstruct_coinbase_returns Sample.crates Sample.endlessPrefix
      (show ([] : Bytes).length ≤ maxB064K by decide)).1
    refine hreturns.trans (congrArg some ?_)
    decide +kernel

end Sv2P2pool
