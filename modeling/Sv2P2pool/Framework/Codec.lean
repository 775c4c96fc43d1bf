import Mathlib.Data.List.Basic
import Mathlib.Algebra.BigOperators.Group.List.Basic
import Mathlib.Algebra.Order.BigOperators.Group.List
import Mathlib.Tactic.SplitIfs

/-! # Byte Codecs

    A codec is an encoder together with a decoder that reads one value from
    the front of a byte string and returns what it did not consume. The law
    `decode_iff` says the two agree in both directions: the decoder accepts
    exactly the encodings of valid values, so it rejects every other spelling
    of a value (a non-minimal integer, a truncated field).

    The combinators below carry the law along, so a format assembled from
    them is correct by construction.
-/

namespace ByteCodec

/-- Byte strings. -/
abbrev Bytes := List UInt8

/-- An encoder and a front-of-the-string decoder that agree. -/
structure Codec (α : Type) where
  /-- Write a value. -/
  encode : α → Bytes
  /-- Read a value from the front; the second component is the unread rest. -/
  decode : Bytes → Option (α × Bytes)
  /-- The values the format can represent. -/
  valid : α → Prop
  /-- The decoder accepts exactly the encodings of valid values. -/
  decode_iff : ∀ bs a rest, decode bs = some (a, rest) ↔ valid a ∧ bs = encode a ++ rest

namespace Codec

variable {α β : Type}

/-- Encoding a valid value and decoding it again gives the value back, with
    whatever followed it left unread. -/
theorem decode_encode (c : Codec α) {a : α} (h : c.valid a) (rest : Bytes) :
    c.decode (c.encode a ++ rest) = some (a, rest) :=
  (c.decode_iff _ _ _).mpr ⟨h, rfl⟩

/-- Unique decodability: two valid encodings at the front of the same byte
    string are encodings of the same value. -/
theorem encode_append_inj (c : Codec α) {a b : α} {r s : Bytes}
    (ha : c.valid a) (hb : c.valid b) (h : c.encode a ++ r = c.encode b ++ s) :
    a = b ∧ r = s := by
  have h1 := c.decode_encode ha r
  rw [h, c.decode_encode hb s] at h1
  simp only [Option.some.injEq, Prod.mk.injEq] at h1
  exact ⟨h1.1.symm, h1.2.symm⟩

/-! ### Combinators -/

/-- Two codecs one after the other. -/
def pair (c : Codec α) (d : Codec β) : Codec (α × β) where
  encode p := c.encode p.1 ++ d.encode p.2
  decode bs := do
    let (a, r) ← c.decode bs
    let (b, s) ← d.decode r
    some ((a, b), s)
  valid p := c.valid p.1 ∧ d.valid p.2
  decode_iff := by
    intro bs p rest
    obtain ⟨a, b⟩ := p
    constructor
    · intro h
      simp only [Option.bind_eq_bind, Option.bind_eq_some_iff, Option.some.injEq,
        Prod.mk.injEq, Prod.exists] at h
      obtain ⟨a', r, hc, b', s, hd, ⟨rfl, rfl⟩, rfl⟩ := h
      obtain ⟨hva, rfl⟩ := (c.decode_iff _ _ _).mp hc
      obtain ⟨hvb, rfl⟩ := (d.decode_iff _ _ _).mp hd
      exact ⟨⟨hva, hvb⟩, by simp⟩
    · intro h
      obtain ⟨⟨hva, hvb⟩, rfl⟩ := h
      simp [List.append_assoc, c.decode_encode hva, d.decode_encode hvb]

/-- Read the values of `c` through a change of representation. Values of `β`
    that `f` does not produce are not valid. -/
def map (c : Codec α) (f : α → β) (g : β → α) (hgf : ∀ a, c.valid a → g (f a) = a) :
    Codec β where
  encode b := c.encode (g b)
  decode bs := (c.decode bs).map fun p => (f p.1, p.2)
  valid b := c.valid (g b) ∧ f (g b) = b
  decode_iff := by
    intro bs b rest
    constructor
    · intro h
      simp only [Option.map_eq_some_iff, Prod.mk.injEq, Prod.exists] at h
      obtain ⟨a, r, hd, rfl, rfl⟩ := h
      obtain ⟨hva, rfl⟩ := (c.decode_iff _ _ _).mp hd
      rw [hgf a hva]
      exact ⟨⟨hva, rfl⟩, rfl⟩
    · intro h
      obtain ⟨⟨hv, hfg⟩, rfl⟩ := h
      simp [c.decode_encode hv, hfg]

/-- Exactly `n` raw bytes. -/
def raw (n : Nat) : Codec Bytes where
  encode bs := bs
  decode bs := if n ≤ bs.length then some (bs.take n, bs.drop n) else none
  valid bs := bs.length = n
  decode_iff := by
    intro bs a rest
    constructor
    · intro h
      split_ifs at h with hn
      simp only [Option.some.injEq, Prod.mk.injEq] at h
      obtain ⟨rfl, rfl⟩ := h
      exact ⟨by simp [hn], by simp⟩
    · intro h
      obtain ⟨rfl, rfl⟩ := h
      simp

/-- Encode a list of values one after the other. -/
def encodeAll (c : Codec α) (l : List α) : Bytes := (l.map c.encode).flatten

@[simp] theorem encodeAll_nil (c : Codec α) : c.encodeAll [] = [] := rfl

@[simp] theorem encodeAll_cons (c : Codec α) (a : α) (l : List α) :
    c.encodeAll (a :: l) = c.encode a ++ c.encodeAll l := rfl

theorem length_le_encodeAll (c : Codec α) (hpos : ∀ a, 0 < (c.encode a).length) (l : List α) :
    l.length ≤ (c.encodeAll l).length := by
  induction l with
  | nil => simp
  | cons a l ih =>
    have ha := hpos a
    simp only [encodeAll_cons, List.length_cons, List.length_append]
    omega

theorem encode_length_le_encodeAll (c : Codec α) {a : α} {l : List α} (h : a ∈ l) :
    (c.encode a).length ≤ (c.encodeAll l).length := by
  induction l with
  | nil => simp at h
  | cons b l ih =>
    simp only [encodeAll_cons, List.length_append]
    rcases List.mem_cons.mp h with rfl | h
    · omega
    · have := ih h
      omega

/-- Decode exactly `n` values. -/
def decodeTimes (c : Codec α) : Nat → Bytes → Option (List α × Bytes)
  | 0, bs => some ([], bs)
  | n + 1, bs => do
    let (a, r) ← c.decode bs
    let (l, s) ← decodeTimes c n r
    some (a :: l, s)

theorem decodeTimes_iff (c : Codec α) (n : Nat) : ∀ bs l rest,
    c.decodeTimes n bs = some (l, rest) ↔
      (l.length = n ∧ ∀ a ∈ l, c.valid a) ∧ bs = c.encodeAll l ++ rest := by
  induction n with
  | zero =>
    intro bs l rest
    simp only [decodeTimes, Option.some.injEq, Prod.mk.injEq, List.length_eq_zero_iff]
    constructor
    · intro h
      obtain ⟨rfl, rfl⟩ := h
      simp
    · intro h
      obtain ⟨⟨rfl, _⟩, rfl⟩ := h
      simp
  | succ n ih =>
    intro bs l rest
    constructor
    · intro h
      simp only [decodeTimes, Option.bind_eq_bind, Option.bind_eq_some_iff, Option.some.injEq,
        Prod.mk.injEq, Prod.exists] at h
      obtain ⟨a, r, hd, l', s, hl, rfl, rfl⟩ := h
      obtain ⟨hva, rfl⟩ := (c.decode_iff _ _ _).mp hd
      obtain ⟨⟨hlen, hval⟩, rfl⟩ := (ih _ _ _).mp hl
      refine ⟨⟨by simp [hlen], ?_⟩, by simp⟩
      intro b hb
      rcases List.mem_cons.mp hb with rfl | hb
      · exact hva
      · exact hval b hb
    · intro h
      obtain ⟨⟨hlen, hval⟩, rfl⟩ := h
      match l, hlen with
      | a :: l, hlen =>
        have hva : c.valid a := hval a (by simp)
        have hl := (ih (c.encodeAll l ++ rest) l rest).mpr
          ⟨⟨by simpa using hlen, fun b hb => hval b (by simp [hb])⟩, rfl⟩
        simp [decodeTimes, List.append_assoc, c.decode_encode hva, hl]

/-- Exactly `n` values of `c`. -/
def times (n : Nat) (c : Codec α) : Codec (List α) where
  encode := c.encodeAll
  decode := c.decodeTimes n
  valid l := l.length = n ∧ ∀ a ∈ l, c.valid a
  decode_iff := c.decodeTimes_iff n

/-- A value whose format depends on the one read before it, written by a
    function `len` of itself: a length-prefixed field. -/
def counted (count : Codec Nat) (body : Nat → Codec α) (len : α → Nat)
    (hlen : ∀ n a, (body n).valid a → len a = n) : Codec α where
  encode a := count.encode (len a) ++ (body (len a)).encode a
  decode bs := do
    let (n, r) ← count.decode bs
    (body n).decode r
  valid a := count.valid (len a) ∧ (body (len a)).valid a
  decode_iff := by
    intro bs a rest
    constructor
    · intro h
      simp only [Option.bind_eq_bind, Option.bind_eq_some_iff, Prod.exists] at h
      obtain ⟨n, r, hn, hb⟩ := h
      obtain ⟨hvn, rfl⟩ := (count.decode_iff _ _ _).mp hn
      obtain ⟨hva, rfl⟩ := ((body n).decode_iff _ _ _).mp hb
      obtain rfl := hlen n a hva
      exact ⟨⟨hvn, hva⟩, by simp⟩
    · intro h
      obtain ⟨⟨hvn, hva⟩, rfl⟩ := h
      simp [List.append_assoc, count.decode_encode hvn, (body (len a)).decode_encode hva]

end Codec

/-! ## Little-endian integers -/

/-- The `w` low bytes of `n`, least significant first. -/
def encodeLE : Nat → Nat → Bytes
  | 0, _ => []
  | w + 1, n => UInt8.ofNat n :: encodeLE w (n / 256)

/-- Read `w` bytes as a little-endian integer. -/
def decodeLE : Nat → Bytes → Option (Nat × Bytes)
  | 0, bs => some (0, bs)
  | _ + 1, [] => none
  | w + 1, b :: bs => (decodeLE w bs).map fun p => (b.toNat + 256 * p.1, p.2)

@[simp] theorem encodeLE_length (w n : Nat) : (encodeLE w n).length = w := by
  induction w generalizing n with
  | zero => rfl
  | succ w ih => simp [encodeLE, ih]

theorem decodeLE_iff (w : Nat) : ∀ bs n rest,
    decodeLE w bs = some (n, rest) ↔ n < 256 ^ w ∧ bs = encodeLE w n ++ rest := by
  induction w with
  | zero =>
    intro bs n rest
    simp only [decodeLE, encodeLE, Option.some.injEq, Prod.mk.injEq, pow_zero, Nat.lt_one_iff,
      List.nil_append]
    constructor
    · intro h
      obtain ⟨rfl, rfl⟩ := h
      simp
    · intro h
      obtain ⟨rfl, rfl⟩ := h
      simp
  | succ w ih =>
    intro bs n rest
    constructor
    · intro h
      match bs, h with
      | b :: bs, h =>
        simp only [decodeLE, Option.map_eq_some_iff, Prod.mk.injEq, Prod.exists] at h
        obtain ⟨m, r, hd, rfl, rfl⟩ := h
        obtain ⟨hm, rfl⟩ := (ih _ _ _).mp hd
        have hb : b.toNat < 256 := b.toNat_lt
        -- the first byte is the remainder, the rest the quotient
        have hdiv : (b.toNat + 256 * m) / 256 = m := by omega
        have hbyte : UInt8.ofNat (b.toNat + 256 * m) = b := by
          apply UInt8.toNat_inj.mp
          rw [UInt8.toNat_ofNat']
          omega
        refine ⟨?_, by simp [encodeLE, hdiv, hbyte]⟩
        rw [pow_succ]
        omega
    · intro h
      obtain ⟨hn, rfl⟩ := h
      have hdiv : n / 256 < 256 ^ w := by
        rw [pow_succ] at hn
        omega
      have hd := (ih (encodeLE w (n / 256) ++ rest) (n / 256) rest).mpr ⟨hdiv, rfl⟩
      simp only [encodeLE, List.cons_append, decodeLE, hd, Option.map_some, Option.some.injEq,
        Prod.mk.injEq, and_true]
      rw [UInt8.toNat_ofNat']
      omega

/-- `w`-byte little-endian naturals. -/
def leNat (w : Nat) : Codec Nat where
  encode := encodeLE w
  decode := decodeLE w
  valid n := n < 256 ^ w
  decode_iff := decodeLE_iff w

end ByteCodec
