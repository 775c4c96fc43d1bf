import Sv2P2pool.Framework.Normalization
import Sv2P2pool.Runs

/-! # User Identifiers

    The Job Declarator Server normalizes an identifier with NFKC and then trims
    ASCII whitespace. The engine repeats both steps in the other order, so a
    compatibility space at an end of the identifier is replaced by an ASCII
    space after the trimming, and stays in the key.
-/

namespace Sv2P2pool

open Bitcoin Interleave Normalization

section

variable (cr : Crates)

/-- The normalization of the upstream handler. -/
def upstreamNormalize (userIdentifier : String) : String := trimAscii (cr.nfkc userIdentifier)

/-- The `nfkc` of the crate is a normalizer for which ASCII whitespace is
    inert, and normalizes once and for all. -/
structure UnicodeNfkc (n : Normalizer isAsciiWhitespace) : Prop where
  nfkc_eq : ∀ s, cr.nfkc s = String.ofList (n.normalize s.toList)
  idempotent : ∀ s, cr.nfkc (cr.nfkc s) = cr.nfkc s

/-- The key of an identifier is normalized: normalizing it again changes
    nothing, no ASCII whitespace is at its ends, and an identifier that NFKC
    turns into whitespace is rejected as empty. -/
structure Canonical (s : String) : Prop where
  fixed : normalizeIdentifier cr (normalizeIdentifier cr s) = normalizeIdentifier cr s
  bare : Bare isAsciiWhitespace (normalizeIdentifier cr s).toList
  rejected : upstreamNormalize cr s = "" → ∀ resolver token maxSize,
    handleAllocateMiningJobToken cr resolver token s maxSize = pure none

/-- While a token of the first identifier is live, the guard refuses the second
    identifier every other token. -/
def Guards (s s' : String) : Prop :=
  ∀ (env : Env) (e : Engine) (token token' : JdToken) resolver maxSize,
    e.userIdentifierIndex.lookup (normalizeIdentifier cr s) = some token → token' ≠ token →
    (run env.oracle (handleAllocateMiningJobToken cr resolver token' s' maxSize) e).1 = none

end

/-- What the first and the last character of the trimmed identifier are
    replaced by does not begin or end with ASCII whitespace. -/
def EdgesStay (n : Normalizer isAsciiWhitespace) (s : String) : Prop :=
  (∀ c, (trimAscii s).toList.head? = some c →
    (n.decompose c).head?.any isAsciiWhitespace = false) ∧
  (∀ c, (trimAscii s).toList.getLast? = some c →
    (n.decompose c).getLast?.any isAsciiWhitespace = false)

section

variable {cr : Crates} {n : Normalizer isAsciiWhitespace} {s s' : String}

theorem toList_trimAscii (s : String) :
    (trimAscii s).toList = trim isAsciiWhitespace s.toList := String.toList_ofList

theorem trimAscii_of_bare (h : Bare isAsciiWhitespace s.toList) : trimAscii s = s := by
  have htrim := trim_of_bare h
  rw [← toList_trimAscii] at htrim
  exact String.toList_inj.mp htrim

/-- Trimming twice is trimming after NFKC. -/
theorem upstreamNormalize_eq (hn : UnicodeNfkc cr n) (s : String) :
    upstreamNormalize cr s = trimAscii (normalizeIdentifier cr s) := by
  apply String.toList_inj.mp
  rw [upstreamNormalize, normalizeIdentifier, toList_trimAscii, toList_trimAscii, hn.nfkc_eq,
    hn.nfkc_eq, String.toList_ofList, String.toList_ofList, toList_trimAscii]
  exact n.trim_normalize s.toList

/-- The key is trimmed exactly when the ends of the identifier stay. -/
theorem bare_key_iff (hn : UnicodeNfkc cr n) (s : String) :
    Bare isAsciiWhitespace (normalizeIdentifier cr s).toList ↔ EdgesStay n s := by
  rw [normalizeIdentifier, hn.nfkc_eq, String.toList_ofList]
  exact n.bare_normalize_iff _

/-- A trimmed key is the one the upstream handler computes. -/
theorem key_eq_upstreamNormalize (hn : UnicodeNfkc cr n) (h : EdgesStay n s) :
    normalizeIdentifier cr s = upstreamNormalize cr s := by
  rw [upstreamNormalize_eq hn, trimAscii_of_bare ((bare_key_iff hn s).mpr h)]

theorem canonical_of_edgesStay (hn : UnicodeNfkc cr n) (h : EdgesStay n s) : Canonical cr s where
  fixed := by
    rw [normalizeIdentifier, trimAscii_of_bare ((bare_key_iff hn s).mpr h)]
    exact hn.idempotent _
  bare := (bare_key_iff hn s).mpr h
  rejected := by
    intro hempty resolver token maxSize
    rw [← key_eq_upstreamNormalize hn h] at hempty
    unfold handleAllocateMiningJobToken
    simp only [hempty]
    rfl

/-- One key is one user. -/
theorem guards_of_key_eq (h : normalizeIdentifier cr s = normalizeIdentifier cr s') :
    Guards cr s s' := by
  intro env e token token' resolver maxSize hbound hne
  have hrefused : e.allocation cr resolver token' s' maxSize = none := by
    rw [Option.eq_none_iff_forall_ne_some]
    intro bound hsome
    obtain ⟨user, script⟩ := bound
    obtain ⟨rfl, -, -, hguard, -⟩ := (allocation_eq_some cr).mp hsome
    rw [h] at hbound
    exact hne (hguard token hbound).symm
  rw [run_allocate, hrefused]

/-- Two identifiers are normalized as the upstream handler does, and treated
    as one user when it makes them equal, exactly when no character at their
    ends is replaced by one that trimming would have removed. -/
theorem identifiers_canonical_iff (hn : UnicodeNfkc cr n) (s s' : String) :
    (Canonical cr s ∧ Canonical cr s' ∧
      (upstreamNormalize cr s = upstreamNormalize cr s' → Guards cr s s')) ↔
    EdgesStay n s ∧ EdgesStay n s' := by
  constructor
  · intro h
    exact ⟨(bare_key_iff hn s).mp h.1.bare, (bare_key_iff hn s').mp h.2.1.bare⟩
  · intro h
    refine ⟨canonical_of_edgesStay hn h.1, canonical_of_edgesStay hn h.2, fun hupstream => ?_⟩
    rw [← key_eq_upstreamNormalize hn h.1, ← key_eq_upstreamNormalize hn h.2] at hupstream
    exact guards_of_key_eq hupstream

end

/-! ## A no-break space -/

namespace Sample

/-- The compatibility mappings of the no-break space and of the `fi` ligature. -/
def mapping (c : Char) : List Char :=
  if c = '\u00a0' then [' '] else if c = '\ufb01' then ['f', 'i'] else [c]

def normalizer : Normalizer isAsciiWhitespace where
  decompose := mapping
  compose := id
  decompose_inert c hc := by
    have hnbsp : c ≠ '\u00a0' := by
      intro heq
      subst heq
      exact absurd hc (by decide)
    have hfi : c ≠ '\ufb01' := by
      intro heq
      subst heq
      exact absurd hc (by decide)
    rw [mapping, if_neg hnbsp, if_neg hfi]
  decompose_ne_nil c := by
    unfold mapping
    split_ifs <;> simp
  compose_eq_nil _ := Iff.rfl
  compose_append _ _ _ _ := rfl
  compose_active _ h := h

def unicode : Crates := .wire fun s => String.ofList (normalizer.normalize s.toList)

theorem normalizer_idempotent (l : List Char) :
    normalizer.normalize (normalizer.normalize l) = normalizer.normalize l := by
  have hmapped : ∀ c, (mapping c).flatMap mapping = mapping c := by
    intro c
    by_cases hnbsp : c = '\u00a0'
    · subst hnbsp
      rfl
    · by_cases hfi : c = '\ufb01'
      · subst hfi
        rfl
      · simp [mapping, hnbsp, hfi]
  show (l.flatMap mapping).flatMap mapping = l.flatMap mapping
  rw [List.flatMap_assoc]
  simp only [hmapped]

theorem unicode_nfkc : UnicodeNfkc unicode normalizer := by
  have hnfkc : ∀ s, unicode.nfkc s = String.ofList (normalizer.normalize s.toList) :=
    fun _ => rfl
  refine ⟨hnfkc, fun s => ?_⟩
  rw [hnfkc, hnfkc, String.toList_ofList, normalizer_idempotent]

end Sample

/-- The identifier of the test is normalized as the upstream handler does. -/
theorem ligature_identifier_canonical :
    Canonical Sample.unicode "  \t\ufb01nal\n" ∧
    Guards Sample.unicode "  \t\ufb01nal\n" "final" := by
  have htrimmed : (trimAscii "  \t\ufb01nal\n").toList = ['\ufb01', 'n', 'a', 'l'] ∧
      (trimAscii "final").toList = ['f', 'i', 'n', 'a', 'l'] := by decide +kernel
  have hedges : EdgesStay Sample.normalizer "  \t\ufb01nal\n" ∧
      EdgesStay Sample.normalizer "final" := by
    unfold EdgesStay
    rw [htrimmed.1, htrimmed.2]
    simp
    decide
  obtain ⟨hcanonical, -, hguards⟩ := (identifiers_canonical_iff Sample.unicode_nfkc _ _).mpr hedges
  exact ⟨hcanonical, hguards (by decide +kernel)⟩

/-- A no-break space before a name stays in the key as a space: normalizing
    the key again removes it, the no-break space alone is not rejected, and the
    name with it gets a token next to the live one of the name without it. -/
theorem no_break_space_not_canonical :
    UnicodeNfkc Sample.unicode Sample.normalizer ∧
    normalizeIdentifier Sample.unicode "\u00a0bob" = " bob" ∧
    ¬ Canonical Sample.unicode "\u00a0bob" ∧
    upstreamNormalize Sample.unicode "\u00a0" = "" ∧
    normalizeIdentifier Sample.unicode "\u00a0" = " " ∧
    upstreamNormalize Sample.unicode "\u00a0bob" = upstreamNormalize Sample.unicode "bob" ∧
    ¬ Guards Sample.unicode "bob" "\u00a0bob" := by
  have hkeys : normalizeIdentifier Sample.unicode "\u00a0bob" = " bob" ∧
      normalizeIdentifier Sample.unicode " bob" = "bob" ∧
      upstreamNormalize Sample.unicode "\u00a0" = "" ∧
      normalizeIdentifier Sample.unicode "\u00a0" = " " ∧
      upstreamNormalize Sample.unicode "\u00a0bob" = upstreamNormalize Sample.unicode "bob" := by
    decide +kernel
  obtain ⟨hkey, hagain, hspace, hkept, hupstream⟩ := hkeys
  refine ⟨Sample.unicode_nfkc, hkey, fun h => ?_, hspace, hkept, hupstream, fun h => ?_⟩
  · have hfixed := h.fixed
    rw [hkey, hagain] at hfixed
    exact absurd hfixed (by decide +kernel)
  · let bound := (run Sample.online.oracle (handleAllocateMiningJobToken Sample.unicode
      (fun _ => some [5]) 3 "bob" 100) Engine.new).2
    have hbound : bound.userIdentifierIndex.lookup
        (normalizeIdentifier Sample.unicode "bob") = some 3 := by decide +kernel
    have hrefused := h Sample.online bound 3 4 (fun _ => some [5]) 100 hbound (by decide)
    exact absurd hrefused (by decide +kernel)

end Sv2P2pool
