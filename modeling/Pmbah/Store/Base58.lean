import Pmbah.Library.Positional
import Pmbah.Store.ShortSignature

/-!
# Bytes from base 58

The value of an encoding, read as digits of the alphabet, is the value of the bytes, with
or without the digits for leading zero bytes.  With their number the value gives the bytes.
-/

namespace Pmbah.Store

open Js Format Library

/-- Where a unit stands in the alphabet. -/
def base58Index (unit : UInt16) : Nat := base58Alphabet.idxOf unit

def bytesValue (bytes : List UInt8) : Nat := positional 256 (bytes.map UInt8.toNat)

def base58Value (text : JsString) : Nat := positional 58 (text.map base58Index)

theorem base58Index_digit {remainder : Nat} (h : remainder < 58) :
    base58Index (base58Digit remainder) = remainder := by
  have hall : ∀ remainder : Fin 58, base58Index (base58Digit remainder) = remainder := by
    decide
  exact hall ⟨remainder, h⟩

theorem base58Index_lt {unit : UInt16} (h : unit ∈ base58Alphabet) : base58Index unit < 58 :=
  List.idxOf_lt_length_of_mem h

theorem foldl_bytes (bytes : List UInt8) :
    bytes.foldl (fun value byte => value * 256 + byte.toNat) 0 = bytesValue bytes := by
  rw [bytesValue, positional, List.foldl_map]

/-- Equally many bytes of the same value are the same bytes. -/
theorem bytesValue_injective {bytes others : List UInt8} (hlength : bytes.length = others.length)
    (h : bytesValue bytes = bytesValue others) : bytes = others := by
  have hsmall : ∀ bytes : List UInt8, ∀ digit ∈ bytes.map UInt8.toNat, digit < 256 := by
    intro bytes digit hdigit
    obtain ⟨byte, -, rfl⟩ := List.mem_map.1 hdigit
    exact byte.toNat_lt
  have hmap : bytes.map UInt8.toNat = others.map UInt8.toNat := by
    apply Positional.injective (by omega) _ (hsmall bytes) (hsmall others) h
    rw [List.length_map, List.length_map, hlength]
  exact List.map_injective_iff.2 (fun _ _ => UInt8.toNat_inj.1) hmap

/-- The digits of the encoding, and a lone zero for no bytes. -/
theorem map_base58Encode (bytes : List UInt8) :
    ∃ zeros, (base58Encode bytes).map base58Index =
      List.replicate zeros 0 ++ (Nat.digits 58 (bytesValue bytes)).reverse := by
  have hzero : base58Index (base58Digit 0) = 0 := base58Index_digit (by omega)
  have hdigits : ((Nat.digits 58 (bytesValue bytes)).map base58Digit).reverse.map base58Index =
      (Nat.digits 58 (bytesValue bytes)).reverse := by
    rw [← List.map_reverse, List.map_map]
    apply (List.map_congr_left fun digit hdigit => ?_).trans (List.map_id _)
    exact base58Index_digit (Nat.digits_lt_base (by omega) (List.mem_reverse.1 hdigit))
  simp only [base58Encode, foldl_bytes]
  split
  · rename_i hempty
    rw [List.isEmpty_iff, List.append_eq_nil_iff, List.reverse_eq_nil_iff,
      List.map_eq_nil_iff] at hempty
    refine ⟨1, ?_⟩
    rw [hempty.2, List.map_singleton, hzero]
    rfl
  · refine ⟨(bytes.takeWhile (· = 0)).length, ?_⟩
    rw [List.map_append, List.map_replicate, hzero, hdigits]

theorem base58Value_encode (bytes : List UInt8) :
    base58Value (base58Encode bytes) = bytesValue bytes := by
  obtain ⟨zeros, hdigits⟩ := map_base58Encode bytes
  rw [base58Value, hdigits, Positional.digits]

theorem base58Encode_injective {bytes others : List UInt8}
    (hlength : bytes.length = others.length) (h : base58Encode bytes = base58Encode others) :
    bytes = others := by
  apply bytesValue_injective hlength
  rw [← base58Value_encode, h, base58Value_encode]

/-! ## Full-length candidates -/

/-- The encodings that the candidates of a record are cut from. -/
def candidateSources (recordHash : B3Hash) : List JsString :=
  [base58Encode recordHash.bytes, js "X" ++ base58Encode recordHash.bytes]

/-- The candidates are the prefixes of the sources, from the shortest length on. -/
theorem signatureCandidates_eq (initialLength : Nat) (recordHash : B3Hash) :
    signatureCandidates initialLength recordHash =
      (candidateSources recordHash).flatMap fun source =>
        (List.range' initialLength (source.length + 1 - initialLength)).map source.take := rfl

theorem bytesValue_lt (bytes : List UInt8) : bytesValue bytes < 256 ^ bytes.length := by
  rw [bytesValue, ← List.length_map (f := UInt8.toNat)]
  apply Positional.lt_pow (by omega)
  intro digit hdigit
  obtain ⟨byte, -, rfl⟩ := List.mem_map.1 hdigit
  exact byte.toNat_lt

theorem base58Value_lt {text : JsString} (h : InAlphabet text) :
    base58Value text < 58 ^ text.length := by
  rw [base58Value, ← List.length_map (f := base58Index)]
  apply Positional.lt_pow (by omega)
  intro digit hdigit
  obtain ⟨unit, hunit, rfl⟩ := List.mem_map.1 hdigit
  exact base58Index_lt (h unit hunit)

/-- A hash that begins with no zero byte takes more than 42 digits. -/
theorem lt_length_base58Encode {recordHash : B3Hash} (h : recordHash.bytes.head? ≠ some 0) :
    42 < (base58Encode recordHash.bytes).length := by
  have hlarge : 256 ^ 31 ≤ bytesValue recordHash.bytes := by
    obtain ⟨bytes, hlength⟩ := recordHash
    cases bytes with
    | nil => cases hlength
    | cons first bytes =>
        have hrest : bytes.length = 31 := Nat.succ_injective hlength
        have hfirst : 1 ≤ first.toNat := by
          by_contra hzero
          have hzero : first.toNat = 0 := by omega
          exact h (congrArg some (UInt8.toNat_inj.1 hzero))
        have hvalue : positional 256 ([first.toNat] ++ bytes.map UInt8.toNat) = _ :=
          Positional.append _ _
        rw [List.length_map, hrest] at hvalue
        have hone : positional 256 [first.toNat] = first.toNat := by simp [positional]
        calc 256 ^ 31 = 1 * 256 ^ 31 := (Nat.one_mul _).symm
          _ ≤ first.toNat * 256 ^ 31 := Nat.mul_le_mul_right _ hfirst
          _ ≤ bytesValue (first :: bytes) := by
            show _ ≤ positional 256 ([first.toNat] ++ bytes.map UInt8.toNat)
            rw [hvalue, hone]
            exact Nat.le_add_right _ _
  by_contra hshort
  have hsmall := base58Value_lt (base58Encode_inAlphabet recordHash.bytes)
  have hpow : 58 ^ (base58Encode recordHash.bytes).length ≤ 58 ^ 42 :=
    Nat.pow_le_pow_right (by omega) (Nat.le_of_not_lt hshort)
  rw [base58Value_encode] at hsmall
  have hfits : 58 ^ 42 ≤ 256 ^ 31 := by norm_num
  exact absurd (hlarge.trans_lt hsmall) (not_lt.2 (hpow.trans hfits))

/-- The mark before an encoding makes it too large for a hash, unless a zero byte has made
the encoding short. -/
theorem marked_ne {recordHash : B3Hash} (h : recordHash.bytes.head? ≠ some 0) (other : B3Hash) :
    js "X" ++ base58Encode recordHash.bytes ≠ base58Encode other.bytes := by
  intro heq
  have hlength := lt_length_base58Encode h
  have hvalue := bytesValue_lt other.bytes
  rw [← base58Value_encode, ← heq, other.length_eq, base58Value, List.map_append,
    Positional.append, List.length_map] at hvalue
  have hmark : positional 58 ((js "X").map base58Index) = 30 := by decide
  rw [hmark] at hvalue
  have hpow : 58 ^ 43 ≤ 58 ^ (base58Encode recordHash.bytes).length :=
    Nat.pow_le_pow_right (by omega) hlength
  have hfits : 256 ^ 32 < 30 * 58 ^ 43 := by norm_num
  omega

theorem base58Encode_ne {recordHash other : B3Hash} (hne : recordHash ≠ other) :
    base58Encode recordHash.bytes ≠ base58Encode other.bytes := by
  intro heq
  have hbytes := base58Encode_injective (recordHash.length_eq.trans other.length_eq.symm) heq
  cases recordHash
  cases other
  cases hbytes
  exact hne rfl

theorem mem_candidateSources {recordHash : B3Hash} {source : JsString} :
    source ∈ candidateSources recordHash ↔
      source = base58Encode recordHash.bytes ∨ source = js "X" ++ base58Encode recordHash.bytes := by
  rw [candidateSources, List.mem_cons, List.mem_singleton]

/-- The sources of two hashes differ, each from the one of its form. -/
theorem candidateSources_ne {recordHash other : B3Hash} (hne : recordHash ≠ other) {form : Nat}
    {source : JsString} (hsource : (candidateSources recordHash)[form]? = some source) :
    (candidateSources other)[form]? ≠ some source := by
  intro hother
  match form with
  | 0 =>
      cases hsource
      exact base58Encode_ne hne (Option.some.inj hother).symm
  | 1 =>
      cases hsource
      exact base58Encode_ne hne (List.append_cancel_left (Option.some.inj hother)).symm
  | form + 2 => cases hsource

/-- Two hashes that begin with no zero byte have no source in common. -/
theorem candidateSources_disjoint {recordHash other : B3Hash} (hne : recordHash ≠ other)
    (hrecord : recordHash.bytes.head? ≠ some 0) (hother : other.bytes.head? ≠ some 0)
    {source : JsString} (hsource : source ∈ candidateSources recordHash) :
    source ∉ candidateSources other := by
  intro hmem
  rcases mem_candidateSources.1 hsource with rfl | rfl
  · rcases mem_candidateSources.1 hmem with heq | heq
    · exact base58Encode_ne hne heq
    · exact marked_ne hother recordHash heq.symm
  · rcases mem_candidateSources.1 hmem with heq | heq
    · exact marked_ne hrecord other heq
    · exact base58Encode_ne hne (List.append_cancel_left heq)

/-- Equally many bytes have different encodings.  So the sources that the candidates of two
hashes are cut from differ, each from the one of its form, and all of them unless a hash
begins with a zero byte. -/
theorem base58Encode_distinguishes :
    (∀ bytes others : List UInt8, bytes.length = others.length →
      base58Encode bytes = base58Encode others → bytes = others) ∧
    (∀ (initialLength : Nat) (recordHash : B3Hash),
      signatureCandidates initialLength recordHash =
        (candidateSources recordHash).flatMap fun source =>
          (List.range' initialLength (source.length + 1 - initialLength)).map source.take) ∧
    ∀ recordHash other : B3Hash, recordHash ≠ other →
      (∀ (form : Nat) (source : JsString), (candidateSources recordHash)[form]? = some source →
        (candidateSources other)[form]? ≠ some source) ∧
      (recordHash.bytes.head? ≠ some 0 → other.bytes.head? ≠ some 0 →
        ∀ source ∈ candidateSources recordHash, source ∉ candidateSources other) ∧
      (recordHash.bytes.head? ≠ some 0 →
        js "X" ++ base58Encode recordHash.bytes ≠ base58Encode other.bytes) := by
  refine ⟨fun bytes others hlength h => base58Encode_injective hlength h,
    signatureCandidates_eq, ?_⟩
  intro recordHash other hne
  refine ⟨fun form source hsource => candidateSources_ne hne hsource, ?_,
    fun h => marked_ne h other⟩
  intro hrecord hother source hsource
  exact candidateSources_disjoint hne hrecord hother hsource

def zeroByteHash : B3Hash := ⟨0 :: 1 :: List.replicate 30 0, rfl⟩

/-- The hash whose encoding is the one of `zeroByteHash` after the mark. -/
def markedHash : B3Hash :=
  ⟨[7, 176, 108, 157, 27, 51, 160, 233, 99, 98, 243, 254, 106, 219, 19, 148, 226, 98, 45, 100,
    159, 254, 110, 196, 18, 9, 56, 0, 0, 0, 0, 0], rfl⟩

theorem candidateSources_overlap :
    ¬ ∀ recordHash other : B3Hash, recordHash ≠ other →
      ∀ source ∈ candidateSources recordHash, source ∉ candidateSources other := by
  intro h
  have hmarked : js "X" ++ base58Encode zeroByteHash.bytes = base58Encode markedHash.bytes := by
    decide +kernel
  have hne : zeroByteHash ≠ markedHash := by decide
  apply h zeroByteHash markedHash hne (js "X" ++ base58Encode zeroByteHash.bytes)
  · exact List.mem_cons_of_mem _ List.mem_cons_self
  · rw [hmarked]
    exact List.mem_cons_self

/-- The marked encoding of a hash without a zero byte. -/
theorem base58Encode_distinguishes_marked :
    base58Encode [0, 1] ≠ base58Encode [1, 0] ∧
      js "X" ++ base58Encode markedHash.bytes ≠ base58Encode zeroByteHash.bytes := by
  refine ⟨fun heq => ?_, ?_⟩
  · exact absurd (base58Encode_distinguishes.1 [0, 1] [1, 0] rfl heq) (by decide)
  · exact (base58Encode_distinguishes.2.2 markedHash zeroByteHash (by decide)).2.2 (by decide)

end Pmbah.Store
