import Formula.Proofs.Number.Rounding

/-!
# Doubles in bits

The bits of a double hold its sign, an exponent and a significand whose top digit is left out, since
the exponent tells it. What is unpacked from bits is canonical: the significand has as many digits
as fit, unless the exponent is the least one. Packing and unpacking are inverse to each other on
such parts, so a double is known from its parts.
-/

namespace Formula.Number

open Float.Model Float.Model.UnpackedFloat

variable {m : ℕ} {e : ℤ} {s : Sign} {b : BitVec Format.binary64.numBits}

lemma ofModel_pack_unpack (x : Float) : .ofModel (.pack x.toModel.unpack) = x := by
  obtain ⟨⟨bits, valid⟩⟩ := x
  have packed := pack_unpack_of_valid valid
  simp only [Float.Model.pack, Float.Model.unpack, packed]

/-! ### Unpacking -/

/-- The top digit that a packed significand lacks. -/
lemma toNat_one_append (v : BitVec 52) : (1#1 ++ v).toNat = 2 ^ 52 + v.toNat := by
  have split := Nat.two_pow_add_eq_or_of_lt v.isLt 1
  rw [BitVec.toNat_append]
  exact split.symm

/-- A finite double that is not zero is canonical. -/
lemma canonical_of_unpack {pos : 0 < m} (h : UnpackedFloat.unpack .binary64 b = .finite s m e pos) :
    Canonical m e := by
  have v_lt : (unpackMantissa b).toNat < 2 ^ 52 := (unpackMantissa b).isLt
  have x_lt : (unpackExponent b).toNat < 2 ^ 11 := (unpackExponent b).isLt
  have bias : (Format.binary64.exponentBias : ℤ) + Format.binary64.mantissaBitsWithoutImplicit =
    1075 := rfl
  simp only [UnpackedFloat.unpack, bias] at h
  split_ifs at h with special infinite subnormal zero
  · obtain ⟨-, m_eq, e_eq⟩ := UnpackedFloat.finite.inj h
    rw [subnormal] at e_eq
    obtain rfl : -1074 = e := e_eq
    exact ⟨pos, by omega, by decide, by decide, .inr rfl⟩
  · obtain ⟨-, m_eq, e_eq⟩ := UnpackedFloat.finite.inj h
    have m_eq : m = 2 ^ 52 + (unpackMantissa b).toNat := m_eq.symm.trans (toNat_one_append _)
    have x_pos : 0 < (unpackExponent b).toNat :=
      Nat.pos_of_ne_zero fun zero => subnormal (BitVec.eq_of_toNat_eq zero)
    have x_top : (unpackExponent b).toNat ≠ 2047 :=
      fun top => special (BitVec.eq_of_toNat_eq top)
    exact ⟨pos, by omega, by omega, by omega, .inl (by omega)⟩

/-! ### Packing -/

/-- A significand with a top digit is packed without it, beside the exponent. -/
lemma pack_normal {biased : ℕ} {pos : 0 < m} (full : 2 ^ 52 ≤ m) (lt : m < 2 ^ 53)
    (finite : biased < 2047) (biased_eq : (biased : ℤ) = e + 1075) :
    UnpackedFloat.pack .binary64 (.finite s m e pos) =
      packComponents .binary64 s (.ofNat _ biased) (.ofNat _ m) := by
  have log_lt : m.log2 < 53 := (Nat.log2_lt pos.ne').2 lt
  have log_ge : 52 ≤ m.log2 := (Nat.le_log2 pos.ne').2 full
  have bias : e + (Format.binary64.exponentBias : ℤ) + Format.binary64.mantissaBitsWithoutImplicit =
      biased := by
    have : (Format.binary64.exponentBias : ℤ) + Format.binary64.mantissaBitsWithoutImplicit =
      1075 := rfl
    omega
  have small : ¬ 2 ^ Format.binary64.exponentBits ≤ biased + 1 := by
    show ¬ 2 ^ 11 ≤ biased + 1
    omega
  have normal : m.log2 + 1 = Format.binary64.mantissaBits := by
    show m.log2 + 1 = 53
    omega
  simp only [UnpackedFloat.pack, bias, Int.toNat_natCast, if_neg small, if_pos normal]

/-- A significand without a top digit is packed as it is, beside the least exponent. -/
lemma pack_subnormal {pos : 0 < m} (lt : m < 2 ^ 52) :
    UnpackedFloat.pack .binary64 (.finite s m (-1074) pos) =
      packComponents .binary64 s 0#_ (.ofNat _ m) := by
  have log_lt : m.log2 < 52 := (Nat.log2_lt pos.ne').2 lt
  have subnormal : ¬ m.log2 + 1 = Format.binary64.mantissaBits := by
    show ¬ m.log2 + 1 = 53
    omega
  have small : ¬ 2 ^ Format.binary64.exponentBits ≤
      (-1074 + (Format.binary64.exponentBias : ℤ) +
        Format.binary64.mantissaBitsWithoutImplicit).toNat + 1 := by
    decide
  simp only [UnpackedFloat.pack, if_neg small, if_neg subnormal]

/-- What is packed from the parts of a double has these parts. -/
lemma unpack_pack (canonical : Canonical m e) :
    UnpackedFloat.unpack .binary64 (UnpackedFloat.pack .binary64 (.finite s m e canonical.pos)) =
      .finite s m e canonical.pos := by
  have finite_congr {m' : ℕ} {e' : ℤ} {pos' : 0 < m'} (m_eq : m' = m) (e_eq : e' = e) :
      UnpackedFloat.finite s m' e' pos' = .finite s m e canonical.pos := by
    subst m_eq e_eq
    rfl
  have bias : (Format.binary64.exponentBias : ℤ) + Format.binary64.mantissaBitsWithoutImplicit =
    1075 := rfl
  obtain ⟨pos, lt, least, greatest, full⟩ := canonical
  by_cases full' : 2 ^ 52 ≤ m
  · obtain ⟨biased, biased_eq⟩ : ∃ biased : ℕ, (biased : ℤ) = e + 1075 :=
      ⟨(e + 1075).toNat, Int.toNat_of_nonneg (by omega)⟩
    have x_eq : (BitVec.ofNat 11 biased).toNat = biased := by
      rw [BitVec.toNat_ofNat]
      omega
    have normal : BitVec.ofNat 11 biased ≠ 0#11 := by
      intro zero
      rw [zero] at x_eq
      change 0 = biased at x_eq
      omega
    have finite : BitVec.ofNat 11 biased ≠ -1#11 := by
      intro top
      rw [top] at x_eq
      change 2047 = biased at x_eq
      omega
    rw [pack_normal full' lt (by omega) biased_eq, UnpackedFloat.unpack]
    simp only [unpackExponent_packComponents, unpackMantissa_packComponents,
      unpackSign_packComponents, Sign.ofBitVec_toBitVec, bias]
    rw [if_neg finite, if_neg normal]
    refine finite_congr ((toNat_one_append _).trans ?_) ?_
    · rw [BitVec.toNat_ofNat]
      omega
    · rw [x_eq]
      omega
  · obtain rfl : e = -1074 := full.resolve_left full'
    have m_eq : (BitVec.ofNat 52 m).toNat = m := by
      rw [BitVec.toNat_ofNat]
      omega
    have some : BitVec.ofNat 52 m ≠ 0#52 := by
      intro zero
      rw [zero] at m_eq
      change 0 = m at m_eq
      omega
    rw [pack_subnormal (by omega), UnpackedFloat.unpack]
    simp only [unpackExponent_packComponents, unpackMantissa_packComponents,
      unpackSign_packComponents, Sign.ofBitVec_toBitVec, bias]
    rw [if_neg (by decide), if_pos trivial, dif_neg some]
    exact finite_congr m_eq rfl

end Formula.Number
