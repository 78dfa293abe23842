import Formula.Number.Numeral
import Formula.Proofs.Number.Packing

/-!
# Doubles of decimals

A decimal is read by one division or one multiplication: of two doubles, where its digits and its
power of ten are doubles themselves, and otherwise of the whole numbers. Either way the exact result
is described closely enough and rounded once, so the decimal is read as the double that it rounds
to.
-/

namespace Formula.Number

open Float.Model Float.Model.UnpackedFloat

variable {m m₁ m₂ n D : ℕ} {e e₁ e₂ : ℤ} {s s₁ s₂ : Sign} {r : ℚ}

/-! ### Products and quotients -/

/-- A double rounds to itself. -/
lemma rounds_self (m : ℕ) (e : ℤ) : Rounds m e (m * 2 ^ e) := by
  have self : (m : ℚ) * 2 ^ e / 2 ^ e = m := mul_div_cancel_right₀ _ (by positivity)
  rw [Rounds, self]
  refine ⟨.inl ⟨?_, ?_⟩, fun _ _ => ?_⟩ <;> linarith

/-- A double is rounded to itself. -/
lemma roundWithAccuracy_self (canonical : Canonical m e) :
    roundWithAccuracy .binary64 s m e .exact = .finite s m e canonical.pos := by
  have exact : Describes m .exact (m * 2 ^ e / 2 ^ e) := mul_div_cancel_right₀ _ (by positivity)
  exact roundWithAccuracy_eq (rounds_self m e) canonical exact canonical.targetExponent_eq.ge

lemma mul_eq {pos₁ : 0 < m₁} {pos₂ : 0 < m₂}
    (rounds : Rounds m e (m₁ * 2 ^ e₁ * (m₂ * 2 ^ e₂))) (canonical : Canonical m e)
    (fine : 53 ≤ (m₁ * m₂).log2 + 1) :
    UnpackedFloat.mul .binary64 (.finite s₁ m₁ e₁ pos₁) (.finite s₂ m₂ e₂ pos₂) =
      .finite (s₁ * s₂) m e canonical.pos := by
  have exact : Describes (m₁ * m₂) .exact (m₁ * 2 ^ e₁ * (m₂ * 2 ^ e₂) / 2 ^ (e₁ + e₂)) := by
    show _ = _
    rw [zpow_add₀ (by norm_num), Nat.cast_mul]
    field_simp
  refine roundWithAccuracy_eq rounds canonical exact ?_
  rw [targetExponent_eq]
  omega

/-- The whole part of a quotient and its remainder describe the quotient. -/
lemma describes_div (num : ℕ) {den : ℕ} (pos : 0 < den) :
    Describes (num / den) (accuracyOfFraction (num % den) den) (num / den) := by
  have den_pos : (0 : ℚ) < den := by exact_mod_cast pos
  have rest_lt : ((num % den : ℕ) : ℚ) < den := by exact_mod_cast Nat.mod_lt num pos
  have split : (num : ℚ) / den = (num / den : ℕ) + (num % den : ℕ) / den := by
    have whole : (num : ℚ) = den * (num / den : ℕ) + (num % den : ℕ) := by
      exact_mod_cast (Nat.div_add_mod num den).symm
    rw [whole]
    field_simp
  rw [split]
  generalize num % den = rest at rest_lt ⊢
  unfold accuracyOfFraction
  split_ifs with none
  · subst none
    show _ = _
    rw [Nat.cast_zero, zero_div, add_zero]
  · have rest_pos : (0 : ℚ) < rest := by exact_mod_cast Nat.pos_of_ne_zero none
    rcases Nat.lt_trichotomy (2 * rest) den with lt | eq | gt
    · have lt' : (2 * rest : ℚ) < den := by exact_mod_cast lt
      rw [Nat.compare_eq_lt.2 lt]
      refine ⟨by linarith [div_pos rest_pos den_pos], ?_⟩
      have half : (rest : ℚ) / den < 1 / 2 := by
        rw [div_lt_div_iff₀ den_pos (by norm_num)]
        linarith
      linarith
    · have eq' : (2 * rest : ℚ) = den := by exact_mod_cast eq
      rw [Nat.compare_eq_eq.2 eq]
      show _ = _
      rw [← eq']
      field_simp
    · have gt' : (den : ℚ) < 2 * rest := by exact_mod_cast gt
      rw [Nat.compare_eq_gt.2 gt]
      have half : (1 : ℚ) / 2 < rest / den := by
        rw [div_lt_div_iff₀ (by norm_num) den_pos]
        linarith
      have whole : (rest : ℚ) / den < 1 := (div_lt_one₀ den_pos).2 rest_lt
      exact ⟨by linarith, by linarith⟩

lemma div_eq {pos₁ : 0 < m₁} {pos₂ : 0 < m₂}
    (rounds : Rounds m e (m₁ * 2 ^ e₁ / (m₂ * 2 ^ e₂))) (canonical : Canonical m e) :
    UnpackedFloat.div .binary64 (.finite s₁ m₁ e₁ pos₁) (.finite s₂ m₂ e₂ pos₂) =
      .finite (s₁ / s₂) m e canonical.pos := by
  have target := min_le_left (e₁ - e₂) (Format.binary64.targetExponent
    (totalExponent m₁ e₁ - totalExponent m₂ e₂))
  have target' := min_le_right (e₁ - e₂) (Format.binary64.targetExponent
    (totalExponent m₁ e₁ - totalExponent m₂ e₂))
  rw [UnpackedFloat.div, divCore]
  simp only
  generalize min (e₁ - e₂) (Format.binary64.targetExponent
    (totalExponent m₁ e₁ - totalExponent m₂ e₂)) = E at target target' ⊢
  obtain ⟨k, shift⟩ := Int.le.dest target
  have k_eq : (e₁ - e₂ - E).toNat = k := by omega
  rw [k_eq]
  have describes : Describes (m₁ <<< k / m₂) (accuracyOfFraction (m₁ <<< k % m₂) m₂)
      (m₁ * 2 ^ e₁ / (m₂ * 2 ^ e₂) / 2 ^ E) := by
    have value : (m₁ * 2 ^ e₁ / (m₂ * 2 ^ e₂) / 2 ^ E : ℚ) = (m₁ <<< k : ℕ) / m₂ := by
      have e₁_eq : e₁ = e₂ + E + k := by omega
      rw [Nat.shiftLeft_eq, e₁_eq, zpow_add₀ (by norm_num), zpow_add₀ (by norm_num), zpow_natCast]
      push_cast
      field_simp
    rw [value]
    exact describes_div _ pos₂
  refine roundWithAccuracy_eq rounds canonical describes ?_
  -- The dividend has been shifted until the quotient has digits enough.
  rw [targetExponent_eq]
  by_cases deep : E ≤ -1074
  · exact le_max_of_le_right deep
  · have target'' : E ≤ m₁.log2 + 1 + e₁ - (m₂.log2 + 1 + e₂) - 53 := by
      have : E ≤ max (m₁.log2 + 1 + e₁ - (m₂.log2 + 1 + e₂) - 53) (-1074) := target'
      omega
    have enough : 2 ^ 52 ≤ m₁ <<< k / m₂ := by
      rw [Nat.le_div_iff_mul_le pos₂, Nat.shiftLeft_eq]
      calc 2 ^ 52 * m₂ ≤ 2 ^ 52 * 2 ^ (m₂.log2 + 1) := Nat.mul_le_mul_left _ Nat.lt_log2_self.le
        _ = 2 ^ (52 + (m₂.log2 + 1)) := (Nat.pow_add 2 _ _).symm
        _ ≤ 2 ^ (m₁.log2 + k) := Nat.pow_le_pow_right (by decide) (by omega)
        _ = 2 ^ m₁.log2 * 2 ^ k := Nat.pow_add 2 _ _
        _ ≤ m₁ * 2 ^ k := Nat.mul_le_mul_right _ (Nat.log2_self_le pos₁.ne')
    have log := (Nat.le_log2 (Nat.ne_zero_of_lt enough)).2 enough
    omega

/-! ### Doubles by their parts -/

/-- The double of a sign, a significand and an exponent. -/
def double (s : Sign) (canonical : Canonical m e) : Float :=
  .ofModel (.pack (.finite s m e canonical.pos))

lemma unpack_double (canonical : Canonical m e) :
    (double s canonical).toModel.unpack = .finite s m e canonical.pos :=
  unpack_pack canonical

/-! ### Whole numbers -/

/-- A whole number that is a double, with as many digits as fit. -/
lemma canonical_of_nat (pos : D ≠ 0) (lt : D < 2 ^ 53) :
    Canonical (D * 2 ^ (52 - D.log2)) (-(52 - D.log2 : ℕ)) := by
  have log_lt : D.log2 < 53 := (Nat.log2_lt pos).2 lt
  have place {k : ℕ} : 2 ^ (D.log2 + k) * 2 ^ (52 - D.log2) = 2 ^ (52 + k) := by
    rw [← Nat.pow_add]
    congr 1
    omega
  refine ⟨by positivity, ?_, by omega, by omega, .inl ?_⟩
  · calc D * 2 ^ (52 - D.log2) < 2 ^ (D.log2 + 1) * 2 ^ (52 - D.log2) :=
          Nat.mul_lt_mul_of_pos_right Nat.lt_log2_self (by positivity)
      _ = 2 ^ 53 := place
  · calc 2 ^ 52 = 2 ^ (D.log2 + 0) * 2 ^ (52 - D.log2) := (place (k := 0)).symm
      _ ≤ D * 2 ^ (52 - D.log2) := Nat.mul_le_mul_right _ (Nat.log2_self_le pos)

lemma value_of_nat (D : ℕ) :
    ((D * 2 ^ (52 - D.log2) : ℕ) : ℚ) * 2 ^ (-(52 - D.log2 : ℕ) : ℤ) = D := by
  rw [zpow_neg, zpow_natCast]
  push_cast
  field_simp

lemma ofNat_eq (pos : D ≠ 0) (lt : D < 2 ^ 53) :
    UnpackedFloat.ofNat .binary64 D =
      .finite .positive (D * 2 ^ (52 - D.log2)) (-(52 - D.log2 : ℕ))
        (canonical_of_nat pos lt).pos := by
  have log_lt : D.log2 < 53 := (Nat.log2_lt pos).2 lt
  have positive : compare (D : ℤ) 0 = .gt := by
    rw [Int.compare_eq_gt]
    omega
  have target : Format.binary64.targetExponent (totalExponent D 0) = -(52 - D.log2 : ℕ) := by
    rw [targetExponent_eq]
    omega
  have canonical := canonical_of_nat pos lt
  rw [UnpackedFloat.ofNat, UnpackedFloat.ofInt, UnpackedFloat.normalize]
  simp only [positive, Int.toNat_natCast]
  rw [UnpackedFloat.round, target, decreaseExponent, zero_sub, neg_neg, Int.toNat_natCast,
    Nat.shiftLeft_eq]
  exact (congrArg (fun E => roundWithAccuracy _ _ _ E _) (zero_sub _)).trans
    (roundWithAccuracy_self canonical)

lemma unpack_toFloat (pos : D ≠ 0) (lt : D < 2 ^ 53) :
    D.toUInt64.toFloat.toModel.unpack =
      .finite .positive (D * 2 ^ (52 - D.log2)) (-(52 - D.log2 : ℕ))
        (canonical_of_nat pos lt).pos := by
  have same : D.toUInt64.toNat = D := Nat.mod_eq_of_lt (by omega)
  have packed : D.toUInt64.toFloat.toModel =
      .pack (UnpackedFloat.ofNat .binary64 D.toUInt64.toNat) := rfl
  rw [packed, same, ofNat_eq pos lt]
  exact unpack_pack (canonical_of_nat pos lt)

/-! ### Powers of ten -/

/-- The powers of ten that are doubles, with as many digits as fit. -/
lemma unpack_powerOfTen (le : n ≤ 22) :
    ∃ lt : n < Float.exactlyRepresentablePowersOfTen.size,
      Float.exactlyRepresentablePowersOfTen[n].toModel.unpack =
        .finite .positive (5 ^ n * 2 ^ (52 - (5 ^ n).log2)) (n - (52 - (5 ^ n).log2 : ℕ))
          (Nat.mul_pos (Nat.pow_pos (by decide)) (Nat.pow_pos (by decide))) := by
  interval_cases n <;> exact ⟨by decide, rfl⟩

lemma value_of_powerOfTen (n a : ℕ) : ((5 ^ n * 2 ^ a : ℕ) : ℚ) * 2 ^ (n - a : ℤ) = 10 ^ n := by
  have ten : (10 : ℚ) = 5 * 2 := by norm_num
  rw [zpow_sub₀ (by norm_num), zpow_natCast, zpow_natCast, ten, mul_pow]
  push_cast
  field_simp

/-! ### Decimals -/

lemma toModel_div {x y : Float} : (x / y).toModel =
    .pack (UnpackedFloat.div .binary64 x.toModel.unpack y.toModel.unpack) := rfl

lemma toModel_mul {x y : Float} : (x * y).toModel =
    .pack (UnpackedFloat.mul .binary64 x.toModel.unpack y.toModel.unpack) := rfl

/-- A decimal that rounds to a double is not so small that it would not be looked at. -/
lemma not_lt_of_rounds (canonical : Canonical m e) (rounds : Rounds m e (D / 10 ^ n)) :
    ¬ (-n : ℤ) < -(2 ^ Format.binary64.exponentBits + D.log2) := by
  have half : (1 : ℚ) / 2 ≤ D / 10 ^ n / 2 ^ e := by
    have one_le : (1 : ℚ) ≤ m := by exact_mod_cast canonical.pos
    linarith [rounds.1.bounds.1]
  have size : (2 : ℚ) ^ (3 * n + -1074 : ℤ) < 2 ^ (D.log2 + 2 : ℤ) := by
    have least : (2 : ℚ) ^ (-1074 : ℤ) ≤ 2 ^ e := zpow_le_zpow_right₀ (by norm_num) canonical.least
    have eight : (2 : ℚ) ^ (3 * n : ℤ) ≤ 10 ^ n := by
      rw [zpow_mul, zpow_natCast]
      exact pow_le_pow_left₀ (by norm_num) (by norm_num) n
    have D_lt : (D : ℚ) < 2 ^ (D.log2 + 1) := by exact_mod_cast Nat.lt_log2_self
    rw [div_div, le_div_iff₀ (by positivity)] at half
    calc (2 : ℚ) ^ (3 * n + -1074 : ℤ) = 2 ^ (3 * n : ℤ) * 2 ^ (-1074 : ℤ) :=
          zpow_add₀ (by norm_num) _ _
      _ ≤ 10 ^ n * 2 ^ e := mul_le_mul eight least (by positivity) (by positivity)
      _ ≤ 2 * D := by linarith
      _ < 2 * 2 ^ (D.log2 + 1) := by linarith
      _ = 2 ^ (D.log2 + 2 : ℤ) := by
        rw [← pow_succ']
        exact_mod_cast rfl
  have small := zpow_lt_zpow_iff.1 size
  show ¬ (-n : ℤ) < -(2048 + D.log2)
  omega

/-- Without a table of powers the decimal is computed by one division, or by none. -/
lemma unpacked_ofScientific_eq (canonical : Canonical m e) (rounds : Rounds m e (D / 10 ^ n))
    (pos : D ≠ 0) :
    UnpackedFloat.ofScientific .binary64 D (-n : ℤ) = .finite .positive m e canonical.pos := by
  have not_large : ¬ (-n : ℤ) > 2 ^ Format.binary64.exponentBits := by
    show ¬ (-n : ℤ) > 2048
    omega
  rw [UnpackedFloat.ofScientific, dif_neg pos, if_neg not_large,
    if_neg (not_lt_of_rounds canonical rounds)]
  by_cases fraction : 0 < n
  · have n_eq : (- -(n : ℤ)).toNat = n := by omega
    rw [if_neg (by omega)]
    refine div_eq ?_ canonical
    rw [n_eq, zpow_zero, mul_one, mul_one]
    exact_mod_cast rounds
  · obtain rfl : n = 0 := Nat.eq_zero_of_not_pos fraction
    rw [if_pos (by decide)]
    refine mul_eq ?_ canonical ?_
    · have value : ((D <<< 53 : ℕ) : ℚ) * 2 ^ (-53 : ℤ) * ((10 ^ 0 : ℕ) * 2 ^ (0 : ℤ)) =
          D / 10 ^ 0 := by
        rw [Nat.shiftLeft_eq]
        push_cast
        field_simp
        norm_num
      rw [← value] at rounds
      exact rounds
    · have enough : 2 ^ 52 ≤ D <<< 53 * 10 ^ 0 := by
        rw [Nat.shiftLeft_eq]
        omega
      have log := (Nat.le_log2 (Nat.ne_zero_of_lt enough)).2 enough
      exact Nat.succ_le_succ log

/-- A decimal with `n` digits behind the point that rounds to a double is read as it. -/
theorem ofScientific_eq (canonical : Canonical m e) (rounds : Rounds m e (D / 10 ^ n))
    (pos : D ≠ 0) :
    Float.ofScientific D (decide (0 < n)) n = double .positive canonical := by
  unfold Float.ofScientific
  split
  · next small =>
    obtain ⟨lt, le⟩ := small
    obtain ⟨_, power⟩ := unpack_powerOfTen le
    by_cases fraction : 0 < n
    · rw [if_pos (decide_eq_true fraction)]
      refine congrArg Float.ofModel (toModel_div.trans (congrArg _ ?_))
      rw [unpack_toFloat pos lt, power]
      refine div_eq ?_ canonical
      rwa [value_of_nat, value_of_powerOfTen]
    · obtain rfl : n = 0 := Nat.eq_zero_of_not_pos fraction
      rw [if_neg (by decide)]
      refine congrArg Float.ofModel (toModel_mul.trans (congrArg _ ?_))
      rw [unpack_toFloat pos lt, power]
      refine mul_eq ?_ canonical ?_
      · rw [value_of_nat, value_of_powerOfTen]
        simpa using rounds
      · have full := (canonical_of_nat pos lt).full.resolve_right (by omega)
        have enough : 2 ^ 52 ≤ D * 2 ^ (52 - D.log2) * (5 ^ 0 * 2 ^ (52 - (5 ^ 0).log2)) :=
          full.trans (Nat.le_mul_of_pos_right _ (by decide))
        have log := (Nat.le_log2 (Nat.ne_zero_of_lt enough)).2 enough
        omega
  · next large =>
    have exponent : (if decide (0 < n) = true then Int.negOfNat n else Int.ofNat n) = -n := by
      by_cases fraction : 0 < n
      · rw [if_pos (decide_eq_true fraction), Int.negOfNat_eq]
        rfl
      · obtain rfl : n = 0 := Nat.eq_zero_of_not_pos fraction
        rfl
    rw [exponent]
    exact congrArg (fun f => Float.ofModel (Float.Model.pack f))
      (unpacked_ofScientific_eq canonical rounds pos)

end Formula.Number
