import Mathlib

/-!
# Rounding to a double

What is rounded is known by a whole number, its mantissa, and by as much of the rest as rounding has
to know: whether it is nothing, less than a half, a half or more. Shifting digits out of the
mantissa keeps this true of the number. A number rounds to the double nearest to it, and to the even
one of two that are; below a power of two, where the doubles come closer together, it has to be
nearer. The main result is that the computation finds this double, whichever of the numbers that
round to it is given, also where the mantissa is rounded up to a power of two and gets a digit too
many by that.
-/

namespace Formula.Number

open Float.Model Float.Model.UnpackedFloat

/-! ### What is known of a number -/

/-- That a whole number and what is known of the remaining fraction describe a number. -/
def Describes (mantissa : ℕ) : Accuracy → ℚ → Prop
  | .exact, x => x = mantissa
  | .inexact .lt, x => mantissa < x ∧ x < mantissa + 1 / 2
  | .inexact .eq, x => x = mantissa + 1 / 2
  | .inexact .gt, x => mantissa + 1 / 2 < x ∧ x < mantissa + 1

/-- What the digit behind a whole number stands for. -/
def half (digit : Bool) : ℚ := if digit then 1 / 2 else 0

/-- That an extended mantissa describes a number: behind the round digit there is a rest, of which
the sticky digit tells whether it is anything. -/
def Extends (em : ExtendedMantissa) (x : ℚ) : Prop :=
  ∃ rest, x = em.mantissa + half em.roundBit + rest ∧ 0 ≤ rest ∧ rest < 1 / 2 ∧
    (em.stickyBit ↔ 0 < rest)

variable {m n : ℕ} {x : ℚ} {acc : Accuracy} {em : ExtendedMantissa}

lemma half_false : half false = 0 := rfl

lemma half_true : half true = 1 / 2 := rfl

lemma extends_ofMantissaAndAccuracy (h : Describes m acc x) :
    Extends (.ofMantissaAndAccuracy m acc) x := by
  cases acc with
  | exact =>
    obtain rfl : x = m := h
    refine ⟨0, ?_, le_refl 0, by norm_num, iff_of_false Bool.false_ne_true (lt_irrefl 0)⟩
    show (m : ℚ) = m + half false + 0
    linarith [half_false]
  | inexact o =>
    cases o with
    | lt =>
      obtain ⟨gt, lt⟩ : m < x ∧ x < m + 1 / 2 := h
      refine ⟨x - m, ?_, by linarith, by linarith, iff_of_true rfl (by linarith)⟩
      show x = m + half false + (x - m)
      linarith [half_false]
    | eq =>
      obtain rfl : x = m + 1 / 2 := h
      refine ⟨0, ?_, le_refl 0, by norm_num, iff_of_false Bool.false_ne_true (lt_irrefl 0)⟩
      show (m : ℚ) + 1 / 2 = m + half true + 0
      linarith [half_true]
    | gt =>
      obtain ⟨gt, lt⟩ : m + 1 / 2 < x ∧ x < m + 1 := h
      refine ⟨x - m - 1 / 2, ?_, by linarith, by linarith, iff_of_true rfl (by linarith)⟩
      show x = m + half true + (x - m - 1 / 2)
      linarith [half_true]

/-- The two digits behind a mantissa tell its accuracy. -/
lemma Extends.describes (h : Extends em x) : Describes em.mantissa em.accuracy x := by
  obtain ⟨m, round, sticky⟩ := em
  obtain ⟨rest, rfl, nonneg, lt, some⟩ := h
  have nothing (unset : ¬ sticky) : rest = 0 := by
    have : ¬ 0 < rest := fun pos => unset (some.2 pos)
    linarith
  cases round <;> cases sticky
  case false.false =>
    show m + half false + rest = m
    linarith [half_false, nothing Bool.false_ne_true]
  case false.true =>
    have pos : 0 < rest := some.1 rfl
    constructor <;> linarith [half_false]
  case true.false =>
    show m + half true + rest = m + 1 / 2
    linarith [half_true, nothing Bool.false_ne_true]
  case true.true =>
    have pos : 0 < rest := some.1 rfl
    constructor <;> linarith [half_true]

/-- The digit shifted out is the new round digit, and the old one is put to the rest. -/
lemma Extends.shiftRightOne (h : Extends em x) : Extends em.shiftRightOne (x / 2) := by
  obtain ⟨m, round, sticky⟩ := em
  obtain ⟨rest, rfl, nonneg, lt, some⟩ := h
  have digits : (m : ℚ) = 2 * (m / 2 : ℕ) + 2 * half (m % 2 != 0) := by
    have split : (m : ℚ) = 2 * (m / 2 : ℕ) + (m % 2 : ℕ) := by
      exact_mod_cast (Nat.div_add_mod m 2).symm
    rcases Nat.mod_two_eq_zero_or_one m with even | odd
    · have zero : half (m % 2 != 0) = 0 := by rw [even]; rfl
      rw [even] at split
      rw [zero]
      exact_mod_cast split
    · have one : half (m % 2 != 0) = 1 / 2 := by rw [odd]; rfl
      rw [odd] at split
      rw [one]
      push_cast at split
      linarith
  have bounds : 0 ≤ half round ∧ half round ≤ 1 / 2 := by
    cases round <;> norm_num [half_false, half_true]
  refine ⟨(half round + rest) / 2, ?_, by linarith, by linarith, ?_⟩
  · rw [digits]
    simp only [ExtendedMantissa.shiftRightOne]
    ring
  · cases round with
    | false =>
      refine some.trans ?_
      rw [half_false, zero_add]
      constructor <;> intro pos <;> linarith
    | true =>
      refine iff_of_true rfl ?_
      linarith [half_true]

lemma Extends.shiftRight (h : Extends em x) (k : ℕ) : Extends (em >>> k) (x / 2 ^ k) := by
  induction k with
  | zero => rwa [pow_zero, div_one]
  | succ k ih =>
    rw [pow_succ, ← div_div]
    exact ih.shiftRightOne

/-! ### The nearest whole number -/

/-- That a whole number is the nearest one to a number, or the even one of the two nearest. -/
def Nearest (m : ℕ) (x : ℚ) : Prop :=
  (m - 1 / 2 < x ∧ x < m + 1 / 2) ∨ m % 2 = 0 ∧ (x = m - 1 / 2 ∨ x = m + 1 / 2)

lemma Nearest.bounds (h : Nearest m x) : (m : ℚ) ≤ x + 1 / 2 ∧ x ≤ m + 1 / 2 := by
  rcases h with h | ⟨-, rfl | rfl⟩ <;> constructor <;> linarith

/-- The nearest whole number is what is rounded to. -/
lemma Extends.roundedMantissa_eq (h : Extends em x) (nearest : Nearest m x) :
    em.roundedMantissa = m := by
  obtain ⟨below, above⟩ := nearest.bounds
  have h := h.describes
  rw [ExtendedMantissa.roundedMantissa]
  generalize em.mantissa = n, em.accuracy = acc at h ⊢
  have of_bounds {k : ℕ} (lt : (m : ℚ) < k + 1) (gt : (k : ℚ) < m + 1) : k = m := by
    have lt : m < k + 1 := by exact_mod_cast lt
    have gt : k < m + 1 := by exact_mod_cast gt
    omega
  cases acc with
  | exact =>
    obtain rfl : x = n := h
    show n = m
    exact of_bounds (by linarith) (by linarith)
  | inexact o =>
    cases o with
    | lt =>
      obtain ⟨gt, lt⟩ : n < x ∧ x < n + 1 / 2 := h
      show n = m
      exact of_bounds (by linarith) (by linarith)
    | gt =>
      obtain ⟨gt, lt⟩ : n + 1 / 2 < x ∧ x < n + 1 := h
      show n + 1 = m
      refine of_bounds ?_ ?_ <;> push_cast <;> linarith
    | eq =>
      obtain rfl : x = n + 1 / 2 := h
      have le : n ≤ m := by
        have : (n : ℚ) ≤ m := by linarith
        exact_mod_cast this
      have ge : m ≤ n + 1 := by
        have : (m : ℚ) ≤ n + 1 := by linarith
        exact_mod_cast this
      -- Halfway between two whole numbers neither is nearer, so the even one is meant.
      have even : m % 2 = 0 := by
        rcases nearest with ⟨gt, lt⟩ | ⟨even, -⟩
        · have gt : (m : ℚ) < n + 1 := by linarith
          have gt : m < n + 1 := by exact_mod_cast gt
          have lt : (n : ℚ) < m := by linarith
          have lt : n < m := by exact_mod_cast lt
          omega
        · exact even
      show n + n % 2 = m
      omega

/-! ### The nearest double -/

/-- That `m * 2 ^ e` is a double above zero, with as many digits before the point as fit. -/
structure Canonical (m : ℕ) (e : ℤ) : Prop where
  pos : 0 < m
  lt : m < 2 ^ 53
  least : -1074 ≤ e
  greatest : e ≤ 971
  full : 2 ^ 52 ≤ m ∨ e = -1074

/-- That a number rounds to the double `m * 2 ^ e`. Below a power of two the doubles are half as far
apart as above. -/
def Rounds (m : ℕ) (e : ℤ) (r : ℚ) : Prop :=
  Nearest m (r / 2 ^ e) ∧ (m = 2 ^ 52 → -1074 < e → m - 1 / 4 ≤ r / 2 ^ e)

variable {e E : ℤ} {M : ℕ} {r : ℚ} {s : Sign}

lemma targetExponent_eq (M : ℕ) (E : ℤ) :
    Format.binary64.targetExponent (totalExponent M E) = max (M.log2 + 1 + E - 53) (-1074) := rfl

lemma Describes.bounds (h : Describes M acc x) : M ≤ x ∧ x < M + 1 := by
  cases acc with
  | exact =>
    obtain rfl : x = M := h
    constructor <;> linarith
  | inexact o =>
    cases o with
    | lt =>
      obtain ⟨gt, lt⟩ : M < x ∧ x < M + 1 / 2 := h
      constructor <;> linarith
    | eq =>
      obtain rfl : x = M + 1 / 2 := h
      constructor <;> linarith
    | gt =>
      obtain ⟨gt, lt⟩ : M + 1 / 2 < x ∧ x < M + 1 := h
      constructor <;> linarith

/-- What is described is less than the next power of two. -/
lemma Describes.lt_zpow (h : Describes M acc (r / 2 ^ E)) : r < 2 ^ (M.log2 + 1 + E : ℤ) := by
  have le : (M : ℚ) + 1 ≤ 2 ^ (M.log2 + 1) := by exact_mod_cast Nat.lt_log2_self
  have lt : r / 2 ^ E < 2 ^ (M.log2 + 1) := lt_of_lt_of_le h.bounds.2 le
  rw [div_lt_iff₀ (by positivity)] at lt
  rw [zpow_add₀ (by norm_num)]
  exact_mod_cast lt

lemma Describes.zpow_le (h : Describes M acc (r / 2 ^ E)) (pos : M ≠ 0) :
    2 ^ (M.log2 + E : ℤ) ≤ r := by
  have le : (2 : ℚ) ^ M.log2 ≤ M := by exact_mod_cast Nat.log2_self_le pos
  have le : 2 ^ M.log2 ≤ r / 2 ^ E := le.trans h.bounds.1
  rw [le_div_iff₀ (by positivity)] at le
  rw [zpow_add₀ (by norm_num)]
  exact_mod_cast le

lemma zpow_lt_zpow_iff {a b : ℤ} : (2 : ℚ) ^ a < 2 ^ b ↔ a < b :=
  zpow_lt_zpow_iff_right₀ (by norm_num)

/-- No more digits are kept of a number than the double has that it rounds to. -/
lemma Rounds.log2_le (rounds : Rounds m e r) (canonical : Canonical m e)
    (describes : Describes M acc (r / 2 ^ E))
    (fine : E ≤ Format.binary64.targetExponent (totalExponent M E)) :
    M.log2 + 1 + E - 53 ≤ e := by
  have least := canonical.least
  by_cases zero : M = 0
  · subst zero
    rw [targetExponent_eq, Nat.log2_zero] at fine
    rw [Nat.log2_zero]
    omega
  · have bound : r < 2 ^ (53 + e) := by
      have lt : (m : ℚ) + 1 ≤ 2 ^ 53 := by exact_mod_cast canonical.lt
      have above := rounds.1.bounds.2
      have r_lt : r / 2 ^ e < 2 ^ 53 := by linarith
      rw [div_lt_iff₀ (by positivity)] at r_lt
      rw [zpow_add₀ (by norm_num)]
      exact_mod_cast r_lt
    have := zpow_lt_zpow_iff.1 (lt_of_le_of_lt (describes.zpow_le zero) bound)
    omega

/-- What rounds to a double with as many digits as fit has as many digits, or almost. -/
lemma Rounds.almost_full (rounds : Rounds m e r) (canonical : Canonical m e) (normal : -1074 < e) :
    2 ^ 52 - 1 / 4 ≤ r / 2 ^ e := by
  have full : 2 ^ 52 ≤ m := canonical.full.resolve_right normal.ne'
  by_cases boundary : m = 2 ^ 52
  · have quarter := rounds.2 boundary normal
    rw [boundary] at quarter
    exact_mod_cast quarter
  · have full : (2 : ℚ) ^ 52 + 1 ≤ m := by exact_mod_cast lt_of_le_of_ne full (Ne.symm boundary)
    linarith [rounds.1.bounds.1]

/-- The exponent to which a number is shifted is that of the double it rounds to, or one less where
the number lies below a power of two and rounds up to it. -/
lemma Rounds.targetExponent_cases (rounds : Rounds m e r) (canonical : Canonical m e)
    (describes : Describes M acc (r / 2 ^ E))
    (fine : E ≤ Format.binary64.targetExponent (totalExponent M E)) :
    Format.binary64.targetExponent (totalExponent M E) = e ∨
      Format.binary64.targetExponent (totalExponent M E) = e - 1 ∧ m = 2 ^ 52 ∧ -1074 < e ∧
        r / 2 ^ e < 2 ^ 52 := by
  have top := rounds.log2_le canonical describes fine
  have least := canonical.least
  rw [targetExponent_eq]
  by_cases bottom : e = -1074
  · left
    omega
  have normal : -1074 < e := lt_of_le_of_ne least (Ne.symm bottom)
  have full : 2 ^ 52 ≤ m := canonical.full.resolve_right bottom
  have under := describes.lt_zpow
  have next : 51 + e < M.log2 + 1 + E := by
    have bound : 2 ^ 51 < r / 2 ^ e :=
      lt_of_lt_of_le (by norm_num) (rounds.almost_full canonical normal)
    rw [lt_div_iff₀ (by positivity)] at bound
    refine zpow_lt_zpow_iff.1 (lt_trans ?_ under)
    rw [zpow_add₀ (by norm_num)]
    exact_mod_cast bound
  by_cases same : M.log2 + 1 + E - 53 = e
  · left
    omega
  · have X_lt : r / 2 ^ e < 2 ^ 52 := by
      have le : (M.log2 + 1 + E : ℤ) ≤ 52 + e := by omega
      have bound : r < 2 ^ (52 + e) := under.trans_le (zpow_le_zpow_right₀ (by norm_num) le)
      rw [zpow_add₀ (by norm_num)] at bound
      rw [div_lt_iff₀ (by positivity)]
      exact_mod_cast bound
    have m_lt : m < 2 ^ 52 + 1 := by
      have : (m : ℚ) < 2 ^ 52 + 1 := by linarith [rounds.1.bounds.1]
      exact_mod_cast this
    right
    refine ⟨?_, ?_, normal, X_lt⟩ <;> omega

lemma shiftToTargetExponent_eq {k : ℕ}
    (shift : E + k = Format.binary64.targetExponent (totalExponent M E)) :
    shiftToTargetExponent .binary64 M E acc =
      (ExtendedMantissa.ofMantissaAndAccuracy M acc >>> k, E + k) := by
  rw [shiftToTargetExponent, shiftToExponent, ← shift, add_sub_cancel_left, Int.toNat_natCast]

/-- Nothing is shifted where there is nothing to spare. -/
lemma shiftToTargetExponent_of_le
    (le : Format.binary64.targetExponent (totalExponent M E) ≤ E) :
    shiftToTargetExponent .binary64 M E acc =
      (ExtendedMantissa.ofMantissaAndAccuracy M acc, E) := by
  rw [shiftToTargetExponent, shiftToExponent, Int.toNat_of_nonpos (sub_nonpos.2 le)]
  exact congrArg _ (add_zero E)

/-- A double has the exponent that its size asks for. -/
lemma Canonical.targetExponent_eq (h : Canonical m e) :
    Format.binary64.targetExponent (totalExponent m e) = e := by
  obtain ⟨pos, lt, least, -, full⟩ := h
  have log_lt : m.log2 < 53 := (Nat.log2_lt pos.ne').2 lt
  rw [Number.targetExponent_eq]
  rcases full with full | rfl
  · have log_ge : 52 ≤ m.log2 := (Nat.le_log2 pos.ne').2 full
    omega
  · omega

/-- What is described closely enough is rounded to the double that it rounds to. -/
theorem roundWithAccuracy_eq (rounds : Rounds m e r) (canonical : Canonical m e)
    (describes : Describes M acc (r / 2 ^ E))
    (fine : E ≤ Format.binary64.targetExponent (totalExponent M E)) :
    roundWithAccuracy .binary64 s M E acc = .finite s m e canonical.pos := by
  obtain ⟨k, shift⟩ := Int.le.dest fine
  have extended : Extends (ExtendedMantissa.ofMantissaAndAccuracy M acc >>> k)
      (r / 2 ^ (E + k)) := by
    have shifted := (extends_ofMantissaAndAccuracy describes).shiftRight k
    rwa [div_div, ← zpow_natCast, ← zpow_add₀ (by norm_num)] at shifted
  have final : ∃ em, shiftToTargetExponent .binary64
      (ExtendedMantissa.ofMantissaAndAccuracy M acc >>> k).roundedMantissa (E + k) .exact =
        (em, e) ∧ em.mantissa = m := by
    rcases rounds.targetExponent_cases canonical describes fine with target | ⟨target, hm, he, lt⟩
    · rw [shift, target] at extended ⊢
      rw [extended.roundedMantissa_eq rounds.1]
      exact ⟨_, shiftToTargetExponent_of_le canonical.targetExponent_eq.le, rfl⟩
    · -- Rounded up to the power of two, the mantissa has a digit too many.
      have nearest : Nearest (2 ^ 53) (r / 2 ^ (e - 1)) := by
        have low := rounds.2 hm he
        rw [hm] at low
        push_cast at low
        rw [zpow_sub_one₀ (by norm_num), ← div_div, div_inv_eq_mul]
        generalize r / 2 ^ e = X at low lt
        by_cases half : X = 2 ^ 52 - 1 / 4
        · refine .inr ⟨by norm_num, .inl ?_⟩
          rw [half]
          norm_num
        · have gt : 2 ^ 52 - 1 / 4 < X := lt_of_le_of_ne low (Ne.symm half)
          refine .inl ⟨?_, ?_⟩ <;> push_cast <;> linarith
      rw [shift, target] at extended ⊢
      rw [extended.roundedMantissa_eq nearest]
      have shift' : e - 1 + (1 : ℕ) =
          Format.binary64.targetExponent (totalExponent (2 ^ 53) (e - 1)) := by
        have log : Nat.log2 (2 ^ 53) = 53 := by decide
        rw [Number.targetExponent_eq, log]
        omega
      rw [shiftToTargetExponent_eq shift', Nat.cast_one, sub_add_cancel, hm]
      exact ⟨_, rfl, rfl⟩
  obtain ⟨em, shifted, mantissa⟩ := final
  rw [roundWithAccuracy, shiftToTargetExponent_eq shift]
  simp only [shifted, mantissa]
  exact dif_neg canonical.pos.ne'

end Formula.Number
