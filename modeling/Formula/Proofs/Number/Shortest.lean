import Formula.Number.Shortest
import Formula.Proofs.Number.Rounding

/-!
# Shortest decimals round back

The search for the shortest decimal of a double asks of grids of growing fineness whether a
neighbour of the double lies in the interval of what rounds to it. A grid on which neither does is
coarse: its step is at least three quarters of the distance to the next double. The step of the last
grid that is tried, with seventeen digits, is finer than that, so the search ends with a decimal in
the interval.
-/

namespace Formula.Number

variable {i : Interval} {tie : Tie} {m d num den : ℕ} {q g : ℤ}

/-! ### The interval of a double -/

/-- A power is cleared of its negative exponent by as many factors as that has. -/
lemma zpow_mul_pow_toNat {b : ℚ} (nonzero : b ≠ 0) (k : ℤ) :
    b ^ k * b ^ (-k).toNat = b ^ k.toNat := by
  rw [← zpow_natCast, ← zpow_natCast, ← zpow_add₀ nonzero]
  congr 1
  omega

/-- Up to a common factor the whole numbers that are compared are the numbers that are meant. -/
lemma exists_scale {a unit : ℕ} (pos : 0 < unit) (d : ℕ) (g : ℤ) :
    ∃ c : ℚ, 0 < c ∧ (a * 10 ^ (-g).toNat : ℕ) = (a : ℚ) / unit * c ∧
      (d * 10 ^ g.toNat * unit : ℕ) = (d : ℚ) * 10 ^ g * c := by
  have unit_pos : (0 : ℚ) < unit := by exact_mod_cast pos
  refine ⟨10 ^ (-g).toNat * unit, by positivity, ?_, ?_⟩
  · push_cast
    field_simp
  · rw [← mul_assoc, mul_assoc (d : ℚ), zpow_mul_pow_toNat (by norm_num)]
    push_cast
    rfl

lemma le_scaled_iff {a unit : ℕ} (pos : 0 < unit) :
    a * 10 ^ (-g).toNat ≤ d * 10 ^ g.toNat * unit ↔ (a : ℚ) / unit ≤ d * 10 ^ g := by
  obtain ⟨c, c_pos, left, right⟩ := exists_scale (a := a) pos d g
  rw [← Nat.cast_le (α := ℚ), left, right, mul_le_mul_iff_left₀ c_pos]

lemma scaled_le_iff {a unit : ℕ} (pos : 0 < unit) :
    d * 10 ^ g.toNat * unit ≤ a * 10 ^ (-g).toNat ↔ (d : ℚ) * 10 ^ g ≤ a / unit := by
  obtain ⟨c, c_pos, left, right⟩ := exists_scale (a := a) pos d g
  rw [← Nat.cast_le (α := ℚ), left, right, mul_le_mul_iff_left₀ c_pos]

lemma holds_iff (pos : 0 < i.unit) : i.holds d g ↔
    if i.closed then (i.low : ℚ) / i.unit ≤ d * 10 ^ g ∧ (d : ℚ) * 10 ^ g ≤ i.high / i.unit
    else (i.low : ℚ) / i.unit < d * 10 ^ g ∧ (d : ℚ) * 10 ^ g < i.high / i.unit := by
  rw [Interval.holds]
  simp only [Nat.pow_eq]
  split
  · rw [decide_eq_true_eq, le_scaled_iff pos, scaled_le_iff pos]
  · rw [decide_eq_true_eq, ← not_le, ← not_le, le_scaled_iff pos, scaled_le_iff pos, not_le, not_le]

lemma unit_pos (m : ℕ) (q : ℤ) : 0 < (Interval.of m q).unit := Nat.pow_pos (by decide)

/-- Over the unit, quarters of the last binary digit are counted. -/
lemma quarters_div_unit (k m : ℕ) (q : ℤ) :
    ((k * 2 ^ (q - 2).toNat : ℕ) : ℚ) / (Interval.of m q).unit = k / 4 * 2 ^ q := by
  have unit : (Interval.of m q).unit = 2 ^ (2 - q).toNat := rfl
  have cleared := zpow_mul_pow_toNat (b := 2) (by norm_num) (q - 2)
  rw [neg_sub] at cleared
  rw [unit]
  push_cast
  rw [← cleared, ← mul_assoc, mul_div_cancel_right₀ _ (by positivity), zpow_sub₀ (by norm_num)]
  ring

/-- How many quarters of the last binary digit the interval reaches below its double. -/
def gapBelow (m : ℕ) (q : ℤ) : ℕ := if m = 2 ^ 52 ∧ -1074 < q then 1 else 2

lemma value_div_unit (m : ℕ) (q : ℤ) :
    ((Interval.of m q).value : ℚ) / (Interval.of m q).unit = m * 2 ^ q := by
  refine (quarters_div_unit (4 * m) m q).trans ?_
  push_cast
  ring

lemma high_div_unit (m : ℕ) (q : ℤ) :
    ((Interval.of m q).high : ℚ) / (Interval.of m q).unit = (m + 1 / 2) * 2 ^ q := by
  refine (quarters_div_unit (4 * m + 2) m q).trans ?_
  push_cast
  ring

lemma low_div_unit (pos : 0 < m) (q : ℤ) :
    ((Interval.of m q).low : ℚ) / (Interval.of m q).unit = (m - gapBelow m q / 4) * 2 ^ q := by
  have le : gapBelow m q ≤ 4 * m := by
    unfold gapBelow
    split <;> omega
  refine (quarters_div_unit (4 * m - gapBelow m q) m q).trans ?_
  push_cast [le]
  ring

/-- Where the interval of a double lies, over the last binary digit. -/
lemma holds_interval_iff (pos : 0 < m) : (Interval.of m q).holds d g ↔
    if m % 2 = 0 then
      (m - gapBelow m q / 4 : ℚ) ≤ d * 10 ^ g / 2 ^ q ∧ (d * 10 ^ g / 2 ^ q : ℚ) ≤ m + 1 / 2
    else
      (m - gapBelow m q / 4 : ℚ) < d * 10 ^ g / 2 ^ q ∧ (d * 10 ^ g / 2 ^ q : ℚ) < m + 1 / 2 := by
  have digit : (0 : ℚ) < 2 ^ q := by positivity
  have closed : (Interval.of m q).closed = decide (m % 2 = 0) := rfl
  rw [holds_iff (unit_pos m q), low_div_unit pos, high_div_unit, ← le_div_iff₀ digit,
    ← div_le_iff₀ digit, ← lt_div_iff₀ digit, ← div_lt_iff₀ digit]
  simp only [closed, decide_eq_true_eq]

/-- What lies in the interval of a double rounds to it. -/
lemma rounds_of_holds (pos : 0 < m) (holds : (Interval.of m q).holds d g) :
    Rounds m q (d * 10 ^ g) := by
  rw [holds_interval_iff pos] at holds
  rw [Rounds]
  generalize (d * 10 ^ g / 2 ^ q : ℚ) = x at holds ⊢
  have le_half : (gapBelow m q : ℚ) ≤ 2 := by
    unfold gapBelow
    split <;> norm_num
  split at holds
  · next even =>
    obtain ⟨low, high⟩ := holds
    constructor
    · rcases (show (m : ℚ) - 1 / 2 ≤ x by linarith).lt_or_eq with gt | eq
      · rcases high.lt_or_eq with lt | eq
        · exact .inl ⟨gt, lt⟩
        · exact .inr ⟨even, .inr eq⟩
      · exact .inr ⟨even, .inl eq.symm⟩
    · intro power above
      rw [gapBelow, if_pos ⟨power, above⟩] at low
      exact_mod_cast low
  · next odd =>
    obtain ⟨low, high⟩ := holds
    refine ⟨.inl ⟨by linarith, high⟩, ?_⟩
    rintro rfl
    exact absurd (by decide) odd

/-! ### Grids -/

/-- The neighbour of the value on a grid that lies below it. -/
def neighbour (i : Interval) (g : ℤ) : ℕ :=
  i.value * 10 ^ (-g).toNat / (i.unit * 10 ^ g.toNat)

/-- What a grid answers lies in the interval, and it answers unless neither neighbour does. -/
lemma onGrid?_cases (tie : Tie) (i : Interval) (g : ℤ) :
    (∃ d, i.onGrid? tie g = some d ∧ i.holds d g) ∨
      i.onGrid? tie g = none ∧ ¬ i.holds (neighbour i g) g ∧ ¬ i.holds (neighbour i g + 1) g := by
  simp only [Interval.onGrid?, Nat.pow_eq, neighbour]
  generalize i.value * 10 ^ (-g).toNat = num, i.unit * 10 ^ g.toNat = den
  cases first : i.holds (num / den) g <;> cases second : i.holds (num / den + 1) g
  case false.false => exact .inr ⟨rfl, Bool.false_ne_true, Bool.false_ne_true⟩
  case true.false => exact .inl ⟨num / den, rfl, first⟩
  case false.true => exact .inl ⟨num / den + 1, rfl, second⟩
  case true.true =>
    left
    cases compare (2 * (num % den)) den
    case lt => exact ⟨num / den, rfl, first⟩
    case gt => exact ⟨num / den + 1, rfl, second⟩
    case eq =>
      cases tie
      case up => exact ⟨num / den + 1, rfl, second⟩
      case even =>
        by_cases even : num / den % 2 = 0
        · exact ⟨num / den, congrArg some (if_pos even), first⟩
        · exact ⟨num / den + 1, congrArg some (if_neg even), second⟩

/-- The neighbours lie on both sides of the value. -/
lemma neighbour_bounds (pos : 0 < i.unit) (g : ℤ) :
    (neighbour i g : ℚ) * 10 ^ g ≤ i.value / i.unit ∧
      (i.value / i.unit : ℚ) < (neighbour i g + 1) * 10 ^ g := by
  have den_pos : 0 < i.unit * 10 ^ g.toNat := by positivity
  constructor
  · rw [← scaled_le_iff pos, mul_assoc, mul_comm _ i.unit]
    exact Nat.div_mul_le_self _ _
  · have above : ¬ (neighbour i g + 1 : ℕ) * 10 ^ g.toNat * i.unit ≤ i.value * 10 ^ (-g).toNat := by
      rw [not_le, mul_assoc, mul_comm _ i.unit, mul_comm (_ + 1)]
      exact Nat.lt_mul_div_succ _ den_pos
    rw [scaled_le_iff pos, not_le] at above
    exact_mod_cast above

/-- A grid that answers nothing is coarse. -/
lemma coarse_of_onGrid?_eq_none (pos : 0 < m) (none : (Interval.of m q).onGrid? tie g = none) :
    (1 / 2 + gapBelow m q / 4 : ℚ) * 2 ^ q ≤ 10 ^ g := by
  rcases onGrid?_cases tie (Interval.of m q) g with ⟨d, found, -⟩ | ⟨-, first, second⟩
  · rw [found] at none
    cases none
  obtain ⟨low, high⟩ := neighbour_bounds (unit_pos m q) g
  rw [value_div_unit] at low high
  generalize neighbour (Interval.of m q) g = d at first second low high
  have digit : (0 : ℚ) < 2 ^ q := by positivity
  rw [← le_div_iff₀ digit]
  rw [holds_interval_iff pos] at first second
  rw [← div_le_iff₀ digit] at low
  rw [← lt_div_iff₀ digit] at high
  push_cast at second
  have step : ((d + 1) * 10 ^ g / 2 ^ q : ℚ) = d * 10 ^ g / 2 ^ q + 10 ^ g / 2 ^ q := by ring
  rw [step] at second high
  generalize (d * 10 ^ g / 2 ^ q : ℚ) = x, (10 ^ g / 2 ^ q : ℚ) = t at first second low high ⊢
  have gap : (0 : ℚ) ≤ gapBelow m q := by positivity
  by_cases even : m % 2 = 0
  · rw [if_pos even] at first second
    have left : x < m - gapBelow m q / 4 := by
      by_contra le
      exact first ⟨not_lt.1 le, by linarith⟩
    have right : m + 1 / 2 < x + t := by
      by_contra le
      exact second ⟨by linarith, not_lt.1 le⟩
    linarith
  · rw [if_neg even] at first second
    have left : x ≤ m - gapBelow m q / 4 := by
      by_contra lt
      exact first ⟨not_le.1 lt, by linarith⟩
    have right : m + 1 / 2 ≤ x + t := by
      by_contra lt
      exact second ⟨by linarith, not_le.1 lt⟩
    linarith

/-! ### The search -/

/-- The first digit of a number stands where its magnitude says, or before. -/
lemma zpow_magnitude_le (num_pos : 0 < num) (den_pos : 0 < den) :
    (10 : ℚ) ^ (magnitude num den - 1) ≤ num / den := by
  have den_pos' : (0 : ℚ) < den := by exact_mod_cast den_pos
  rw [le_div_iff₀ den_pos']
  by_cases large : den ≤ num
  · have whole_pos : 0 < num / den := Nat.div_pos large den_pos
    have length_pos : 0 < (Nat.toDigits 10 (num / den)).length := Nat.length_toDigits_pos
    obtain ⟨k, length⟩ := Nat.exists_eq_succ_of_ne_zero length_pos.ne'
    have le : 10 ^ k ≤ num / den := by
      by_cases first : k = 0
      · rwa [first, pow_zero]
      · rw [← not_lt, ← Nat.length_toDigits_le_iff (by decide) (Nat.pos_of_ne_zero first), length]
        exact Nat.not_succ_le_self k
    rw [magnitude, if_pos large, length, Nat.cast_succ, add_sub_cancel_right, zpow_natCast]
    exact_mod_cast (Nat.le_div_iff_mul_le den_pos).1 le
  · have lt := (Nat.length_toDigits_le_iff (b := 10) (by decide) Nat.length_toDigits_pos).1
      (le_refl (Nat.toDigits 10 ((den - 1) / num)).length)
    rw [magnitude, if_neg large, sub_right_comm, sub_self, zero_sub, zpow_neg, zpow_natCast,
      inv_mul_le_iff₀ (by positivity)]
    rw [Nat.div_lt_iff_lt_mul num_pos] at lt
    have le : den ≤ 10 ^ (Nat.toDigits 10 ((den - 1) / num)).length * num := by omega
    exact_mod_cast le

/-- A search succeeds if its last grid does. -/
lemma holds_search {point : ℤ} (count used : ℕ)
    (last : i.onGrid? tie (point - (used + count + 1 : ℕ)) ≠ none) :
    ∃ d g, i.search tie point (count + 1) used = (d, g) ∧ i.holds d g := by
  induction count generalizing used with
  | zero =>
    rw [Nat.add_zero, Nat.cast_succ] at last
    obtain ⟨d, found, holds⟩ :=
      (onGrid?_cases tie i _).resolve_right fun missed => last missed.1
    exact ⟨d, _, by rw [Interval.search, found], holds⟩
  | succ count ih =>
    rcases onGrid?_cases tie i (point - (used + 1)) with ⟨d, found, holds⟩ | ⟨missed, -⟩
    · exact ⟨d, _, by rw [Interval.search, found], holds⟩
    · rw [Interval.search, missed]
      refine ih (used + 1) ?_
      rwa [Nat.add_right_comm used 1 count]

/-- Seventeen digits suffice: the doubles lie farther apart than the last grid's points. -/
lemma onGrid?_last (tie : Tie) (canonical : Canonical m q) : (Interval.of m q).onGrid? tie
    (magnitude (Interval.of m q).value (Interval.of m q).unit - 17) ≠ none := by
  intro none
  have m_pos := canonical.pos
  have digit : (0 : ℚ) < 2 ^ q := by positivity
  have value_pos : 0 < (Interval.of m q).value :=
    Nat.mul_pos (Nat.mul_pos (by decide) m_pos) (Nat.pow_pos (by decide))
  have coarse := coarse_of_onGrid?_eq_none m_pos none
  have first := zpow_magnitude_le value_pos (unit_pos m q)
  rw [value_div_unit] at first
  generalize magnitude (Interval.of m q).value (Interval.of m q).unit = point at coarse first
  have step : (10 : ℚ) ^ (point - 17) = 10 ^ (point - 1) / 10 ^ 16 := by
    rw [show point - 17 = point - 1 - (16 : ℕ) by push_cast; ring, zpow_sub₀ (by norm_num),
      zpow_natCast]
  have bound : (1 / 2 + gapBelow m q / 4) * 10 ^ 16 * (2 : ℚ) ^ q ≤ m * 2 ^ q := by
    rw [step, le_div_iff₀ (by positivity)] at coarse
    linarith
  have bound := le_of_mul_le_mul_right bound digit
  unfold gapBelow at bound
  split at bound
  · next boundary =>
    rw [boundary.1] at bound
    norm_num at bound
  · have lt := canonical.lt
    norm_num at bound
    omega

/-- The shortest decimal of a double rounds to it. -/
theorem exists_rounds_search (tie : Tie) (canonical : Canonical m q) :
    ∃ d g, (Interval.of m q).search tie
      (magnitude (Interval.of m q).value (Interval.of m q).unit) 17 0 = (d, g) ∧
        Rounds m q (d * 10 ^ g) := by
  obtain ⟨d, g, found, holds⟩ := holds_search 16 0 (onGrid?_last tie canonical)
  exact ⟨d, g, found, rounds_of_holds canonical.pos holds⟩

end Formula.Number
