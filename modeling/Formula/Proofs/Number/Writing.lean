import Formula.Number.Style
import Formula.Proofs.Number.Decimals
import Formula.Proofs.Number.Shortest

/-!
# Numbers are read back as they are written

Without an exponent a number is written by the digits of its shortest decimal, with zeros between
them and the point where they do not reach it. Whatever the point does with the digits, they say the
same decimal, and a double is the double of its shortest decimal. What is written of a double is
therefore read as the double again, the sign apart, which is written in front.
-/

namespace Formula.Number

open Float.Model Float.Model.UnpackedFloat

variable {m d : ℕ} {e g : ℤ} {ds text whole fraction : List Char}

/-! ### Rows of digits -/

lemma ofDigits_append_zeros (ds : List Char) (k : ℕ) :
    ofDigits (ds ++ List.replicate k '0') = 10 ^ k * ofDigits ds :=
  (Nat.ofDigitChars_append 0).trans Nat.ofDigitChars_replicate_zero

lemma ofDigits_zeros_append (ds : List Char) (k : ℕ) :
    ofDigits (List.replicate k '0' ++ ds) = ofDigits ds := by
  refine (Nat.ofDigitChars_append 0).trans ?_
  rw [Nat.ofDigitChars_replicate_zero, Nat.mul_zero]
  rfl

lemma ofDigits_toDigits (d : ℕ) : ofDigits (Nat.toDigits 10 d) = d := Nat.ofDigitChars_ten_toDigits

/-- What is dropped at the end are zeros. -/
lemma exists_dropTrailingZeros (ds : List Char) :
    ∃ k, ds = dropTrailingZeros ds ++ List.replicate k '0' := by
  refine ⟨(ds.reverse.takeWhile (· == '0')).length, ?_⟩
  have zeros : ds.reverse.takeWhile (· == '0') =
      List.replicate (ds.reverse.takeWhile (· == '0')).length '0' :=
    List.eq_replicate_iff.2 ⟨rfl, fun c mem => by simpa using List.mem_takeWhile_imp mem⟩
  have split := List.takeWhile_append_dropWhile (p := (· == '0')) (l := ds.reverse)
  rw [zeros] at split
  have split := congrArg List.reverse split
  rw [List.reverse_append, List.reverse_replicate, List.reverse_reverse] at split
  exact split.symm

/-- The decimal that digits say with the point at its place. -/
def Digits.value (d : Digits) : ℚ := ofDigits d.digits * 10 ^ (d.point - d.digits.length)

/-- The zeros at the end that are dropped change nothing. -/
lemma value_dropTrailingZeros (d : ℕ) (g : ℤ) :
    Digits.value ⟨dropTrailingZeros (Nat.toDigits 10 d), g + (Nat.toDigits 10 d).length⟩ =
      d * 10 ^ g := by
  obtain ⟨k, split⟩ := exists_dropTrailingZeros (Nat.toDigits 10 d)
  generalize dropTrailingZeros (Nat.toDigits 10 d) = ds at split
  have size : d = 10 ^ k * ofDigits ds := by
    rw [← ofDigits_append_zeros, ← split, ofDigits_toDigits]
  have place : g + (Nat.toDigits 10 d).length - ds.length = g + k := by
    rw [split, List.length_append, List.length_replicate]
    omega
  rw [Digits.value, place, zpow_add₀ (by norm_num), zpow_natCast]
  simp only
  rw [size]
  push_cast
  ring

/-! ### Digits with their point -/

/-- That a text is a row of digits, or a row of digits, a point and more digits. -/
structure IsDecimal (text whole fraction : List Char) : Prop where
  digits : ∀ c ∈ whole, c.isDigit
  decimals : ∀ c ∈ fraction, c.isDigit
  nonempty : whole ≠ []
  spelled : text = whole ∧ fraction = [] ∨ text = whole ++ '.' :: fraction

/-- Wherever the point stands, the digits say the same decimal. -/
lemma exists_isDecimal (d : Digits) (digits : ∀ c ∈ d.digits, c.isDigit) :
    ∃ whole fraction, IsDecimal (d.positional false) whole fraction ∧
      (ofDigits (whole ++ fraction) : ℚ) / 10 ^ fraction.length = d.value := by
  obtain ⟨ds, point⟩ := d
  have zeros {k : ℕ} : ∀ c ∈ List.replicate k '0', c.isDigit := by
    intro c mem
    rw [List.eq_of_mem_replicate mem]
    rfl
  simp only [Digits.positional, Digits.value] at digits ⊢
  by_cases front : point ≤ 0
  · refine ⟨['0'], List.replicate (-point).toNat '0' ++ ds,
      ⟨zeros (k := 1), List.forall_mem_append.2 ⟨zeros, digits⟩, List.cons_ne_nil _ _, ?_⟩, ?_⟩
    · rw [if_pos front]
      exact .inr rfl
    · have place : point - ds.length = -((-point).toNat + ds.length : ℕ) := by omega
      rw [place, zpow_neg, zpow_natCast, ← div_eq_mul_inv, List.length_append,
        List.length_replicate, ← List.append_assoc]
      exact congrArg (fun D : ℕ => (D / _ : ℚ)) (ofDigits_zeros_append ds ((-point).toNat + 1))
  rw [if_neg front]
  by_cases back : ds.length ≤ point.toNat
  · refine ⟨ds ++ List.replicate (point.toNat - ds.length) '0', [],
      ⟨List.forall_mem_append.2 ⟨digits, zeros⟩, fun c mem => absurd mem List.not_mem_nil, ?_, ?_⟩,
      ?_⟩
    · refine List.ne_nil_of_length_pos ?_
      rw [List.length_append, List.length_replicate]
      omega
    · rw [if_pos back]
      exact .inl ⟨List.append_nil _, rfl⟩
    · have place : point - ds.length = (point.toNat - ds.length : ℕ) := by omega
      rw [place, zpow_natCast, List.append_nil, ofDigits_append_zeros, List.length_nil, pow_zero,
        div_one, Nat.cast_mul, mul_comm]
      push_cast
      rfl
  · refine ⟨ds.take point.toNat, ds.drop point.toNat,
      ⟨fun c mem => digits c (List.mem_of_mem_take mem),
        fun c mem => digits c (List.mem_of_mem_drop mem), ?_, ?_⟩, ?_⟩
    · refine List.ne_nil_of_length_pos ?_
      rw [List.length_take]
      omega
    · rw [if_neg back]
      exact .inr rfl
    · have place : point - ds.length = -(ds.length - point.toNat : ℕ) := by omega
      rw [place, zpow_neg, zpow_natCast, ← div_eq_mul_inv, List.length_drop,
        List.take_append_drop]

/-! ### Reading back -/

/-- A decimal that rounds to a double is read as it. -/
lemma ofDecimal_eq (canonical : Canonical m e)
    (rounds : Rounds m e (ofDigits (whole ++ fraction) / 10 ^ fraction.length)) :
    ofDecimal whole fraction 0 = double .positive canonical := by
  have pos : ofDigits (whole ++ fraction) ≠ 0 := by
    intro zero
    have bound := rounds.1.bounds.1
    have one_le : (1 : ℚ) ≤ m := by exact_mod_cast canonical.pos
    rw [zero, Nat.cast_zero, zero_div, zero_div] at bound
    linarith
  have negative : decide ((0 : ℤ) - fraction.length < 0) = decide (0 < fraction.length) := by
    simp
  have size : ((0 : ℤ) - fraction.length).natAbs = fraction.length := by omega
  rw [ofDecimal]
  simp only [negative, size]
  exact ofScientific_eq canonical rounds pos

/-- The shortest decimal of a double is written as a decimal that is read as the double. -/
theorem exists_ofDecimal_shortest (tie : Tie) (canonical : Canonical m e) :
    ∃ whole fraction, IsDecimal ((shortest tie m e).positional false) whole fraction ∧
      ofDecimal whole fraction 0 = double .positive canonical := by
  obtain ⟨d, g, found, rounds⟩ := exists_rounds_search tie canonical
  have digits : ∀ c ∈ dropTrailingZeros (Nat.toDigits 10 d), c.isDigit := by
    intro c mem
    obtain ⟨k, split⟩ := exists_dropTrailingZeros (Nat.toDigits 10 d)
    refine Nat.isDigit_of_mem_toDigits (n := d) (by decide) (le_refl 10) ?_
    rw [split]
    exact List.mem_append_left _ mem
  have written : shortest tie m e =
      ⟨dropTrailingZeros (Nat.toDigits 10 d), g + (Nat.toDigits 10 d).length⟩ := by
    rw [shortest]
    simp only [found]
  rw [written]
  obtain ⟨whole, fraction, spelled, value⟩ := exists_isDecimal
    ⟨dropTrailingZeros (Nat.toDigits 10 d), g + (Nat.toDigits 10 d).length⟩ digits
  refine ⟨whole, fraction, spelled, ofDecimal_eq canonical ?_⟩
  rwa [value, value_dropTrailingZeros]

/-! ### The parts of a double -/

/-- The sign of a double by whether it is negative. -/
def signOf (negative : Bool) : Sign := if negative then .negative else .positive

lemma unpack_of_parts {x : Float} {negative : Bool} (finite : parts x = .finite negative m e) :
    m = 0 ∧ x.toModel.unpack = .zero (signOf negative) ∨
      ∃ pos : 0 < m, x.toModel.unpack = .finite (signOf negative) m e pos := by
  rw [parts] at finite
  split at finite
  all_goals cases finite
  · next unpacked => exact .inl ⟨rfl, unpacked⟩
  · next unpacked => exact .inl ⟨rfl, unpacked⟩
  · next pos unpacked => exact .inr ⟨pos, unpacked⟩
  · next pos unpacked => exact .inr ⟨pos, unpacked⟩

lemma exists_parts {x : Float} (finite : x.isFinite) :
    ∃ negative m e, parts x = .finite negative m e := by
  have unpacked : x.toModel.unpack.isFinite := finite
  rw [parts]
  generalize x.toModel.unpack = f at unpacked ⊢
  cases f with
  | notANumber => cases unpacked
  | infinity s => cases unpacked
  | zero s => cases s <;> exact ⟨_, _, _, rfl⟩
  | finite s m e pos => cases s <;> exact ⟨_, _, _, rfl⟩

/-- A double is known from its parts. -/
lemma eq_of_parts {x : Float} {negative : Bool} (finite : parts x = .finite negative m e) :
    m = 0 ∧ x = .ofModel (.pack (.zero (signOf negative))) ∨
      ∃ canonical : Canonical m e, x = double (signOf negative) canonical := by
  have packed := ofModel_pack_unpack x
  rcases unpack_of_parts finite with ⟨zero, unpacked⟩ | ⟨pos, unpacked⟩
  · rw [unpacked] at packed
    exact .inl ⟨zero, packed.symm⟩
  · rw [unpacked] at packed
    exact .inr ⟨canonical_of_unpack unpacked, packed.symm⟩

lemma neg_double (canonical : Canonical m e) :
    -double .positive canonical = double .negative canonical := by
  have negated : -double .positive canonical =
    .ofModel (.pack ((double .positive canonical).toModel.unpack.neg)) := rfl
  rw [negated, unpack_double]
  rfl

/-- What is written of a finite double is a decimal, behind a sign if it is negative, which is read
as the double without its sign. -/
theorem exists_write_plain {x : Float} {negative : Bool} (finite : parts x = .finite negative m e) :
    ∃ text whole fraction, IsDecimal text whole fraction ∧
      write .plain x = String.ofList (if negative then '-' :: text else text) ∧
      x = if negative then -ofDecimal whole fraction 0 else ofDecimal whole fraction 0 := by
  rw [write, finite]
  simp only [Style.plain, if_true, Bool.false_eq_true, if_false]
  rcases eq_of_parts finite with ⟨rfl, rfl⟩ | ⟨canonical, rfl⟩
  · refine ⟨['0'], ['0'], [], ⟨?_, fun c mem => absurd mem List.not_mem_nil, List.cons_ne_nil _ _,
      .inl ⟨rfl, rfl⟩⟩, rfl, ?_⟩
    · rintro c mem
      rw [List.mem_singleton.1 mem]
      rfl
    · cases negative <;> rfl
  · obtain ⟨whole, fraction, decimal, value⟩ := exists_ofDecimal_shortest .up canonical
    refine ⟨_, whole, fraction, decimal, ?_, ?_⟩
    · rw [if_neg canonical.pos.ne']
    · rw [value, neg_double]
      cases negative
      · rfl
      · rfl

end Formula.Number
