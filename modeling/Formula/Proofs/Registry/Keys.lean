import Formula.Registry
import Mathlib.Data.List.Basic

/-!
# Keys of names

The key of a name is its upper-case form, so a name is found again under its key only if
upper-casing changes nothing that is in upper case already. That is so because no character that
upper-casing arrives at is one that it moves. Both kinds of character are many, and are compared as
the bits of two numbers.
-/

namespace Formula.Text

/-! ### Sets of code points -/

/-- The number whose bits are the members of a list. -/
def bits : List ℕ → ℕ
  | [] => 0
  | n :: ns => bits ns ||| 1 <<< n

lemma testBit_bits (ns : List ℕ) (m : ℕ) : (bits ns).testBit m = true ↔ m ∈ ns := by
  induction ns with
  | nil => simp [bits]
  | cons n ns ih =>
    rw [bits, Nat.testBit_or, Nat.one_shiftLeft, Nat.testBit_two_pow]
    simp only [Bool.or_eq_true, decide_eq_true_eq, List.mem_cons, ih]
    constructor
    · rintro (mem | rfl)
      · exact .inr mem
      · exact .inl rfl
    · rintro (rfl | mem)
      · exact .inr rfl
      · exact .inl mem

/-- Lists whose numbers have no bit in common have no member in common. -/
lemma not_mem_of_bits {ns ms : List ℕ} (h : bits ns &&& bits ms = 0) {n : ℕ} (mem : n ∈ ns) :
    n ∉ ms := by
  intro mem'
  have both : (bits ns &&& bits ms).testBit n = true := by
    rw [Nat.testBit_and, (testBit_bits ns n).2 mem, (testBit_bits ms n).2 mem']
    rfl
  simp [h] at both

/-! ### What upper-casing moves -/

/-- The code points of a run. -/
def CaseRun.points (r : CaseRun) : List ℕ :=
  (List.range ((r.last - r.first) / r.step + 1)).map fun i => r.first + r.step * i

lemma CaseRun.map?_eq_some {r : CaseRun} {n m : ℕ} (h : r.map? n = some m) :
    n ∈ r.points ∧ m = (n + r.shift).toNat := by
  unfold map? at h
  split at h
  · next on =>
    obtain ⟨above, below, stop⟩ := on
    refine ⟨List.mem_map.2 ⟨(n - r.first) / r.step, ?_, ?_⟩, (Option.some.inj h).symm⟩
    · have le : (n - r.first) / r.step ≤ (r.last - r.first) / r.step :=
        Nat.div_le_div_right (Nat.sub_le_sub_right below _)
      exact List.mem_range.2 (Nat.lt_succ_of_le le)
    · have whole : r.step * ((n - r.first) / r.step) = n - r.first :=
        Nat.mul_div_cancel' (Nat.dvd_of_mod_eq_zero stop)
      omega
  · cases h

lemma mem_upperSequences {n : ℕ} {ns : List ℕ} (h : upperSequences.lookup n = some ns) :
    (n, ns) ∈ upperSequences := by
  obtain ⟨before, after, split, -⟩ := List.lookup_eq_some_iff.1 h
  rw [split]
  exact List.mem_append_right _ List.mem_cons_self

/-- The code points that upper-casing moves. -/
def moved : List ℕ :=
  List.range' 0x61 26 ++ upperSequences.map Prod.fst ++ upperRuns.flatMap CaseRun.points

/-- The code points that upper-casing arrives at when it moves one. -/
def reached : List ℕ :=
  List.range' 0x41 26 ++ upperSequences.flatMap Prod.snd ++
    upperRuns.flatMap fun r => r.points.map fun n : ℕ => (n + r.shift).toNat

lemma bits_reached_and_moved : bits reached &&& bits moved = 0 := by
  decide +kernel

lemma toNat_ofNat_of_reached {n : ℕ} (h : n ∈ reached) : (Char.ofNat n).toNat = n := by
  have valid : ∀ n ∈ reached, n.isValidChar := by decide +kernel
  rw [Char.ofNat, dif_pos (valid n h)]
  rfl

/-- In the seven-bit range the letters from `a` to `z` are moved, and nothing else is. -/
lemma toUpper_ofNat : ∀ n < 0x80,
    (n ∉ List.range' 0x61 26 → (Char.ofNat n).toUpper = Char.ofNat n) ∧
      (n ∈ List.range' 0x61 26 → (Char.ofNat n).toUpper.toNat ∈ List.range' 0x41 26) := by
  decide

/-- What is not moved stays as it is. -/
lemma upper_of_not_moved {c : Char} (h : c.toNat ∉ moved) : upper c = [c] := by
  simp only [moved, List.mem_append, not_or] at h
  obtain ⟨⟨letter, key⟩, point⟩ := h
  unfold upper
  split
  · next small =>
    have same := (toUpper_ofNat c.toNat small).1 letter
    rw [Char.ofNat_toNat] at same
    rw [same]
  · have unlisted : upperSequences.lookup c.toNat = none := by
      rw [List.lookup_eq_none_iff]
      intro p mem
      refine bne_iff_ne.2 ?_
      rintro same
      exact key (List.mem_map.2 ⟨p, mem, same.symm⟩)
    have between : upperRuns.findSome? (·.map? c.toNat) = none := by
      rw [List.findSome?_eq_none_iff]
      intro r mem
      cases lands : r.map? c.toNat with
      | none => rfl
      | some m =>
        exact absurd (List.mem_flatMap.2 ⟨r, mem, (CaseRun.map?_eq_some lands).1⟩) point
    simp only [unlisted, mapRuns, between, Option.getD_none, Char.ofNat_toNat]

/-- A character that upper-casing gives is the one that was given and stays as it is, or it is one
that upper-casing arrives at. -/
lemma eq_or_reached_of_mem_upper {c d : Char} (h : d ∈ upper c) :
    (d = c ∧ upper c = [c]) ∨ d.toNat ∈ reached := by
  unfold upper at h ⊢
  split at h
  · next small =>
    have ascii := toUpper_ofNat c.toNat small
    rw [Char.ofNat_toNat] at ascii
    obtain rfl := List.mem_singleton.1 h
    by_cases letter : c.toNat ∈ List.range' 0x61 26
    · exact .inr (List.mem_append_left _ (List.mem_append_left _ (ascii.2 letter)))
    · have same := ascii.1 letter
      exact .inl ⟨same, by rw [if_pos small, same]⟩
  · next large =>
    rw [if_neg large]
    split at h
    · next ns listed =>
      obtain ⟨n, mem, rfl⟩ := List.mem_map.1 h
      have arrived : n ∈ reached :=
        List.mem_append_left _ (List.mem_append_right _
          (List.mem_flatMap.2 ⟨_, mem_upperSequences listed, mem⟩))
      exact .inr (by rwa [toNat_ofNat_of_reached arrived])
    · next unlisted =>
      obtain rfl := List.mem_singleton.1 h
      cases found : upperRuns.findSome? (·.map? c.toNat) with
      | none =>
        left
        simp only [mapRuns, found, Option.getD_none, Char.ofNat_toNat, true_and]
      | some m =>
        obtain ⟨r, mem, lands⟩ := List.exists_of_findSome?_eq_some found
        obtain ⟨point, rfl⟩ := CaseRun.map?_eq_some lands
        have arrived : (c.toNat + r.shift).toNat ∈ reached :=
          List.mem_append_right _ (List.mem_flatMap.2 ⟨r, mem, List.mem_map.2 ⟨_, point, rfl⟩⟩)
        right
        simpa only [mapRuns, found, Option.getD_some, toNat_ofNat_of_reached arrived] using arrived

/-- Upper-casing once is enough. -/
lemma upper_of_mem_upper {c d : Char} (h : d ∈ upper c) : upper d = [d] := by
  rcases eq_or_reached_of_mem_upper h with ⟨rfl, same⟩ | arrived
  · exact same
  · exact upper_of_not_moved (not_mem_of_bits bits_reached_and_moved arrived)

lemma upper_ne_nil (c : Char) : upper c ≠ [] := by
  have given : ∀ p ∈ upperSequences, p.2 ≠ [] := by decide
  unfold upper
  split
  · simp
  · split
    · next ns listed =>
      simpa using given _ (mem_upperSequences listed)
    · simp

/-- A text in upper case stays as it is. -/
lemma upperText_upperText (s : String) : upperText (upperText s) = upperText s := by
  have each : (s.toList.flatMap upper).flatMap upper = s.toList.flatMap upper := by
    rw [List.flatMap_assoc]
    refine List.flatMap_congr fun c _ => ?_
    calc (upper c).flatMap upper
        = (upper c).flatMap fun d => [d] := by
          rw [List.flatMap_congr fun d mem => upper_of_mem_upper mem]
      _ = upper c := List.flatMap_singleton' _
  simp only [upperText, String.toList_ofList, each]

/-- Only the empty text is empty in upper case. -/
lemma upperText_eq_empty_iff {s : String} : upperText s = "" ↔ s = "" := by
  rw [← String.toList_inj, ← String.toList_inj, upperText, String.toList_ofList,
    String.toList_empty, List.flatMap_eq_nil_iff]
  constructor
  · intro h
    exact List.eq_nil_iff_forall_not_mem.2 fun c mem => upper_ne_nil c (h c mem)
  · intro h c mem
    simp [h] at mem

end Formula.Text
