import Formula.Name
import Mathlib.Data.Nat.Notation
import Mathlib.Tactic.Lemma

/-!
# Names of one scope

Two names are equal under a case policy when a form that each of them has by itself is the same, so
this is an equivalence. Names pass the check for one scope just when each one is an identifier and
no two are equal, wherever they come from.
-/

namespace Formula

/-! ### Equal names -/

namespace CasePolicy

variable {policy : CasePolicy} {a b c : String}

lemma namesEqual_refl (policy : CasePolicy) (a : String) : policy.namesEqual a a = true := by
  cases policy <;> simp only [namesEqual, beq_self_eq_true]

lemma namesEqual_symm (h : policy.namesEqual a b = true) : policy.namesEqual b a = true := by
  cases policy <;> simp only [namesEqual, beq_iff_eq] at h ⊢ <;> exact h.symm

lemma namesEqual_trans (h : policy.namesEqual a b = true) (h' : policy.namesEqual b c = true) :
    policy.namesEqual a c = true := by
  cases policy <;> simp only [namesEqual, beq_iff_eq] at h h' ⊢ <;> exact h.trans h'

end CasePolicy

/-! ### Names that pass the check -/

lemma not_mem_of_isIdentifier {cs : List Char} (h : isIdentifier cs = true) :
    nameSeparator ∉ cs := by
  intro mem
  cases cs with
  | nil => simp at mem
  | cons c cs =>
    simp only [isIdentifier, Bool.and_eq_true, List.all_eq_true] at h
    rcases List.mem_cons.1 mem with rfl | mem
    · exact absurd h.1 (by decide)
    · exact absurd (h.2 _ mem) (by decide)

variable {policy : CasePolicy} {names : List (String × ℕ)}

lemma checkNames_eq_ok_iff {seen : List String} :
    checkNames policy seen names = .ok () ↔
      (∀ n ∈ names.map Prod.fst, isIdentifier n.toList = true) ∧
      ((names.map Prod.fst).Pairwise fun a b => policy.namesEqual a b = false) ∧
      ∀ a ∈ seen, ∀ b ∈ names.map Prod.fst, policy.namesEqual a b = false := by
  induction names generalizing seen with
  | nil => simp [checkNames]
  | cons n ns ih =>
    obtain ⟨name, position⟩ := n
    simp only [List.map_cons, List.forall_mem_cons, List.pairwise_cons]
    constructor
    · intro checked
      simp only [checkNames] at checked
      split at checked
      · cases checked
      split at checked
      · cases checked
      split at checked
      · cases checked
      next _ identifier unseen =>
        obtain ⟨identifiers, distinct, fresh⟩ := ih.1 checked
        rw [List.forall_mem_cons] at fresh
        refine ⟨⟨by simpa using identifier, identifiers⟩, ⟨fresh.1, distinct⟩, ?_⟩
        intro a mem
        exact ⟨by simpa using fun h => unseen (List.any_eq_true.2 ⟨a, mem, h⟩), fresh.2 a mem⟩
    · rintro ⟨⟨identifier, identifiers⟩, ⟨apart, distinct⟩, fresh⟩
      have unseen : (seen.any (policy.namesEqual · name)) = false := by
        simpa using fun a mem => (fresh a mem).1
      simp only [checkNames, not_mem_of_isIdentifier identifier, identifier, unseen, if_false,
        Bool.not_true, Bool.false_eq_true]
      refine ih.2 ⟨identifiers, distinct, ?_⟩
      exact List.forall_mem_cons.2 ⟨apart, fun a mem => (fresh a mem).2⟩

/-- Names can be bound in one scope when they are identifiers of which no two are equal. -/
lemma validateNames_eq_ok_iff :
    validateNames policy names = .ok () ↔
      (∀ n ∈ names.map Prod.fst, isIdentifier n.toList = true) ∧
      (names.map Prod.fst).Pairwise fun a b => policy.namesEqual a b = false := by
  simp [validateNames, checkNames_eq_ok_iff]

end Formula
