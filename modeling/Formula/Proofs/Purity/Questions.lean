import Formula.Proofs.Purity.Verdict
import Mathlib.Data.Nat.Notation
import Mathlib.Tactic.Lemma

/-!
# How a verdict is reached

A verdict is reached by questions that lead to further questions: about the parts of an expression,
about the names and functions in it, and from a name to the expression it is bound to, in the view
of the bindings declared before it. Nothing in the questions bounds how deep they lead, so the
analysis is followed to a depth and given up there; what it comes to before tells how many questions
it took.
-/

namespace Formula

/-! ### Analyses -/

/-- What can be asked in a context. -/
inductive Question where
  | expr (e : Expr)
  | exprs (es : List Expr)
  | name (name : String)
  | function (name : String)
  /-- Whether the binding declared at a position of the innermost scope is pure. -/
  | binding (index : ℕ)

/-- What an analysis comes to: a verdict or the fault that prevents one, after so many questions. -/
structure Finding where
  verdict : Except Fault Bool
  questions : ℕ

/-- An analysis comes to a finding unless it is given up. -/
abbrev Analysis := Option Finding

namespace Analysis

/-- Comes to a verdict without a question. -/
def of (v : Except Fault Bool) : Analysis := some ⟨v, 0⟩

/-- Goes on to the second analysis if the first one comes to a pure verdict. -/
def both (x y : Analysis) : Analysis :=
  match x with
  | some ⟨.ok true, questions⟩ => y.map fun f => ⟨f.verdict, questions + f.questions⟩
  | other => other

/-- Takes a verdict that could not be reached for an impure one. -/
def settle (x : Analysis) : Analysis := x.map fun f => ⟨.ok (verdict f.verdict), f.questions⟩

/-- Counts one more question. -/
def count (x : Analysis) : Analysis := x.map fun f => ⟨f.verdict, f.questions + 1⟩

end Analysis

namespace Context

/-! ### Scopes as lists of bindings -/

/-- The bindings of the innermost scope, in the order of their declaration. -/
def declared : Context → List Binding
  | .binding b below => below.declared ++ [b]
  | _ => []

/-- What the innermost scope or layer lies upon. -/
def enclosing? : Context → Option Context
  | .bare => none
  | .root _ => none
  | .layer _ below => some below
  | .scope parent => some parent
  | .binding _ below => below.enclosing?

/-- The position of the first binding of the innermost scope that is under a name. -/
def index? (c : Context) (name : String) : Option ℕ :=
  c.declared.findIdx? fun b => c.policy.namesEqual b.name name

/-- The view of the bindings declared before a position of the innermost scope. -/
def before (c : Context) (index : ℕ) : Context := c.leave.scope.bind (c.declared.take index)

/-! ### Asking -/

/-- Answers a question, given a way to ask the next ones. -/
def answer (ask : Context → Question → Analysis) (c : Context) : Question → Analysis
  | .expr (.literal _) => Analysis.of (.ok true)
  | .expr (.number _) => Analysis.of (.ok true)
  | .expr (.text _) => Analysis.of (.ok true)
  | .expr .null => Analysis.of (.ok true)
  | .expr (.variable n) => ask c (.name n)
  | .expr (.unary _ e) => ask c (.expr e)
  | .expr (.spread e) => ask c (.expr e)
  | .expr (.cast e _) => ask c (.expr e)
  | .expr (.binary l _ r) => (ask c (.expr l)).both (ask c (.expr r))
  | .expr (.array es) => ask c (.exprs es)
  | .expr (.call f es) => (ask c (.function f)).both (ask c (.exprs es))
  | .expr (.invoke _ _) => Analysis.of (.ok false)
  | .exprs [] => Analysis.of (.ok true)
  | .exprs (e :: es) => (ask c (.expr e)).both (ask c (.exprs es))
  | .name n =>
    match c.index? n, c.enclosing? with
    | some i, _ => ask c (.binding i)
    | none, some outer => ask outer (.name n)
    | none, none => Analysis.of (.ok true)
  | .function f =>
    match c.index? f, c.enclosing? with
    | some _, _ => Analysis.of (.error (.naming (.namedValue f)))
    | none, some outer => ask outer (.function f)
    | none, none => Analysis.of (c.isFunctionPure f)
  | .binding i =>
    match c.declared[i]? with
    | some ⟨_, _, .deferred e _⟩ => (ask (c.before i) (.expr e)).settle
    | _ => Analysis.of (.ok true)

/-- The analysis of a question, given up at a depth. -/
def judge : (depth : ℕ) → Context → Question → Analysis
  | 0, _, _ => none
  | depth + 1, c, q => (c.answer (judge depth) q).count

/-! ### Kept values do not matter -/

@[simp] lemma declared_forget (c : Context) :
    c.forget.declared = c.declared.map Binding.forget := by
  induction c with
  | binding b below ih => simp [forget, declared, ih]
  | _ => rfl

@[simp] lemma enclosing?_forget (c : Context) : c.forget.enclosing? = c.enclosing?.map forget := by
  induction c with
  | binding b below ih => exact ih
  | _ => rfl

variable {c d : Context}

lemma declared_eq_of_forget (h : d.forget = c.forget) :
    d.declared.map Binding.forget = c.declared.map Binding.forget := by
  rw [← declared_forget, h, declared_forget]

lemma index?_eq_of_forget (h : d.forget = c.forget) (name : String) :
    d.index? name = c.index? name := by
  have under (c : Context) : c.index? name =
      (c.declared.map Binding.forget).findIdx? fun b => c.policy.namesEqual b.name name := by
    simp [index?, Function.comp_def]
  rw [under, under, declared_eq_of_forget h, policy_eq_of_forget h]

lemma before_eq_of_forget (h : d.forget = c.forget) (i : ℕ) :
    (d.before i).forget = (c.before i).forget := by
  simp only [before, forget_bind, forget, leave_eq_of_forget h, List.map_take,
    declared_eq_of_forget h]

lemma none_or_some_of_map_eq {α β : Type} {f : α → β} {x y : Option α} (h : x.map f = y.map f) :
    (x = none ∧ y = none) ∨ ∃ a b, x = some a ∧ y = some b ∧ f a = f b := by
  cases x <;> cases y <;> simp_all

lemma enclosing?_of_forget (h : d.forget = c.forget) :
    (d.enclosing? = none ∧ c.enclosing? = none) ∨
      ∃ d' c', d.enclosing? = some d' ∧ c.enclosing? = some c' ∧ d'.forget = c'.forget := by
  apply none_or_some_of_map_eq
  rw [← enclosing?_forget, h, enclosing?_forget]

lemma getElem?_declared_of_forget (h : d.forget = c.forget) (i : ℕ) :
    (d.declared[i]? = none ∧ c.declared[i]? = none) ∨
      ∃ b' b, d.declared[i]? = some b' ∧ c.declared[i]? = some b ∧ b'.forget = b.forget := by
  apply none_or_some_of_map_eq
  rw [← List.getElem?_map, ← List.getElem?_map, declared_eq_of_forget h]

/-- An answer asks the same in contexts alike. -/
lemma answer_eq_of_forget {ask : Context → Question → Analysis}
    (alike : ∀ {c d : Context}, d.forget = c.forget → ask d = ask c) (h : d.forget = c.forget)
    (q : Question) : d.answer ask q = c.answer ask q := by
  cases q with
  | expr e => cases e <;> simp only [answer, alike h]
  | exprs es => cases es <;> simp only [answer, alike h]
  | name n =>
    simp only [answer, index?_eq_of_forget h, alike h]
    obtain ⟨hd, hc⟩ | ⟨d', c', hd, hc, outer⟩ := enclosing?_of_forget h
    · rw [hd, hc]
    · cases c.index? n <;> simp only [hd, hc, alike outer]
  | function f =>
    simp only [answer, index?_eq_of_forget h, isFunctionPure_eq_of_forget h]
    obtain ⟨hd, hc⟩ | ⟨d', c', hd, hc, outer⟩ := enclosing?_of_forget h
    · rw [hd, hc]
    · cases c.index? f <;> simp only [hd, hc, alike outer]
  | binding i =>
    simp only [answer]
    obtain ⟨hd, hc⟩ | ⟨⟨_, _, content'⟩, ⟨_, _, content⟩, hd, hc, same⟩ :=
      getElem?_declared_of_forget h i
    · rw [hd, hc]
    · rw [hd, hc, alike (before_eq_of_forget h i)]
      cases content' <;> cases content <;> simp_all [Binding.forget]

/-- Whatever values are kept, the analysis goes the same way. -/
lemma judge_eq_of_forget (depth : ℕ) (h : d.forget = c.forget) : judge depth d = judge depth c := by
  induction depth generalizing c d with
  | zero => rfl
  | succ depth ih =>
    funext q
    rw [judge, judge, answer_eq_of_forget ih h]

end Context

end Formula
