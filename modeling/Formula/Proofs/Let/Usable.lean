import Formula.Proofs.Grammar.Parsing
import Formula.Proofs.Grammar.Quoting
import Formula.Proofs.Let.Flat
import Formula.Session

/-!
# Names that can be used

A name may be given to `LET` between quotes and used without them. What can be bound so is found
again, since the word in the body is read as the name that was bound. Only the words for the
constants may be bound and never used: in the body they stand for the constants.
-/

namespace Formula

open Evaluation Grammar Tokens

variable {name : String} {e : Expr}

/-! ### Reading the text -/

/-- `LET("name", 5, name)` as a text. -/
def letText (name : String) : String := "LET(\"" ++ name ++ "\", 5, " ++ name ++ ")"

/-- `LET("name", 5, body)` as an expression. -/
def Expr.letFive (name : String) (body : Expr) : Expr :=
  .call "LET" [.text name, .number 5, body]

lemma toList_letText (name : String) : (letText name).toList =
    'L' :: 'E' :: 'T' :: '(' :: '"' :: (name.toList ++
      '"' :: ',' :: ' ' :: '5' :: ',' :: ([' '] ++ (name.toList ++ [')']))) := by
  simp [letText]

lemma lexes_letText (identifier : isIdentifier name.toList) :
    Lexes 0 (letText name).toList [.identifier "LET", .openParen, .text name, .comma,
      .number 5, .comma, word name.toList, .closeParen] := by
  obtain ⟨quoted, bound⟩ := exists_next_quoted identifier 4
    (',' :: ' ' :: '5' :: ',' :: ([' '] ++ (name.toList ++ [')'])))
  rw [String.ofList_toList] at bound
  have blank : ∀ c ∈ [' '], isSpace c := List.forall_mem_singleton.2 rfl
  have closed : ∀ c ∈ [')'].head?, ¬ isWordPart c := by
    rintro _ ⟨⟩
    decide
  have used : next (quoted + 4) ([' '] ++ (name.toList ++ [')'])) = _ :=
    next_of_isIdentifier blank identifier closed
  rw [toList_letText]
  refine .found rfl (.found rfl (.found bound ?_))
  refine .found rfl (.found rfl (.found rfl (.found used ?_)))
  exact .found rfl (.done rfl)

lemma derives_letFive {t : Token} (body : Derives .atom [t, .closeParen] e [.closeParen]) :
    Derives (.level .or) [.identifier "LET", .openParen, .text name, .comma, .number 5, .comma,
      t, .closeParen] (.letFive name e) [] := by
  have argument {ts us : List Token} {e : Expr} (h : Derives .atom ts e us) :
      Derives .argument ts e us :=
    .argument (Expr.derives_signed (.unsigned (.base (.uncast (.called h .done)))))
  refine Expr.derives_signed (.unsigned (.base (.uncast (.called (.call (.some ?_)) .done))))
  exact .more (argument .text) (.more (argument .number) (.last (argument body)))

/-- The text is read as the expression whose body is what the name stands for as a word. -/
lemma parse_letText (identifier : isIdentifier name.toList)
    (body : Derives .atom [word name.toList, .closeParen] e [.closeParen]) :
    Expr.parse (letText name) = .ok (.letFive name e) := by
  have whole : Expr.source (letText name).toList = (letText name).toList := by
    rw [toList_letText]
    rfl
  rw [Expr.parse, whole, Expr.ofText]
  exact Expr.ofTokens_of_derives (ofText_spells_iff.2 (lexes_letText identifier))
    (derives_letFive body)

/-- Names that are no words for constants are read as themselves. -/
lemma parse_letText_of_not_isConstant (identifier : isIdentifier name.toList)
    (other : ¬ IsConstant name) :
    Expr.parse (letText name) = .ok (.letFive name (.variable name)) := by
  refine parse_letText identifier ?_
  rw [word_eq_identifier_iff.2 ⟨other, rfl⟩]
  exact .name nofun

/-! ### Evaluating the expression -/

/-- The binding of a name to `5`. -/
def Binding.five (name : String) : Binding := ⟨name, 1, .deferred (.number 5) none⟩

section

variable {root : Root} (identifier : isIdentifier name.toList)
  (known : root.registry.get? "LET" = some .letForm) (history : List Execution)
include identifier known

/-- Over a root that serves `LET`, the body is evaluated in a scope with the name. -/
lemma runFrom_letFive (depth : ℕ) :
    (Expr.evaluate (depth + 2) (.letFive name e)).runFrom ⟨.root root, history⟩ =
      (((Expr.evaluate (depth + 1) e).runFrom
          ⟨.binding (.five name) (.scope (.root root)), history⟩).1,
        ((Expr.evaluate (depth + 1) e).runFrom
          ⟨.binding (.five name) (.scope (.root root)), history⟩).2.within .leave) := by
  let s : State := ⟨.root root, history⟩
  have callee : s.context.function? "LET" = .ok (some .letForm) := congrArg Except.ok known
  have room : s.context.depth < maxScopeDepth := show 0 < maxScopeDepth by decide
  have fit : validateNames s.context.policy [(name, 1)] = .ok () :=
    validateNames_eq_ok_iff.2 ⟨by simpa using identifier, by simp⟩
  have pushed : s.context.push [.five name] = .ok (.binding (.five name) (.scope (.root root))) :=
    Context.push_eq_ok_iff.2 ⟨room, fit, rfl⟩
  have applied : Function.applyLet (Expr.evaluate (depth + 1)) [.text name, .number 5, e] =
      inScope [.five name] (Expr.evaluate (depth + 1) e) :=
    Expr.applyLet_of_even _ [.text name, .number 5] (by simp) (by simp) e
  calc (Expr.evaluate (depth + 2) (.letFive name e)).runFrom s
      = (Function.letForm.apply (Expr.evaluate (depth + 1)) [.text name, .number 5, e]).runFrom
          s := Expr.runFrom_call callee _
    _ = (inScope [.five name] (Expr.evaluate (depth + 1) e)).runFrom s :=
      congrArg (runFrom · s) applied
    _ = _ := runFrom_inScope_of_ok pushed

/-- The name is found again. -/
lemma runFrom_letFive_variable (depth : ℕ) :
    (Expr.evaluate (depth + 3) (.letFive name (.variable name))).runFrom ⟨.root root, history⟩ =
      (.ok (.number 5), ⟨.root root, history⟩) := by
  let below : Context := .scope (.root root)
  have found : below.policy.namesEqual (Binding.five name).name name = true :=
    CasePolicy.namesEqual_refl _ _
  have body : (Expr.evaluate (depth + 2) (.variable name)).runFrom
      ⟨.binding (.five name) below, history⟩ = (.ok (.number 5),
        ⟨.binding ((Binding.five name).settle below (.ok (.number 5))) below, history⟩) := by
    change (Context.binding (.five name) below).lookup (Expr.evaluate (depth + 1)) name history = _
    rw [Context.lookup, if_pos found]
    rfl
  rw [runFrom_letFive identifier known history (depth + 1), body]
  rfl

lemma run_letText_of_not_isConstant (other : ¬ IsConstant name) :
    root.run history (letText name) = (.ok (.number 5), history) := by
  have run := runFrom_letFive_variable identifier known history 99997
  have deep : 99997 + 3 = evaluationDepth := rfl
  rw [deep] at run
  simp only [Root.run, parse_letText_of_not_isConstant identifier other, run]

end

/-- **A name that can be bound can be used, unless it is a word for a constant.** The texts that are
read as one identifier, from the first byte to the last, are just the names that pass the check and
are no words for constants, and the identifier is the name itself. The text that binds such a name
to `5` between quotes and asks for it without them can be read, and over every root that serves
`LET` it comes to `5` and executes nothing. -/
theorem Root.run_letText_of_validateNames (policy : CasePolicy) (position : ℕ) (name : String) :
    (∀ spelling, Tokens.ofText name.toList =
        .cons (.identifier spelling) 0 (width name.toList) (.done (width name.toList)) ↔
      validateNames policy [(name, position)] = .ok () ∧ ¬ IsConstant name ∧ spelling = name) ∧
    (validateNames policy [(name, position)] = .ok () → ¬ IsConstant name →
      Expr.parse (letText name) = .ok (.letFive name (.variable name)) ∧
      ∀ (root : Root) (history : List Execution), root.registry.get? "LET" = some .letForm →
        root.run history (letText name) = (.ok (.number 5), history)) := by
  have accepted : validateNames policy [(name, position)] = .ok () ↔ isIdentifier name.toList := by
    simp [validateNames_eq_ok_iff]
  rw [accepted]
  refine ⟨fun spelling => ofText_eq_identifier_iff, fun identifier other => ?_⟩
  exact ⟨parse_letText_of_not_isConstant identifier other, fun root history known =>
    run_letText_of_not_isConstant identifier known history other⟩

/-- `LET("LET", 5, LET)` binds the name of the function that it calls. -/
theorem Root.run_letText_of_validateNames_let :
    validateNames .insensitive [("LET", 1)] = .ok () ∧ ¬ IsConstant "LET" ∧
    ({} : Root).registry.get? "LET" = some .letForm ∧
    Tokens.ofText "LET".toList = .cons (.identifier "LET") 0 3 (.done 3) ∧
    Expr.parse (letText "LET") = .ok (.letFive "LET" (.variable "LET")) ∧
    Root.run {} [] (letText "LET") = (.ok (.number 5), []) := by
  have accepted : validateNames .insensitive [("LET", 1)] = .ok () := rfl
  have other : ¬ IsConstant "LET" := by decide
  obtain ⟨reads, uses⟩ := run_letText_of_validateNames .insensitive 1 "LET"
  obtain ⟨parsed, runs⟩ := uses accepted other
  exact ⟨accepted, other, rfl, (reads "LET").2 ⟨accepted, other, rfl⟩, parsed, runs {} [] rfl⟩

/-- `TRUE` can be bound, but it is read as the constant: `LET("TRUE", 5, TRUE)` is true. -/
theorem Root.run_letText_ne_of_constant :
    validateNames .sensitive [("TRUE", 1)] = .ok () ∧
    Tokens.ofText "TRUE".toList = .cons .true 0 4 (.done 4) ∧
    Root.run {} [] (letText "TRUE") = (.ok (.boolean true), []) ∧
    Root.run {} [] (letText "TRUE") ≠ (.ok (.number 5), []) := by
  have parsed : Expr.parse (letText "TRUE") = .ok (.letFive "TRUE" (.literal (.boolean true))) :=
    parse_letText rfl .true
  have run : (Expr.evaluate (99998 + 2) (.letFive "TRUE" (.literal (.boolean true)))).runFrom
      ⟨.root {}, []⟩ = _ := runFrom_letFive rfl rfl [] 99998
  have deep : 99998 + 2 = evaluationDepth := rfl
  rw [deep] at run
  have answer : Root.run {} [] (letText "TRUE") = (.ok (.boolean true), []) := by
    simp only [Root.run, parsed, run]
    rfl
  refine ⟨rfl, rfl, answer, ?_⟩
  rw [answer]
  simp

end Formula
