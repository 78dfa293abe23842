import Formula.Proofs.Context.Chain
import Formula.Proofs.Grammar.Words
import Mathlib.Data.List.Basic

/-!
# Letter case of names

Where letter case is disregarded, bindings and variables are compared by lower-case forms and
functions are found under upper-case keys. On identifiers both come to the case of the letters from
`a` to `z`, so all that a context does with a name, it does with every other spelling of the name,
down to the memos that it leaves behind; only the faults about the name keep its spelling.
-/

namespace Formula

/-! ### Two ways of folding letters -/

/-- That two texts are the same but for the case of seven-bit letters. -/
def AlikeInCase (a b : String) : Prop := a.toList.map Char.toLower = b.toList.map Char.toLower

namespace Text

/-- In which case a seven-bit letter was does not matter once its case is changed. -/
lemma toUpper_toLower {c : Char} (small : c.toNat < 0x80) :
    c.toLower.toUpper = c.toUpper ∧ c.toUpper.toLower = c.toLower := by
  have all : ∀ n < 0x80, (Char.ofNat n).toLower.toUpper = (Char.ofNat n).toUpper ∧
      (Char.ofNat n).toUpper.toLower = (Char.ofNat n).toLower := by
    decide
  have same := all c.toNat small
  rwa [Char.ofNat_toNat] at same

variable {cs ds : List Char}

/-- Texts of seven-bit characters agree in lower case just when they agree in upper case. -/
lemma map_toLower_eq_iff (small : ∀ c ∈ cs, c.toNat < 0x80) (small' : ∀ d ∈ ds, d.toNat < 0x80) :
    cs.map Char.toLower = ds.map Char.toLower ↔ cs.map Char.toUpper = ds.map Char.toUpper := by
  have raise {es : List Char} (small : ∀ e ∈ es, e.toNat < 0x80) :
      (es.map Char.toLower).map Char.toUpper = es.map Char.toUpper := by
    rw [List.map_map]
    exact List.map_congr_left fun e mem => (toUpper_toLower (small e mem)).1
  have lower {es : List Char} (small : ∀ e ∈ es, e.toNat < 0x80) :
      (es.map Char.toUpper).map Char.toLower = es.map Char.toLower := by
    rw [List.map_map]
    exact List.map_congr_left fun e mem => (toUpper_toLower (small e mem)).2
  constructor
  · intro same
    rw [← raise small, ← raise small', same]
  · intro same
    rw [← lower small, ← lower small', same]

lemma lowerText_of_small (small : ∀ c ∈ cs, c.toNat < 0x80) :
    lowerText cs = cs.map Char.toLower := by
  rw [lowerText, List.map_eq_flatMap]
  exact List.flatMap_congr fun c mem => if_pos (small c mem)

lemma flatMap_upper_of_small (small : ∀ c ∈ cs, c.toNat < 0x80) :
    cs.flatMap upper = cs.map Char.toUpper := by
  rw [List.map_eq_flatMap]
  exact List.flatMap_congr fun c mem => if_pos (small c mem)

end Text

/-! ### Spellings of a name -/

section

variable {a b : String}

lemma toNat_lt_of_isIdentifier {name : List Char} (identifier : isIdentifier name) :
    ∀ c ∈ name, c.toNat < 0x80 := fun c mem =>
  Nat.lt_succ_of_le
    (Tokens.toNat_le_of_isWordPart ((Tokens.isIdentifier_iff.1 identifier).2 c mem))

/-- Without regard to case, identifiers are the same name when they differ in the case of letters
alone. -/
lemma namesEqual_iff_alikeInCase (ha : isIdentifier a.toList) (hb : isIdentifier b.toList) :
    CasePolicy.insensitive.namesEqual a b ↔ AlikeInCase a b := by
  rw [CasePolicy.namesEqual, beq_iff_eq, Text.lowerText_of_small (toNat_lt_of_isIdentifier ha),
    Text.lowerText_of_small (toNat_lt_of_isIdentifier hb)]
  rfl

/-- Identifiers that differ in the case of letters alone, and no others, have the same key. -/
lemma key_eq_iff_alikeInCase (ha : isIdentifier a.toList) (hb : isIdentifier b.toList) :
    Registry.key a = Registry.key b ↔ AlikeInCase a b := by
  have small := toNat_lt_of_isIdentifier ha
  have small' := toNat_lt_of_isIdentifier hb
  rw [AlikeInCase, Text.map_toLower_eq_iff small small', Registry.key, Registry.key,
    Text.upperText, Text.upperText, String.ofList_inj,
    Text.flatMap_upper_of_small small, Text.flatMap_upper_of_small small']

end

/-! ### One name to a context -/

/-- That outcomes under two names are the same, or failures of one form about each of them. -/
def SameBut {ε α : Type} (failure : String → ε) (a b : String) (x y : Except ε α) : Prop :=
  x = y ∨ x = .error (failure a) ∧ y = .error (failure b)

namespace Context

/-- That layers leave it to the contexts below how letters compare. -/
def KeepsPolicy : Context → Prop
  | .bare => True
  | .root _ => True
  | .layer l below => l.policy? = none ∧ below.KeepsPolicy
  | .scope parent => parent.KeepsPolicy
  | .binding _ below => below.KeepsPolicy

lemma KeepsPolicy.of_bind {c : Context} {bindings : List Binding}
    (h : (c.bind bindings).KeepsPolicy) : c.KeepsPolicy := by
  induction bindings generalizing c with
  | nil => exact h
  | cons b bindings ih => exact ih (c := .binding b c) h

/-- A chain without policies of its own compares letters as its root does. -/
lemma IsChain.policy_eq {root : Root} {scopes : List Scope} {c : Context}
    (chain : IsChain root scopes c) (keeps : c.KeepsPolicy) : c.policy = root.config.policy := by
  induction chain with
  | root => rfl
  | layer l _ ih =>
    rw [policy, keeps.1]
    exact ih keeps.2
  | push _ pushed ih =>
    obtain ⟨_, _, rfl⟩ := push_eq_ok_iff.1 pushed
    rw [policy_bind]
    exact ih keeps.of_bind

/-- That two names are one name to a context, up to the spelling of names in faults. -/
structure TreatsAlike (c : Context) (a b : String) : Prop where
  /-- Looking up either name has the same outcome, unless neither stands for anything, and the same
  memos are left behind. -/
  lookup : ∀ (evaluate : Evaluator) (history : List Execution),
    SameBut (fun name => .fault (.unresolved name)) a b (c.lookup evaluate a history).1
      (c.lookup evaluate b history).1 ∧
    (c.lookup evaluate a history).2 = (c.lookup evaluate b history).2
  isNamePure : c.isNamePure a = c.isNamePure b
  /-- The same function is found, or none, unless both names are bound. -/
  function? : SameBut (fun name => .naming (.namedValue name)) a b (c.function? a) (c.function? b)
  /-- The verdict on the function is the same, unless both names are bound or neither has a
  function. -/
  isFunctionPure :
    SameBut (fun name => .naming (.namedValue name)) a b (c.isFunctionPure a)
      (c.isFunctionPure b) ∨
    SameBut (fun name => .evaluation (.unknownFunction name)) a b (c.isFunctionPure a)
      (c.isFunctionPure b)

variable {a b : String}

/-- Names with the same lower-case form and the same key are one name to a root that disregards
case. -/
lemma treatsAlike_root {root : Root} (insensitive : root.config.policy = .insensitive)
    (lower : Text.lowerText a.toList = Text.lowerText b.toList)
    (key : Registry.key a = Registry.key b) : (Context.root root).TreatsAlike a b where
  lookup := by
    intro evaluate history
    refine ⟨?_, rfl⟩
    simp only [Context.lookup, Root.lookup, insensitive, CasePolicy.namesEqual, lower]
    split
    · exact .inl rfl
    · exact .inr ⟨rfl, rfl⟩
  isNamePure := rfl
  function? := by
    refine .inl ?_
    simp only [Context.function?, Registry.get?, key]
  isFunctionPure := by
    refine .inr ?_
    simp only [Context.isFunctionPure, Registry.get?, key]
    split
    · exact .inl rfl
    · exact .inr ⟨rfl, rfl⟩

namespace TreatsAlike

variable {below : Context}

lemma layer (alike : below.TreatsAlike a b) (l : Layer) :
    (Context.layer l below).TreatsAlike a b where
  lookup := by
    intro evaluate history
    obtain ⟨outcome, left⟩ := alike.lookup evaluate history
    exact ⟨outcome, by simp only [Context.lookup, left]⟩
  isNamePure := alike.isNamePure
  function? := alike.function?
  isFunctionPure := alike.isFunctionPure

lemma scope (alike : below.TreatsAlike a b) : (Context.scope below).TreatsAlike a b where
  lookup := by
    intro evaluate history
    obtain ⟨outcome, left⟩ := alike.lookup evaluate history
    exact ⟨outcome, by simp only [Context.lookup, left]⟩
  isNamePure := alike.isNamePure
  function? := alike.function?
  isFunctionPure := alike.isFunctionPure

/-- A binding that is under both names or under neither keeps them one name. -/
lemma binding {d : Binding} (alike : below.TreatsAlike a b)
    (same : below.policy.namesEqual d.name a = below.policy.namesEqual d.name b) :
    (Context.binding d below).TreatsAlike a b where
  lookup := by
    intro evaluate history
    obtain ⟨outcome, left⟩ := alike.lookup evaluate history
    simp only [Context.lookup, same, left]
    split
    · exact ⟨.inl rfl, rfl⟩
    · exact ⟨outcome, rfl⟩
  isNamePure := by
    simp only [Context.isNamePure, same, alike.isNamePure]
  function? := by
    simp only [Context.function?, same]
    split
    · exact .inr ⟨rfl, rfl⟩
    · exact alike.function?
  isFunctionPure := by
    simp only [Context.isFunctionPure, same]
    split
    · exact .inl (.inr ⟨rfl, rfl⟩)
    · exact alike.isFunctionPure

end TreatsAlike

/-- Names with the same lower-case form and the same key are one name wherever case is
disregarded. -/
lemma treatsAlike_of_policy {c : Context} (keeps : c.KeepsPolicy)
    (insensitive : c.policy = .insensitive)
    (lower : Text.lowerText a.toList = Text.lowerText b.toList)
    (key : Registry.key a = Registry.key b) : c.TreatsAlike a b := by
  induction c with
  | bare => cases insensitive
  | root root => exact treatsAlike_root insensitive lower key
  | layer l below ih =>
    rw [policy, keeps.1] at insensitive
    exact (ih keeps.2 insensitive).layer l
  | scope parent ih => exact (ih keeps insensitive).scope
  | binding d below ih =>
    have insensitive : below.policy = .insensitive := insensitive
    refine (ih keeps insensitive).binding ?_
    rw [insensitive, CasePolicy.namesEqual, CasePolicy.namesEqual, lower]

/-- **Where case is disregarded, every spelling is the same name.** On identifiers the comparison of
lower-case forms and the upper-case key make the same distinctions: both come to letter case. In a
chain of scopes over a root that disregards case, whatever its variables and functions, with layers
that leave letters alone, identifiers that differ in letter case alone are one name: look-ups have
the same outcome and leave the same memos, the verdicts on purity are the same, and the same
function is found. Only the faults that there is no such name, that the name is a value's, and that
there is no such function differ, in the spelling of the name they are about. -/
theorem treatsAlike_of_alikeInCase {root : Root} {scopes : List Scope} {c : Context}
    (chain : IsChain root scopes c) (keeps : c.KeepsPolicy)
    (insensitive : root.config.policy = .insensitive) (a b : String)
    (ha : isIdentifier a.toList) (hb : isIdentifier b.toList) :
    (CasePolicy.insensitive.namesEqual a b ↔ AlikeInCase a b) ∧
    (Registry.key a = Registry.key b ↔ CasePolicy.insensitive.namesEqual a b) ∧
    (AlikeInCase a b → c.TreatsAlike a b) := by
  have folded := namesEqual_iff_alikeInCase ha hb
  have keyed := key_eq_iff_alikeInCase ha hb
  refine ⟨folded, keyed.trans folded.symm, fun alike => ?_⟩
  have lower : Text.lowerText a.toList = Text.lowerText b.toList := beq_iff_eq.1 (folded.2 alike)
  exact treatsAlike_of_policy keeps ((chain.policy_eq keeps).trans insensitive) lower
    (keyed.2 alike)

/-- In a scope over such a root `Total`, bound to the variable `RATE`, is found as `total` and as
`TOTAL`, and refused as a function under both. -/
theorem treatsAlike_of_alikeInCase_deferred :
    let root : Root := { vars := [("rate", .null)], config := { policy := .insensitive } }
    let total : Binding := ⟨"Total", 1, .deferred (.variable "RATE") none⟩
    let context : Context := (Context.root root).scope.bind [total]
    IsChain root [⟨.root root, [total]⟩] context ∧ context.KeepsPolicy ∧
    root.config.policy = .insensitive ∧ isIdentifier "total".toList ∧
    isIdentifier "TOTAL".toList ∧ AlikeInCase "total" "TOTAL" ∧
    Registry.key "total" = Registry.key "TOTAL" ∧ context.TreatsAlike "total" "TOTAL" ∧
    (context.lookup (Expr.evaluate 9) "TOTAL" []).1.toOption.map Value.kind = some .null ∧
    context.function? "total" = .error (.naming (.namedValue "total")) ∧
    context.function? "TOTAL" = .error (.naming (.namedValue "TOTAL")) := by
  intro root total context
  have pushed : (Context.root root).push [total] = .ok context := by
    rw [push_eq_ok_iff, validateNames_eq_ok_iff]
    exact ⟨by decide, by decide, rfl⟩
  have chain := IsChain.push .root pushed
  have alike : AlikeInCase "total" "TOTAL" := rfl
  obtain ⟨same, keyed, treated⟩ := treatsAlike_of_alikeInCase chain trivial rfl "total" "TOTAL"
    (by decide) (by decide)
  have refused {name : String} (bound : CasePolicy.insensitive.namesEqual "Total" name) :
      context.function? name = .error (.naming (.namedValue name)) := if_pos bound
  exact ⟨chain, trivial, rfl, by decide, by decide, alike, keyed.2 (same.2 alike), treated alike,
    by decide +kernel, refused (by decide +kernel), refused (by decide +kernel)⟩

end Context

end Formula
