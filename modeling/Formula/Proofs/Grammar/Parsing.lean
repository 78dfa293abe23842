import Formula.Proofs.Grammar.Completeness

/-!
# The parser and its grammar

The parser accepts the token sequences that the grammar derives and no others, and answers the
expression that the grammar prescribes. The grammar is not ambiguous, since the parser is a
function; and a text on which the lexer breaks is not accepted, since no phrase is read across a
break and the end of the text is looked for behind the phrase.
-/

namespace Formula

open Grammar Tokens

/-! ### Token streams -/

lemma Tokens.eq_done_of_spells {s : Tokens} (h : s.Spells []) : ∃ position, s = .done position := by
  cases h
  exact ⟨_, rfl⟩

/-- Every sequence of tokens is spelled by some stream. -/
lemma Tokens.exists_spells (ts : List Token) : ∃ s : Tokens, s.Spells ts := by
  induction ts with
  | nil => exact ⟨.done 0, .done⟩
  | cons t ts ih =>
    obtain ⟨s, spells⟩ := ih
    exact ⟨.cons t 0 0 s, .cons spells⟩

lemma Tokens.Spells.size_eq {s : Tokens} {ts : List Token} (h : s.Spells ts) :
    s.size = ts.length := by
  induction h with
  | done => rfl
  | cons _ ih => exact congrArg (· + 1) ih

lemma Tokens.Spells.unique {s : Tokens} {ts us : List Token} (h : s.Spells ts)
    (h' : s.Spells us) : ts = us := by
  induction h generalizing us with
  | done =>
    cases h'
    rfl
  | cons _ ih =>
    cases h' with
    | cons more => rw [ih more]

namespace Expr

/-- An accepted stream spells a sequence of tokens that the grammar derives. -/
lemma derives_of_ofTokens {s : Tokens} {e : Expr} (h : ofTokens s = .ok e) :
    ∃ ts, s.Spells ts ∧ Derives (.level .or) ts e [] := by
  obtain ⟨s₁, ready, h⟩ := bind_eq_ok.1 h
  obtain ⟨⟨e', s₂⟩, read, h⟩ := bind_eq_ok.1 h
  cases eq_of_ready ready
  have follows : Reader.Follows (s.size + 1) (fun _ : Unit => Reader.expr (s.size + 1)) _ _ :=
    Reader.follows_expr fun _ => le_rfl
  have judged := follows ready (Nat.lt_succ_self _)
  rw [read] at judged
  cases judged with
  | @ok ts _ _ passes _ phrase _ =>
    cases s₂ with
    | done position =>
      cases h
      exact ⟨ts ++ [], passes.spells .done, phrase [] nofun⟩
    | _ => cases h

/-- A stream that spells what the grammar derives is accepted. -/
lemma ofTokens_of_derives {s : Tokens} {ts : List Token} {e : Expr} (spells : s.Spells ts)
    (h : Derives (.level .or) ts e []) : ofTokens s = .ok e := by
  have short : ts.length < s.size + 1 := by
    rw [spells.size_eq]
    exact Nat.lt_succ_self _
  obtain ⟨s', read, ended⟩ := Reader.finds_expr spells short ⟨h, nofun⟩
  obtain ⟨position, rfl⟩ := eq_done_of_spells ended
  exact bind_eq_ok.2 ⟨_, spells.ready_eq, bind_eq_ok.2 ⟨_, read, rfl⟩⟩

/-- No sequence of tokens stands for two expressions. -/
lemma derives_unique {ts : List Token} {e e' : Expr} (h : Derives (.level .or) ts e [])
    (h' : Derives (.level .or) ts e' []) : e = e' := by
  obtain ⟨s, spells⟩ := Tokens.exists_spells ts
  have eq := (ofTokens_of_derives spells h).symm.trans (ofTokens_of_derives spells h')
  cases eq
  rfl

/-- That a text is a sentence of the grammar, which stands for an expression. -/
def Sentence (cs : List Char) (e : Expr) : Prop :=
  ∃ ts, Lexes 0 cs ts ∧ Derives (.level .or) ts e []

/-- The sentences are accepted and nothing else is. -/
lemma ofText_eq_ok_iff_sentence {cs : List Char} {e : Expr} :
    ofText cs = .ok e ↔ Sentence cs e := by
  constructor
  · intro accepted
    obtain ⟨ts, spells, derives⟩ := derives_of_ofTokens accepted
    exact ⟨ts, ofText_spells_iff.1 spells, derives⟩
  · rintro ⟨ts, lexes, derives⟩
    exact ofTokens_of_derives (ofText_spells_iff.2 lexes) derives

/-- The parser accepts exactly the grammar and builds the trees that it prescribes; each accepted
sequence of tokens has one tree, and a text that breaks into no sequence of tokens is refused. -/
theorem ofText_eq_ok_iff_derives :
    (∀ (cs : List Char) (ts : List Token), Lexes 0 cs ts →
      ∀ e, ofText cs = .ok e ↔ Derives (.level .or) ts e []) ∧
    (∀ (ts : List Token) (e e' : Expr), Derives (.level .or) ts e [] →
      Derives (.level .or) ts e' [] → e = e') ∧
    (∀ cs : List Char, (∀ ts, ¬ Lexes 0 cs ts) → ∀ e, ofText cs ≠ .ok e) := by
  refine ⟨?accepts, fun ts e e' => derives_unique, ?refuses⟩
  case accepts =>
    intro cs ts lexes e
    have spells := ofText_spells_iff.2 lexes
    constructor
    · intro accepted
      obtain ⟨us, spells', derives⟩ := derives_of_ofTokens accepted
      rwa [spells.unique spells']
    · exact ofTokens_of_derives spells
  case refuses =>
    intro cs breaks e accepted
    obtain ⟨ts, spells, _⟩ := derives_of_ofTokens accepted
    exact breaks ts (ofText_spells_iff.1 spells)

/-- An operand stands for itself at every level of operators. -/
lemma derives_signed {ts us : List Token} {e : Expr} (h : Derives .signed ts e us) :
    Derives (.level .or) ts e us :=
  .level (.level (.level (.level (.level (.level h .done) .done) .done) .done) .done) .done

/-- `-x^!y(...z)::Int` is the negation of a power, and the cast is a part of the exponent. A lone
`&` is no token. -/
theorem ofText_eq_ok_iff_derives_power :
    let cs := ['-', 'x', '^', '!', 'y', '(', '.', '.', '.', 'z', ')', ':', ':', 'I', 'n', 't']
    let ts := [.minus, .identifier "x", .caret, .bang, .identifier "y", .openParen, .ellipsis,
      .identifier "z", .closeParen, .doubleColon, .identifier "Int"]
    let e : Expr := .unary .minus (.binary (.variable "x") .pow
      (.unary .not (.cast (.call "y" [.spread (.variable "z")]) .integer)))
    (Lexes 0 cs ts ∧ ofText cs = .ok e) ∧
      (∀ e', Derives (.level .or) ts e' [] → e' = e) ∧
      (∀ ts, ¬ Lexes 0 ['&'] ts) ∧ ofText ['&'] ≠ .ok e := by
  intro cs ts e
  have lexes : Lexes 0 cs ts := by
    repeat' first
      | exact .done rfl
      | refine .found rfl ?_
  have name {x : String} {us : List Token} (next : us.head? ≠ some .openParen) :
      Derives .called (.identifier x :: us) (.variable x) us := .called (.name next) .done
  have word : NamesType "Int" .integer := ⟨"int", by decide, by decide +kernel⟩
  have derives : Derives (.level .or) ts e [] := by
    apply derives_signed
    refine .sign (by decide) (.unsigned (.power (.uncast (name nofun)) ?_))
    refine .sign (by decide) (.unsigned (.base (.cast (.called ?_ .done) word)))
    refine .call (.some (.last (.spread (derives_signed ?_))))
    exact .unsigned (.base (.uncast (name nofun)))
  have breaks : ∀ ts, ¬ Lexes 0 ['&'] ts := by
    rintro _ (ends | ⟨found, _⟩)
    · cases ends
    · cases found
  obtain ⟨accepts, unique, refuses⟩ := ofText_eq_ok_iff_derives
  exact ⟨⟨lexes, (accepts cs ts lexes e).2 derives⟩, fun e' h => unique ts e' e h derives, breaks,
    refuses _ breaks e⟩

end Expr

end Formula
