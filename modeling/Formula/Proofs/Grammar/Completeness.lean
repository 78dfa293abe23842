import Formula.Proofs.Grammar.Soundness

/-!
# Every phrase is read

A reader takes the longest phrase it can, so it finds a phrase only where what follows could not
make it longer. How tightly the token that follows binds decides this: it must bind looser than the
form of the phrase. A counter above the number of tokens never runs out, since a reader is entered
again only behind a token.
-/

namespace Formula

open Tokens

/-! ### What may follow a phrase -/

/-- How tightly a token binds what stands in front of it; nothing for those that do not. -/
def Token.binding : Token → ℕ
  | .or => 1
  | .and => 2
  | .equal | .notEqual => 3
  | .less | .lessEqual | .greater | .greaterEqual => 4
  | .plus | .minus => 5
  | .star | .slash | .percent => 6
  | .caret => 7
  | .doubleColon => 8
  | .openParen => 9
  | _ => 0

/-- What a token can start: an operand, an operand with a sign, an argument or nothing. -/
def Token.entry : Token → ℕ
  | .number _ | .identifier _ | .text _ | .true | .false | .null | .openParen | .openBracket
  | .colon => 3
  | .plus | .minus | .bang => 2
  | .ellipsis => 1
  | _ => 0

/-- The tokens that close a list. -/
def Token.Closes (t : Token) : Prop := t = .closeParen ∨ t = .closeBracket

namespace Grammar

/-- How tightly the signs of a level bind. -/
def Level.rank : Level → ℕ
  | .or => 1
  | .and => 2
  | .equality => 3
  | .order => 4
  | .sum => 5
  | .product => 6

/-- How deep in a phrase of a form its first token stands, among those of `Token.entry`. -/
def Form.entry : Form → ℕ
  | .argument => 1
  | .level _ | .signed => 2
  | .power | .cast | .called | .atom => 3

lemma Form.entry_pos (f : Form) : 0 < f.entry := by
  cases f <;> exact Nat.succ_pos _

/-- How tightly a token must bind to make a phrase of a form longer. -/
def Form.rank : Form → ℕ
  | .argument => 1
  | .level l => l.rank
  | .signed => 7
  | .power => 7
  | .cast => 8
  | .called => 9
  | .atom => 10

/-- That what follows a phrase of a form does not make it longer. -/
def Form.Ends (f : Form) (us : List Token) : Prop := ∀ t ∈ us.head?, t.binding < f.rank

variable {f g : Form} {l : Level} {t : Token} {us : List Token}

lemma Form.Ends.of_le (h : f.Ends us) (le : f.rank ≤ g.rank) : g.Ends us :=
  fun t mem => Nat.lt_of_lt_of_le (h t mem) le

lemma ends_cons (h : t.binding < f.rank) : f.Ends (t :: us) := by
  rintro _ ⟨⟩
  exact h

lemma Form.Ends.ne (h : f.Ends us) (ge : f.rank ≤ t.binding) : us.head? ≠ some t :=
  fun head => absurd (h t head) (Nat.not_lt.2 ge)

lemma Form.rank_pos (f : Form) : 0 < f.rank := by
  rcases f with (_ | _ | _ | _ | _ | _) | _ <;> decide

lemma Level.rank_lt_operand (l : Level) : l.rank < l.operand.rank := by
  cases l <;> decide

lemma Level.binding_eq {op : BinaryOp} (h : (t, op) ∈ l.signs) : t.binding = l.rank := by
  have all : ∀ sign ∈ l.signs, sign.1.binding = l.rank := by
    cases l <;> simp [Level.signs, Level.rank, Token.binding]
  exact all _ h

/-- A sign ends the operand in front of it. -/
lemma Chain.ends {a e : Expr} {ts : List Token} (h : Chain l a ts e us)
    (ends : (Form.level l).Ends us) : l.operand.Ends ts := by
  cases h with
  | done => exact ends.of_le l.rank_lt_operand.le
  | more sign _ _ => exact ends_cons (Level.binding_eq sign ▸ l.rank_lt_operand)

/-- An opening parenthesis ends what is called. -/
lemma Calls.ends {a e : Expr} {ts : List Token} (h : Calls a ts e us)
    (ends : Form.called.Ends us) : Form.atom.Ends ts := by
  cases h with
  | done => exact ends.of_le (by decide)
  | more _ _ => exact ends_cons (by decide)

lemma entry_of_mem_signs {op : UnaryOp} (h : (t, op) ∈ signs) : t.entry = 2 := by
  have all : ∀ sign ∈ signs, sign.1.entry = 2 := by simp [signs, Token.entry]
  exact all _ h

/-- A phrase does not start with a token that has no place there. -/
lemma Derives.head?_ne {f : Form} {ts us : List Token} {e : Expr} (h : Derives f ts e us)
    (low : t.entry < f.entry) : ts.head? ≠ some t := by
  match h with
  | .level (l := l) first _ => exact first.head?_ne (by cases l <;> exact low)
  | .unsigned operand => exact operand.head?_ne (Nat.lt_succ_of_lt low)
  | .power operand _ => exact operand.head?_ne low
  | .base operand => exact operand.head?_ne low
  | .cast operand _ => exact operand.head?_ne low
  | .uncast operand => exact operand.head?_ne low
  | .called first _ => exact first.head?_ne low
  | .argument value => exact value.head?_ne (Nat.lt_succ_of_lt low)
  | .sign mem _ =>
    rintro ⟨⟩
    exact absurd low (entry_of_mem_signs mem ▸ lt_irrefl _)
  | .spread _ | .number | .text | .null | .true | .false | .parentheses _ | .colon | .call _
  | .name _ | .array _ =>
    rintro ⟨⟩
    exact absurd low (lt_irrefl _)

lemma Sequence.head?_ne {close : Token} {ts : List Token} {es : List Expr}
    (h : Sequence f close ts es us) (low : t.entry < f.entry) : ts.head? ≠ some t := by
  cases h with
  | last item => exact item.head?_ne low
  | more item _ => exact item.head?_ne low

end Grammar

namespace Reader

open Grammar

variable {α : Type} {n count : ℕ}

/-- That a reader finds the phrases of a kind that start a stream of less than `n` tokens. -/
def Finds (n : ℕ) (reader : Reader α) (Phrase : List Token → α → List Token → Prop) : Prop :=
  ∀ ⦃s : Tokens⦄ ⦃ts : List Token⦄ ⦃a : α⦄ ⦃us : List Token⦄, s.Spells ts → ts.length < n →
    Phrase ts a us → ∃ s', reader s = .ok (a, s') ∧ s'.Spells us

/-- That a reader finds the phrases of a form which end where they do. -/
abbrev FindsForm (n : ℕ) (reader : Reader Expr) (f : Form) : Prop :=
  Finds n reader fun ts e us => Derives f ts e us ∧ f.Ends us

lemma Finds.mono {m : ℕ} {reader : Reader α} {Phrase : List Token → α → List Token → Prop}
    (h : Finds n reader Phrase) (le : m ≤ n) : Finds m reader Phrase :=
  fun _ _ _ _ spells short => h spells (Nat.lt_of_lt_of_le short le)

/-! ### Operators that group to the left -/

section Levels

variable {l : Level} {operator : Token → Option BinaryOp} {operand : Reader Expr}

lemma finds_chain (knows : Knows l operator) (finds : FindsForm n operand l.operand)
    (left : Expr) : Finds (min n count) (chain operator operand count left)
      fun ts e us => Chain l left ts e us ∧ (Form.level l).Ends us := by
  intro s ts e vs spells short ⟨phrase, ends⟩
  induction count generalizing left s ts with
  | zero => omega
  | succ count ih =>
    unfold chain
    rw [spells.head?_eq]
    cases phrase with
    | done =>
      -- A sign of the level binds too tightly to follow its phrase.
      have none : vs.head?.bind operator = none := by
        refine Option.bind_eq_none'.2 fun op t head known => ?_
        have sign : (t, op) ∈ l.signs := (knows t op).1 known
        exact ends.ne (Level.binding_eq sign).ge head
      rw [none]
      exact ⟨s, rfl, spells⟩
    | @more _ t op ts us _ _ b _ sign derives rest =>
      have found : (t :: ts).head?.bind operator = some op := (knows t op).2 sign
      have shorter := derives.length_lt
      rw [List.length_cons] at short
      -- The sign and its operand take tokens, so the lower counter is enough for the rest.
      obtain ⟨s₁, moved, spells⟩ := spells.advance
      obtain ⟨s₂, read, spells⟩ := finds spells (by omega) ⟨derives, rest.ends ends⟩
      obtain ⟨s₃, read', spells⟩ := ih _ spells (by omega) rest
      rw [found]
      exact ⟨s₃, bind_eq_ok.2 ⟨_, moved, bind_eq_ok.2 ⟨_, read, read'⟩⟩, spells⟩

lemma finds_level (knows : Knows l operator) (finds : FindsForm n operand l.operand)
    (enough : n ≤ count) : FindsForm n (level operator operand count) (.level l) := by
  intro s ts e vs spells short ⟨phrase, ends⟩
  cases phrase with
  | @level _ _ us _ a _ first more =>
    have shorter := first.length_lt
    obtain ⟨s₁, read, spells⟩ := finds spells short ⟨first, more.ends ends⟩
    have chained : Finds (min n count) (chain operator operand count a) _ :=
      finds_chain knows finds a
    obtain ⟨s₂, read', spells⟩ := chained spells (by omega) ⟨more, ends⟩
    exact ⟨s₂, bind_eq_ok.2 ⟨_, read, read'⟩, spells⟩

end Levels

/-! ### Lists of phrases -/

section Lists

variable {f : Form} {item : Reader Expr} {close : Token}

lemma finds_sequence (finds : FindsForm n item f) (closes : close.Closes)
    (missing : GrammarFault) :
    Finds (min n count) (sequence item close missing count) (Sequence f close) := by
  intro s ts es vs spells short phrase
  have follows {t : Token} {us : List Token} (loose : t.binding = 0) : f.Ends (t :: us) :=
    ends_cons (loose ▸ f.rank_pos)
  induction count generalizing s ts es with
  | zero => omega
  | succ count ih =>
    cases phrase with
    | last item =>
      have loose : close.binding = 0 := by rcases closes with rfl | rfl <;> rfl
      have noComma : close ≠ .comma := by rcases closes with rfl | rfl <;> nofun
      obtain ⟨s₁, read, spells⟩ := finds spells (by omega) ⟨item, follows loose⟩
      obtain ⟨s₂, moved, spells'⟩ := spells.advance
      refine ⟨s₂, bind_eq_ok.2 ⟨_, read, ?_⟩, spells'⟩
      have head : s₁.head? = some close := spells.head?_eq
      simp only [head, Option.some.injEq, if_neg noComma, if_pos]
      exact bind_eq_ok.2 ⟨_, moved, rfl⟩
    | more item rest =>
      have shorter := item.length_lt
      rw [List.length_cons] at shorter
      obtain ⟨s₁, read, spells⟩ := finds spells (by omega) ⟨item, follows rfl⟩
      obtain ⟨s₂, moved, spells'⟩ := spells.advance
      obtain ⟨s₃, read', spells''⟩ := ih spells' (by omega) rest
      refine ⟨s₃, bind_eq_ok.2 ⟨_, read, ?_⟩, spells''⟩
      have head : s₁.head? = some .comma := spells.head?_eq
      simp only [head, if_pos]
      exact bind_eq_ok.2 ⟨_, moved, bind_eq_ok.2 ⟨_, read', rfl⟩⟩

lemma finds_list (finds : FindsForm n item f) (closes : close.Closes) (missing : GrammarFault)
    {opening : Token} {s : Tokens} {ts us : List Token} {es : List Expr}
    (spells : s.Spells (opening :: ts)) (short : ts.length < min n count)
    (phrase : Listed f close ts es us) :
    ∃ s', list item close missing count s = .ok (es, s') ∧ s'.Spells us := by
  obtain ⟨s₁, moved, spells⟩ := spells.advance
  cases phrase with
  | none =>
    obtain ⟨s₂, moved', spells'⟩ := spells.advance
    refine ⟨s₂, bind_eq_ok.2 ⟨_, moved, ?_⟩, spells'⟩
    have head : s₁.head? = some close := spells.head?_eq
    rw [if_pos head]
    exact bind_eq_ok.2 ⟨_, moved', rfl⟩
  | some items =>
    obtain ⟨s₂, read, spells'⟩ := finds_sequence finds closes missing spells short items
    refine ⟨s₂, bind_eq_ok.2 ⟨_, moved, ?_⟩, spells'⟩
    have unclosed : ts.head? ≠ some close :=
      items.head?_ne (by rcases closes with rfl | rfl <;> exact f.entry_pos)
    rw [← spells.head?_eq] at unclosed
    rw [if_neg unclosed]
    exact read

variable {sub : Reader Expr}

lemma finds_argument (finds : FindsForm n sub (.level .or)) :
    FindsForm n (argument sub) .argument := by
  intro s ts e us spells short ⟨phrase, ends⟩
  unfold argument
  cases phrase with
  | spread list =>
    have head : s.head? = some .ellipsis := spells.head?_eq
    rw [List.length_cons] at short
    rw [if_pos head]
    obtain ⟨s₁, moved, spells⟩ := spells.advance
    obtain ⟨s₂, read, spells⟩ := finds spells (by omega) ⟨list, ends⟩
    exact ⟨s₂, bind_eq_ok.2 ⟨_, moved, bind_eq_ok.2 ⟨_, read, rfl⟩⟩, spells⟩
  | argument value =>
    have plain : ts.head? ≠ some .ellipsis := value.head?_ne (by decide)
    rw [← spells.head?_eq] at plain
    rw [if_neg plain]
    exact finds spells short ⟨value, ends⟩

lemma finds_arguments (finds : FindsForm n sub (.level .or)) {s : Tokens} {ts us : List Token}
    {es : List Expr} (spells : s.Spells (.openParen :: ts)) (short : ts.length < min n count)
    (phrase : Listed .argument .closeParen ts es us) :
    ∃ s', arguments sub count s = .ok (es, s') ∧ s'.Spells us :=
  finds_list (finds_argument finds) (.inl rfl) .missingArgumentEnd spells short phrase

end Lists

/-! ### Operands -/

section Operands

variable {sub : Reader Expr}

lemma finds_atom (finds : FindsForm n sub (.level .or)) (enough : n ≤ count) :
    FindsForm (n + 1) (atom sub count) .atom := by
  intro s ts e us spells short ⟨phrase, _⟩
  have head := spells.head?_eq
  unfold atom
  cases phrase with
  | number | text | null | true | false =>
    obtain ⟨s₁, moved, spells⟩ := spells.advance
    rw [head]
    exact ⟨s₁, bind_eq_ok.2 ⟨_, moved, rfl⟩, spells⟩
  | @parentheses ts _ _ inner =>
    obtain ⟨s₁, moved, spells⟩ := spells.advance
    rw [List.length_cons] at short
    obtain ⟨s₂, read, spells⟩ := finds spells (by omega) ⟨inner, ends_cons (by decide)⟩
    obtain ⟨s₃, moved', spells'⟩ := spells.advance
    rw [head]
    refine ⟨s₃, bind_eq_ok.2 ⟨_, moved, bind_eq_ok.2 ⟨_, read, ?_⟩⟩, spells'⟩
    have closing : s₂.head? = some .closeParen := spells.head?_eq
    simp only [closing, if_pos]
    exact bind_eq_ok.2 ⟨_, moved', rfl⟩
  | colon =>
    obtain ⟨s₁, moved, spells⟩ := spells.advance
    obtain ⟨s₂, moved', spells'⟩ := spells.advance
    rw [head]
    refine ⟨s₂, bind_eq_ok.2 ⟨_, moved, ?_⟩, spells'⟩
    rw [spells.head?_eq]
    exact bind_eq_ok.2 ⟨_, moved', rfl⟩
  | @call name ts _ _ arguments =>
    obtain ⟨s₁, moved, spells⟩ := spells.advance
    simp only [List.length_cons] at short
    have fits : ts.length < min n count := by omega
    obtain ⟨s₂, read, spells'⟩ := finds_arguments finds spells fits arguments
    have opening : s₁.head? = some .openParen := spells.head?_eq
    rw [head]
    refine ⟨s₂, bind_eq_ok.2 ⟨_, moved, ?_⟩, spells'⟩
    rw [if_pos opening]
    exact bind_eq_ok.2 ⟨_, read, rfl⟩
  | name next =>
    obtain ⟨s₁, moved, spells⟩ := spells.advance
    rw [← spells.head?_eq] at next
    rw [head]
    refine ⟨s₁, bind_eq_ok.2 ⟨_, moved, ?_⟩, spells⟩
    rw [if_neg next]
  | @array ts _ _ items =>
    rw [List.length_cons] at short
    have fits : ts.length < min n count := by omega
    obtain ⟨s₁, read, spells⟩ := finds_list finds (.inr rfl) .missingItemEnd spells fits items
    rw [head]
    exact ⟨s₁, bind_eq_ok.2 ⟨_, read, rfl⟩, spells⟩

lemma finds_calls (finds : FindsForm n sub (.level .or)) (target : Expr) :
    Finds (min (n + 1) count) (calls sub count target)
      fun ts e us => Calls target ts e us ∧ Form.called.Ends us := by
  intro s ts e vs spells short ⟨phrase, ends⟩
  induction count generalizing target s ts with
  | zero => omega
  | succ count ih =>
    unfold calls
    cases phrase with
    | done =>
      have uncalled : vs.head? ≠ some .openParen := ends.ne (by decide)
      rw [← spells.head?_eq] at uncalled
      rw [if_neg uncalled]
      exact ⟨s, rfl, spells⟩
    | @more ts us _ _ _ es arguments rest =>
      have head : s.head? = some .openParen := spells.head?_eq
      have shorter := arguments.length_lt
      rw [List.length_cons] at short
      have fits : ts.length < min n count := by omega
      obtain ⟨s₁, read, spells⟩ := finds_arguments finds spells fits arguments
      obtain ⟨s₂, read', spells⟩ := ih _ spells (by omega) rest
      rw [if_pos head]
      exact ⟨s₂, bind_eq_ok.2 ⟨_, read, read'⟩, spells⟩

lemma finds_called (finds : FindsForm n sub (.level .or)) (enough : n < count) {s : Tokens}
    {ts us : List Token} {e : Expr} (spells : s.Spells ts) (short : ts.length < n + 1)
    (phrase : Derives .called ts e us) (ends : Form.called.Ends us) :
    ∃ a s₁ s', atom sub count s = .ok (a, s₁) ∧ calls sub count a s₁ = .ok (e, s') ∧
      s'.Spells us := by
  cases phrase with
  | @called _ ts' _ a _ first more =>
    have shorter := first.length_lt
    obtain ⟨s₁, read, spells⟩ :=
      finds_atom finds enough.le spells short ⟨first, more.ends ends⟩
    have found : Finds (min (n + 1) count) (calls sub count a) _ := finds_calls finds a
    obtain ⟨s₂, read', spells⟩ := found spells (by omega) ⟨more, ends⟩
    exact ⟨a, s₁, s₂, read, read', spells⟩

lemma finds_cast (finds : FindsForm n sub (.level .or)) (enough : n < count) :
    FindsForm (n + 1) (cast sub count) .cast := by
  intro s ts e us spells short ⟨phrase, ends⟩
  cases phrase with
  | cast operand word =>
    obtain ⟨a, s₁, s₂, read, read', spells⟩ :=
      finds_called finds enough spells short operand (ends_cons (by decide))
    obtain ⟨s₃, moved, spells'⟩ := spells.advance
    obtain ⟨s₄, moved', spells''⟩ := spells'.advance
    refine ⟨s₄, bind_eq_ok.2 ⟨_, read, bind_eq_ok.2 ⟨_, read', ?_⟩⟩, spells''⟩
    have colons : s₂.head? = some .doubleColon := spells.head?_eq
    simp only [colons, if_pos]
    refine bind_eq_ok.2 ⟨_, moved, ?_⟩
    rw [spells'.head?_eq]
    simp only [List.head?_cons, typeNamed?_eq_some_iff.2 word]
    exact bind_eq_ok.2 ⟨_, moved', rfl⟩
  | uncast operand =>
    obtain ⟨a, s₁, s₂, read, read', spells⟩ :=
      finds_called finds enough spells short operand (ends.of_le (by decide))
    refine ⟨s₂, bind_eq_ok.2 ⟨_, read, bind_eq_ok.2 ⟨_, read', ?_⟩⟩, spells⟩
    have uncast : us.head? ≠ some .doubleColon := ends.ne (by decide)
    rw [← spells.head?_eq] at uncast
    exact if_neg uncast

lemma finds_signed (finds : FindsForm n sub (.level .or)) (enough : n < count) {depth : ℕ} :
    FindsForm (min (n + 1) depth) (signed sub count depth) .signed := by
  intro s ts e vs spells short ⟨phrase, ends⟩
  induction depth generalizing s ts e vs with
  | zero => omega
  | succ depth ih =>
    unfold signed
    have head := spells.head?_eq
    cases phrase with
    | @sign t op ts _ e sign operand =>
      have found : (t :: ts).head?.bind sign? = some op := sign?_eq_some_iff.2 sign
      rw [List.length_cons] at short
      obtain ⟨s₁, moved, spells⟩ := spells.advance
      obtain ⟨s₂, read, spells⟩ := ih spells (by omega) operand ends
      rw [head, found]
      exact ⟨s₂, bind_eq_ok.2 ⟨_, moved, bind_eq_ok.2 ⟨_, read, rfl⟩⟩, spells⟩
    | unsigned phrase =>
      -- A sign stands too far outside to start a power.
      have none : ts.head?.bind sign? = none := by
        refine Option.bind_eq_none'.2 fun op t head known => ?_
        have entry : t.entry = 2 := entry_of_mem_signs (sign?_eq_some_iff.1 known)
        exact phrase.head?_ne (entry ▸ by decide) head
      rw [head, none]
      cases phrase with
      | @power _ us _ a b base exponent =>
        have shorter := base.length_lt
        rw [List.length_cons] at shorter
        obtain ⟨s₁, read, spells⟩ :=
          finds_cast finds enough spells (by omega) ⟨base, ends_cons (by decide)⟩
        obtain ⟨s₂, moved, spells'⟩ := spells.advance
        obtain ⟨s₃, read', spells''⟩ := ih spells' (by omega) exponent ends
        have caret : s₁.head? = some .caret := spells.head?_eq
        refine ⟨s₃, bind_eq_ok.2 ⟨_, read, ?_⟩, spells''⟩
        simp only [caret, if_pos]
        exact bind_eq_ok.2 ⟨_, moved, bind_eq_ok.2 ⟨_, read', rfl⟩⟩
      | base base =>
        obtain ⟨s₁, read, spells⟩ :=
          finds_cast finds enough spells (by omega) ⟨base, ends.of_le (by decide)⟩
        have single : vs.head? ≠ some .caret := ends.ne (by decide)
        rw [← spells.head?_eq] at single
        exact ⟨s₁, bind_eq_ok.2 ⟨_, read, if_neg single⟩, spells⟩

end Operands

/-! ### Expressions -/

/-- Every expression of less than `depth` tokens is read. -/
theorem finds_expr {depth : ℕ} : FindsForm depth (expr depth) (.level .or) := by
  induction depth with
  | zero =>
    intro s ts e us _ short
    exact absurd short (Nat.not_lt_zero _)
  | succ depth ih =>
    obtain - | ⟨or, - | ⟨and, - | ⟨equality, - | ⟨order, - | ⟨sum, - | ⟨product, -⟩⟩⟩⟩⟩⟩ :=
      levels_know
    have signed : FindsForm (depth + 1) (signed (expr depth) (depth + 1) (depth + 1)) .signed :=
      (finds_signed ih (Nat.lt_succ_self _)).mono (le_min (le_refl _) (le_refl _))
    exact finds_level or (finds_level and (finds_level equality (finds_level order (finds_level sum
      (finds_level product signed le_rfl) le_rfl) le_rfl) le_rfl) le_rfl) le_rfl

end Reader

end Formula
