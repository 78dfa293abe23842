import Formula.Proofs.Grammar.Reading

/-!
# What is read is a phrase

A reader follows a form when it reads nothing but phrases of the form and complains only where what
it has passed starts one. Each reader follows its form when the readers inside it do. A counter
above the number of tokens never runs out, so the same is done with any counter that is higher: the
readers are judged in pairs, one with each counter.
-/

namespace Formula

/-! ### The first token of a stream -/

namespace Tokens

lemma Spells.head?_eq {s : Tokens} {ts : List Token} (h : s.Spells ts) : s.head? = ts.head? := by
  cases h <;> rfl

lemma Spells.ready_eq {s : Tokens} {ts : List Token} (h : s.Spells ts) : s.ready = .ok s := by
  cases h <;> rfl

/-- A stream that is ready is handed on as it is. -/
lemma eq_of_ready {s s' : Tokens} (h : s.ready = .ok s') : s' = s := by
  cases s <;> cases h <;> rfl

/-- Behind its first token a stream spells what is left. -/
lemma Spells.advance {s : Tokens} {t : Token} {ts : List Token} (h : s.Spells (t :: ts)) :
    ∃ s', s.advance = .ok s' ∧ s'.Spells ts := by
  cases h with
  | cons more => exact ⟨_, more.ready_eq, more⟩

end Tokens

namespace Reader

open Grammar Tokens

variable {ι α : Type} {n count : ℕ} {counts : ι → ℕ}

/-- That a reader follows a kind of phrase on every stream of less than `n` tokens, and that certain
others do the same. -/
def Follows (n : ℕ) (others : ι → Reader α) (reader : Reader α)
    (Phrase : List Token → α → List Token → Prop) : Prop :=
  ∀ ⦃s : Tokens⦄, s.Unbroken → s.size < n → Reads others Phrase s (reader s)

lemma Follows.mono {m : ℕ} {others : ι → Reader α} {reader : Reader α}
    {Phrase : List Token → α → List Token → Prop} (h : Follows n others reader Phrase)
    (le : m ≤ n) : Follows m others reader Phrase :=
  fun _ unbroken short => h unbroken (Nat.lt_of_lt_of_le short le)

/-- Counters above a positive one can all be counted down. -/
lemma exists_counts (higher : ∀ i, count + 1 ≤ counts i) :
    ∃ counts' : ι → ℕ, counts = (fun i => counts' i + 1) ∧ ∀ i, count ≤ counts' i := by
  refine ⟨fun i => counts i - 1, funext fun i => ?_, fun i => Nat.le_sub_one_of_lt (higher i)⟩
  exact (Nat.sub_add_cancel (Nat.one_le_of_lt (higher i))).symm

/-- A phrase of any form starts where an operand does. -/
lemma starts_form (f : Form) : Starts (Derives f) [] := by
  have null (us : List Token) : Derives .signed (.null :: us) .null us :=
    .unsigned (.base (.uncast (.called .null .done)))
  refine ⟨[.null], .null, List.forall_mem_singleton.2 (by decide), fun us _ => ?_⟩
  show Derives f (.null :: us) .null us
  have product := Derives.level (l := .product) (null us) .done
  have sum := Derives.level (l := .sum) product .done
  have order := Derives.level (l := .order) sum .done
  have equality := Derives.level (l := .equality) order .done
  have and := Derives.level (l := .and) equality .done
  have or := Derives.level (l := .or) and .done
  cases f with
  | level l => cases l <;> assumption
  | signed => exact null us
  | power => exact .base (.uncast (.called .null .done))
  | cast => exact .uncast (.called .null .done)
  | called => exact .called .null .done
  | atom => exact .null
  | argument => exact .argument or

/-! ### Operators that group to the left -/

/-- That a function knows the signs of a level. -/
def Knows (l : Level) (operator : Token → Option BinaryOp) : Prop :=
  ∀ t op, operator t = some op ↔ (t, op) ∈ l.signs

/-- The levels in the order in which they are read know their signs. -/
lemma levels_know : List.Forall₂ Knows [.or, .and, .equality, .order, .sum, .product] levels := by
  refine .cons ?_ (.cons ?_ (.cons ?_ (.cons ?_ (.cons ?_ (.cons ?_ .nil))))) <;>
    intro t op <;> cases t <;> simp [Level.signs, eq_comm]

section Levels

variable {l : Level} {operator : Token → Option BinaryOp} {operand : Reader Expr}
  {operands : ι → Reader Expr}

lemma follows_chain (knows : Knows l operator)
    (follows : Follows n operands operand (Derives l.operand)) (left : Expr)
    (higher : ∀ i, count ≤ counts i) :
    Follows (min n count) (fun i => chain operator (operands i) (counts i) left)
      (chain operator operand count left) (Chain l left) := by
  intro s unbroken short
  induction count generalizing counts left s with
  | zero => omega
  | succ count ih =>
    obtain ⟨counts, rfl, higher'⟩ := exists_counts higher
    cases found : s.head?.bind operator with
    | none =>
      rw [chain, found]
      refine .congr (.pure unbroken fun us _ => .done) fun i r eq => ?_
      rw [chain, eq, found]
    | some op =>
      obtain ⟨t, head, known⟩ := Option.bind_eq_some_iff.1 found
      have sign : (t, op) ∈ l.signs := (knows t op).1 known
      obtain ⟨more, a, fill, phrase⟩ := starts_form l.operand
      have starts : Starts (Chain l left) [t] :=
        ⟨more, _, fill, fun us closed => .more sign (phrase us closed) .done⟩
      rw [chain, found]
      refine .congr (.advance head starts fun s₁ unbroken shorter => ?_)
        fun i r eq => by rw [chain, eq, found]
      refine .bind (follows unbroken (by omega)) (fun right s₂ _ unbroken shorter' => ?_)
        (fun right => ⟨[], _, nofun, fun us _ ts derives => .more sign derives .done⟩)
      exact (ih _ higher' unbroken (by omega)).mono fun us e vs rest ts derives =>
        .more sign derives rest

lemma follows_level (knows : Knows l operator)
    (follows : Follows n operands operand (Derives l.operand)) (enough : n ≤ count)
    (higher : ∀ i, count ≤ counts i) :
    Follows n (fun i => level operator (operands i) (counts i)) (level operator operand count)
      (Derives (.level l)) := by
  intro s unbroken short
  refine .bind (follows unbroken short) (fun left s₁ _ unbroken shorter => ?_)
    (fun left => ⟨[], left, nofun, fun us _ ts first => .level first .done⟩)
  exact (follows_chain knows follows left higher unbroken (by omega)).mono
    fun us e vs more ts first => .level first more

end Levels

/-! ### Lists of phrases -/

section Lists

variable {f : Form} {item : Reader Expr} {items : ι → Reader Expr} {close : Token}

lemma starts_sequence (closes : close ∈ fillers) : Starts (Sequence f close) [] := by
  obtain ⟨more, e, fill, phrase⟩ := starts_form f
  refine ⟨more ++ [close], [e], ?_, fun us _ => ?_⟩
  · exact List.forall_mem_append.2 ⟨fill, List.forall_mem_singleton.2 closes⟩
  · rw [List.append_assoc]
    refine .last (phrase _ ?_)
    rintro ⟨⟩
    exact absurd closes (by decide)

lemma follows_sequence (follows : Follows n items item (Derives f)) (closes : close ∈ fillers)
    (missing : GrammarFault) (higher : ∀ i, count ≤ counts i) :
    Follows (min n count) (fun i => sequence (items i) close missing (counts i))
      (sequence item close missing count) (Sequence f close) := by
  intro s unbroken short
  induction count generalizing counts s with
  | zero => omega
  | succ count ih =>
    obtain ⟨counts, rfl, higher'⟩ := exists_counts higher
    refine .bind (follows unbroken (by omega)) (fun e s₁ _ unbroken shorter => ?_) fun e =>
      ⟨[close], [e], List.forall_mem_singleton.2 closes, fun us _ ts item => .last item⟩
    simp only
    by_cases comma : s₁.head? = some .comma
    · rw [if_pos comma]
      have starts : Starts (Behind (Derives f) (Sequence f close) e) [.comma] := by
        obtain ⟨more, es, fill, phrase⟩ := starts_sequence (f := f) closes
        exact ⟨more, e :: es, fill, fun us closed ts item => .more item (phrase us closed)⟩
      refine .congr (.advance comma starts fun s₂ unbroken shorter' => ?_)
        fun i r eq => if_pos (eq.trans comma)
      exact .map (ih higher' unbroken (by omega)) fun us es vs rest ts item => .more item rest
    · rw [if_neg comma]
      refine .congr (.mono (.expect unbroken closes) ?_) fun i r eq => if_neg (eq ▸ comma)
      rintro us es vs ⟨rfl, rfl⟩ ts item
      exact .last item

lemma follows_list (follows : Follows n items item (Derives f)) (closes : close ∈ fillers)
    (missing : GrammarFault) (higher : ∀ i, count ≤ counts i) {opening : Token} {s : Tokens}
    (head : s.head? = some opening) (short : s.size ≤ min n count) :
    Reads (fun i => list (items i) close missing (counts i))
      (fun ts es us => ∃ ts', ts = opening :: ts' ∧ Listed f close ts' es us) s
      (list item close missing count s) := by
  have starts : Starts (fun ts es us => ∃ ts', ts = opening :: ts' ∧ Listed f close ts' es us)
      [opening] :=
    ⟨[close], [], List.forall_mem_singleton.2 closes, fun us _ => ⟨_, rfl, .none⟩⟩
  refine .advance head starts fun s₁ unbroken shorter => ?_
  by_cases closing : s₁.head? = some close
  · rw [if_pos closing]
    refine .congr (.advance closing ⟨[], [], nofun, fun us _ => ⟨_, rfl, .none⟩⟩
      fun s₂ unbroken _ => .pure unbroken fun us _ => ⟨_, rfl, .none⟩) fun i r eq => ?_
    exact if_pos (eq.trans closing)
  · rw [if_neg closing]
    refine .congr (.mono (follows_sequence follows closes missing higher unbroken (by omega)) ?_)
      fun i r eq => if_neg (eq ▸ closing)
    exact fun ts es us items => ⟨ts, rfl, .some items⟩

variable {sub : Reader Expr} {subs : ι → Reader Expr}

lemma follows_argument (follows : Follows n subs sub (Derives (.level .or))) :
    Follows n (fun i => argument (subs i)) (argument sub) (Derives .argument) := by
  intro s unbroken short
  unfold argument
  by_cases ellipsis : s.head? = some .ellipsis
  · rw [if_pos ellipsis]
    obtain ⟨more, e, fill, phrase⟩ := starts_form (.level .or)
    have starts : Starts (Derives .argument) [.ellipsis] :=
      ⟨more, .spread e, fill, fun us closed => .spread (phrase us closed)⟩
    refine .congr (.advance ellipsis starts fun s₁ unbroken shorter => ?_)
      fun i r eq => if_pos (eq.trans ellipsis)
    exact .map (follows unbroken (by omega)) fun ts e us inner => .spread inner
  · rw [if_neg ellipsis]
    exact .congr ((follows unbroken short).mono fun ts e us => .argument)
      fun i r eq => if_neg (eq ▸ ellipsis)

lemma follows_arguments (follows : Follows n subs sub (Derives (.level .or)))
    (higher : ∀ i, count ≤ counts i) {s : Tokens} (head : s.head? = some .openParen)
    (short : s.size ≤ min n count) :
    Reads (fun i => arguments (subs i) (counts i))
      (fun ts es us => ∃ ts', ts = .openParen :: ts' ∧ Listed .argument .closeParen ts' es us) s
      (arguments sub count s) :=
  follows_list (follows_argument follows) (by decide) .missingArgumentEnd higher head short

end Lists

/-! ### Operands -/

/-- The words for types are read in any letter case. -/
lemma typeNamed?_eq_some_iff {name : String} {type : TypeName} :
    typeNamed? name = some type ↔ NamesType name type := by
  have known : NamesType name type ↔
      (String.ofList (Text.lowerText name.toList), type) ∈ typeWords := by
    constructor
    · rintro ⟨word, mem, eq⟩
      rwa [eq, String.ofList_toList]
    · exact fun mem => ⟨_, mem, String.toList_ofList.symm⟩
  rw [known, typeNamed?]
  generalize String.ofList (Text.lowerText name.toList) = word
  constructor
  · intro h
    split_ifs at h with integer float string boolean array <;> cases h <;> simp [typeWords, *]
  · simp only [typeWords, List.mem_cons, Prod.mk.injEq, List.not_mem_nil, or_false]
    rintro (⟨rfl, rfl⟩ | ⟨rfl, rfl⟩ | ⟨rfl, rfl⟩ | ⟨rfl, rfl⟩ | ⟨rfl, rfl⟩ | ⟨rfl, rfl⟩ |
      ⟨rfl, rfl⟩ | ⟨rfl, rfl⟩) <;> simp

section Operands

variable {sub : Reader Expr} {subs : ι → Reader Expr}

lemma follows_atom (follows : Follows n subs sub (Derives (.level .or)))
    (higher : ∀ i, count ≤ counts i) (enough : n ≤ count) :
    Follows (n + 1) (fun i => atom (subs i) (counts i)) (atom sub count) (Derives .atom) := by
  intro s unbroken short
  -- A constant is its one token.
  have constant {t : Token} {c : Expr} (head : s.head? = some t)
      (rule : ∀ us, Derives .atom (t :: us) c us)
      (known : ∀ i (r : Tokens), r.head? = some t →
        atom (subs i) (counts i) r = r.advance >>= fun r => .ok (c, r)) :
      Reads (fun i => atom (subs i) (counts i)) (Derives .atom) s
        (s.advance >>= fun s => .ok (c, s)) :=
    .congr (.advance head ⟨[], c, nofun, fun us _ => rule us⟩ fun s₁ unbroken _ =>
      .pure unbroken fun us _ => rule us) fun i r eq => known i r (eq.trans head)
  generalize read : atom sub count s = x
  unfold atom at read
  subst read
  split
  · next x head => exact constant head (fun us => .number) fun i r eq => by rw [atom, eq]
  · next text head => exact constant head (fun us => .text) fun i r eq => by rw [atom, eq]
  · next head => exact constant head (fun us => .null) fun i r eq => by rw [atom, eq]
  · next head => exact constant head (fun us => .true) fun i r eq => by rw [atom, eq]
  · next head => exact constant head (fun us => .false) fun i r eq => by rw [atom, eq]
  · next head =>
    obtain ⟨more, e, fill, phrase⟩ := starts_form (.level .or)
    have closed (us : List Token) : (.closeParen :: us : List Token).head? ≠ some .openParen :=
      nofun
    have starts : Starts (Derives .atom) [.openParen] := by
      refine ⟨more ++ [.closeParen], e, ?_, fun us _ => ?_⟩
      · exact List.forall_mem_append.2 ⟨fill, by decide⟩
      · rw [List.append_assoc]
        exact .parentheses (phrase _ (closed us))
    refine .congr (.advance head starts fun s₁ unbroken shorter => ?_)
      fun i r eq => by rw [atom, eq.trans head]
    refine .bind (follows unbroken (by omega)) (fun e s₂ _ unbroken _ => ?_) fun e =>
      ⟨[.closeParen], e, by decide, fun us _ ts inner => .parentheses inner⟩
    refine .mono (.expect (a := e) unbroken (by decide)) ?_
    rintro us _ vs ⟨rfl, rfl⟩ ts inner
    exact .parentheses inner
  · next head =>
    have starts : Starts (fun us => Derives .atom (.colon :: us)) [] :=
      ⟨[.identifier "int"], _, by decide, fun us _ => .colon⟩
    refine .congr (.advance head starts fun s₁ unbroken shorter => ?_)
      fun i r eq => by rw [atom, eq.trans head]
    split
    · next name word =>
      refine .congr (.advance word ⟨[], _, nofun, fun us _ => .colon⟩ fun s₂ unbroken _ =>
        .pure unbroken fun us _ => .colon) fun i r eq => by rw [eq.trans word]
    · next unnamed =>
      refine .complaint unbroken starts fun i r alike => ?_
      rw [alike.2.2]
      split
      · next name word => exact absurd word (unnamed name)
      · exact ⟨_, rfl⟩
  · next name head =>
    refine .congr (.advance head ⟨[], .variable name, nofun, fun us closed => .name closed⟩
      fun s₁ unbroken shorter => ?_) fun i r eq => by rw [atom, eq.trans head]
    by_cases opening : s₁.head? = some .openParen
    · rw [if_pos opening]
      have arguments := follows_arguments follows higher opening (by omega)
      refine .congr (.map (h := Expr.call name) arguments ?_)
        fun i r eq => if_pos (eq.trans opening)
      rintro ts es us ⟨ts, rfl, arguments⟩
      exact .call arguments
    · rw [if_neg opening]
      exact .congr (.pure unbroken fun us admits => .name (mt admits opening))
        fun i r eq => if_neg (eq ▸ opening)
  · next head =>
    have closes : .closeBracket ∈ fillers := by decide
    have read := follows_list follows closes .missingItemEnd higher head (by omega)
    refine .congr (.map (h := Expr.array) read ?_) fun i r eq => by rw [atom, eq.trans head]
    rintro ts es us ⟨ts, rfl, items⟩
    exact .array items
  · refine .complaint unbroken (starts_form .atom) fun i r alike => ?_
    have same : atom (subs i) (counts i) r = unexpected r := by
      unfold atom
      rw [alike.2.2]
      split <;> simp_all
    exact ⟨_, same⟩

lemma follows_calls (follows : Follows n subs sub (Derives (.level .or))) (target : Expr)
    (higher : ∀ i, count ≤ counts i) :
    Follows (min (n + 1) count) (fun i => calls (subs i) (counts i) target) (calls sub count target)
      (Calls target) := by
  intro s unbroken short
  induction count generalizing counts target s with
  | zero => omega
  | succ count ih =>
    obtain ⟨counts, rfl, higher'⟩ := exists_counts higher
    by_cases opening : s.head? = some .openParen
    · have read := follows_arguments follows higher' opening (by omega)
      rw [calls, if_pos opening]
      refine .congr (.bind read (fun es s₁ eq unbroken _ => ?_)
        fun es => ⟨[], .invoke target es, nofun, ?_⟩)
        fun i r eq => by rw [calls, if_pos (eq.trans opening)]
      · have shorter : s₁.size < s.size := by
          rw [eq] at read
          refine read.size_lt ?_
          rintro _ es us ⟨ts, rfl, arguments⟩
          exact Nat.lt_succ_of_lt arguments.length_lt
        refine (ih (.invoke target es) higher' unbroken (by omega)).mono ?_
        rintro us e vs rest _ ⟨ts, rfl, arguments⟩
        exact .more arguments rest
      · rintro us _ _ ⟨ts, rfl, arguments⟩
        exact .more arguments .done
    · rw [calls, if_neg opening]
      exact .congr (.pure unbroken fun us _ => .done)
        fun i r eq => by rw [calls, if_neg (eq ▸ opening)]

lemma follows_cast (follows : Follows n subs sub (Derives (.level .or)))
    (higher : ∀ i, count ≤ counts i) (enough : n < count) :
    Follows (n + 1) (fun i => cast (subs i) (counts i)) (cast sub count) (Derives .cast) := by
  intro s unbroken short
  refine .bind (follows_atom follows higher enough.le unbroken short)
    (fun a s₁ _ unbroken shorter => ?_)
    (fun a => ⟨[], a, nofun, fun us _ ts first => .uncast (.called first .done)⟩)
  refine .bind (follows_calls follows a higher unbroken (by omega))
    (fun e s₂ _ unbroken shorter' => ?_)
    (fun e => ⟨[], e, nofun, fun us _ ts more ts' first => .uncast (.called first more)⟩)
  refine .mono ?_ fun us e' vs (tail : Behind (Derives .called) (Derives .cast) e us e' vs)
    ts more ts' first => tail ts' (.called first more)
  simp only
  by_cases colons : s₂.head? = some .doubleColon
  · have starts :
        Starts (fun us => Behind (Derives .called) (Derives .cast) e (.doubleColon :: us)) [] :=
      ⟨[.identifier "int"], .cast e .integer, by decide, fun us _ ts operand =>
        .cast operand ⟨"int", by decide, by decide +kernel⟩⟩
    rw [if_pos colons]
    refine .congr (.advance colons starts fun s₃ unbroken _ => ?_)
      fun i r eq => if_pos (eq.trans colons)
    split
    · next name word =>
      cases known : typeNamed? name with
      | some type =>
        have rule (us : List Token) :
            Behind (Derives .called) (Derives .cast) e (.doubleColon :: .identifier name :: us)
              (.cast e type) us :=
          fun ts operand => .cast operand (typeNamed?_eq_some_iff.1 known)
        refine .congr (.advance word ⟨[], _, nofun, fun us _ => rule us⟩ fun s₄ unbroken _ =>
          .pure unbroken fun us _ => rule us) fun i r eq => ?_
        simp only [eq.trans word, known]
      | none =>
        refine .complaint unbroken starts fun i r alike => ?_
        simp only [alike.2.2.trans word, known]
        exact ⟨_, rfl⟩
    · next unnamed =>
      refine .complaint unbroken starts fun i r alike => ?_
      rw [alike.2.2]
      split
      · next name word => exact absurd word (unnamed name)
      · exact ⟨_, rfl⟩
  · rw [if_neg colons]
    exact .congr (.pure unbroken fun us _ ts operand => .uncast operand)
      fun i r eq => if_neg (eq ▸ colons)

/-- The signs are read as what they stand for. -/
lemma sign?_eq_some_iff {t : Token} {op : UnaryOp} : sign? t = some op ↔ (t, op) ∈ signs := by
  cases t <;> simp [sign?, signs, eq_comm]

lemma follows_signed (follows : Follows n subs sub (Derives (.level .or)))
    (higher : ∀ i, count ≤ counts i) (enough : n < count) {depth : ℕ} {depths : ι → ℕ}
    (deeper : ∀ i, depth ≤ depths i) :
    Follows (min (n + 1) depth) (fun i => signed (subs i) (counts i) (depths i))
      (signed sub count depth) (Derives .signed) := by
  intro s unbroken short
  induction depth generalizing depths s with
  | zero => omega
  | succ depth ih =>
    obtain ⟨depths, rfl, deeper'⟩ := exists_counts deeper
    obtain ⟨more, e, fill, phrase⟩ := starts_form .signed
    cases found : s.head?.bind sign? with
    | some op =>
      obtain ⟨t, head, known⟩ := Option.bind_eq_some_iff.1 found
      have sign : (t, op) ∈ signs := sign?_eq_some_iff.1 known
      have starts : Starts (Derives .signed) [t] :=
        ⟨more, .unary op e, fill, fun us closed => .sign sign (phrase us closed)⟩
      rw [signed, found]
      refine .congr (.advance head starts fun s₁ unbroken shorter => ?_)
        fun i r eq => by rw [signed, eq, found]
      exact .map (ih deeper' unbroken (by omega)) fun ts e us operand => .sign sign operand
    | none =>
      rw [signed, found]
      refine .congr ?_ fun i r eq => by rw [signed, eq, found]
      refine .bind (follows_cast follows higher enough unbroken (by omega))
        (fun a s₁ _ unbroken shorter => ?_)
        (fun a => ⟨[], a, nofun, fun us _ ts base => .unsigned (.base base)⟩)
      simp only
      by_cases caret : s₁.head? = some .caret
      · rw [if_pos caret]
        refine .congr (.advance caret ⟨more, .binary a .pow e, fill, fun us closed ts base =>
          .unsigned (.power base (phrase us closed))⟩ fun s₂ unbroken shorter' => ?_)
          fun i r eq => if_pos (eq.trans caret)
        exact .map (ih deeper' unbroken (by omega)) fun us b vs exponent ts base =>
          .unsigned (.power base exponent)
      · rw [if_neg caret]
        exact .congr (.pure unbroken fun us _ ts base => .unsigned (.base base))
          fun i r eq => if_neg (eq ▸ caret)

end Operands

/-! ### Expressions -/

/-- A reader of expressions follows their grammar where there are less tokens than it may go deep,
and the deeper ones do the same. -/
theorem follows_expr {depth : ℕ} {depths : ι → ℕ} (deeper : ∀ i, depth ≤ depths i) :
    Follows depth (fun i => expr (depths i)) (expr depth) (Derives (.level .or)) := by
  induction depth generalizing depths with
  | zero => exact fun s _ short => absurd short (Nat.not_lt_zero _)
  | succ depth ih =>
    obtain ⟨depths, rfl, deeper'⟩ := exists_counts deeper
    obtain - | ⟨or, - | ⟨and, - | ⟨equality, - | ⟨order, - | ⟨sum, - | ⟨product, -⟩⟩⟩⟩⟩⟩ :=
      levels_know
    have signed : Follows (depth + 1)
        (fun i => signed (expr (depths i)) (depths i + 1) (depths i + 1))
        (signed (expr depth) (depth + 1) (depth + 1)) (Derives .signed) :=
      (follows_signed (ih deeper') deeper (Nat.lt_succ_self _) deeper).mono (le_min le_rfl le_rfl)
    exact follows_level or (follows_level and (follows_level equality (follows_level order
      (follows_level sum (follows_level product signed le_rfl deeper) le_rfl deeper) le_rfl deeper)
      le_rfl deeper) le_rfl deeper) le_rfl deeper

end Reader

end Formula
