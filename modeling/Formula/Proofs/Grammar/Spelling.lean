import Formula.Proofs.Grammar.Reading
import Formula.Proofs.Grammar.Words
import Mathlib.Tactic.FinCases

/-!
# How tokens are spelled

What a look at a text finds is spelled by a part of the text, behind spaces, and the positions count
the bytes in front of it and up to its end. The same spelling in front of a space is read as the
same token wherever it stands, so tokens from different texts can be put together into one.
-/

namespace Formula.Tokens

variable {position start stop : ℕ} {c : Char} {cs rest whole fraction : List Char} {t : Token}

/-! ### Numerals -/

lemma isWordPart_of_isDigit (h : c.isDigit) : isWordPart c :=
  isWordPart_iff.2 (.inr (Char.isDigit_iff_toNat.1 h))

/-- Digits with nothing behind them that could belong to them are read as a whole number. -/
lemma numeral_whole (digits : ∀ c ∈ whole, c.isDigit)
    (behind : ∀ c ∈ rest.head?, ¬ c.isDigit ∧ c ≠ '.') :
    numeral (whole ++ rest) = (whole, [], whole.length, rest) := by
  simp only [numeral, span_append digits fun c mem => (behind c mem).1]
  split
  · exact absurd rfl (behind '.' rfl).2
  · exact absurd rfl (behind '.' rfl).2
  · rfl

/-- A row of digits ends before a point. -/
lemma span_point (digits : ∀ c ∈ whole, c.isDigit) (cs : List Char) :
    (whole ++ '.' :: cs).span Char.isDigit = (whole, '.' :: cs) := by
  refine span_append digits ?_
  rintro c ⟨⟩
  decide

/-- Digits, a point and digits are read as a number, unless another point follows the point. -/
lemma numeral_pointed (digits : ∀ c ∈ whole, c.isDigit) (decimals : ∀ c ∈ fraction, c.isDigit)
    (behind : ∀ c ∈ rest.head?, ¬ c.isDigit ∧ c ≠ '.') :
    numeral (whole ++ '.' :: (fraction ++ rest)) =
      (whole, fraction, whole.length + 1 + fraction.length, rest) := by
  have single : ∀ rest', fraction ++ rest ≠ '.' :: rest' := by
    intro rest' eq
    cases fraction with
    | nil =>
      subst eq
      exact absurd rfl (behind '.' rfl).2
    | cons c fraction =>
      cases eq
      exact absurd (decimals '.' List.mem_cons_self) (by decide)
  simp only [numeral, span_point digits]
  rw [span_append decimals fun c mem => (behind c mem).1]

lemma startsNumeral_whole (digits : ∀ c ∈ whole, c.isDigit) (some : whole ≠ []) :
    startsNumeral (whole ++ rest) := by
  cases whole with
  | nil => exact absurd rfl some
  | cons c whole =>
    have digit := digits c List.mem_cons_self
    rw [List.cons_append]
    unfold startsNumeral
    split
    · next eq =>
      obtain ⟨rfl, -⟩ := List.cons.inj eq
      cases digit
    · next eq =>
      obtain ⟨rfl, -⟩ := List.cons.inj eq
      exact digit
    · next eq => cases eq

lemma startsNumeral_pointed (digits : ∀ c ∈ whole, c.isDigit) (decimals : ∀ c ∈ fraction, c.isDigit)
    (some : whole ≠ [] ∨ fraction ≠ []) : startsNumeral (whole ++ '.' :: (fraction ++ rest)) := by
  by_cases none : whole = []
  · subst none
    cases fraction with
    | nil => exact absurd rfl (some.resolve_left (absurd rfl))
    | cons c fraction => exact decimals c List.mem_cons_self
  · exact startsNumeral_whole digits none

lemma tokenAt_of_numeral {length : ℕ} (starts : startsNumeral cs)
    (read : numeral cs = (whole, fraction, length, rest)) :
    tokenAt position cs =
      .found (.number (Number.ofDecimal whole fraction 0)) position (position + length) rest := by
  cases cs with
  | nil => cases starts
  | cons c cs => simp only [tokenAt, if_pos starts, read]

/-- What follows a span does not go on with it. -/
lemma not_of_mem_head?_dropWhile {p : Char → Bool} : ∀ c ∈ (cs.dropWhile p).head?, ¬ p c := by
  intro c head
  have stops := List.head?_dropWhile_not p cs
  rw [head] at stops
  simpa using stops

/-- A numeral is a row of digits that no numeral follows, or digits around a point. -/
lemma numeral_cases {length : ℕ} (read : numeral cs = (whole, fraction, length, rest)) :
    (∀ c ∈ whole, c.isDigit) ∧ (∀ c ∈ fraction, c.isDigit) ∧
      (cs = whole ++ rest ∧ fraction = [] ∧ length = whole.length ∧ ¬ startsNumeral rest ∨
        cs = whole ++ '.' :: (fraction ++ rest) ∧ length = whole.length + 1 + fraction.length ∧
          ∀ c ∈ rest.head?, ¬ c.isDigit) := by
  have digits {ds : List Char} : ∀ c ∈ ds.takeWhile Char.isDigit, c.isDigit :=
    fun c mem => List.mem_takeWhile_imp mem
  have none : ∀ c ∈ ([] : List Char), c.isDigit := fun c mem => absurd mem List.not_mem_nil
  have spelled := List.takeWhile_append_dropWhile (p := Char.isDigit) (l := cs)
  simp only [numeral, List.span_eq_takeWhile_dropWhile] at read
  split at read
  · next eq =>
    cases read
    refine ⟨digits, none, .inl ⟨spelled.symm, rfl, rfl, ?_⟩⟩
    rw [eq]
    exact Bool.false_ne_true
  · next tail _ eq =>
    cases read
    refine ⟨digits, digits, .inr ⟨?_, rfl, not_of_mem_head?_dropWhile⟩⟩
    rw [List.takeWhile_append_dropWhile, ← eq, spelled]
  · next unpointed =>
    cases read
    refine ⟨digits, none, .inl ⟨spelled.symm, rfl, rfl, fun starts => ?_⟩⟩
    rcases eq_cons_of_startsNumeral starts with ⟨c, more, eq, digit⟩ | ⟨c, more, eq, -⟩
    · exact not_of_mem_head?_dropWhile c (by rw [eq]; rfl) digit
    · exact unpointed _ eq

/-! ### Spellings -/

/-- That in front of a space a word is read as a token. -/
def SpelledBy (t : Token) (word : List Char) : Prop :=
  ∀ p ds, next p (word ++ ' ' :: ds) = .found t p (p + width word) (' ' :: ds)

lemma next_of_unspaced (unspaced : ∀ c ∈ cs.head?, ¬ isSpace c) :
    next position cs = tokenAt position cs := by
  have none : ∀ c ∈ ([] : List Char), isSpace c := nofun
  have spanned : cs.span isSpace = ([], cs) := span_append none unspaced
  rw [next, spanned]
  rfl

lemma not_isSpace_of_startsNumeral (h : startsNumeral cs) : ∀ c ∈ cs.head?, ¬ isSpace c := by
  rcases eq_cons_of_startsNumeral h with ⟨c, more, rfl, digit⟩ | ⟨c, more, rfl, -⟩
  · rintro c ⟨⟩ space
    simp only [isSpace, Bool.or_eq_true, beq_iff_eq] at space
    rcases space with ((rfl | rfl) | rfl) | rfl <;> cases digit
  · rintro c ⟨⟩
    decide

/-- A numeral is found where it starts. -/
lemma next_of_numeral {length : ℕ} (starts : startsNumeral cs)
    (read : numeral cs = (whole, fraction, length, rest)) :
    next position cs =
      .found (.number (Number.ofDecimal whole fraction 0)) position (position + length) rest :=
  (next_of_unspaced (not_isSpace_of_startsNumeral starts)).trans (tokenAt_of_numeral starts read)

/-- A literal is read up to its closing quote, wherever it stands. -/
lemma exists_literal_append {quote : Char} {content : List Char}
    (read : literal quote position cs = .ok (content, stop, rest)) :
    ∃ word, cs = word ++ rest ∧ stop = position + width word ∧
      ∀ p ds, literal quote p (word ++ ds) = .ok (content, p + width word, ds) := by
  fun_induction literal quote position cs generalizing content stop rest with
  | case1 => cases read
  | case2 position cs =>
    cases read
    refine ⟨[quote], rfl, by rw [width_cons]; rfl, fun p ds => ?_⟩
    rw [List.singleton_append, literal.eq_def]
    simp [width]
  | case3 => cases read
  | case4 position e cs unquoted ih =>
    obtain ⟨⟨content', stop', rest'⟩, inner, eq⟩ := bind_eq_ok.1 read
    cases eq
    obtain ⟨word, rfl, rfl, again⟩ := ih inner
    refine ⟨'\\' :: e :: word, rfl, ?_, fun p ds => ?_⟩
    · simp only [width_cons, Nat.add_assoc]
    · rw [List.cons_append, List.cons_append, literal.eq_def]
      simp only [if_neg unquoted, if_true, again, width_cons, Nat.add_assoc]
      rfl
  | case5 position c cs unquoted plain ih =>
    obtain ⟨⟨content', stop', rest'⟩, inner, eq⟩ := bind_eq_ok.1 read
    cases eq
    obtain ⟨word, rfl, rfl, again⟩ := ih inner
    refine ⟨c :: word, rfl, ?_, fun p ds => ?_⟩
    · simp only [width_cons, Nat.add_assoc]
    · rw [List.cons_append, literal.eq_def]
      simp only [if_neg unquoted, if_neg plain, again, width_cons, Nat.add_assoc]
      rfl

lemma spelledBy_of_mem_symbols {spelling : List Char} (mem : (spelling, t) ∈ symbols) :
    SpelledBy t spelling := by
  have all : ∀ s ∈ symbols, SpelledBy s.2 s.1 := by
    intro s mem
    fin_cases mem <;> exact fun p ds => rfl
  exact all _ mem

/-- What is found at the start of a text is spelled by what it takes of the text. -/
lemma Found.exists_spelledBy (h : Found position cs t stop rest) :
    ∃ word, cs = word ++ rest ∧ stop = position + width word ∧ SpelledBy t word := by
  have behind (ds : List Char) : ∀ c ∈ (' ' :: ds).head?, ¬ c.isDigit ∧ c ≠ '.' := by
    rintro c ⟨⟩
    decide
  cases h with
  | @numeral _ whole fraction _ length starts numeral =>
    have single (ds : List Char) (digits : ∀ c ∈ ds, c.isDigit) : width ds = ds.length :=
      width_eq_length fun c mem => isWordPart_of_isDigit (digits c mem)
    obtain ⟨digits, decimals, ⟨rfl, rfl, rfl, unstarted⟩ | ⟨rfl, rfl, stops⟩⟩ :=
      numeral_cases numeral
    · have some : whole ≠ [] := by
        rintro rfl
        exact unstarted starts
      refine ⟨whole, rfl, by rw [single _ digits], fun p ds => ?_⟩
      rw [single _ digits]
      exact next_of_numeral (startsNumeral_whole digits some) (numeral_whole digits (behind ds))
    · have some : whole ≠ [] ∨ fraction ≠ [] := by
        by_contra none
        obtain ⟨rfl, rfl⟩ : whole = [] ∧ fraction = [] := by simpa using none
        rcases eq_cons_of_startsNumeral starts with ⟨_, _, ⟨⟩, digit⟩ | ⟨c, more, ⟨⟩, digit⟩
        · cases digit
        · exact stops c rfl digit
      have bytes : width (whole ++ '.' :: fraction) = whole.length + 1 + fraction.length := by
        have point : '.'.utf8Size = 1 := rfl
        rw [width_append, width_cons, single _ digits, single _ decimals, point, Nat.add_assoc]
      refine ⟨whole ++ '.' :: fraction, ?_, by rw [bytes], fun p ds => ?_⟩
      · rw [List.append_assoc, List.cons_append]
      · rw [bytes, List.append_assoc, List.cons_append]
        exact next_of_numeral (startsNumeral_pointed digits decimals some)
          (numeral_pointed digits decimals (behind ds))
  | @word c cs letter =>
    have letters : ∀ d ∈ (c :: cs).takeWhile isWordPart, isWordPart d :=
      fun d mem => List.mem_takeWhile_imp mem
    have identifier : isIdentifier ((c :: cs).takeWhile isWordPart) := by
      refine isIdentifier_iff.2 ⟨?_, letters⟩
      rw [List.takeWhile_cons_of_pos (isWordPart_of_isWordStart letter)]
      exact letter
    refine ⟨_, List.takeWhile_append_dropWhile.symm, by rw [width_eq_length letters], ?_⟩
    intro p ds
    rw [width_eq_length letters]
    have none : ∀ c ∈ ([] : List Char), isSpace c := nofun
    exact next_of_isIdentifier none identifier (by rintro d ⟨⟩; decide)
  | @literal quote cs content _ _ quotes literal =>
    obtain ⟨word, rfl, rfl, again⟩ := exists_literal_append literal
    have single : quote.utf8Size = 1 := by rcases quotes with rfl | rfl <;> rfl
    refine ⟨quote :: word, rfl, by rw [width_cons, single, Nat.add_assoc], fun p ds => ?_⟩
    have unspaced : ¬ isSpace quote := by rcases quotes with rfl | rfl <;> decide
    have unlettered : ¬ isWordStart quote := by rcases quotes with rfl | rfl <;> decide
    have unnumbered : ¬ startsNumeral (quote :: (word ++ ' ' :: ds)) := by
      rcases quotes with rfl | rfl <;> nofun
    rw [List.cons_append, next_of_unspaced (by rintro c ⟨⟩; exact unspaced), tokenAt.eq_def]
    simp only [if_neg unnumbered, if_neg unlettered, if_pos quotes, again]
    rw [width_cons, single, Nat.add_assoc]
  | @symbol spelling _ _ mem =>
    refine ⟨spelling, rfl, ?_, spelledBy_of_mem_symbols mem⟩
    have all : ∀ s ∈ symbols, width s.1 = s.1.length := by decide
    rw [all _ mem]

/-- Tokens that can be spelled are the tokens of some text. -/
lemma exists_lexes {ts : List Token} (spellable : ∀ t ∈ ts, ∃ word, SpelledBy t word) :
    ∃ cs, ∀ p, Lexes p cs ts := by
  have space {p : ℕ} {cs : List Char} : next p (' ' :: cs) = next (p + 1) cs := by
    have shift : p + 1 + (cs.takeWhile isSpace).length = p + (cs.takeWhile isSpace).length.succ :=
      (Nat.succ_add_eq_add_succ p _)
    simp only [next, List.span_eq_takeWhile_dropWhile, shift]
    rfl
  induction ts with
  | nil => exact ⟨[], fun p => .done rfl⟩
  | cons t ts ih =>
    rw [List.forall_mem_cons] at spellable
    obtain ⟨⟨word, spelled⟩, spellable⟩ := spellable
    obtain ⟨cs, lexes⟩ := ih spellable
    refine ⟨word ++ ' ' :: cs, fun p => .found (spelled p cs) ?_⟩
    cases lexes (p + width word + 1) with
    | done ends => exact .done (space.trans ends)
    | found found more => exact .found (space.trans found) more

/-! ### Places -/

/-- That reading these tokens from a text leaves a rear part of it, which stands at `stop`. -/
inductive Leaves : (position : ℕ) → List Char → List Token → (stop : ℕ) → List Char → Prop
  | here {position : ℕ} {cs : List Char} : Leaves position cs [] position cs
  | found {position start stop stop' : ℕ} {cs rest rest' : List Char} {t : Token} {ts : List Token}
      (found : next position cs = .found t start stop rest)
      (more : Leaves stop rest ts stop' rest') : Leaves position cs (t :: ts) stop' rest'

/-- That a position is that of a place in a text which stands at `position`. -/
def IsPlace (position : ℕ) (cs : List Char) (place : ℕ) : Prop :=
  ∃ front back, cs = front ++ back ∧ place = position + width front

lemma IsPlace.le {place : ℕ} (h : IsPlace position cs place) : place ≤ position + width cs := by
  obtain ⟨front, back, rfl, rfl⟩ := h
  rw [width_append]
  omega

lemma isPlace_append {front : List Char} {place : ℕ}
    (h : IsPlace (position + width front) rest place) : IsPlace position (front ++ rest) place := by
  obtain ⟨front', back, rfl, rfl⟩ := h
  exact ⟨front ++ front', back, (List.append_assoc _ _ _).symm, by rw [width_append, Nat.add_assoc]⟩

lemma width_spaces : width (cs.takeWhile isSpace) = (cs.takeWhile isSpace).length := by
  refine width_eq_length_of_single fun c mem => ?_
  have space := List.mem_takeWhile_imp mem
  simp only [isSpace, Bool.or_eq_true, beq_iff_eq] at space
  rcases space with ((rfl | rfl) | rfl) | rfl <;> rfl

/-- A token that is found is spelled by what lies between its positions. -/
lemma exists_of_next_found (h : next position cs = .found t start stop rest) :
    ∃ spaces word, cs = spaces ++ (word ++ rest) ∧ start = position + width spaces ∧
      stop = start + width word ∧ SpelledBy t word := by
  simp only [next, List.span_eq_takeWhile_dropWhile, ← width_spaces] at h
  obtain ⟨rfl, found⟩ := found_of_tokenAt h
  obtain ⟨word, eq, stop_eq, spelled⟩ := found.exists_spelledBy
  refine ⟨_, word, ?_, rfl, stop_eq, spelled⟩
  rw [← eq, List.takeWhile_append_dropWhile]

lemma eq_nil_of_tokenAt_done (h : tokenAt position cs = .done stop) :
    cs = [] ∧ stop = position := by
  unfold tokenAt at h
  split at h
  · cases h
    exact ⟨rfl, rfl⟩
  · split at h
    · cases h
    split at h
    · cases h
    split at h
    · split at h <;> cases h
    · split at h <;> cases h

/-- The end is found behind the whole text. -/
lemma eq_of_next_done (h : next position cs = .done stop) : stop = position + width cs := by
  simp only [next, List.span_eq_takeWhile_dropWhile, ← width_spaces] at h
  obtain ⟨blank, rfl⟩ := eq_nil_of_tokenAt_done h
  have spelled := List.takeWhile_append_dropWhile (p := isSpace) (l := cs)
  rw [blank, List.append_nil] at spelled
  rw [spelled]

/-- A literal that does not end breaks off at the end of the text. -/
lemma eq_of_literal_error {quote : Char} {cause : LexicalFault}
    (h : literal quote position cs = .error (cause, stop)) : stop = position + width cs := by
  fun_induction literal quote position cs generalizing stop cause with
  | case1 =>
    cases h
    rfl
  | case2 => cases h
  | case3 =>
    cases h
    rw [width_cons]
    rfl
  | case4 position e cs _ ih =>
    cases inner : literal quote (position + '\\'.utf8Size + e.utf8Size) cs with
    | ok => simp [inner, bind, Except.bind] at h
    | error fault =>
      rw [inner] at h
      cases h
      simp only [ih inner, width_cons, Nat.add_assoc]
  | case5 position c cs _ _ ih =>
    cases inner : literal quote (position + c.utf8Size) cs with
    | ok => simp [inner, bind, Except.bind] at h
    | error fault =>
      rw [inner] at h
      cases h
      simp only [ih inner, width_cons, Nat.add_assoc]

/-- A text breaks at one of its places. -/
lemma isPlace_of_next_broken {cause : LexicalFault} (h : next position cs = .broken cause stop) :
    IsPlace position cs stop := by
  simp only [next, List.span_eq_takeWhile_dropWhile, ← width_spaces] at h
  rw [← List.takeWhile_append_dropWhile (p := isSpace) (l := cs)]
  apply isPlace_append
  generalize cs.dropWhile isSpace = ds at h ⊢
  unfold tokenAt at h
  split at h
  · cases h
  · next c ds =>
    split at h
    · cases h
    split at h
    · cases h
    split at h
    · next quotes =>
      split at h
      · next failed =>
        cases h
        have single : c.utf8Size = 1 := by rcases quotes with rfl | rfl <;> rfl
        refine ⟨c :: ds, [], (List.append_nil _).symm, ?_⟩
        rw [eq_of_literal_error failed, width_cons, single, Nat.add_assoc]
      · cases h
    · split at h
      · cases h
      · cases h
        exact ⟨[], c :: ds, rfl, rfl⟩

namespace Leaves

variable {ts us : List Token}

lemma exists_front (h : Leaves position cs ts stop rest) :
    ∃ front, cs = front ++ rest ∧ stop = position + width front := by
  induction h with
  | here => exact ⟨[], rfl, rfl⟩
  | found found _ ih =>
    obtain ⟨spaces, word, rfl, rfl, rfl, -⟩ := exists_of_next_found found
    obtain ⟨front, rfl, rfl⟩ := ih
    refine ⟨spaces ++ (word ++ front), by simp only [List.append_assoc], ?_⟩
    simp only [width_append, Nat.add_assoc]

/-- A place in what is left is a place in the text. -/
lemma isPlace {place : ℕ} (h : Leaves position cs ts stop rest) (inner : IsPlace stop rest place) :
    IsPlace position cs place := by
  obtain ⟨front, rfl, rfl⟩ := h.exists_front
  exact isPlace_append inner

lemma spellable (h : Leaves position cs ts stop rest) : ∀ t ∈ ts, ∃ word, SpelledBy t word := by
  induction h with
  | here => nofun
  | found found _ ih =>
    obtain ⟨_, word, -, -, -, spelled⟩ := exists_of_next_found found
    exact List.forall_mem_cons.2 ⟨⟨word, spelled⟩, ih⟩

end Leaves

/-- The stream of a text passes tokens as the text is read. -/
lemma exists_leaves_of_passes {count : ℕ} {ts : List Token} {s : Tokens}
    (h : (scan count position cs).Passes ts s) (enough : cs.length < count) :
    ∃ count' stop rest, Leaves position cs ts stop rest ∧ rest.length < count' ∧
      s = scan count' stop rest := by
  generalize text : scan count position cs = s₀ at h
  induction h generalizing count position cs with
  | here => exact ⟨count, position, cs, .here, enough, text.symm⟩
  | cons _ ih =>
    cases count with
    | zero => cases text
    | succ count =>
      unfold scan at text
      split at text
      · cases text
      · cases text
      · next found =>
        cases text
        have shorter := length_lt_of_next found
        obtain ⟨count', stop, rest, leaves, enough', eq⟩ := ih (by omega) rfl
        exact ⟨count', stop, rest, .found found leaves, enough', eq⟩

end Formula.Tokens
