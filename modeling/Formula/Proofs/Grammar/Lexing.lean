import Formula.Token.Stream
import Mathlib.Data.List.TakeDrop
import Mathlib.Data.List.TakeWhile
import Mathlib.Tactic.Lemma

/-!
# The tokens of a text

A text is looked at again and again: each look finds a token, finds the end, or finds that no token
starts where it is. `Lexes` says which tokens a text has when the looks come to the end. The stream
of a text spells just these tokens, since every token takes a character and the count that bounds
the stream is never used up.
-/

namespace Formula

/-- A sequence of two steps succeeds when both steps do. -/
lemma bind_eq_ok {ε α β : Type} {x : Except ε α} {f : α → Except ε β} {b : β} :
    x >>= f = .ok b ↔ ∃ a, x = .ok a ∧ f a = .ok b := by
  cases x with
  | error e => exact ⟨nofun, nofun⟩
  | ok a => exact ⟨fun h => ⟨a, rfl, h⟩, fun ⟨_, rfl, h⟩ => h⟩

namespace Tokens

/-- That a text has these tokens, from a position on, and then ends. -/
inductive Lexes : (position : Nat) → List Char → List Token → Prop
  | done {position stop : Nat} {cs : List Char} (ends : next position cs = .done stop) :
      Lexes position cs []
  | found {position start stop : Nat} {cs rest : List Char} {t : Token} {ts : List Token}
      (found : next position cs = .found t start stop rest) (more : Lexes stop rest ts) :
      Lexes position cs (t :: ts)

/-- That a stream has these tokens and does not break. -/
inductive Spells : Tokens → List Token → Prop
  | done {position : Nat} : Spells (.done position) []
  | cons {t : Token} {start stop : Nat} {rest : Tokens} {ts : List Token} (more : Spells rest ts) :
      Spells (.cons t start stop rest) (t :: ts)

/-! ### Every token takes a character -/

lemma length_dropWhile_lt {p : Char → Bool} {c : Char} {cs : List Char} (h : p c) :
    ((c :: cs).dropWhile p).length < (c :: cs).length := by
  rw [List.dropWhile_cons_of_pos h, List.length_cons]
  exact Nat.lt_succ_of_le (List.length_dropWhile_le p cs)

/-- What starts with a numeral starts with a digit, perhaps behind a point. -/
lemma eq_cons_of_startsNumeral {cs : List Char} (h : startsNumeral cs) :
    (∃ c rest, cs = c :: rest ∧ c.isDigit) ∨ ∃ c rest, cs = '.' :: c :: rest ∧ c.isDigit := by
  unfold startsNumeral at h
  split at h
  · next c rest => exact .inr ⟨c, rest, rfl, h⟩
  · next c rest _ => exact .inl ⟨c, rest, rfl, h⟩
  · cases h

lemma length_lt_of_numeral {cs whole fraction rest : List Char} {length : Nat}
    (starts : startsNumeral cs) (h : numeral cs = (whole, fraction, length, rest)) :
    rest.length < cs.length := by
  have shorter : (cs.dropWhile Char.isDigit).length < cs.length ∨
      ∃ c more, cs.dropWhile Char.isDigit = '.' :: c :: more ∧ c.isDigit := by
    rcases eq_cons_of_startsNumeral starts with ⟨c, more, rfl, digit⟩ | ⟨c, more, rfl, digit⟩
    · exact .inl (length_dropWhile_lt digit)
    · exact .inr ⟨c, more, rfl, digit⟩
  have all := List.length_dropWhile_le Char.isDigit cs
  simp only [numeral, List.span_eq_takeWhile_dropWhile] at h
  split at h
  · next eq =>
    cases h
    rcases shorter with lt | ⟨c, more, eq', digit⟩
    · exact lt
    · rw [eq] at eq'
      cases eq'
      cases digit
  · next tail _ eq =>
    cases h
    have fraction := List.length_dropWhile_le Char.isDigit tail
    rw [eq, List.length_cons] at all
    omega
  · next unpointed =>
    cases h
    rcases shorter with lt | ⟨c, more, eq, _⟩
    · exact lt
    · exact absurd eq (unpointed _)

lemma length_le_of_literal {quote : Char} {position stop : Nat} {cs content rest : List Char}
    (h : literal quote position cs = .ok (content, stop, rest)) : rest.length ≤ cs.length := by
  fun_induction literal quote position cs generalizing content stop rest with
  | case1 => cases h
  | case2 =>
    cases h
    exact Nat.le_succ _
  | case3 => cases h
  | case4 position e cs _ ih =>
    obtain ⟨⟨content', stop', rest'⟩, inner, eq⟩ := bind_eq_ok.1 h
    cases eq
    exact Nat.le_succ_of_le (Nat.le_succ_of_le (ih inner))
  | case5 position c cs _ _ ih =>
    obtain ⟨⟨content', stop', rest'⟩, inner, eq⟩ := bind_eq_ok.1 h
    cases eq
    exact Nat.le_succ_of_le (ih inner)

lemma ne_nil_of_mem_symbols {spelling : List Char} {t : Token} (h : (spelling, t) ∈ symbols) :
    spelling ≠ [] := by
  have all : ∀ s ∈ symbols, s.1 ≠ [] := by simp [symbols]
  exact all _ h

/-- What starts an identifier may be part of one. -/
lemma isWordPart_of_isWordStart {c : Char} (h : isWordStart c) : isWordPart c := by
  simp only [isWordStart, Bool.or_eq_true] at h
  simp only [isWordPart, Char.isAlphanum, Bool.or_eq_true]
  exact h.imp_left .inl

/-- What may be found at the start of a text: a numeral, a word, a text literal or a symbol, with
where it stops and what follows. -/
inductive Found (position : Nat) : List Char → Token → Nat → List Char → Prop
  | numeral {cs whole fraction rest : List Char} {length : Nat} (starts : startsNumeral cs)
      (read : Tokens.numeral cs = (whole, fraction, length, rest)) :
      Found position cs (.number (Number.ofDecimal whole fraction 0)) (position + length) rest
  | word {c : Char} {cs : List Char} (letter : isWordStart c) :
      Found position (c :: cs) (Tokens.word ((c :: cs).takeWhile isWordPart))
        (position + ((c :: cs).takeWhile isWordPart).length) ((c :: cs).dropWhile isWordPart)
  | literal {quote : Char} {cs content rest : List Char} {stop : Nat}
      (quotes : quote = '"' ∨ quote = '\'')
      (read : Tokens.literal quote (position + 1) cs = .ok (content, stop, rest)) :
      Found position (quote :: cs) (.text (String.ofList content)) stop rest
  | symbol {spelling rest : List Char} {t : Token} (mem : (spelling, t) ∈ symbols) :
      Found position (spelling ++ rest) t (position + spelling.length) rest

/-- What is found at the start of a text is one of these, and starts there. -/
lemma found_of_tokenAt {position start stop : Nat} {cs rest : List Char} {t : Token}
    (h : tokenAt position cs = .found t start stop rest) :
    start = position ∧ Found position cs t stop rest := by
  unfold tokenAt at h
  split at h
  · cases h
  · next c cs =>
    split at h
    · next starts =>
      cases h
      exact ⟨rfl, .numeral starts rfl⟩
    split at h
    · next letter =>
      simp only [List.span_eq_takeWhile_dropWhile] at h
      cases h
      exact ⟨rfl, .word letter⟩
    split at h
    · next quotes =>
      split at h
      · cases h
      · next content stop rest read =>
        cases h
        exact ⟨rfl, .literal quotes read⟩
    split at h
    · next spelling token found =>
      cases h
      have starts : spelling.isPrefixOf (c :: cs) := by simpa using List.find?_some found
      obtain ⟨rest, spelled⟩ := List.isPrefixOf_iff_prefix.1 starts
      rw [← spelled, List.drop_left]
      exact ⟨rfl, .symbol (List.mem_of_find?_eq_some found)⟩
    · cases h

/-- What is found at the start of a text takes some of it. -/
lemma length_lt_of_tokenAt {position start stop : Nat} {cs rest : List Char} {t : Token}
    (h : tokenAt position cs = .found t start stop rest) : rest.length < cs.length := by
  cases (found_of_tokenAt h).2 with
  | numeral starts read => exact length_lt_of_numeral starts read
  | word letter => exact length_dropWhile_lt (isWordPart_of_isWordStart letter)
  | literal _ read => exact Nat.lt_succ_of_le (length_le_of_literal read)
  | symbol mem =>
    have spelled := List.length_pos_iff.2 (ne_nil_of_mem_symbols mem)
    rw [List.length_append]
    omega

lemma length_lt_of_next {position start stop : Nat} {cs rest : List Char} {t : Token}
    (h : next position cs = .found t start stop rest) : rest.length < cs.length := by
  simp only [next, List.span_eq_takeWhile_dropWhile] at h
  exact Nat.lt_of_lt_of_le (length_lt_of_tokenAt h) (List.length_dropWhile_le isSpace cs)

/-! ### The stream of a text -/

lemma scan_spells_iff {count position : Nat} {cs : List Char} {ts : List Token}
    (enough : cs.length < count) : (scan count position cs).Spells ts ↔ Lexes position cs ts := by
  induction count generalizing position cs ts with
  | zero => exact absurd enough (Nat.not_lt_zero _)
  | succ count ih =>
    unfold scan
    cases look : next position cs with
    | done stop =>
      constructor
      · rintro ⟨⟩
        exact .done look
      · rintro (ends | ⟨found, _⟩)
        · exact .done
        · rw [look] at found
          cases found
    | broken cause stop =>
      constructor
      · rintro ⟨⟩
      · rintro (ends | ⟨found, _⟩)
        · rw [look] at ends
          cases ends
        · rw [look] at found
          cases found
    | found t start stop rest =>
      have enough' : rest.length < count := by
        have shorter := length_lt_of_next look
        omega
      constructor
      · rintro (_ | more)
        exact .found look ((ih enough').1 more)
      · rintro (ends | ⟨found, more⟩)
        · rw [look] at ends
          cases ends
        · rw [look] at found
          cases found
          exact .cons ((ih enough').2 more)

/-- The stream of a text spells the tokens of the text. -/
theorem ofText_spells_iff {cs : List Char} {ts : List Token} :
    (ofText cs).Spells ts ↔ Lexes 0 cs ts :=
  scan_spells_iff (Nat.lt_succ_self _)

end Tokens

end Formula
