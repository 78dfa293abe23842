import Formula.Proofs.Grammar.Spelling

/-!
# Texts between quotes

Every text can be written between quotes of either kind. A backslash goes before each quote of that
kind and before each backslash; every other character stands for itself, line ends and tabs too.
What is written so is read as one token up to its closing quote, and the token is the text.
-/

namespace Formula.Tokens

variable {quote c : Char} {cs : List Char}

/-! ### Escaping -/

/-- A text with a backslash put before each quote and each backslash. -/
def escaped (quote : Char) (cs : List Char) : List Char :=
  cs.flatMap fun c => if c = quote ∨ c = '\\' then ['\\', c] else [c]

/-- A text written between quotes. -/
def quoted (quote : Char) (cs : List Char) : List Char := quote :: (escaped quote cs ++ [quote])

lemma escaped_cons_of_special (special : c = quote ∨ c = '\\') :
    escaped quote (c :: cs) = '\\' :: c :: escaped quote cs := by
  rw [escaped, List.flatMap_cons, if_pos special]
  rfl

lemma escaped_cons_of_plain (plain : ¬ (c = quote ∨ c = '\\')) :
    escaped quote (c :: cs) = c :: escaped quote cs := by
  rw [escaped, List.flatMap_cons, if_neg plain]
  rfl

/-- A text without quotes and backslashes stays as it is. -/
lemma escaped_eq_self (plain : ∀ c ∈ cs, ¬ (c = quote ∨ c = '\\')) : escaped quote cs = cs := by
  induction cs with
  | nil => rfl
  | cons c cs ih =>
    rw [List.forall_mem_cons] at plain
    rw [escaped_cons_of_plain plain.1, ih plain.2]

/-! ### Reading back -/

section

variable (quotes : quote = '"' ∨ quote = '\'')
include quotes

/-- What an escape is put before stands for itself behind it: it is neither of the letters that
stand for a line end and a tab. -/
lemma unescape_of_special (special : c = quote ∨ c = '\\') : unescape c = c := by
  rcases special with rfl | rfl
  · rcases quotes with rfl | rfl <;> rfl
  · rfl

/-- The content of a literal is the text that was escaped, and ends at the quote behind it. -/
lemma literal_escaped (cs : List Char) (position : ℕ) (rest : List Char) :
    literal quote position (escaped quote cs ++ quote :: rest) =
      .ok (cs, position + width (escaped quote cs ++ [quote]), rest) := by
  have unescaped : '\\' ≠ quote := by
    rcases quotes with rfl | rfl <;> decide
  induction cs generalizing position with
  | nil =>
    rw [escaped, List.flatMap_nil, List.nil_append, List.nil_append, literal.eq_def]
    simp only [if_true, width_cons]
    rfl
  | cons c cs ih =>
    by_cases special : c = quote ∨ c = '\\'
    · rw [escaped_cons_of_special special, List.cons_append, List.cons_append, literal.eq_def]
      simp only [if_neg unescaped, if_true, ih, unescape_of_special quotes special,
        List.cons_append, width_cons, Nat.add_assoc]
      rfl
    · obtain ⟨unquoted, plain⟩ := not_or.1 special
      rw [escaped_cons_of_plain special, List.cons_append, literal.eq_def]
      simp only [if_neg unquoted, if_neg plain, ih, List.cons_append, width_cons, Nat.add_assoc]
      rfl

/-- A text between quotes is read as one token, whatever follows. -/
lemma next_quoted (cs : List Char) (position : ℕ) (rest : List Char) :
    next position (quoted quote cs ++ rest) =
      .found (.text (String.ofList cs)) position (position + width (quoted quote cs)) rest := by
  have unspaced : ∀ d ∈ (quoted quote cs ++ rest).head?, ¬ isSpace d := by
    rintro d ⟨⟩
    rcases quotes with rfl | rfl <;> decide
  have unnumbered : ¬ startsNumeral (quote :: (escaped quote cs ++ quote :: rest)) := by
    rcases quotes with rfl | rfl <;> nofun
  have unlettered : ¬ isWordStart quote := by
    rcases quotes with rfl | rfl <;> nofun
  have single : quote.utf8Size = 1 := by
    rcases quotes with rfl | rfl <;> rfl
  have spelled : quoted quote cs ++ rest = quote :: (escaped quote cs ++ quote :: rest) := by
    rw [quoted, List.cons_append, List.append_assoc]
    rfl
  rw [next_of_unspaced unspaced, spelled, tokenAt.eq_def]
  simp only [if_neg unnumbered, if_neg unlettered, if_pos quotes,
    literal_escaped quotes cs (position + 1) rest]
  rw [quoted, width_cons, single, Nat.add_assoc]

/-- A text between quotes is one token and nothing else. -/
lemma ofText_quoted (cs : List Char) : ofText (quoted quote cs) =
    .cons (.text (String.ofList cs)) 0 (width (quoted quote cs))
      (.done (width (quoted quote cs))) := by
  have found := next_quoted quotes cs 0 []
  rw [List.append_nil, Nat.zero_add] at found
  simp only [ofText, scan, found, scan_nil]

end

/-- A name between quotes is read as a text. -/
lemma exists_next_quoted {name : List Char} (identifier : isIdentifier name) (position : ℕ)
    (rest : List Char) :
    ∃ stop, next position ('"' :: (name ++ '"' :: rest)) =
      .found (.text (String.ofList name)) position stop rest := by
  have plain : ∀ c ∈ name, ¬ (c = '"' ∨ c = '\\') := by
    intro c mem special
    have part := (isIdentifier_iff.1 identifier).2 c mem
    rcases special with rfl | rfl <;> exact absurd part (by decide)
  have found := next_quoted (.inl rfl) name position rest
  rw [quoted, escaped_eq_self plain, List.cons_append, List.append_assoc] at found
  exact ⟨_, found⟩

end Formula.Tokens
