import Formula.Proofs.Context.Names
import Formula.Proofs.Grammar.Lexing

/-!
# Words in a text

A word is read up to the first character that cannot be part of it. A name that can be bound is
therefore read as one identifier, unless it is a word for a constant, and no other text is.
-/

namespace Formula.Tokens

/-! ### Words for constants -/

/-- The words for the constants, in capitals. -/
def constants : List (List Char) :=
  [['T', 'R', 'U', 'E'], ['F', 'A', 'L', 'S', 'E'], ['N', 'U', 'L', 'L']]

/-- That a name is a word for a constant, in whatever letter case. -/
def IsConstant (name : String) : Prop := name.toList.map Char.toUpper ∈ constants

instance (name : String) : Decidable (IsConstant name) :=
  inferInstanceAs (Decidable (_ ∈ constants))

/-- A word is read as an identifier unless it stands for a constant. -/
lemma word_eq_identifier_iff {name spelling : String} :
    word name.toList = .identifier spelling ↔ ¬ IsConstant name ∧ spelling = name := by
  simp only [word, IsConstant, constants, List.mem_cons, List.not_mem_nil, or_false,
    String.ofList_toList]
  split_ifs with isTrue isFalse isNull
  · simp [isTrue]
  · simp [isFalse]
  · simp [isNull]
  · simp [isTrue, isFalse, isNull, eq_comm]

/-! ### Characters of words -/

section

variable {c : Char} {cs : List Char}

/-- Letters are those of seven bits. -/
lemma isWordStart_iff : isWordStart c ↔
    65 ≤ c.toNat ∧ c.toNat ≤ 90 ∨ 97 ≤ c.toNat ∧ c.toNat ≤ 122 ∨ c = '_' := by
  have ranges : isWordStart c = ((decide (c.val ≥ 'A'.val ∧ c.val ≤ 'Z'.val) ||
      decide (c.val ≥ 'a'.val) && decide (c.val ≤ 'z'.val)) || c == '_') := rfl
  simp only [ranges, Bool.or_eq_true, Bool.and_eq_true, decide_eq_true_eq, beq_iff_eq, or_assoc,
    ge_iff_le, UInt32.le_iff_toNat_le]
  rfl

lemma isWordPart_iff : isWordPart c ↔ isWordStart c ∨ 48 ≤ c.toNat ∧ c.toNat ≤ 57 := by
  have ranges : isWordPart c = ((c.isAlpha || c.isDigit) || c == '_') := rfl
  simp only [ranges, isWordStart, Bool.or_eq_true, Char.isDigit_iff_toNat]
  exact or_right_comm

lemma toNat_of_isWordStart (h : isWordStart c) : 65 ≤ c.toNat ∧ c.toNat ≤ 122 := by
  rcases isWordStart_iff.1 h with range | range | rfl
  · omega
  · omega
  · decide

lemma not_isSpace_of_isWordStart (h : isWordStart c) : ¬ isSpace c := by
  intro space
  simp only [isSpace, Bool.or_eq_true, beq_iff_eq] at space
  rcases space with ((rfl | rfl) | rfl) | rfl <;> cases h

lemma not_isDigit_of_isWordStart (h : isWordStart c) : ¬ c.isDigit := by
  intro digit
  have range : 48 ≤ c.toNat ∧ c.toNat ≤ 57 := Char.isDigit_iff_toNat.1 digit
  have range' := toNat_of_isWordStart h
  omega

lemma not_startsNumeral_of_isWordStart (h : isWordStart c) : ¬ startsNumeral (c :: cs) := by
  intro starts
  rcases eq_cons_of_startsNumeral starts with ⟨c, _, ⟨⟩, digit⟩ | ⟨_, _, ⟨⟩, _⟩
  · exact not_isDigit_of_isWordStart h digit
  · cases h

/-! ### Bytes of a text -/

/-- Words are made of seven-bit characters. -/
lemma toNat_le_of_isWordPart (h : isWordPart c) : c.toNat ≤ 127 := by
  rcases isWordPart_iff.1 h with start | range
  · exact (toNat_of_isWordStart start).2.trans (by decide)
  · exact range.2.trans (by decide)

lemma utf8Size_of_isWordPart (h : isWordPart c) : c.utf8Size = 1 :=
  Char.utf8Size_eq_one_iff.2 (toNat_le_of_isWordPart h)

lemma width_cons (c : Char) (cs : List Char) : width (c :: cs) = c.utf8Size + width cs := by
  rw [width, List.map_cons, List.foldl_cons, Nat.add_comm, List.foldl_assoc]
  rfl

lemma width_append (cs ds : List Char) : width (cs ++ ds) = width cs + width ds := by
  induction cs with
  | nil => exact (Nat.zero_add _).symm
  | cons c cs ih => rw [List.cons_append, width_cons, width_cons, ih, Nat.add_assoc]

/-- Where each character takes one byte there are as many bytes as characters. -/
lemma width_eq_length_of_single (h : ∀ c ∈ cs, c.utf8Size = 1) : width cs = cs.length := by
  induction cs with
  | nil => rfl
  | cons c cs ih =>
    rw [List.forall_mem_cons] at h
    rw [width_cons, h.1, ih h.2, List.length_cons, Nat.add_comm]

/-- The characters of words take one byte each. -/
lemma width_eq_length (h : ∀ c ∈ cs, isWordPart c) : width cs = cs.length :=
  width_eq_length_of_single fun c mem => utf8Size_of_isWordPart (h c mem)

lemma eq_nil_of_width_eq_zero (h : width cs = 0) : cs = [] := by
  cases cs with
  | nil => rfl
  | cons c cs =>
    rw [width_cons] at h
    exact absurd (Nat.eq_zero_of_add_eq_zero_right h) c.utf8Size_pos.ne'

end

/-! ### Names as words -/

section

variable {position start stop : ℕ} {c : Char} {cs name rest : List Char}

lemma isIdentifier_iff : isIdentifier cs ↔ cs.head?.any isWordStart ∧ ∀ c ∈ cs, isWordPart c := by
  cases cs with
  | nil => simp [isIdentifier]
  | cons c cs =>
    simp only [isIdentifier, Bool.and_eq_true, List.all_eq_true, List.head?_cons, Option.any_some,
      List.forall_mem_cons]
    exact ⟨fun h => ⟨h.1, isWordPart_of_isWordStart h.1, h.2⟩, fun h => ⟨h.1, h.2.2⟩⟩

/-- A span ends before the first character that is none of it. -/
lemma span_append {p : Char → Bool} {xs ys : List Char} (all : ∀ c ∈ xs, p c)
    (behind : ∀ c ∈ ys.head?, ¬ p c) : (xs ++ ys).span p = (xs, ys) := by
  rw [List.span_eq_takeWhile_dropWhile, List.takeWhile_append_of_pos all,
    List.dropWhile_append_of_pos all]
  cases ys with
  | nil => simp
  | cons c ys =>
    have stops := behind c rfl
    rw [List.takeWhile_cons_of_neg stops, List.dropWhile_cons_of_neg stops, List.append_nil]

lemma takeWhile_append {p : Char → Bool} {xs ys : List Char} (all : ∀ c ∈ xs, p c)
    (behind : ∀ c ∈ ys.head?, ¬ p c) : (xs ++ ys).takeWhile p = xs := by
  have spanned := span_append all behind
  rw [List.span_eq_takeWhile_dropWhile] at spanned
  exact (Prod.mk.inj spanned).1

/-- Behind spaces a name is read as a word, up to the first character that cannot be part of it. -/
lemma next_of_isIdentifier {spaces : List Char} (blank : ∀ c ∈ spaces, isSpace c)
    (identifier : isIdentifier name) (behind : ∀ c ∈ rest.head?, ¬ isWordPart c) :
    next position (spaces ++ (name ++ rest)) =
      .found (word name) (position + spaces.length) (position + spaces.length + name.length)
        rest := by
  obtain ⟨head, letters⟩ := isIdentifier_iff.1 identifier
  cases name with
  | nil => cases head
  | cons c cs =>
    have starts : isWordStart c := head
    have unspaced : ∀ d ∈ (c :: cs ++ rest).head?, ¬ isSpace d := by
      rintro d ⟨⟩
      exact not_isSpace_of_isWordStart starts
    have unnumbered : startsNumeral (c :: (cs ++ rest)) = false :=
      Bool.eq_false_iff.2 (not_startsNumeral_of_isWordStart starts)
    have spelled := span_append letters behind
    rw [List.cons_append] at spelled
    rw [next, span_append blank unspaced]
    simp only [List.cons_append, tokenAt, unnumbered, Bool.false_eq_true, if_false]
    rw [if_pos starts, spelled]

/-- What is read as an identifier is, behind spaces, a name. -/
lemma isIdentifier_of_next {spelling : String}
    (h : next position cs = .found (.identifier spelling) start stop rest) :
    ∃ spaces name, cs = spaces ++ (name ++ rest) ∧ start = position + spaces.length ∧
      stop = start + name.length ∧ isIdentifier name := by
  simp only [next, List.span_eq_takeWhile_dropWhile] at h
  obtain ⟨rfl, found⟩ := found_of_tokenAt h
  generalize unspaced : cs.dropWhile isSpace = ds at found
  generalize isName : Token.identifier spelling = t at found
  cases found with
  | numeral | literal => cases isName
  | symbol mem =>
    subst isName
    simp [symbols] at mem
  | @word c ds letter =>
    refine ⟨cs.takeWhile isSpace, (c :: ds).takeWhile isWordPart, ?_, rfl, rfl, ?_⟩
    · rw [List.takeWhile_append_dropWhile, ← unspaced, List.takeWhile_append_dropWhile]
    · refine isIdentifier_iff.2 ⟨?_, fun d mem => List.mem_takeWhile_imp mem⟩
      rw [List.takeWhile_cons_of_pos (isWordPart_of_isWordStart letter)]
      exact letter

lemma scan_nil (count position : ℕ) : scan count position [] = .done position := by
  cases count <;> rfl

/-- A name is read as one word. -/
lemma ofText_of_isIdentifier (identifier : isIdentifier name) :
    ofText name = .cons (word name) 0 (width name) (.done (width name)) := by
  have found : next 0 ([] ++ (name ++ [])) = _ :=
    next_of_isIdentifier (by simp) identifier (by simp)
  rw [List.nil_append, List.append_nil, List.length_nil, Nat.zero_add, Nat.zero_add,
    ← width_eq_length (isIdentifier_iff.1 identifier).2] at found
  simp only [ofText, scan, found, scan_nil]

/-- What is read as one identifier from its first to its last byte is a name. -/
lemma isIdentifier_of_ofText {spelling : String} {behind : Tokens}
    (h : ofText name = .cons (.identifier spelling) 0 (width name) behind) :
    isIdentifier name := by
  rw [ofText, scan] at h
  split at h
  · cases h
  · cases h
  next rest found =>
    cases h
    obtain ⟨spaces, word, eq, unspaced, bytes, identifier⟩ := isIdentifier_of_next found
    obtain rfl : spaces = [] := List.length_eq_zero_iff.1 (by omega)
    rw [eq, List.nil_append, width_append,
      width_eq_length (isIdentifier_iff.1 identifier).2] at bytes
    obtain rfl : rest = [] := eq_nil_of_width_eq_zero (by omega)
    rwa [eq, List.nil_append, List.append_nil]

/-- The texts that are read as one identifier are the names that are no words for constants, and the
identifier is the name. -/
lemma ofText_eq_identifier_iff {name spelling : String} :
    ofText name.toList =
        .cons (.identifier spelling) 0 (width name.toList) (.done (width name.toList)) ↔
      isIdentifier name.toList ∧ ¬ IsConstant name ∧ spelling = name := by
  rw [← word_eq_identifier_iff]
  constructor
  · intro read
    have identifier := isIdentifier_of_ofText read
    rw [ofText_of_isIdentifier identifier, Tokens.cons.injEq] at read
    exact ⟨identifier, read.1⟩
  · rintro ⟨identifier, spelled⟩
    rw [ofText_of_isIdentifier identifier, spelled]

end

end Formula.Tokens
