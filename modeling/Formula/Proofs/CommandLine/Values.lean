import Formula.CommandLine
import Mathlib.Data.List.Forall2
import Mathlib.Tactic.Lemma

/-!
# Values on the command line

What stands behind the equals sign of an assignment is a text between quotes, a word for a constant,
a list between brackets, a number, or the text as it is; the first of these that applies counts. The
items of a list are what stands between its commas, read in the same way. An item is shorter than
its list, so one level more than the text has characters suffices to read it.
-/

namespace Formula.CommandLine

/-! ### What texts stand for -/

/-- The words for constants. -/
def words : List (String × Value) :=
  [("true", .boolean true), ("false", .boolean false), ("null", .null)]

/-- That a character is a quote of either kind. -/
def IsQuote (q : Char) : Prop := q = '"' ∨ q = '\''

/-- That a text stands neither between quotes nor between brackets and is no word for a constant. -/
structure IsPlain (cs : List Char) : Prop where
  unquoted : ∀ q content, IsQuote q → cs ≠ q :: (content ++ [q])
  unbracketed : ∀ content, cs ≠ '[' :: (content ++ [']'])
  wordless : ∀ w ∈ words, Text.lowerText cs ≠ w.1.toList

/-- That a text stands for a value. -/
inductive Stands : List Char → Value → Prop
  /-- A text between quotes stands for its content as it is. -/
  | quoted {q : Char} {content : List Char} (quote : IsQuote q) :
      Stands (q :: (content ++ [q])) (.text (String.ofList content))
  /-- The words for constants count in any letter case. -/
  | word {cs : List Char} {w : String × Value} (mem : w ∈ words)
      (spelled : Text.lowerText cs = w.1.toList) : Stands cs w.2
  | blank {content : List Char} (blank : Text.trim content = []) :
      Stands ('[' :: (content ++ [']'])) (.array [])
  /-- The items of a list are read without the blanks around them. -/
  | list {parts : List (List Char)} {values : List Value}
      (filled : Text.trim ([','].intercalate parts) ≠ []) (separated : ∀ part ∈ parts, ',' ∉ part)
      (items : List.Forall₂ (fun part v => Stands (Text.trim part) v) parts values) :
      Stands ('[' :: ([','].intercalate parts ++ [']'])) (.array values)
  | number {cs : List Char} {x : Float} (plain : IsPlain cs) (read : Number.read? cs = some x) :
      Stands cs (.number x)
  | text {cs : List Char} (plain : IsPlain cs) (unread : Number.read? cs = none) :
      Stands cs (.text (String.ofList cs))

/-! ### Quotes, brackets and words -/

section

variable {cs content part : List Char} {c : Char}

lemma unquoted?_eq_some_iff :
    unquoted? cs = some content ↔ ∃ q, IsQuote q ∧ cs = q :: (content ++ [q]) := by
  cases cs with
  | nil => simp [unquoted?]
  | cons c cs =>
    rw [unquoted?, Option.ite_none_right_eq_some, List.getLast?_eq_some_iff]
    constructor
    · rintro ⟨⟨quote, _, rfl⟩, ⟨⟩⟩
      exact ⟨c, quote, by simp⟩
    · rintro ⟨q, quote, ⟨⟩⟩
      exact ⟨⟨quote, content, rfl⟩, by simp⟩

lemma unquoted?_eq_none (unquoted : ∀ q content, IsQuote q → cs ≠ q :: (content ++ [q])) :
    unquoted? cs = none := by
  refine Option.eq_none_iff_forall_ne_some.2 fun content quoted => ?_
  obtain ⟨q, quote, same⟩ := unquoted?_eq_some_iff.1 quoted
  exact unquoted q content quote same

lemma unbracketed?_eq_some_iff :
    unbracketed? cs = some content ↔ cs = '[' :: (content ++ [']']) := by
  unfold unbracketed?
  split
  · next cs =>
    rw [Option.ite_none_right_eq_some, List.getLast?_eq_some_iff]
    constructor
    · rintro ⟨⟨_, rfl⟩, ⟨⟩⟩
      simp
    · rintro ⟨⟩
      exact ⟨⟨content, rfl⟩, by simp⟩
  · next other => exact iff_of_false nofun fun bracketed => other _ bracketed

/-- No word for a constant starts with a quote or a bracket. -/
lemma lowerText_ne_of_mark (mark : c = '"' ∨ c = '\'' ∨ c = '[') {w : String × Value}
    (mem : w ∈ words) : Text.lowerText (c :: cs) ≠ w.1.toList := by
  have kept : Text.lower c = [c] := by rcases mark with rfl | rfl | rfl <;> rfl
  rw [Text.lowerText, List.flatMap_cons, kept]
  simp only [words, List.mem_cons, List.not_mem_nil, or_false] at mem
  rcases mem with rfl | rfl | rfl <;> rcases mark with rfl | rfl | rfl <;> simp

/-! ### Items -/

/-- A part of a text that is cut at a character is taken from the text and is free of it. -/
lemma of_mem_splitOn (mem : part ∈ cs.splitOn c) : part.Sublist cs ∧ c ∉ part := by
  induction cs generalizing part with
  | nil => simp_all
  | cons d cs ih =>
    rw [List.splitOn_cons_eq_if_modifyHead] at mem
    split at mem
    · rcases List.mem_cons.1 mem with rfl | mem
      · simp
      · exact ⟨(ih mem).1.cons d, (ih mem).2⟩
    · next apart =>
      have apart : c ≠ d := fun same => apart (beq_iff_eq.2 same.symm)
      obtain ⟨first, rest, parts⟩ := List.exists_cons_of_ne_nil (List.splitOn_ne_nil c cs)
      rw [parts] at ih mem
      rcases List.mem_cons.1 mem with rfl | mem
      · obtain ⟨within, free⟩ := ih List.mem_cons_self
        exact ⟨within.cons_cons d, List.not_mem_cons_of_ne_of_not_mem apart free⟩
      · obtain ⟨within, free⟩ := ih (List.mem_cons_of_mem _ mem)
        exact ⟨within.cons d, free⟩

lemma length_trim_le (cs : List Char) : (Text.trim cs).length ≤ cs.length := by
  have cut (cs : List Char) : (Text.trimStart cs).length ≤ cs.length :=
    (List.dropWhile_sublist _).length_le
  calc (Text.trim cs).length = (Text.trimStart (Text.trimStart cs).reverse).length := by
        rw [Text.trim, List.length_reverse]
    _ ≤ (Text.trimStart cs).reverse.length := cut _
    _ = (Text.trimStart cs).length := List.length_reverse
    _ ≤ cs.length := cut cs

/-- An item is shorter than its list by the brackets. -/
lemma length_item_lt {n : ℕ} (mem : part ∈ content.splitOn c)
    (enough : ('[' :: (content ++ [']'])).length < n + 1) : (Text.trim part).length < n := by
  have within := (of_mem_splitOn mem).1.length_le
  have trimmed := length_trim_le part
  simp only [List.length_cons, List.length_append] at enough
  omega

end

/-! ### Reading -/

section

variable {cs : List Char} {v : Value} {depth : ℕ}

lemma readValue_of_quote {q : Char} (quote : IsQuote q) (content : List Char) (depth : ℕ) :
    readValue (depth + 1) (q :: (content ++ [q])) = .text (String.ofList content) := by
  rw [readValue, unquoted?_eq_some_iff.2 ⟨q, quote, rfl⟩]

lemma readValue_of_word {w : String × Value} (mem : w ∈ words)
    (spelled : Text.lowerText cs = w.1.toList) (depth : ℕ) : readValue (depth + 1) cs = w.2 := by
  have unquoted : unquoted? cs = none := by
    refine unquoted?_eq_none ?_
    rintro q content quote rfl
    exact lowerText_ne_of_mark (quote.imp_right .inl) mem spelled
  rw [readValue, unquoted, spelled]
  simp only [words, List.mem_cons, List.not_mem_nil, or_false] at mem
  rcases mem with rfl | rfl | rfl <;> rfl

lemma ofList_lowerText_ne (wordless : ∀ w ∈ words, Text.lowerText cs ≠ w.1.toList) :
    String.ofList (Text.lowerText cs) ≠ "true" ∧ String.ofList (Text.lowerText cs) ≠ "false" ∧
      String.ofList (Text.lowerText cs) ≠ "null" := by
  have apart : ∀ w ∈ words, String.ofList (Text.lowerText cs) ≠ w.1 :=
    fun w mem same => wordless w mem (by rw [← same, String.toList_ofList])
  simpa only [words, List.forall_mem_cons, List.not_mem_nil, false_imp_iff, implies_true,
    and_true] using apart

lemma readValue_of_bracket (content : List Char) (depth : ℕ) :
    readValue (depth + 1) ('[' :: (content ++ [']'])) =
      if Text.trim content = [] then .array []
      else .array ((content.splitOn ',').map fun part => readValue depth (Text.trim part)) := by
  have unquoted : unquoted? ('[' :: (content ++ [']'])) = none := rfl
  have bracketed : unbracketed? ('[' :: (content ++ [']'])) = some content :=
    unbracketed?_eq_some_iff.2 rfl
  have wordless : ∀ w ∈ words, Text.lowerText ('[' :: (content ++ [']'])) ≠ w.1.toList :=
    fun w mem => lowerText_ne_of_mark (.inr (.inr rfl)) mem
  obtain ⟨isTrue, isFalse, isNull⟩ := ofList_lowerText_ne wordless
  simp only [readValue, unquoted, bracketed, if_neg isTrue, if_neg isFalse, if_neg isNull]

lemma readValue_of_isPlain (plain : IsPlain cs) (depth : ℕ) :
    readValue (depth + 1) cs =
      ((Number.read? cs).map .number).getD (.text (String.ofList cs)) := by
  have unquoted := unquoted?_eq_none plain.unquoted
  have unbracketed : unbracketed? cs = none := by
    refine Option.eq_none_iff_forall_ne_some.2 fun content bracketed => ?_
    exact plain.unbracketed content (unbracketed?_eq_some_iff.1 bracketed)
  obtain ⟨isTrue, isFalse, isNull⟩ := ofList_lowerText_ne plain.wordless
  simp only [readValue, unquoted, unbracketed, if_neg isTrue, if_neg isFalse, if_neg isNull]
  cases Number.read? cs <;> rfl

/-- Every text is of one of the forms that the reader tells apart. -/
lemma form_cases (cs : List Char) :
    (∃ q content, IsQuote q ∧ cs = q :: (content ++ [q])) ∨
      (∃ w ∈ words, Text.lowerText cs = w.1.toList) ∨
      (∃ content, cs = '[' :: (content ++ [']'])) ∨ IsPlain cs := by
  by_cases quoted : ∃ q content, IsQuote q ∧ cs = q :: (content ++ [q])
  · exact .inl quoted
  by_cases word : ∃ w ∈ words, Text.lowerText cs = w.1.toList
  · exact .inr (.inl word)
  by_cases bracketed : ∃ content, cs = '[' :: (content ++ [']'])
  · exact .inr (.inr (.inl bracketed))
  · push Not at quoted word bracketed
    exact .inr (.inr (.inr ⟨quoted, bracketed, word⟩))

/-- What is read of a text with enough levels is what it stands for. -/
lemma stands_readValue (enough : cs.length < depth) : Stands cs (readValue depth cs) := by
  induction depth generalizing cs with
  | zero => cases enough
  | succ depth ih =>
    rcases form_cases cs with ⟨q, content, quote, rfl⟩ | ⟨w, mem, spelled⟩ | ⟨content, rfl⟩ | plain
    · rw [readValue_of_quote quote]
      exact .quoted quote
    · rw [readValue_of_word mem spelled]
      exact .word mem spelled
    · rw [readValue_of_bracket]
      split
      · next blank => exact .blank blank
      · next filled =>
        have whole := content.intercalate_splitOn ','
        rw [← whole] at filled
        nth_rewrite 1 [← whole]
        refine .list filled (fun _ mem => (of_mem_splitOn mem).2) ?_
        rw [List.forall₂_map_right_iff, List.forall₂_same]
        exact fun part mem => ih (length_item_lt mem enough)
    · rw [readValue_of_isPlain plain]
      cases read : Number.read? cs with
      | none => exact .text plain read
      | some x => exact .number plain read

lemma readValue_of_stands (stands : Stands cs v) (enough : cs.length < depth) :
    readValue depth cs = v := by
  induction depth generalizing cs v with
  | zero => cases enough
  | succ depth ih =>
    cases stands with
    | quoted quote => exact readValue_of_quote quote _ depth
    | word mem spelled => exact readValue_of_word mem spelled depth
    | blank blank => rw [readValue_of_bracket, if_pos blank]
    | @list parts values filled separated items =>
      have cut : ([','].intercalate parts).splitOn ',' = parts := by
        refine List.splitOn_intercalate ',' separated ?_
        rintro rfl
        exact filled rfl
      have read : ∀ part ∈ parts, ∀ v, Stands (Text.trim part) v →
          readValue depth (Text.trim part) = v :=
        fun part mem v stands => ih stands (length_item_lt (by rwa [cut]) enough)
      have same : List.Forall₂ (· = ·) (parts.map fun part => readValue depth (Text.trim part))
          values := by
        refine List.forall₂_map_left_iff.2 ?_
        exact ((List.forall₂_and_left _ _).2 ⟨read, items⟩).imp fun part v h => h.1 v h.2
      rw [List.forall₂_eq_eq_eq] at same
      rw [readValue_of_bracket, if_neg filled, cut, ← same]
    | number plain read =>
      rw [readValue_of_isPlain plain, read]
      rfl
    | text plain unread =>
      rw [readValue_of_isPlain plain, unread]
      rfl

/-- **Every text is read as the one value that it stands for.** -/
theorem parseValue_eq_iff {text : String} : parseValue text = v ↔ Stands text.toList v := by
  have enough : text.toList.length < text.length + 1 := by
    rw [String.length_toList]
    exact Nat.lt_succ_self _
  constructor
  · rintro rfl
    exact stands_readValue enough
  · exact fun stands => readValue_of_stands stands enough

/-- A comma separates items even between quotes. -/
example : parseValue "[True, 'a,b']" = .array [.boolean true, .text "'a", .text "b'"] := rfl

end

end Formula.CommandLine
