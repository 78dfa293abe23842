import Formula.Cast
import Formula.Proofs.Grammar.Spelling

/-!
# Numbers at the start of texts

A text is cast to a number without fraction by the number that it starts with: its longest start of
a sign or none and digits with one point at most. As a whole, a text is read as a number with an
exponent too, and the words for the values that have no digits are read. Both begin with a letter,
so on texts without letters the two ways of reading agree.
-/

namespace Formula.Number

open Tokens

variable {cs ds start whole fraction rest : List Char} {c : Char}

/-! ### Signs -/

lemma splitSign_cons (minus : c ≠ '-') (plus : c ≠ '+') (cs : List Char) :
    splitSign (c :: cs) = (false, c :: cs) := by
  unfold splitSign
  split
  · next eq => exact absurd (List.cons.inj eq).1 minus
  · next eq => exact absurd (List.cons.inj eq).1 plus
  · rfl

/-- Behind its sign a start of a text goes on as the text does. -/
lemma splitSign_start (le : cs <+: ds) : (splitSign cs).2 <+: (splitSign ds).2 := by
  obtain ⟨more, rfl⟩ := le
  cases cs with
  | nil => exact List.nil_prefix
  | cons c cs =>
    by_cases minus : c = '-'
    · subst minus
      exact ⟨more, rfl⟩
    by_cases plus : c = '+'
    · subst plus
      exact ⟨more, rfl⟩
    rw [List.cons_append, splitSign_cons minus plus, splitSign_cons minus plus]
    exact ⟨more, rfl⟩

/-- The sign of a text is the sign of the text cut off anywhere behind it. -/
lemma exists_sign (cs : List Char) : ∃ sign, cs = sign ++ (splitSign cs).2 ∧
    (∀ c ∈ sign, ¬ c.isAlpha) ∧
    ∀ ds, ds <+: (splitSign cs).2 → splitSign (sign ++ ds) = ((splitSign cs).1, ds) := by
  cases cs with
  | nil =>
    refine ⟨[], rfl, nofun, fun ds le => ?_⟩
    rw [List.prefix_nil.1 le]
    rfl
  | cons c cs =>
    by_cases minus : c = '-'
    · subst minus
      exact ⟨['-'], rfl, List.forall_mem_singleton.2 nofun, fun _ _ => rfl⟩
    by_cases plus : c = '+'
    · subst plus
      exact ⟨['+'], rfl, List.forall_mem_singleton.2 nofun, fun _ _ => rfl⟩
    rw [splitSign_cons minus plus]
    refine ⟨[], rfl, nofun, fun ds le => ?_⟩
    cases ds with
    | nil => rfl
    | cons d ds =>
      obtain ⟨more, eq⟩ := le
      obtain ⟨rfl, -⟩ := List.cons.inj eq
      exact splitSign_cons minus plus ds

/-! ### Numeric starts -/

/-- That a text is made of digits and of one point at most. -/
structure IsUnsigned (cs : List Char) : Prop where
  digits : ∀ c ∈ cs, c.isDigit ∨ c = '.'
  point : cs.count '.' ≤ 1

/-- That a text is made of a sign or none, of digits and of one point at most. -/
def IsNumeric (cs : List Char) : Prop := IsUnsigned (splitSign cs).2

/-- That a text starts with a numeric text, and with no longer one. -/
structure IsNumericStart (start text : List Char) : Prop where
  starts : start <+: text
  numeric : IsNumeric start
  longest : ∀ other, IsNumeric other → other <+: text → other <+: start

lemma IsUnsigned.of_start (h : IsUnsigned ds) (le : cs <+: ds) : IsUnsigned cs :=
  ⟨fun c mem => h.digits c (le.subset mem), (le.sublist.count_le _).trans h.point⟩

/-- Starts of numeric texts are numeric. -/
lemma IsNumeric.of_start (h : IsNumeric ds) (le : cs <+: ds) : IsNumeric cs :=
  IsUnsigned.of_start h (splitSign_start le)

/-- A numeric start is the longest one when it cannot be continued. -/
lemma IsNumericStart.of_stops (numeric : IsNumeric start)
    (stops : ∀ c ∈ rest.head?, ¬ IsNumeric (start ++ [c])) :
    IsNumericStart start (start ++ rest) := by
  refine ⟨List.prefix_append _ _, numeric, fun other numeric' le => ?_⟩
  rcases List.prefix_or_prefix_of_prefix le (List.prefix_append start rest) with short | long
  · exact short
  · obtain ⟨more, rfl⟩ := long
    rw [List.prefix_append_right_inj] at le
    cases more with
    | nil => simp
    | cons c more =>
      obtain ⟨behind, rfl⟩ := le
      refine absurd (numeric'.of_start ?_) (stops c rfl)
      exact ⟨more, by rw [List.append_assoc]; rfl⟩

/-! ### Digits around a point -/

/-- That a text is digits, perhaps around a point, and does not go on with the text behind it. -/
inductive DigitRun : (start whole fraction rest : List Char) → Prop
  | whole {whole rest : List Char} (digits : ∀ c ∈ whole, c.isDigit)
      (stops : ∀ c ∈ rest.head?, ¬ c.isDigit ∧ c ≠ '.') : DigitRun whole whole [] rest
  | pointed {whole fraction rest : List Char} (digits : ∀ c ∈ whole, c.isDigit)
      (decimals : ∀ c ∈ fraction, c.isDigit) (stops : ∀ c ∈ rest.head?, ¬ c.isDigit) :
      DigitRun (whole ++ '.' :: fraction) whole fraction rest

/-- Every text starts so. -/
lemma exists_digitRun (cs : List Char) :
    ∃ start whole fraction rest, cs = start ++ rest ∧ DigitRun start whole fraction rest := by
  have digits {ds : List Char} : ∀ c ∈ ds.takeWhile Char.isDigit, c.isDigit :=
    fun c mem => List.mem_takeWhile_imp mem
  have split := List.takeWhile_append_dropWhile (p := Char.isDigit) (l := cs)
  have stops : ∀ c ∈ (cs.dropWhile Char.isDigit).head?, ¬ c.isDigit := not_of_mem_head?_dropWhile
  generalize cs.dropWhile Char.isDigit = rest at split stops
  by_cases pointed : ∃ tail, rest = '.' :: tail
  · obtain ⟨tail, rfl⟩ := pointed
    have run : DigitRun (cs.takeWhile Char.isDigit ++ '.' :: tail.takeWhile Char.isDigit) _ _
        (tail.dropWhile Char.isDigit) := .pointed digits digits not_of_mem_head?_dropWhile
    refine ⟨_, _, _, _, ?_, run⟩
    rw [List.append_assoc, List.cons_append, List.takeWhile_append_dropWhile, split]
  · refine ⟨_, _, _, _, split.symm, .whole digits fun c mem => ⟨stops c mem, ?_⟩⟩
    rintro rfl
    obtain ⟨tail, eq⟩ := List.head?_eq_some_iff.1 mem
    exact pointed ⟨tail, eq⟩

namespace DigitRun

lemma isUnsigned (h : DigitRun start whole fraction rest) : IsUnsigned start := by
  have no_point {ds : List Char} (digits : ∀ c ∈ ds, c.isDigit) : ds.count '.' = 0 :=
    List.count_eq_zero.2 fun mem => absurd (digits _ mem) (by decide)
  cases h with
  | whole digits =>
    refine ⟨fun c mem => .inl (digits c mem), ?_⟩
    rw [no_point digits]
    exact Nat.zero_le 1
  | pointed digits decimals =>
    refine ⟨fun c mem => ?_, ?_⟩
    · rcases List.mem_append.1 mem with mem | mem
      · exact .inl (digits c mem)
      · rcases List.mem_cons.1 mem with rfl | mem
        · exact .inr rfl
        · exact .inl (decimals c mem)
    · rw [List.count_append, List.count_cons_self, no_point digits, no_point decimals]

/-- It cannot be continued by the text behind it. -/
lemma not_isUnsigned (h : DigitRun start whole fraction rest) :
    ∀ c ∈ rest.head?, ¬ IsUnsigned (start ++ [c]) := by
  intro c mem unsigned
  have last := unsigned.digits c (by simp)
  cases h with
  | whole _ stops => exact last.elim (stops c mem).1 (stops c mem).2
  | pointed _ _ stops =>
    obtain rfl : c = '.' := last.resolve_left (stops c mem)
    have two := unsigned.point
    simp only [List.count_append, List.count_cons_self, List.count_nil] at two
    omega

/-- With nothing behind it, it is the same run. -/
lemma alone (h : DigitRun start whole fraction rest) : DigitRun start whole fraction [] := by
  cases h with
  | whole digits => exact .whole digits nofun
  | pointed digits decimals => exact .pointed digits decimals nofun

/-- The digits of a text that starts with a sign or none and such a run. -/
lemma numericStart_eq {negative : Bool} (h : DigitRun start whole fraction rest)
    (split : splitSign cs = (negative, start ++ rest)) :
    numericStart cs = (negative, whole, fraction) := by
  cases h with
  | whole digits stops =>
    simp only [numericStart, split, span_append digits fun c mem => (stops c mem).1]
    split
    · exact absurd rfl (stops '.' rfl).2
    · rfl
  | pointed digits decimals stops =>
    simp only [numericStart, split, List.append_assoc, List.cons_append, span_point digits,
      takeWhile_append decimals stops]

/-- What a numeral says is in such a run and an exponent behind it. -/
lemma readDigits?_eq (h : DigitRun start whole fraction rest) : readDigits? (start ++ rest) =
    if whole = [] ∧ fraction = [] then none
    else (exponent? rest).map (ofDecimal whole fraction) := by
  cases h with
  | whole digits stops =>
    simp only [readDigits?, span_append digits fun c mem => (stops c mem).1]
    split
    · exact absurd rfl (stops '.' rfl).2
    · simp only [and_true]
  | pointed digits decimals stops =>
    simp only [readDigits?, List.append_assoc, List.cons_append, span_point digits,
      span_append decimals stops]

end DigitRun

/-! ### Reading -/

/-- Only letters are letters in lower case. -/
lemma isAlpha_of_toLower (h : c.toLower.isAlpha) : c.isAlpha := by
  unfold Char.toLower at h
  split at h
  · next upper => exact Bool.or_eq_true_iff.2 (.inl (decide_eq_true upper))
  · exact h

lemma IsUnsigned.not_isAlpha (h : IsUnsigned cs) : ∀ c ∈ cs, ¬ c.isAlpha := by
  intro c mem letter
  rcases h.digits c mem with digit | rfl
  · exact not_isDigit_of_isWordStart (Bool.or_eq_true_iff.2 (.inl letter)) digit
  · cases letter

/-- An exponent starts with a letter. -/
lemma isAlpha_of_exponent? {e : ℤ} (h : exponent? cs = some e) : ∀ c ∈ cs.head?, c.isAlpha := by
  cases cs with
  | nil => nofun
  | cons d ds =>
    rintro c ⟨⟩
    simp only [exponent?] at h
    split at h
    · next marker => rcases marker with rfl | rfl <;> rfl
    · cases h

/-- What starts with no letter is none of the words. -/
lemma read?_eq_readDigits? {negative : Bool} (split : splitSign cs = (negative, ds))
    (plain : ∀ c ∈ ds.head?, ¬ c.isAlpha) :
    read? cs = (readDigits? ds).map fun x => if negative then -x else x := by
  have unworded {c : Char} {word : List Char} (letter : c.isAlpha) :
      ds.map Char.toLower ≠ c :: word := by
    intro eq
    cases ds with
    | nil => cases eq
    | cons d ds =>
      obtain ⟨rfl, -⟩ := List.cons.inj eq
      exact plain d rfl (isAlpha_of_toLower letter)
  simp only [read?, split, if_neg (unworded (c := 'n') rfl), unworded (c := 'i') rfl, or_self,
    if_false]

/-- Behind the digits of what can be read there is a letter or nothing. -/
lemma DigitRun.isAlpha_of_read? {negative : Bool} {x : Float}
    (run : DigitRun start whole fraction rest) (split : splitSign cs = (negative, start ++ rest))
    (read : read? cs = some x) : ∀ c ∈ rest.head?, c.isAlpha := by
  by_cases plain : ∀ d ∈ (start ++ rest).head?, ¬ d.isAlpha
  · rw [read?_eq_readDigits? split plain, run.readDigits?_eq] at read
    obtain ⟨_, size, -⟩ := Option.map_eq_some_iff.1 read
    split at size
    · cases size
    · obtain ⟨e, exponent, -⟩ := Option.map_eq_some_iff.1 size
      exact isAlpha_of_exponent? exponent
  · -- A word is read, so there are no digits in front.
    have word : ∃ d ∈ (start ++ rest).head?, d.isAlpha := by simpa using plain
    obtain ⟨d, head, letter⟩ := word
    cases start with
    | nil =>
      intro c mem
      obtain rfl : d = c := Option.mem_unique head mem
      exact letter
    | cons _ _ =>
      cases head
      exact absurd letter (run.isUnsigned.not_isAlpha d List.mem_cons_self)

/-- The number that a text starts with is what its digits are read as with the sign in front. -/
lemma DigitRun.leadingNumber_eq {negative : Bool} (run : DigitRun start whole fraction rest)
    (split : splitSign cs = (negative, start ++ rest)) (alone : splitSign ds = (negative, start)) :
    leadingNumber cs = (read? ds).getD 0 := by
  have plain : ∀ c ∈ start.head?, ¬ c.isAlpha :=
    fun c mem => run.isUnsigned.not_isAlpha c (List.mem_of_mem_head? mem)
  have size := run.alone.readDigits?_eq
  rw [List.append_nil] at size
  rw [leadingNumber, run.numericStart_eq split, read?_eq_readDigits? alone plain, size]
  cases whole <;> cases fraction <;> simp [exponent?]

/-- A text has a longest numeric start, and its leading number is what that start is read as. Where
all of the text is read as a number, the start goes up to the first letter. -/
lemma exists_numericStart (cs : List Char) : ∃ start, IsNumericStart start cs ∧
    leadingNumber cs = (read? start).getD 0 ∧
    ∀ x, read? cs = some x → start = cs.takeWhile fun c => !c.isAlpha := by
  obtain ⟨sign, signed, unlettered, resplit⟩ := exists_sign cs
  obtain ⟨start, whole, fraction, rest, body, run⟩ := exists_digitRun (splitSign cs).2
  have split : splitSign cs = ((splitSign cs).1, start ++ rest) := by rw [← body]
  have alone : splitSign (sign ++ start) = ((splitSign cs).1, start) :=
    resplit start ⟨rest, body.symm⟩
  have text : cs = sign ++ start ++ rest := by rwa [List.append_assoc, ← body]
  refine ⟨sign ++ start, ?_, run.leadingNumber_eq split alone, fun x read => ?_⟩
  · have numeric : IsNumeric (sign ++ start) := by
      rw [IsNumeric, alone]
      exact run.isUnsigned
    have stops : ∀ c ∈ rest.head?, ¬ IsNumeric (sign ++ start ++ [c]) := by
      intro c mem
      obtain ⟨more, rfl⟩ := List.head?_eq_some_iff.1 mem
      have longer : start ++ [c] <+: (splitSign cs).2 :=
        ⟨more, by rw [body, List.append_assoc]; rfl⟩
      rw [IsNumeric, List.append_assoc, resplit _ longer]
      exact run.not_isUnsigned c mem
    have longest := IsNumericStart.of_stops numeric stops
    rwa [← text] at longest
  · have plain : ∀ c ∈ sign ++ start, (!c.isAlpha) = true := by
      simpa using List.forall_mem_append.2 ⟨unlettered, run.isUnsigned.not_isAlpha⟩
    have lettered : ∀ c ∈ rest.head?, ¬ (!c.isAlpha) = true := by
      simpa using run.isAlpha_of_read? split read
    rw [text]
    exact (takeWhile_append plain lettered).symm

end Formula.Number

/-! ### Casts of texts -/

namespace Formula

lemma Text.mem_of_mem_trim {cs : List Char} {c : Char} (h : c ∈ trim cs) : c ∈ cs := by
  have start {ds : List Char} (mem : c ∈ trimStart ds) : c ∈ ds :=
    (List.dropWhile_sublist _).subset mem
  exact start (List.mem_reverse.1 (start (List.mem_reverse.1 h)))

lemma Value.read?_of_toFloat {s : String} {x : Float}
    (h : (Value.text s).cast .float = .ok (.number x)) :
    Number.read? (Text.trim s.toList) = some x := by
  simp only [Value.cast, Value.toFloat] at h
  cases read : Number.read? (Text.trim s.toList) with
  | none =>
    rw [read] at h
    cases h
  | some y =>
    rw [read] at h
    cases h
    rfl

namespace Value

open Number

/-- **A text is cast to a number without fraction by the number that it starts with.** That is what
its longest numeric start is read as, a sign or none and digits with one point at most, or zero
where that start is no numeral; so the cast never fails. Of a text that can be cast to a number as
a whole the start goes up to the first letter, with which an exponent or a word begins. Where there
are no letters both casts read the same number, and casting the text is casting the number. -/
theorem cast_integer_of_text (s : String) : ∃ start, IsNumericStart start (Text.trim s.toList) ∧
    (Value.text s).cast .integer = .ok (.number (trunc ((read? start).getD 0))) ∧
    ∀ x, (Value.text s).cast .float = .ok (.number x) →
      (start = (Text.trim s.toList).takeWhile fun c => !c.isAlpha) ∧
      ((∀ c ∈ s.toList, ¬ c.isAlpha) →
        (Value.text s).cast .integer = .ok (.number (trunc x)) ∧
        (Value.number x).cast .integer = .ok (.number (trunc x))) := by
  obtain ⟨start, longest, leading, whole⟩ := exists_numericStart (Text.trim s.toList)
  have cast : (Value.text s).cast .integer = .ok (.number (trunc ((read? start).getD 0))) := by
    rw [← leading]
    rfl
  refine ⟨start, longest, cast, fun x castable => ?_⟩
  have read := read?_of_toFloat castable
  have before := whole x read
  refine ⟨before, fun unlettered => ⟨?_, rfl⟩⟩
  have all : start = Text.trim s.toList := by
    rw [before, List.takeWhile_eq_self_iff]
    intro c mem
    simpa using unlettered c (Text.mem_of_mem_trim mem)
  rw [cast, all, read]
  rfl

/-- ` -12.75` is cast to `-12`, as `-12.75` is. -/
theorem cast_integer_of_text_fraction :
    (Value.text " -12.75").cast .float = .ok (.number (-12.75)) ∧
    (∀ c ∈ " -12.75".toList, ¬ c.isAlpha) ∧
    (Value.text " -12.75").cast .integer = .ok (.number (-12)) ∧
    (Value.number (-12.75)).cast .integer = .ok (.number (-12)) := by
  have read : read? (Text.trim " -12.75".toList) = some (-12.75) := by decide +kernel
  have castable : (Value.text " -12.75").cast .float = .ok (.number (-12.75)) := by
    simp only [Value.cast, Value.toFloat, read]
  have unlettered : ∀ c ∈ " -12.75".toList, ¬ c.isAlpha := by
    have all : " -12.75".toList.all (fun c => !c.isAlpha) := by decide
    intro c mem
    simpa using List.all_eq_true.1 all c mem
  have truncated : trunc (-12.75) = -12 := by decide +kernel
  obtain ⟨_, _, _, agree⟩ := cast_integer_of_text " -12.75"
  have casts := (agree (-12.75) castable).2 unlettered
  rw [truncated] at casts
  exact ⟨castable, unlettered, casts⟩

/-- `1e5` is the number `100000`, and is cast to `1`: the exponent is no part of its start. -/
theorem cast_integer_ne_of_exponent :
    (Value.text "1e5").cast .float = .ok (.number 100000) ∧
    (Value.text "1e5").cast .integer = .ok (.number 1) ∧
    (Value.number 100000).cast .integer = .ok (.number 100000) ∧
    (Value.text "1e5").cast .integer ≠ (Value.number 100000).cast .integer := by
  have read : read? (Text.trim "1e5".toList) = some 100000 := by decide +kernel
  have castable : (Value.text "1e5").cast .float = .ok (.number 100000) := by
    simp only [Value.cast, Value.toFloat, read]
  have leading : trunc (leadingNumber (Text.trim "1e5".toList)) = 1 := by decide +kernel
  have start : (Value.text "1e5").cast .integer = .ok (.number 1) := by
    simp only [Value.cast, Value.toInteger, leading]
  have truncated : trunc 100000 = 100000 := by decide +kernel
  have number : (Value.number 100000).cast .integer = .ok (.number 100000) := by
    simp only [Value.cast, Value.toInteger, truncated]
  refine ⟨castable, start, number, fun same => ?_⟩
  rw [start, number, Except.ok.injEq, Value.number.injEq] at same
  revert same
  decide +kernel

end Value

end Formula
