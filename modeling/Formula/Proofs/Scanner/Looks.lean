import Formula.Proofs.Grammar.Spelling
import Formula.Proofs.Number.Leading
import Formula.Proofs.Scanner.Faces
import Mathlib.Data.List.Find

/-!
# What a scanner makes of characters

A scanner in front of characters finds the token that the characters start with, and behind it faces
the characters that follow. Nothing it passes can be cut in the middle of a character: words,
numerals and symbols are made of seven-bit characters, and no byte of a longer one ends a text
literal or an escape. Where the characters start with no token the scanner has the same complaint.
-/

namespace Formula.Scanner

open Tokens Number

variable {s t : Scanner} {c e quote : Char} {cs rest whole fraction start content more : List Char}
  {bytes : List UInt8} {n length position stop : ℕ} {p : Char → Bool}

/-! ### Numerals -/

/-- Digits, perhaps around a point, are read as a number. -/
lemma read?_of_digitRun (run : DigitRun start whole fraction [])
    (digits : whole ≠ [] ∨ fraction ≠ []) : read? start = some (ofDecimal whole fraction 0) := by
  have plain : ∀ c ∈ start.head?, c.isDigit ∨ c = '.' :=
    fun c mem => run.isUnsigned.digits c (List.mem_of_mem_head? mem)
  have unsigned : splitSign start = (false, start) := by
    cases start with
    | nil => rfl
    | cons c start =>
      apply splitSign_cons
      all_goals
        rintro rfl
        exact absurd (plain _ rfl) (by decide)
  have size := run.readDigits?_eq
  rw [List.append_nil, if_neg (by simpa [imp_iff_not_or] using digits)] at size
  rw [read?_eq_readDigits? unsigned, size]
  · rfl
  · exact fun c mem => run.isUnsigned.not_isAlpha c (List.mem_of_mem_head? mem)

/-- Behind the point of a numeral there are only digits. -/
lemma skipNumeral_pointed (s : Scanner) : s.skipNumeral true = s.skipWhile Char.isDigit := by
  fun_induction skipWhile Char.isDigit s with
  | case1 s digit ih => rw [skipNumeral, dif_pos digit, ih]
  | case2 s stop =>
    rw [skipNumeral, dif_neg stop, dif_neg]
    exact fun point => point.2.1 rfl

/-- Behind the digits in front there is a point with more digits or nothing of a numeral. -/
lemma skipNumeral_unpointed (s : Scanner) :
    s.skipNumeral false =
      let t := s.skipWhile Char.isDigit
      if t.sees 0 (· == '.') ∧ ¬ t.sees 1 (· == '.') then (t.skip 1).skipWhile Char.isDigit
      else t := by
  fun_induction skipWhile Char.isDigit s with
  | case1 s digit ih => rw [skipNumeral, dif_pos digit, ih]
  | case2 s stop =>
    rw [skipNumeral, dif_neg stop]
    simp [skipNumeral_pointed]

/-- A scanner passes the numeral that characters start with. -/
lemma Faces.skipNumeral_eq (h : s.Faces cs)
    (read : Tokens.numeral cs = (whole, fraction, length, rest)) :
    s.skipNumeral false = s.skip length := by
  have point : SevenBit (· == '.') := sevenBit_beq (by decide)
  have behind := h.skipWhile sevenBit_isDigit
  rw [skipNumeral_unpointed, h.skipWhile_eq sevenBit_isDigit]
  rw [h.skipWhile_eq sevenBit_isDigit] at behind
  simp only [Tokens.numeral, List.span_eq_takeWhile_dropWhile] at read
  split at read
  · next tail eq =>
    cases read
    rw [eq] at behind
    have second : ((s.skip _).skip 1).Faces ('.' :: tail) := behind.tail
    have seen := second.sees_eq point
    rw [sees_skip] at seen
    exact if_neg fun unfollowed => unfollowed.2 seen
  · next tail unfollowed eq =>
    cases read
    rw [eq] at behind
    have second : ((s.skip _).skip 1).Faces tail := behind.tail
    have unseen := second.sees_eq point
    rw [sees_skip] at unseen
    rw [if_pos, second.skipWhile_eq sevenBit_isDigit, skip_skip, skip_skip, Nat.add_assoc]
    refine ⟨behind.sees_eq point, ?_⟩
    rw [unseen]
    cases tail with
    | nil => exact Bool.false_ne_true
    | cons c tail => simpa using fun same => unfollowed tail (congrArg (· :: tail) same)
  · next unpointed =>
    cases read
    apply if_neg
    rintro ⟨seen, -⟩
    obtain ⟨tail, eq⟩ := behind.exists_cons_of_sees (by decide) seen
    exact unpointed tail eq

/-- A numeral at the start of characters is read from its bytes. -/
lemma Faces.numeral_eq {pointed : Bool} (h : s.Faces cs) (marked : s.start = s.position)
    (starts : startsNumeral cs) (read : Tokens.numeral cs = (whole, fraction, length, rest))
    (passed : t.skipNumeral pointed = s.skip length) :
    t.numeral pointed = (.ok (some (.number (ofDecimal whole fraction 0))), s.skip length) ∧
      (s.skip length).Faces rest := by
  have single {ds : List Char} (digits : ∀ c ∈ ds, c.isDigit) : width ds = ds.length :=
    width_of_sevenBit sevenBit_isDigit digits
  obtain ⟨digits, decimals, form⟩ := numeral_cases read
  obtain ⟨start, eq, size, run, some⟩ : ∃ start, cs = start ++ rest ∧ length = width start ∧
      DigitRun start whole fraction [] ∧ (whole ≠ [] ∨ fraction ≠ []) := by
    rcases form with ⟨rfl, rfl, rfl, unstarted⟩ | ⟨rfl, rfl, stops⟩
    · refine ⟨whole, rfl, (single digits).symm, .whole digits nofun, .inl ?_⟩
      rintro rfl
      exact unstarted starts
    · refine ⟨whole ++ '.' :: fraction, by simp, ?_, .pointed digits decimals nofun, ?_⟩
      · have point : '.'.utf8Size = 1 := rfl
        rw [width_append, width_cons, single digits, single decimals, point, Nat.add_assoc]
      · by_contra none
        obtain ⟨rfl, rfl⟩ : whole = [] ∧ fraction = [] := by simpa using none
        rcases eq_cons_of_startsNumeral starts with ⟨_, _, ⟨⟩, digit⟩ | ⟨c, _, ⟨⟩, digit⟩
        · cases digit
        · exact stops c rfl digit
  subst eq size
  have spelled := h.spelled_eq marked
  refine ⟨?_, h.skip⟩
  simp only [numeral, passed, spelled, String.toList_ofList, read?_of_digitRun run some]

/-! ### Words -/

/-- A word at the start of characters is read from its bytes. -/
lemma Faces.word_eq (h : s.Faces (c :: cs)) (marked : s.start = s.position)
    (letter : isWordStart c) :
    (s.skip 1).word =
      (.ok (some (Tokens.word ((c :: cs).takeWhile isWordPart))),
        s.skip ((c :: cs).takeWhile isWordPart).length) ∧
      (s.skip ((c :: cs).takeWhile isWordPart).length).Faces ((c :: cs).dropWhile isWordPart) := by
  have first : s.sees 0 isWordPart := by
    rw [h.sees_eq sevenBit_isWordPart]
    exact isWordPart_of_isWordStart letter
  have passed : (s.skip 1).skipWhile isWordPart = s.skipWhile isWordPart := by
    rw [skipWhile.eq_def _ s, dif_pos first]
  have behind := h.skipWhile sevenBit_isWordPart
  rw [h.skipWhile_eq sevenBit_isWordPart] at behind
  refine ⟨?_, behind⟩
  have letters : ∀ d ∈ (c :: cs).takeWhile isWordPart, isWordPart d :=
    fun d mem => List.mem_takeWhile_imp mem
  have split := List.takeWhile_append_dropWhile (p := isWordPart) (l := c :: cs)
  have spelled := (split ▸ h).spelled_eq marked
  rw [width_of_sevenBit sevenBit_isWordPart letters] at spelled
  simp only [word, passed, h.skipWhile_eq sevenBit_isWordPart, spelled, String.toList_ofList]

/-! ### Text literals -/

/-- Bytes beyond seven bits are content of a text literal. -/
lemma literal_beyond (single : quote.toNat ≤ 127) {bs tail : List UInt8}
    (left : s.left = bs ++ tail) (beyond : ∀ b ∈ bs, ¬ b.toNat ≤ 127) :
    s.literal quote bytes = (s.skip bs.length).literal quote (bytes ++ bs) := by
  induction bs generalizing s bytes with
  | nil => simp
  | cons b bs ih =>
    rw [List.forall_mem_cons] at beyond
    have here : s.ahead 0 = some b := by rw [ahead_eq, left]; rfl
    have behind : (s.skip 1).left = bs ++ tail := by rw [left_skip, left]; rfl
    rw [literal_of_some here, if_neg (ofUInt8_ne beyond.1 single),
      if_neg (ofUInt8_ne beyond.1 (by decide)),
      ih behind beyond.2, skip_skip, List.append_assoc, List.length_cons, Nat.add_comm]
    rfl

/-- A character that neither ends a text literal nor starts an escape is content. -/
lemma Faces.literal_plain (h : s.Faces (c :: cs)) (single : quote.toNat ≤ 127)
    (unquoted : c ≠ quote) (plain : c ≠ '\\') :
    s.literal quote bytes =
      (s.skip c.utf8Size).literal quote (bytes ++ String.utf8EncodeChar c) := by
  by_cases small : c.toNat ≤ 127
  · rw [literal_of_some (h.ahead_of_sevenBit small), ofUInt8_toUInt8 small, if_neg unquoted,
      if_neg plain, encode_of_sevenBit small, Char.utf8Size_eq_one_iff.2 small]
  · have left := h.left
    rw [encode_cons] at left
    rw [literal_beyond single left (forall_mem_utf8EncodeChar small), String.length_utf8EncodeChar]

/-- The first byte of an escaped character stands for that of the character it is content as, and
the others are content themselves. -/
lemma Faces.literal_escape (h : s.Faces ('\\' :: e :: cs)) (single : quote.toNat ≤ 127)
    (unquoted : '\\' ≠ quote) :
    s.literal quote bytes =
      (s.skip (1 + e.utf8Size)).literal quote
        (bytes ++ String.utf8EncodeChar (Tokens.unescape e)) := by
  have second : (s.skip 1).Faces (e :: cs) := h.tail
  have slash := literal_of_some (h.ahead_of_sevenBit (by decide)) quote bytes
  rw [ofUInt8_toUInt8 (by decide), if_neg unquoted, if_pos rfl] at slash
  by_cases small : e.toNat ≤ 127
  · have next : s.ahead 1 = some e.toUInt8 := by
      rw [← second.ahead_of_sevenBit small, ahead_skip]
    have unescaped : [unescape e.toUInt8] = String.utf8EncodeChar (Tokens.unescape e) := by
      rw [unescape, Tokens.unescape, ofUInt8_toUInt8 small]
      split_ifs
      · rfl
      · rfl
      · exact (encode_of_sevenBit small).symm
    rw [slash, next, Char.utf8Size_eq_one_iff.2 small, ← unescaped]
  · have left := second.left
    rw [encode_cons] at left
    obtain ⟨b, bs, eq⟩ := List.exists_cons_of_ne_nil (String.utf8EncodeChar_ne_nil (c := e))
    have beyond := forall_mem_utf8EncodeChar small
    have size := String.length_utf8EncodeChar e
    rw [eq] at left beyond size
    rw [List.forall_mem_cons] at beyond
    have next : s.ahead 1 = some b := by
      have found : (s.skip 1).ahead 0 = some b := by rw [ahead_eq, left]; rfl
      rwa [ahead_skip] at found
    have kept : unescape b = b := by
      rw [unescape, if_neg (ofUInt8_ne beyond.1 (by decide)),
        if_neg (ofUInt8_ne beyond.1 (by decide))]
    have kept' : Tokens.unescape e = e := by
      rw [Tokens.unescape, if_neg (by rintro rfl; exact small (by decide)),
        if_neg (by rintro rfl; exact small (by decide))]
    have behind : ((s.skip 1).skip 1).left = bs ++ encode cs := by rw [left_skip, left]; rfl
    have count : 1 + 1 + bs.length = 1 + e.utf8Size := by
      rw [← size, List.length_cons]
      omega
    rw [skip_skip] at behind
    rw [slash, next, ← count]
    simp only [kept, kept', eq]
    rw [literal_beyond single behind beyond.2, skip_skip, List.append_assoc]
    rfl

/-- A literal at the start of characters is read from its bytes. -/
lemma Faces.literal_eq (h : s.Faces cs) (single : quote.toNat ≤ 127)
    (read : Tokens.literal quote position cs = .ok (content, stop, rest))
    (content' : List Char) :
    ∃ count, stop = position + count ∧ (s.skip count).Faces rest ∧
      s.literal quote (encode content') =
        (.ok (some (.text (String.ofList (content' ++ content)))), s.skip count) := by
  fun_induction Tokens.literal quote position cs generalizing s content content' stop rest with
  | case1 => cases read
  | case2 position cs =>
    cases read
    refine ⟨quote.utf8Size, rfl, h.tail, ?_⟩
    rw [literal_of_some (h.ahead_of_sevenBit single), ofUInt8_toUInt8 single, if_pos rfl,
      fromUTF8?_encode, List.append_nil, Char.utf8Size_eq_one_iff.2 single]
  | case3 => cases read
  | case4 position e cs unquoted ih =>
    obtain ⟨⟨more, stop', rest'⟩, inner, eq⟩ := bind_eq_ok.1 read
    cases eq
    have behind : (s.skip (1 + e.utf8Size)).Faces cs := skip_skip s 1 _ ▸ h.tail.tail
    obtain ⟨count, rfl, faces, eq⟩ := ih behind inner (content' ++ [Tokens.unescape e])
    refine ⟨1 + e.utf8Size + count, ?_, skip_skip s _ _ ▸ faces, ?_⟩
    · have slash : '\\'.utf8Size = 1 := rfl
      omega
    · rw [encode_append, encode_cons, encode_nil, List.append_nil] at eq
      rw [h.literal_escape single unquoted, eq, skip_skip, List.append_assoc]
      rfl
  | case5 position c cs unquoted plain ih =>
    obtain ⟨⟨more, stop', rest'⟩, inner, eq⟩ := bind_eq_ok.1 read
    cases eq
    obtain ⟨count, rfl, faces, eq⟩ := ih h.tail inner (content' ++ [c])
    refine ⟨c.utf8Size + count, Nat.add_assoc _ _ _, skip_skip s _ _ ▸ faces, ?_⟩
    rw [encode_append, encode_cons, encode_nil, List.append_nil] at eq
    rw [h.literal_plain single unquoted plain, eq, skip_skip, List.append_assoc]
    rfl

/-- A literal that does not end breaks off where the characters end. -/
lemma Faces.literal_error (h : s.Faces cs) (single : quote.toNat ≤ 127) {cause : LexicalFault}
    (failed : Tokens.literal quote position cs = .error (cause, stop)) :
    s.literal quote bytes =
      (.error (.lexical cause, s.position + width cs), s.skip (width cs)) := by
  fun_induction Tokens.literal quote position cs generalizing s bytes stop cause with
  | case1 =>
    cases failed
    exact literal_of_none h.ahead_nil quote bytes
  | case2 => cases failed
  | case3 position unquoted =>
    cases failed
    have second : (s.skip 1).ahead 0 = none := Faces.ahead_nil h.tail
    rw [ahead_skip] at second
    rw [literal_of_some (h.ahead_of_sevenBit (by decide)), ofUInt8_toUInt8 (by decide),
      if_neg unquoted, if_pos rfl, second]
    rfl
  | case4 position e cs unquoted ih =>
    have behind : (s.skip (1 + e.utf8Size)).Faces cs := skip_skip s 1 _ ▸ h.tail.tail
    cases inner : Tokens.literal quote (position + '\\'.utf8Size + e.utf8Size) cs with
    | ok => simp [inner, bind, Except.bind] at failed
    | error fault =>
      rw [inner] at failed
      cases failed
      have slash : '\\'.utf8Size = 1 := rfl
      rw [h.literal_escape single unquoted, ih behind inner, skip_position, skip_skip, width_cons,
        width_cons, slash, ← Nat.add_assoc 1, Nat.add_assoc s.position]
  | case5 position c cs unquoted plain ih =>
    cases inner : Tokens.literal quote (position + c.utf8Size) cs with
    | ok => simp [inner, bind, Except.bind] at failed
    | error fault =>
      rw [inner] at failed
      cases failed
      rw [h.literal_plain single unquoted plain, ih h.tail inner, skip_position, skip_skip,
        width_cons, Nat.add_assoc]

/-! ### Symbols -/

/-- The tokens of fixed spelling that start with a character, those of two characters first. -/
lemma filter_symbols (pointless : c ≠ '.') :
    symbols.filter (fun symbol => symbol.1.head? == some c) =
      (openings c).1.map (fun second => ([c, second.1], second.2)) ++
        (openings c).2.toOption.toList.map fun t => ([c], t) := by
  fun_cases openings c
  case case19 =>
    have none : ∀ symbol ∈ symbols, ¬ symbol.1.head? == some c := by
      simp only [symbols, List.forall_mem_cons, List.head?_cons, beq_iff_eq,
        Option.some.injEq, List.not_mem_nil, false_imp_iff, implies_true, and_true]
      and_intros <;> rintro rfl <;> contradiction
    exact List.filter_eq_nil_iff.2 none
  all_goals rfl

/-- Only a spelling with the same first character can be the one that characters start with. -/
lemma find?_eq_find?_filter (c : Char) (cs : List Char) :
    symbols.find? (·.1.isPrefixOf (c :: cs)) =
      (symbols.filter fun symbol => symbol.1.head? == some c).find?
        (·.1.isPrefixOf (c :: cs)) := by
  rw [List.find?_filter]
  apply List.find?_congr
  intro symbol mem
  obtain ⟨d, ds, eq⟩ := List.exists_cons_of_ne_nil (ne_nil_of_mem_symbols mem)
  by_cases same : d = c <;>
    simp [eq, List.isPrefixOf, same, -List.isPrefixOf_iff_prefix]

/-- The first spelling that characters start with is one of two characters, or else one of one. -/
lemma find?_symbols (pointless : c ≠ '.') (cs : List Char) :
    symbols.find? (·.1.isPrefixOf (c :: cs)) =
      match (openings c).1.find? fun second => cs.head?.any (· == second.1) with
      | some (d, t) => some ([c, d], t)
      | none => (openings c).2.toOption.map fun t => ([c], t) := by
  have second (d : Char) : [c, d].isPrefixOf (c :: cs) = cs.head?.any (· == d) := by
    cases cs with
    | nil => simp [List.isPrefixOf]
    | cons e cs => simp [List.isPrefixOf, eq_comm]
  rw [find?_eq_find?_filter, filter_symbols pointless, List.find?_append, List.find?_map]
  simp only [Function.comp_def, second]
  cases (openings c).1.find? fun second => cs.head?.any (· == second.1) with
  | some found => rfl
  | none => cases (openings c).2 <;> simp [Except.toOption, List.isPrefixOf]

lemma toNat_of_mem_openings : ∀ second ∈ (openings c).1, second.1.toNat ≤ 127 := by
  fun_cases openings c <;> decide

lemma openings_of_beyond (beyond : ¬ c.toNat ≤ 127) :
    openings c = ([], .error .strangeCharacter) := by
  fun_cases openings c
  case case19 => rfl
  all_goals exact absurd (by decide) beyond

/-- Where a symbol does not go on, the complaint is about its first character. -/
lemma strange_eq {cause : LexicalFault} (pointless : c ≠ '.') :
    (openings c).2 = .error cause → strange c = cause := by
  fun_cases openings c
  case case19 =>
    rintro ⟨⟩
    simp_all [strange]
  all_goals rintro ⟨⟩ <;> rfl

/-! ### Tokens -/

/-- That what a look leaves of a scanner is what a look at the characters in front of it says: at
the end of the text, or at a fault between the start of the token and the end of the text, or in
front of the characters behind the token. -/
inductive Agrees (s : Scanner) : Look → Tokens.Step → Prop
  | done (ends : s.position = s.bytes.size) : Agrees s (.ok none, s) (.done s.position)
  | broken {cause : LexicalFault} {place count : ℕ} (inside : s.position + count ≤ s.bytes.size)
      (behind : s.position ≤ place) (passed : place ≤ s.position + count) :
      Agrees s (.error (.lexical cause, place), s.skip count) (.broken cause place)
  | found {token : Token} {count : ℕ} {rest : List Char} (faces : (s.skip count).Faces rest) :
      Agrees s (.ok (some token), s.skip count)
        (.found token s.position (s.position + count) rest)

lemma token_of_ahead {b : UInt8} (here : s.ahead 0 = some b) :
    s.token =
      if (Char.ofUInt8 b).isDigit then (s.skip 1).numeral false
      else if isWordStart (Char.ofUInt8 b) then (s.skip 1).word
      else if Char.ofUInt8 b = '"' ∨ Char.ofUInt8 b = '\'' then
        (s.skip 1).literal (Char.ofUInt8 b) []
      else if Char.ofUInt8 b = '.' then (s.skip 1).point
      else (s.skip 1).symbol (Char.ofUInt8 b) := by
  rw [token, here]

/-- Where a character starts a token of fixed spelling or none, the scanner finds the same. -/
lemma Faces.agrees_symbol (h : s.Faces (c :: cs)) (marked : s.start = s.position)
    (seven : c.toNat ≤ 127) (pointless : c ≠ '.') :
    s.Agrees ((s.skip 1).symbol c)
      (match symbols.find? (·.1.isPrefixOf (c :: cs)) with
      | some (spelling, token) =>
        .found token s.position (s.position + spelling.length) ((c :: cs).drop spelling.length)
      | none => .broken (strange c) s.position) := by
  have single : c.utf8Size = 1 := Char.utf8Size_eq_one_iff.2 seven
  have behind : (s.skip 1).Faces cs := single ▸ h.tail
  have seconds : ((openings c).1.find? fun second => (s.skip 1).sees 0 (· == second.1)) =
      (openings c).1.find? fun second => cs.head?.any (· == second.1) :=
    List.find?_congr fun second mem =>
      behind.sees_eq (sevenBit_beq (toNat_of_mem_openings second mem))
  rw [symbol, seconds, find?_symbols pointless]
  cases found : (openings c).1.find? fun second => cs.head?.any (· == second.1) with
  | some second =>
    obtain ⟨d, token⟩ := second
    have small : d.toNat ≤ 127 := toNat_of_mem_openings _ (List.mem_of_find?_eq_some found)
    have seen : (s.skip 1).sees 0 (· == d) := by
      rw [behind.sees_eq (sevenBit_beq small)]
      simpa using List.find?_some found
    obtain ⟨tail, rfl⟩ := behind.exists_cons_of_sees small seen
    have rest : (s.skip 2).Faces tail := by
      rw [← skip_skip s 1 1]
      exact Char.utf8Size_eq_one_iff.2 small ▸ behind.tail
    exact .found rest
  | none =>
    cases alone : (openings c).2 with
    | ok token => exact .found behind
    | error cause =>
      rw [skip_start, marked, ← strange_eq pointless alone]
      exact .broken behind.inside le_rfl (Nat.le_add_right _ _)

lemma not_isWordStart_of_beyond (beyond : ¬ c.toNat ≤ 127) : ¬ isWordStart c :=
  fun letter => beyond (sevenBit_isWordPart c (isWordPart_of_isWordStart letter))

lemma ne_of_beyond (beyond : ¬ c.toNat ≤ 127) (seven : e.toNat ≤ 127) : c ≠ e :=
  fun same => beyond (same ▸ seven)

/-- A longer character starts no token, for characters or for bytes. -/
lemma Faces.agrees_of_beyond (h : s.Faces (c :: cs)) (marked : s.start = s.position)
    (beyond : ¬ c.toNat ≤ 127) : s.Agrees s.token (tokenAt s.position (c :: cs)) := by
  obtain ⟨b, mem, here⟩ := h.exists_ahead
  have beyond' : ¬ (Char.ofUInt8 b).toNat ≤ 127 := by
    rw [toNat_ofUInt8]
    exact forall_mem_utf8EncodeChar beyond b mem
  have pointless : c ≠ '.' := ne_of_beyond beyond (by decide)
  have unnumbered : ¬ startsNumeral (c :: cs) := by
    intro starts
    rcases eq_cons_of_startsNumeral starts with ⟨_, _, ⟨⟩, digit⟩ | ⟨_, _, ⟨⟩, _⟩
    · exact beyond (sevenBit_isDigit c digit)
    · exact pointless rfl
  have unquoted {d : Char} (beyond : ¬ d.toNat ≤ 127) : ¬ (d = '"' ∨ d = '\'') :=
    not_or.2 ⟨ne_of_beyond beyond (by decide), ne_of_beyond beyond (by decide)⟩
  have none : symbols.find? (·.1.isPrefixOf (c :: cs)) = none := by
    rw [find?_symbols pointless, openings_of_beyond beyond]
    rfl
  have strange : strange c = .strangeCharacter :=
    strange_eq pointless (by rw [openings_of_beyond beyond])
  have inside := lt_size_of_ahead here
  rw [token_of_ahead here, if_neg fun digit => beyond' (sevenBit_isDigit _ digit),
    if_neg (not_isWordStart_of_beyond beyond'), if_neg (unquoted beyond'),
    if_neg (ne_of_beyond beyond' (by decide)), symbol, openings_of_beyond beyond']
  simp only [tokenAt, if_neg unnumbered, if_neg (not_isWordStart_of_beyond beyond),
    if_neg (unquoted beyond), none, strange]
  rw [skip_start, marked]
  exact .broken inside le_rfl (Nat.le_add_right _ _)

/-- A numeral is found where the characters start with one. -/
lemma Faces.agrees_numeral {pointed : Bool} (h : s.Faces cs) (marked : s.start = s.position)
    (starts : startsNumeral cs) (passed : t.skipNumeral pointed = s.skipNumeral false) :
    s.Agrees (t.numeral pointed) (tokenAt s.position cs) := by
  obtain ⟨⟨whole, fraction, length, rest⟩, read⟩ : ∃ parts, Tokens.numeral cs = parts := ⟨_, rfl⟩
  rw [h.skipNumeral_eq read] at passed
  obtain ⟨look, behind⟩ := h.numeral_eq marked starts read passed
  rw [look, tokenAt_of_numeral starts read]
  exact .found behind

/-- A word is found where the characters start with one. -/
lemma Faces.agrees_word (h : s.Faces (c :: cs)) (marked : s.start = s.position)
    (letter : isWordStart c) : s.Agrees (s.skip 1).word (tokenAt s.position (c :: cs)) := by
  obtain ⟨look, behind⟩ := h.word_eq marked letter
  rw [look, tokenAt, if_neg (not_startsNumeral_of_isWordStart letter), if_pos letter,
    List.span_eq_takeWhile_dropWhile]
  exact .found behind

/-- A literal is found, or breaks off at the end of the text, where the characters start with a
quote. -/
lemma Faces.agrees_literal (h : s.Faces (quote :: cs))
    (quotes : quote = '"' ∨ quote = '\'') :
    s.Agrees ((s.skip 1).literal quote []) (tokenAt s.position (quote :: cs)) := by
  have seven : quote.toNat ≤ 127 := by rcases quotes with rfl | rfl <;> decide
  have single : quote.utf8Size = 1 := Char.utf8Size_eq_one_iff.2 seven
  have unlettered : ¬ isWordStart quote := by rcases quotes with rfl | rfl <;> decide
  have unnumbered : ¬ startsNumeral (quote :: cs) := by rcases quotes with rfl | rfl <;> nofun
  have behind : (s.skip 1).Faces cs := single ▸ h.tail
  rw [tokenAt, if_neg unnumbered, if_neg unlettered, if_pos quotes]
  cases read : Tokens.literal quote (s.position + 1) cs with
  | ok found =>
    obtain ⟨content, stop, rest⟩ := found
    obtain ⟨count, rfl, faces, look⟩ := behind.literal_eq seven read []
    rw [encode_nil] at look
    rw [look, skip_skip]
    rw [skip_skip] at faces
    simp only [Nat.add_assoc]
    exact .found faces
  | error failure =>
    obtain ⟨cause, place⟩ := failure
    have size := h.size_eq
    rw [width_cons, single] at size
    have broken := eq_of_literal_error read
    rw [behind.literal_error seven read, skip_skip, skip_position, ← broken]
    exact .broken (by omega) (by omega) (by omega)

/-- A point starts three points, a numeral or nothing, for characters and for bytes. -/
lemma Faces.agrees_point (h : s.Faces ('.' :: cs)) (marked : s.start = s.position) :
    s.Agrees (s.skip 1).point (tokenAt s.position ('.' :: cs)) := by
  have behind : (s.skip 1).Faces cs := h.tail
  have point : SevenBit (· == '.') := sevenBit_beq (by decide)
  by_cases three : ∃ tail, cs = '.' :: '.' :: tail
  · obtain ⟨tail, rfl⟩ := three
    have second : ((s.skip 1).skip 1).Faces ('.' :: tail) := behind.tail
    have third : (s.skip 3).Faces tail := second.tail
    have seen := second.sees_eq point
    rw [sees_skip] at seen
    rw [Scanner.point, if_pos ⟨behind.sees_eq point, seen⟩, skip_skip]
    exact .found third
  have unseen : ¬ ((s.skip 1).sees 0 (· == '.') ∧ (s.skip 1).sees 1 (· == '.')) := by
    rintro ⟨first, second⟩
    obtain ⟨tail, rfl⟩ := behind.exists_cons_of_sees (by decide) first
    have rest : ((s.skip 1).skip 1).Faces tail := behind.tail
    rw [← sees_skip _ 1 0] at second
    obtain ⟨tail, rfl⟩ := rest.exists_cons_of_sees (by decide) second
    exact three ⟨tail, rfl⟩
  rw [Scanner.point, if_neg unseen, behind.sees_eq sevenBit_isDigit]
  split_ifs with numbered
  · obtain ⟨d, head, decimal⟩ := (Option.any_eq_true _ _).1 numbered
    obtain ⟨tail, rfl⟩ := List.head?_eq_some_iff.1 head
    have starts : startsNumeral ('.' :: d :: tail) := decimal
    apply h.agrees_numeral marked starts
    have undotted : ¬ s.sees 1 (· == '.') := by
      rw [← sees_skip s 1 0, behind.sees_eq point]
      simpa using fun same : d = '.' => absurd decimal (by rw [same]; decide)
    have whole : ¬ s.sees 0 Char.isDigit := by
      rw [h.sees_eq sevenBit_isDigit]
      exact Bool.false_ne_true
    rw [skipNumeral.eq_def _ s, dif_neg whole, dif_pos ⟨h.sees_eq point, by decide, undotted⟩]
  · have unnumbered : ¬ startsNumeral ('.' :: cs) := by
      intro starts
      rcases eq_cons_of_startsNumeral starts with ⟨_, _, ⟨⟩, digit⟩ | ⟨d, tail, ⟨⟩, digit⟩
      · cases digit
      · exact numbered digit
    have none : symbols.find? (·.1.isPrefixOf ('.' :: cs)) = none := by
      have dots : symbols.filter (fun symbol => symbol.1.head? == some '.') =
          [(['.', '.', '.'], .ellipsis)] := rfl
      rw [find?_eq_find?_filter, dots, List.find?_singleton, if_neg]
      rw [List.isPrefixOf_iff_prefix]
      rintro ⟨tail, eq⟩
      exact three ⟨tail, (List.cons.inj eq).2.symm⟩
    rw [tokenAt, if_neg unnumbered, if_neg (by decide), if_neg (by decide), none, skip_start,
      marked]
    exact .broken behind.inside le_rfl (Nat.le_add_right _ _)

/-- The scanner finds what the characters in front of it start with. -/
theorem Faces.agrees_token (h : s.Faces cs) (marked : s.start = s.position) :
    s.Agrees s.token (tokenAt s.position cs) := by
  cases cs with
  | nil =>
    have ends : s.position = s.bytes.size := by rw [h.size_eq]; rfl
    rw [token, h.ahead_nil]
    exact .done ends
  | cons c cs =>
    by_cases seven : c.toNat ≤ 127
    · rw [token_of_ahead (h.ahead_of_sevenBit seven), ofUInt8_toUInt8 seven]
      split_ifs with digit letter quotes pointed
      · have starts : startsNumeral ([c] ++ cs) := startsNumeral_whole (by simpa using digit) nofun
        apply h.agrees_numeral marked starts
        rw [skipNumeral.eq_def _ s, dif_pos]
        rwa [h.sees_eq sevenBit_isDigit]
      · exact h.agrees_word marked letter
      · exact h.agrees_literal quotes
      · subst pointed
        exact h.agrees_point marked
      · have unnumbered : ¬ startsNumeral (c :: cs) := by
          intro starts
          rcases eq_cons_of_startsNumeral starts with ⟨_, _, ⟨⟩, digit'⟩ | ⟨_, _, ⟨⟩, _⟩
          · exact digit digit'
          · exact pointed rfl
        rw [tokenAt, if_neg unnumbered, if_neg letter, if_neg quotes]
        exact h.agrees_symbol marked seven pointed
    · exact h.agrees_of_beyond marked seven

end Formula.Scanner
