import Formula.Proofs.Grammar.Parsing
import Formula.Proofs.Grammar.Spelling

/-!
# Where a text goes wrong

A text that is no formula is refused at its first offence. What stands before it can still become a
formula: the tokens there start a phrase that fillers complete, and these tokens and the fillers are
the tokens of some text. With the offending token it cannot: the reader would complain as before,
since it has looked no further, but it complains about no formula.
-/

namespace Formula

open Grammar Tokens

/-! ### Readers at an offence -/

namespace Tokens

/-- A stream passes the tokens that it spells. -/
lemma Spells.exists_passes {s : Tokens} {ts us : List Token} (h : s.Spells (ts ++ us)) :
    ∃ s', s.Passes ts s' ∧ s'.Spells us := by
  induction ts generalizing s with
  | nil => exact ⟨s, .here, h⟩
  | cons t ts ih =>
    cases h with
    | cons more =>
      obtain ⟨s', passes, spells⟩ := ih more
      exact ⟨s', .cons passes, spells⟩

end Tokens

namespace Expr

variable {s s' : Tokens} {ts us : List Token} {e : Expr} {fault : Fault} {cs : List Char}

/-- Wherever a formula goes on as a stream does for one more token, there is another stream that
goes on so and is read to its end. -/
lemma exists_read_of_derives (unbroken : s'.Unbroken) (head : us.head? = s'.head?) {depth : ℕ}
    (derives : Derives (.level .or) (ts ++ us) e []) (positive : 0 < depth) :
    ∃ k r r' r'', r.Passes ts r' ∧ Alike s' r' ∧ Reader.expr (depth + k) r = .ok (e, r'') ∧
      r''.Spells [] := by
  obtain ⟨r, spells⟩ := Tokens.exists_spells (ts ++ us)
  obtain ⟨r', passes, spells'⟩ := spells.exists_passes
  have enough : (ts ++ us).length < depth + (ts ++ us).length := Nat.lt_add_of_pos_left positive
  obtain ⟨r'', read, ended⟩ := Reader.finds_expr spells enough ⟨derives, nofun⟩
  exact ⟨_, r, r', r'', passes, ⟨unbroken, spells'.ready_eq, spells'.head?_eq.trans head⟩, read,
    ended⟩

/-- A stream is refused where it stops being the beginning of a formula. -/
lemma exists_stops_of_ofTokens (h : ofTokens s = .error fault) :
    ∃ ts s', s.Passes ts s' ∧ s'.Stops fault ∧ Reader.Starts (Derives (.level .or)) ts ∧
      (s'.Unbroken → ∀ us e, us.head? = s'.head? → ¬ Derives (.level .or) (ts ++ us) e []) := by
  rcases broken_or_unbroken s with ⟨cause, position, rfl⟩ | ready
  · cases h
    exact ⟨[], _, .here, .lexical, Reader.starts_form _, nofun⟩
  -- The deeper readers, which do the same, are deep enough for any other stream.
  have follows : Reader.Follows (s.size + 1) (fun k => Reader.expr (s.size + 1 + k))
      (Reader.expr (s.size + 1)) (Derives (.level .or)) :=
    Reader.follows_expr fun k => Nat.le_add_right _ _
  have judged := follows ready (Nat.lt_succ_self _)
  unfold ofTokens at h
  rw [ready] at h
  change Reader.expr (s.size + 1) s >>= _ = _ at h
  generalize Reader.expr (s.size + 1) s = outcome at h judged
  cases judged with
  | @error ts s' _ passes stops starts same =>
    cases h
    refine ⟨ts, s', passes, stops, starts, fun unbroken us e head derives => ?_⟩
    obtain ⟨k, r, r', r'', passes', alike, read, -⟩ :=
      exists_read_of_derives unbroken head derives s.size.succ_pos
    obtain ⟨fault', failed⟩ := same k r r' passes' alike
    rw [failed] at read
    cases read
  | @ok ts a s' passes unbroken phrase same =>
    cases s' with
    | done => cases h
    | broken => cases unbroken
    | cons t start stop rest =>
      cases h
      refine ⟨ts, _, passes, .grammar unbroken, ⟨[], a, nofun, fun us closed => ?_⟩, ?_⟩
      · exact phrase us fun opens => absurd opens closed
      · intro _ us e head derives
        obtain ⟨k, r, r', r'', passes', alike, read, ended⟩ :=
          exists_read_of_derives unbroken head derives s.size.succ_pos
        rw [same k r r' passes' alike] at read
        cases read
        have unended := ended.head?_eq.symm.trans alike.2.2
        cases unended

/-! ### Formulas and their beginnings -/

/-- That these are the tokens of a formula. -/
def Accepted (ts : List Token) : Prop :=
  ∃ text e, parse text = .ok e ∧ Lexes 0 (source text.toList) ts

/-- That a formula can begin with these tokens. -/
def Viable (ts : List Token) : Prop := ∃ more, Accepted (ts ++ more)

lemma exists_derives_of_accepted (h : Accepted ts) : ∃ e, Derives (.level .or) ts e [] := by
  obtain ⟨text, e, accepted, lexes⟩ := h
  exact ⟨e, (ofText_eq_ok_iff_derives.1 _ _ lexes e).1 accepted⟩

/-- What the grammar derives is a formula, if its tokens can be spelled. -/
lemma accepted_of_derives (spellable : ∀ t ∈ ts, ∃ word, SpelledBy t word)
    (derives : Derives (.level .or) ts e []) : Accepted ts := by
  obtain ⟨cs, lexes⟩ := exists_lexes spellable
  have marked : source ('=' :: cs) = cs := rfl
  have sentence : ofText cs = .ok e := ofText_eq_ok_iff_sentence.2 ⟨ts, lexes 0, derives⟩
  refine ⟨String.ofList ('=' :: cs), e, ?_, ?_⟩
  · rw [parse, String.toList_ofList, marked, sentence]
  · rw [String.toList_ofList, marked]
    exact lexes 0

lemma spellable_of_mem_fillers {t : Token} (mem : t ∈ Reader.fillers) :
    ∃ word, SpelledBy t word := by
  simp only [Reader.fillers, List.mem_cons, List.not_mem_nil, or_false] at mem
  rcases mem with rfl | rfl | rfl | rfl
  · exact ⟨['n', 'u', 'l', 'l'], fun p ds => rfl⟩
  · exact ⟨[')'], fun p ds => rfl⟩
  · exact ⟨[']'], fun p ds => rfl⟩
  · exact ⟨['i', 'n', 't'], fun p ds => rfl⟩

/-- What has been started can be completed. -/
lemma viable_of_starts (spellable : ∀ t ∈ ts, ∃ word, SpelledBy t word)
    (starts : Reader.Starts (Derives (.level .or)) ts) : Viable ts := by
  obtain ⟨more, e, fill, phrase⟩ := starts
  have derives := phrase [] nofun
  rw [List.append_nil] at derives
  refine ⟨more, accepted_of_derives (List.forall_mem_append.2 ⟨spellable, fun t mem => ?_⟩) derives⟩
  exact spellable_of_mem_fillers (fill t mem)

/-! ### The first offence -/

/-- That a fault is put at the first offence in a text: at the first token with which no formula
goes on, at the end of what could become a formula but is none, or where the text breaks behind
tokens that could become one. -/
inductive Offence (cs : List Char) : Fault → Prop
  | token {cause : GrammarFault} {before : List Token} {t : Token} {position start stop : ℕ}
      {rest behind : List Char} (read : Leaves 0 cs before position rest)
      (found : next position rest = .found t start stop behind) (viable : Viable before)
      (offends : ¬ Viable (before ++ [t])) : Offence cs (.grammar cause start)
  | ending {cause : GrammarFault} {before : List Token} {position : ℕ} {rest : List Char}
      (read : Leaves 0 cs before position rest) (ends : next position rest = .done (width cs))
      (viable : Viable before) (unfinished : ¬ Accepted before) :
      Offence cs (.grammar cause (width cs))
  | lexical {cause : LexicalFault} {before : List Token} {position place : ℕ} {rest : List Char}
      (read : Leaves 0 cs before position rest) (breaks : next position rest = .broken cause place)
      (viable : Viable before) : Offence cs (.lexical cause place)

lemma Offence.category_eq (h : Offence cs fault) : fault.category = .parse := by
  cases h <;> rfl

lemma Offence.isPlace (h : Offence cs fault) :
    ∃ place, fault.position? = some place ∧ IsPlace 0 cs place := by
  cases h with
  | token read found _ _ =>
    obtain ⟨spaces, word, rfl, rfl, -, -⟩ := exists_of_next_found found
    exact ⟨_, rfl, read.isPlace ⟨spaces, _, rfl, rfl⟩⟩
  | ending _ _ _ _ => exact ⟨_, rfl, cs, [], (List.append_nil cs).symm, (Nat.zero_add _).symm⟩
  | lexical read breaks _ => exact ⟨_, rfl, read.isPlace (isPlace_of_next_broken breaks)⟩

lemma offence_of_ofText (h : ofText cs = .error fault) : Offence cs fault := by
  obtain ⟨ts, s', passes, stops, starts, refused⟩ := exists_stops_of_ofTokens h
  obtain ⟨count, position, rest, read, enough, rfl⟩ :=
    exists_leaves_of_passes passes (Nat.lt_succ_self _)
  obtain ⟨count, rfl⟩ := Nat.exists_eq_add_one_of_ne_zero (Nat.ne_zero_of_lt enough)
  have viable := viable_of_starts read.spellable starts
  rw [scan] at stops refused
  cases look : next position rest with
  | broken cause place =>
    rw [look] at stops
    cases stops with
    | lexical => exact .lexical read look viable
    | grammar unbroken => cases unbroken
  | found t start stop behind =>
    rw [look] at stops refused
    cases stops with
    | grammar =>
      refine .token read look viable ?_
      rintro ⟨more, accepted⟩
      obtain ⟨e, derives⟩ := exists_derives_of_accepted accepted
      rw [List.append_assoc] at derives
      exact refused rfl _ e rfl derives
  | done place =>
    obtain ⟨front, eq, rfl⟩ := read.exists_front
    have ended := eq_of_next_done look
    rw [Nat.zero_add, ← width_append, ← eq] at ended
    subst ended
    rw [look] at stops refused
    cases stops with
    | grammar =>
      refine .ending read look viable fun accepted => ?_
      obtain ⟨e, derives⟩ := exists_derives_of_accepted accepted
      rw [← List.append_nil ts] at derives
      exact refused rfl [] e rfl derives

/-- **A parse that fails blames the first offence.** The fault is a fault of parsing, at a place of
the text in which the expression is looked for, between its start and its end. If it is not one of
the lexer, then the place is where a token starts with which no formula goes on, or the end of the
text where the text is no formula; and what comes before can always still become one. -/
theorem offence_of_parse {text : String} {fault : Fault} (h : parse text = .error fault) :
    fault.category = .parse ∧
      (∃ place, fault.position? = some place ∧ place ≤ width (source text.toList) ∧
        IsPlace 0 (source text.toList) place) ∧
      Offence (source text.toList) fault := by
  have offence := offence_of_ofText h
  obtain ⟨place, position, isPlace⟩ := offence.isPlace
  have le : place ≤ width (source text.toList) := by
    rw [← Nat.zero_add (width _)]
    exact isPlace.le
  exact ⟨offence.category_eq, ⟨place, position, le, isPlace⟩, offence⟩

/-- After `[1 , "é"` comes a comma or a bracket, so the `2` is the first offence, at the eleventh
byte behind the sign `=`. -/
theorem offence_of_parse_item :
    parse " =[1 , \"é\" 2]" = .error (.grammar .missingItemEnd 10) ∧
      ∃ cs : List Char, cs = source " =[1 , \"é\" 2]".toList ∧ 10 ≤ width cs ∧
        IsPlace 0 cs 10 ∧ Offence cs (.grammar .missingItemEnd 10) := by
  have marked : source " =[1 , \"é\" 2]".toList =
      ['[', '1', ' ', ',', ' ', '"', 'é', '"', ' ', '2', ']'] := by rfl
  have failed : parse " =[1 , \"é\" 2]" = .error (.grammar .missingItemEnd 10) := by
    rw [parse, marked]
    rfl
  obtain ⟨-, ⟨place, ⟨⟩, le, isPlace⟩, offence⟩ := offence_of_parse failed
  exact ⟨failed, _, rfl, le, isPlace, offence⟩

end Expr

end Formula
