import Formula.Proofs.Scanner.Looks

/-!
# A scanner's walk through a text

Look by look, a scanner comes to the end of the text or to a fault. On its way it passes spaces and
the bytes of tokens and nothing else, never stands outside of the text, and never finds bytes that
are no text or a numeral that is no number. The tokens that it finds are the stream of the text.
-/

namespace Formula

open Tokens

/-- The bytes that the tokens of a stream cover, each from its start up to its stop. -/
def Tokens.ranges : Tokens → List (ℕ × ℕ)
  | .cons _ start stop rest => (start, stop) :: rest.ranges
  | _ => []

namespace Scanner

/-- The messages about bytes that are no text and numerals that are no numbers. -/
def internalMessages : List String :=
  [ScanFault.unreadableInput.message, ScanFault.unreadableLiteral.message,
    ScanFault.unreadableNumber.message]

/-- What every look does: it marks a start behind spaces and stops behind it in the text. -/
structure Moves (s t : Scanner) : Prop where
  bytes : t.bytes = s.bytes
  forward : s.position ≤ t.start
  spaced : ∀ k, s.position ≤ k → k < t.start → ∃ b, s.bytes[k]? = some b ∧ isSpace (Char.ofUInt8 b)
  ordered : t.start ≤ t.position
  inside : t.position ≤ s.bytes.size

/-- That look by look a scanner finds the tokens of a stream, each in a part of the text behind the
ones before it, until it finds the end of the text or a fault that has its place in the text. -/
inductive Walks : Scanner → Tokens → Prop
  | done {s t : Scanner} (look : s.next = (.ok none, t)) (moves : Moves s t)
      (ends : t.start = s.bytes.size) : Walks s (.done t.start)
  | broken {s t : Scanner} {cause : LexicalFault} {place : ℕ}
      (look : s.next = (.error (.lexical cause, place), t)) (moves : Moves s t)
      (behind : t.start ≤ place) (inside : place ≤ s.bytes.size) : Walks s (.broken cause place)
  | found {s t : Scanner} {token : Token} {rest : Tokens}
      (look : s.next = (.ok (some token), t)) (moves : Moves s t) (covers : t.start < t.position)
      (more : Walks t rest) : Walks s (.cons token t.start t.position rest)

/-- That a scanner comes to a place by finding tokens. -/
inductive Reaches (s : Scanner) : Scanner → Prop
  | here : Reaches s s
  | found {t u : Scanner} {token : Token} (before : Reaches s t)
      (look : t.next = (.ok (some token), u)) : Reaches s u

variable {s t : Scanner} {cs rest : List Char} {ts : Tokens}

/-! ### One look -/

/-- The scanner with the start of a token behind the spaces in front of it. -/
lemma Faces.next_eq (h : s.Faces cs) :
    s.next = (s.skip (cs.takeWhile isSpace).length).mark.token := by
  rw [next, h.skipWhile_eq sevenBit_isSpace]

/-- Behind spaces, a scanner finds what the characters behind the spaces start with. -/
lemma Faces.agrees_next (h : s.Faces cs) :
    (s.skip (cs.takeWhile isSpace).length).mark.Agrees s.next (Tokens.next s.position cs) := by
  have behind := h.skipWhile sevenBit_isSpace
  rw [h.skipWhile_eq sevenBit_isSpace] at behind
  rw [h.next_eq, Tokens.next, List.span_eq_takeWhile_dropWhile]
  exact behind.mark.agrees_token rfl

/-- The bytes in front of a token are spaces. -/
lemma Faces.spaced (h : s.Faces cs) {k : ℕ} (le : s.position ≤ k)
    (lt : k < s.position + (cs.takeWhile isSpace).length) :
    ∃ b, s.bytes[k]? = some b ∧ isSpace (Char.ofUInt8 b) := by
  obtain ⟨j, rfl⟩ := Nat.exists_eq_add_of_le le
  have inner : j < (cs.takeWhile isSpace).length := Nat.lt_of_add_lt_add_left lt
  -- The byte is the space behind the first `j` of them.
  set spaces := cs.takeWhile isSpace
  have all : ∀ c ∈ spaces, isSpace c := fun c mem => List.mem_takeWhile_imp mem
  have split :
      cs = spaces.take j ++ (spaces[j] :: (spaces.drop (j + 1) ++ cs.dropWhile isSpace)) := by
    rw [← List.cons_append, ← List.drop_eq_getElem_cons inner, ← List.append_assoc,
      List.take_append_drop, List.takeWhile_append_dropWhile]
  have front : ∀ c ∈ spaces.take j, isSpace c := fun c mem => all c (List.mem_of_mem_take mem)
  have faces := (split ▸ h).skip_length sevenBit_isSpace front
  have space := all _ (List.getElem_mem inner)
  have seven := sevenBit_isSpace _ space
  have here := faces.ahead_of_sevenBit seven
  rw [List.length_take_of_le inner.le, ahead_skip] at here
  exact ⟨_, here, by rwa [ofUInt8_toUInt8 seven]⟩

lemma Faces.moves (h : s.Faces cs) {n : ℕ}
    (inside : s.position + (cs.takeWhile isSpace).length + n ≤ s.bytes.size) :
    Moves s ((s.skip (cs.takeWhile isSpace).length).mark.skip n) where
  bytes := rfl
  forward := Nat.le_add_right _ _
  spaced := fun _ => h.spaced
  ordered := Nat.le_add_right _ _
  inside := inside

/-- A token takes some bytes. -/
lemma lt_of_next_found {position start stop : ℕ} {token : Token}
    (found : Tokens.next position cs = .found token start stop rest) : start < stop := by
  obtain ⟨_, word, -, -, rfl, spelled⟩ := exists_of_next_found found
  have shorter := length_lt_of_next (spelled 0 [])
  have some : word ≠ [] := by
    rintro rfl
    exact absurd shorter (Nat.lt_irrefl 1)
  have width := mt eq_nil_of_width_eq_zero some
  omega

/-! ### The whole walk -/

/-- The looks of a scanner find the stream of the characters in front of it. -/
lemma Faces.walks_scan {count : ℕ} (h : s.Faces cs) (enough : cs.length < count) :
    s.Walks (scan count s.position cs) := by
  induction count generalizing s cs with
  | zero => exact absurd enough (Nat.not_lt_zero _)
  | succ count ih =>
    unfold scan
    have agrees := h.agrees_next
    generalize look : Tokens.next s.position cs = step at agrees ⊢
    generalize looks : s.next = outcome at agrees
    cases agrees with
    | done ends => exact .done looks (h.moves (n := 0) ends.le) ends
    | broken inside behind passed =>
      exact .broken looks (h.moves inside) behind (passed.trans inside)
    | found faces =>
      have shorter := length_lt_of_next look
      exact .found looks (h.moves faces.inside) (lt_of_next_found look) (ih faces (by omega))

namespace Walks

/-- Every token on the way takes at least one byte. -/
lemma size_le (h : s.Walks ts) : s.position + ts.size ≤ s.bytes.size := by
  induction h with
  | done _ moves _ => exact moves.forward.trans (moves.ordered.trans moves.inside)
  | broken _ moves _ _ => exact moves.forward.trans (moves.ordered.trans moves.inside)
  | found _ moves covers _ ih =>
    have forward := moves.forward
    rw [moves.bytes] at ih
    simp only [Tokens.size]
    omega

/-- The tokens on the way lie behind the place where the walk begins, each behind the ones before
it. -/
lemma ranges_pairwise (h : s.Walks ts) :
    (∀ range ∈ ts.ranges, s.position ≤ range.1) ∧
      ts.ranges.Pairwise fun range later => range.2 ≤ later.1 := by
  induction h with
  | done => exact ⟨nofun, .nil⟩
  | broken => exact ⟨nofun, .nil⟩
  | found _ moves covers _ ih =>
    obtain ⟨behind, pairwise⟩ := ih
    refine ⟨List.forall_mem_cons.2 ⟨moves.forward, fun range mem => ?_⟩, .cons behind pairwise⟩
    exact (moves.forward.trans moves.ordered).trans (behind range mem)

/-- A walk goes on from every place on the way. -/
lemma of_reaches (h : s.Walks ts) (reaches : s.Reaches t) : ∃ ts', t.Walks ts' := by
  induction reaches with
  | here => exact ⟨ts, h⟩
  | found _ look ih =>
    obtain ⟨ts', walk⟩ := ih
    cases walk with
    | done look' => cases look.symm.trans look'
    | broken look' => cases look.symm.trans look'
    | found look' _ _ more =>
      cases look.symm.trans look'
      exact ⟨_, more⟩

/-- A fault at the end of a walk is one of the grammar of tokens. -/
lemma message_not_internal {fault : ScanFault} {place : ℕ} (h : s.Walks ts)
    (look : s.next = (.error (fault, place), t)) : fault.message ∉ internalMessages := by
  cases h with
  | done look' => cases look.symm.trans look'
  | @broken _ _ cause _ look' =>
    cases look.symm.trans look'
    cases cause <;> decide
  | found look' => cases look.symm.trans look'

end Walks

/-- A scanner walks through every text, as the stream of the text says, to its end or to a fault.
There are at most as many tokens as bytes, each behind the ones before it, and nowhere on the way is
there a fault about bytes that are no text or a numeral that is no number. -/
theorem walks_ofText (text : String) :
    (ofText text).Walks (Tokens.ofText text.toList) ∧
      (Tokens.ofText text.toList).size ≤ text.utf8ByteSize ∧
      (Tokens.ofText text.toList).ranges.Pairwise (fun range later => range.2 ≤ later.1) ∧
      ¬ ∃ s t fault place, (ofText text).Reaches s ∧ s.next = (.error (fault, place), t) ∧
        fault.message ∈ internalMessages := by
  have walk : (ofText text).Walks (Tokens.ofText text.toList) :=
    (faces_ofText text).walks_scan (Nat.lt_succ_self _)
  refine ⟨walk, ?_, walk.ranges_pairwise.2, ?_⟩
  · have size := walk.size_le
    have bytes : (ofText text).bytes.size = text.utf8ByteSize := by
      rw [ofText, String.toUTF8_eq_toByteArray, String.size_toByteArray]
    have front : (ofText text).position = 0 := rfl
    omega
  · rintro ⟨s, t, fault, place, reaches, look, internal⟩
    obtain ⟨ts, further⟩ := walk.of_reaches reaches
    exact further.message_not_internal look internal

example : (Tokens.ofText "1...  <>".toList).ranges = [(0, 1), (1, 4), (6, 8)] := by decide

end Scanner

end Formula
