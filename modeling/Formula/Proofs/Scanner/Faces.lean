import Formula.Proofs.Scanner.Basic

/-!
# Scanners in front of characters

A scanner faces characters when their bytes are all that is left of the text. It then sees the first
character if that is one of seven bits, and moving on by the width of some of the characters it
faces the others. No other place in a text is ever a place where a token starts or stops.
-/

namespace Formula.Scanner

/-- The bytes that are left. -/
def left (s : Scanner) : List UInt8 := s.bytes.data.toList.drop s.position

/-- That the bytes that are left are those of these characters. -/
structure Faces (s : Scanner) (cs : List Char) : Prop where
  inside : s.position ≤ s.bytes.size
  left : s.left = encode cs

variable {s : Scanner} {c : Char} {cs front back : List Char} {p : Char → Bool} {n : ℕ}

@[simp] lemma skip_bytes (s : Scanner) (n : ℕ) : (s.skip n).bytes = s.bytes := rfl

@[simp] lemma skip_position (s : Scanner) (n : ℕ) : (s.skip n).position = s.position + n := rfl

@[simp] lemma skip_start (s : Scanner) (n : ℕ) : (s.skip n).start = s.start := rfl

@[simp] lemma skip_zero (s : Scanner) : s.skip 0 = s := rfl

@[simp] lemma skip_skip (s : Scanner) (n m : ℕ) : (s.skip n).skip m = s.skip (n + m) := by
  simp only [skip, Nat.add_assoc]

lemma ahead_skip (s : Scanner) (n m : ℕ) : (s.skip n).ahead m = s.ahead (n + m) := by
  simp only [ahead, skip, Nat.add_assoc]

lemma sees_skip (s : Scanner) (n m : ℕ) (p : Char → Bool) :
    (s.skip n).sees m p = s.sees (n + m) p := by
  simp only [sees, ahead_skip]

@[simp] lemma left_skip (s : Scanner) (n : ℕ) : (s.skip n).left = s.left.drop n := by
  rw [left, left, List.drop_drop]
  rfl

lemma ahead_eq (s : Scanner) (n : ℕ) : s.ahead n = s.left[n]? := by
  rw [ahead, left, List.getElem?_drop, Array.getElem?_toList]
  by_cases inside : s.position + n < s.bytes.size
  · rw [getElem?_pos s.bytes _ inside, getElem?_pos s.bytes.data _ inside]
    rfl
  · rw [getElem?_neg s.bytes _ inside, getElem?_neg s.bytes.data _ inside]

lemma faces_ofText (text : String) : (ofText text).Faces text.toList where
  inside := Nat.zero_le _
  left := toList_toUTF8 text

namespace Faces

lemma size_eq (h : s.Faces cs) : s.bytes.size = s.position + Tokens.width cs := by
  have length := congrArg List.length h.left
  rw [Scanner.left, List.length_drop, length_encode, Array.length_toList] at length
  have inside := h.inside
  have size : s.bytes.data.size = s.bytes.size := rfl
  omega

/-- Behind some of the characters are the others. -/
lemma skip (h : s.Faces (front ++ back)) : (s.skip (Tokens.width front)).Faces back where
  inside := by
    rw [skip_bytes, skip_position, h.size_eq, Tokens.width_append]
    omega
  left := by
    rw [left_skip, h.left, encode_append, ← length_encode, List.drop_left]

/-- Behind a character are the others. -/
lemma tail (h : s.Faces (c :: cs)) : (s.skip c.utf8Size).Faces cs := by
  have single : Tokens.width [c] = c.utf8Size := Tokens.width_cons c []
  rw [← single]
  exact h.skip

lemma ahead_nil (h : s.Faces []) : s.ahead 0 = none := by
  rw [ahead_eq, h.left]
  rfl

lemma ahead_of_sevenBit (h : s.Faces (c :: cs)) (seven : c.toNat ≤ 127) :
    s.ahead 0 = some c.toUInt8 := by
  rw [ahead_eq, h.left, encode_cons, encode_of_sevenBit seven]
  rfl

/-- In front of any character there is one of its bytes. -/
lemma exists_ahead (h : s.Faces (c :: cs)) :
    ∃ b ∈ String.utf8EncodeChar c, s.ahead 0 = some b := by
  obtain ⟨b, bs, bytes⟩ := List.exists_cons_of_ne_nil (String.utf8EncodeChar_ne_nil (c := c))
  refine ⟨b, by rw [bytes]; exact List.mem_cons_self, ?_⟩
  rw [ahead_eq, h.left, encode_cons, bytes]
  rfl

/-- A condition on seven-bit characters is seen just where the first character meets it. -/
lemma sees_eq (h : s.Faces cs) (seven : SevenBit p) : s.sees 0 p = cs.head?.any p := by
  cases cs with
  | nil =>
    rw [sees, h.ahead_nil]
    rfl
  | cons c cs =>
    by_cases small : c.toNat ≤ 127
    · rw [sees, h.ahead_of_sevenBit small, Option.any_some, ofUInt8_toUInt8 small]
      rfl
    · obtain ⟨b, mem, found⟩ := h.exists_ahead
      have unmet : ¬ p c := fun met => small (seven c met)
      have unseen := not_ofUInt8_of_mem seven small mem
      rw [sees, found, Option.any_some, List.head?_cons, Option.any_some]
      simp only [Bool.not_eq_true] at unmet unseen
      rw [unmet, unseen]

/-- A seven-bit character that is seen is the first one. -/
lemma exists_cons_of_sees (h : s.Faces cs) (seven : c.toNat ≤ 127) (seen : s.sees 0 (· == c)) :
    ∃ tail, cs = c :: tail := by
  rw [h.sees_eq (sevenBit_beq seven)] at seen
  obtain ⟨d, head, same⟩ := (Option.any_eq_true _ _).1 seen
  obtain rfl := beq_iff_eq.1 same
  exact List.head?_eq_some_iff.1 head

/-- Seven-bit characters in front are passed one byte each. -/
lemma skip_length (h : s.Faces (front ++ back)) (seven : SevenBit p) (all : ∀ c ∈ front, p c) :
    (s.skip front.length).Faces back := by
  rw [← width_of_sevenBit seven all]
  exact h.skip

/-- What meets a condition on seven-bit characters is passed, character by character. -/
lemma skipWhile_eq (h : s.Faces cs) (seven : SevenBit p) :
    s.skipWhile p = s.skip (cs.takeWhile p).length := by
  induction cs generalizing s with
  | nil =>
    rw [skipWhile, dif_neg (by rw [h.sees_eq seven]; exact Bool.false_ne_true)]
    rfl
  | cons c cs ih =>
    rw [skipWhile]
    split
    · next more =>
      have met : p c := by simpa [h.sees_eq seven] using more
      have single : (s.skip 1).Faces cs :=
        Char.utf8Size_eq_one_iff.2 (seven c met) ▸ h.tail
      rw [ih single, skip_skip, List.takeWhile_cons_of_pos met, List.length_cons, Nat.add_comm]
    · next stop =>
      have unmet : ¬ p c := by simpa [h.sees_eq seven] using stop
      rw [List.takeWhile_cons_of_neg unmet]
      rfl

/-- Behind what was passed are the characters from the first that does not meet the condition. -/
lemma skipWhile (h : s.Faces cs) (seven : SevenBit p) :
    (s.skipWhile p).Faces (cs.dropWhile p) := by
  rw [h.skipWhile_eq seven]
  rw [← List.takeWhile_append_dropWhile (p := p) (l := cs)] at h
  exact h.skip_length seven fun c mem => List.mem_takeWhile_imp mem

lemma mark (h : s.Faces cs) : s.mark.Faces cs := ⟨h.inside, h.left⟩

/-- The bytes that were passed from the start of a token are the text of the characters passed. -/
lemma spelled_eq (h : s.Faces (front ++ back)) (marked : s.start = s.position) :
    (s.skip (Tokens.width front)).spelled = some (String.ofList front) := by
  have bytes : s.bytes.extract s.position (s.position + Tokens.width front) =
      (encode front).toByteArray := by
    apply ByteArray.ext
    rw [ByteArray.data_extract, List.data_toByteArray]
    apply Array.toList_inj.1
    rw [Array.toList_extract, List.extract, ← Scanner.left, h.left, encode_append,
      Nat.add_sub_cancel_left, ← length_encode, List.take_left]
  rw [spelled, skip_bytes, skip_start, marked, skip_position, bytes, fromUTF8?_encode]

end Faces

end Formula.Scanner
