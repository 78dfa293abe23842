import Formula.Proofs.Grammar.Words
import Mathlib.Tactic.Lemma

/-!
# Characters and their bytes

The bytes of a text are those of its characters, one character after the other. A seven-bit
character is a byte of its own, and none of the bytes of any other character is one. So a byte that
is read as the character of its number is that character or stands for no seven-bit character.
-/

namespace Formula

/-- The bytes of characters. -/
def encode (cs : List Char) : List UInt8 := cs.flatMap String.utf8EncodeChar

variable {c : Char} {b : UInt8} {cs ds : List Char} {p : Char → Bool}

@[simp] lemma encode_nil : encode [] = [] := rfl

@[simp] lemma encode_cons (c : Char) (cs : List Char) :
    encode (c :: cs) = String.utf8EncodeChar c ++ encode cs := List.flatMap_cons

@[simp] lemma encode_append (cs ds : List Char) : encode (cs ++ ds) = encode cs ++ encode ds :=
  List.flatMap_append

@[simp] lemma length_encode (cs : List Char) : (encode cs).length = Tokens.width cs := by
  induction cs with
  | nil => rfl
  | cons c cs ih =>
    rw [encode_cons, List.length_append, String.length_utf8EncodeChar, ih, Tokens.width_cons]

/-- The bytes of characters are those of the text that they make. -/
lemma fromUTF8?_encode (cs : List Char) :
    String.fromUTF8? (encode cs).toByteArray = some (String.ofList cs) := by
  have valid : (encode cs).toByteArray.IsValidUTF8 := .intro cs rfl
  rw [String.fromUTF8?, dif_pos valid]
  exact congrArg some (String.toByteArray_inj.1 String.toByteArray_ofList.symm)

lemma toList_toUTF8 (text : String) : text.toUTF8.data.toList = encode text.toList := by
  rw [String.toUTF8_eq_toByteArray, ← String.utf8Encode_toList, List.utf8Encode,
    List.toList_data_toByteArray, encode]

/-! ### Seven-bit characters -/

/-- That a condition holds of seven-bit characters only. -/
def SevenBit (p : Char → Bool) : Prop := ∀ c, p c → c.toNat ≤ 127

lemma sevenBit_beq (h : c.toNat ≤ 127) : SevenBit (· == c) := by
  intro d same
  obtain rfl := beq_iff_eq.1 same
  exact h

lemma sevenBit_isWordPart : SevenBit Tokens.isWordPart := fun _ => Tokens.toNat_le_of_isWordPart

lemma sevenBit_isDigit : SevenBit Char.isDigit := by
  intro c digit
  have range : 48 ≤ c.toNat ∧ c.toNat ≤ 57 := Char.isDigit_iff_toNat.1 digit
  omega

lemma sevenBit_isSpace : SevenBit Tokens.isSpace := by
  intro c space
  simp only [Tokens.isSpace, Bool.or_eq_true, beq_iff_eq] at space
  rcases space with ((rfl | rfl) | rfl) | rfl <;> decide

lemma utf8Size_of_sevenBit (seven : SevenBit p) (h : p c) : c.utf8Size = 1 :=
  Char.utf8Size_eq_one_iff.2 (seven c h)

lemma width_of_sevenBit (seven : SevenBit p) (h : ∀ c ∈ cs, p c) :
    Tokens.width cs = cs.length :=
  Tokens.width_eq_length_of_single fun c mem => utf8Size_of_sevenBit seven (h c mem)

/-! ### Bytes read as characters -/

lemma toNat_ofUInt8 (b : UInt8) : (Char.ofUInt8 b).toNat = b.toNat := UInt8.toNat_toUInt32 b

lemma ofUInt8_toUInt8 (h : c.toNat ≤ 127) : Char.ofUInt8 c.toUInt8 = c := by
  apply Char.toNat_inj.1
  rw [toNat_ofUInt8]
  have small : c.val.toNat ≤ 127 := h
  have cut : c.toUInt8.toNat = c.val.toNat % 2 ^ 8 := UInt32.toNat_toUInt8 c.val
  rw [cut, Nat.mod_eq_of_lt (by omega)]
  rfl

/-- A seven-bit character is a byte of its own. -/
lemma encode_of_sevenBit (h : c.toNat ≤ 127) : String.utf8EncodeChar c = [c.toUInt8] :=
  String.utf8EncodeChar_eq_singleton (Char.utf8Size_eq_one_iff.2 h)

/-- The bytes of a longer character are all beyond seven bits. -/
lemma forall_mem_utf8EncodeChar (h : ¬ c.toNat ≤ 127) :
    ∀ b ∈ String.utf8EncodeChar c, ¬ b.toNat ≤ 127 := by
  have beyond {n : ℕ} (least : 128 ≤ n) (most : n < 256) : ¬ (UInt8.ofNat n).toNat ≤ 127 := by
    rw [UInt8.toNat_ofNat', Nat.mod_eq_of_lt most]
    omega
  have long : ¬ c.val.toNat ≤ 127 := h
  rw [String.utf8EncodeChar.eq_1, if_neg long]
  split_ifs <;> simp only [List.forall_mem_cons, List.not_mem_nil, false_imp_iff, implies_true,
    and_true]
  · exact ⟨beyond (by omega) (by omega), beyond (by omega) (by omega)⟩
  · exact ⟨beyond (by omega) (by omega), beyond (by omega) (by omega), beyond (by omega) (by omega)⟩
  · exact ⟨beyond (by omega) (by omega), beyond (by omega) (by omega), beyond (by omega) (by omega),
      beyond (by omega) (by omega)⟩

/-- A byte beyond seven bits is not read as a seven-bit character. -/
lemma ofUInt8_ne (beyond : ¬ b.toNat ≤ 127) (seven : c.toNat ≤ 127) : Char.ofUInt8 b ≠ c := by
  rintro rfl
  exact beyond (toNat_ofUInt8 b ▸ seven)

/-- So none of them is taken for a character that meets a condition on seven-bit characters. -/
lemma not_ofUInt8_of_mem (seven : SevenBit p) (h : ¬ c.toNat ≤ 127)
    (mem : b ∈ String.utf8EncodeChar c) : ¬ p (Char.ofUInt8 b) := by
  intro met
  apply forall_mem_utf8EncodeChar h b mem
  rw [← toNat_ofUInt8]
  exact seven _ met

end Formula
