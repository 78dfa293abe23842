import Formula.Json.Standard
import Formula.Proofs.Json.Conversion

/-!
# Numbers in data that was read

The standard codec reads no number that is out of the range of doubles. Of any codec like that, what
is read becomes itself again by way of its value, but for numbers that are no doubles yet.
-/

namespace Formula.Json

/-! ### Data with finite numbers -/

section

variable {items : List Json} {members entries : List (String × Json)}

lemma IsFinite.list (each : ∀ j ∈ items, j.IsFinite) : (list items).IsFinite := by
  rintro n (_ | ⟨mem, inside⟩)
  exact each _ mem n inside

lemma IsFinite.object (each : ∀ m ∈ members, m.2.IsFinite) : (object members).IsFinite := by
  rintro n (_ | _ | ⟨mem, inside⟩)
  exact each _ mem n inside

lemma IsFinite.number {n : Number} (finite : Formula.Number.isFinite n.toFloat = true) :
    (number n).IsFinite := by
  rintro _ ⟨⟩
  exact finite

lemma IsFinite.foldl_insert (sorted : ∀ m ∈ entries, m.2.IsFinite)
    (each : ∀ m ∈ members, m.2.IsFinite) :
    ∀ m ∈ members.foldl (fun sorted m => Entries.insert m.1 m.2 sorted) entries, m.2.IsFinite := by
  induction members generalizing entries with
  | nil => exact sorted
  | cons m members ih =>
    rw [List.forall_mem_cons] at each
    refine ih (fun e mem => ?_) each.2
    rcases Entries.mem_insert mem with rfl | mem
    · exact each.1
    · exact sorted e mem

end

/-! ### Data of texts -/

lemma Numeral.isFinite_of_toNumber? {numeral : Numeral} {n : Number}
    (h : numeral.toNumber? = some n) : Formula.Number.isFinite n.toFloat = true :=
  (Option.filter_eq_some_iff.1 h).2

namespace Syntax

mutual

/-- The data of a text has finite numbers. -/
lemma isFinite_of_data? {depth : Nat} {j : Json} (s : Syntax) (h : s.data? depth = some j) :
    j.IsFinite := by
  match s with
  | .null | .boolean _ =>
    cases h
    exact nofun
  | .text content =>
    obtain ⟨_, -, rfl⟩ := Option.map_eq_some_iff.1 h
    exact nofun
  | .number n =>
    obtain ⟨n, read, rfl⟩ := Option.map_eq_some_iff.1 h
    exact .number (Numeral.isFinite_of_toNumber? read)
  | .list ss =>
    obtain ⟨-, h⟩ := Option.ite_none_left_eq_some.1 h
    obtain ⟨items, read, rfl⟩ := Option.map_eq_some_iff.1 h
    exact .list (isFinite_of_listData? ss read)
  | .object ms =>
    obtain ⟨-, h⟩ := Option.ite_none_left_eq_some.1 h
    obtain ⟨members, read, rfl⟩ := Option.map_eq_some_iff.1 h
    exact .object (.foldl_insert nofun (isFinite_of_memberData? ms read))

lemma isFinite_of_listData? {depth : Nat} {items : List Json} (ss : List Syntax)
    (h : listData? depth ss = some items) : ∀ j ∈ items, j.IsFinite := by
  match ss with
  | [] =>
    cases h
    exact nofun
  | s :: ss =>
    obtain ⟨j, first, h⟩ := Option.bind_eq_some_iff.1 h
    obtain ⟨items, rest, ⟨⟩⟩ := Option.bind_eq_some_iff.1 h
    exact List.forall_mem_cons.2 ⟨isFinite_of_data? s first, isFinite_of_listData? ss rest⟩

lemma isFinite_of_memberData? {depth : Nat} {members : List (String × Json)}
    (ms : List (Option String × Syntax)) (h : memberData? depth ms = some members) :
    ∀ m ∈ members, m.2.IsFinite := by
  match ms with
  | [] =>
    cases h
    exact nofun
  | m :: ms =>
    obtain ⟨member, first, h⟩ := Option.bind_eq_some_iff.1 h
    obtain ⟨members, rest, ⟨⟩⟩ := Option.bind_eq_some_iff.1 h
    exact List.forall_mem_cons.2 ⟨isFinite_of_pairData? m first, isFinite_of_memberData? ms rest⟩

lemma isFinite_of_pairData? {depth : Nat} {m : String × Json} (pair : Option String × Syntax)
    (h : pairData? depth pair = some m) : m.2.IsFinite := by
  match pair with
  | (key, s) =>
    obtain ⟨j, read, h⟩ := Option.bind_eq_some_iff.1 h
    obtain ⟨key, -, ⟨⟩⟩ := Option.bind_eq_some_iff.1 h
    exact isFinite_of_data? s read

end

end Syntax

/-! ### Codecs -/

/-- The standard codec refuses numbers that are out of range. -/
theorem Codec.readsFinite_standard : standard.ReadsFinite := by
  intro text j decoded
  simp only [standard] at decoded
  split at decoded
  · cases decoded
  · next read =>
    cases decoded
    obtain ⟨s, -, data⟩ := Option.bind_eq_some_iff.1 read
    exact s.isFinite_of_data? data

/-- What is read becomes itself again by way of its value, up to doubles. -/
theorem Codec.ReadsFinite.toJson_eq {codec : Codec} {text : String} {j : Json} {v : Value}
    (reads : codec.ReadsFinite) (decoded : codec.decode text = .ok j) (value : j.toValue = .ok v) :
    v.toJson = j.inDoubles := by
  rcases j.toValue_cases with ⟨-, failed⟩ | ⟨-, w, value', again⟩
  · rw [value] at failed
    cases failed
  · rw [value] at value'
    cases value'
    exact again (reads text j decoded)

end Formula.Json
