/-!
# Entries in the order of their keys

Association lists in which every key occurs once and the keys ascend. An entry is put where it
belongs, so the list does not show in which order it came to be.
-/

namespace Formula.Entries

/-- Puts an entry in its place among ordered ones, in place of the entry with the same key. -/
def insert {α : Type} (key : String) (value : α) : List (String × α) → List (String × α)
  | [] => [(key, value)]
  | (k, v) :: rest =>
    if key = k then (key, value) :: rest
    else if key < k then (key, value) :: (k, v) :: rest
    else (k, v) :: insert key value rest

/-- Removes the entry with a key. -/
def erase {α : Type} (key : String) (entries : List (String × α)) : List (String × α) :=
  entries.filter fun e => e.1 != key

theorem lookup_cons {α : Type} (key k : String) (v : α) (rest : List (String × α)) :
    ((k, v) :: rest).lookup key = if key = k then some v else rest.lookup key := by
  rw [List.lookup_cons]
  by_cases h : key = k
  · simp [h]
  · simp [h, beq_eq_false_iff_ne.2 h]

/-- An entry that was put in is found, and nothing else changes. -/
theorem lookup_insert {α : Type} (other key : String) (value : α) (entries : List (String × α)) :
    (insert key value entries).lookup other =
      if other = key then some value else entries.lookup other := by
  induction entries with
  | nil => simp [insert, lookup_cons]
  | cons entry rest ih =>
    obtain ⟨k, v⟩ := entry
    simp only [insert]
    split
    · subst k
      by_cases h : other = key <;> simp [lookup_cons, h]
    · next apart =>
      split
      · simp [lookup_cons]
      · by_cases h : other = k
        · subst k
          simp [Ne.symm apart]
        · simp [lookup_cons, h, ih]

/-- An entry that was removed is not found, and nothing else changes. -/
theorem lookup_erase {α : Type} (other key : String) (entries : List (String × α)) :
    (erase key entries).lookup other = if other = key then none else entries.lookup other := by
  induction entries with
  | nil => simp [erase]
  | cons entry rest ih =>
    obtain ⟨k, v⟩ := entry
    simp only [erase] at ih ⊢
    by_cases gone : k = key
    · subst k
      rw [List.filter_cons_of_neg (by simp), ih, lookup_cons]
      by_cases h : other = key <;> simp [h]
    · rw [List.filter_cons_of_pos (by simp [gone]), lookup_cons, lookup_cons, ih]
      by_cases h : other = k
      · subst k
        simp [gone]
      · simp [h]

/-- What stands in a list after an insertion is the new entry or was there before. -/
theorem mem_insert {α : Type} {e : String × α} {key : String} {value : α}
    {entries : List (String × α)} (h : e ∈ insert key value entries) :
    e = (key, value) ∨ e ∈ entries := by
  induction entries with
  | nil => simpa [insert] using h
  | cons entry rest ih =>
    obtain ⟨k, v⟩ := entry
    simp only [insert] at h
    split at h
    · rcases List.mem_cons.1 h with h | h
      · exact .inl h
      · exact .inr (List.mem_cons_of_mem _ h)
    · split at h
      · rcases List.mem_cons.1 h with h | h
        · exact .inl h
        · exact .inr h
      · rcases List.mem_cons.1 h with h | h
        · exact .inr (h ▸ List.mem_cons_self)
        · rcases ih h with h | h
          · exact .inl h
          · exact .inr (List.mem_cons_of_mem _ h)

/-- Keys that ascend still do after an insertion. -/
theorem pairwise_insert {α : Type} {key : String} {value : α} {entries : List (String × α)}
    (h : entries.Pairwise (·.1 < ·.1)) : (insert key value entries).Pairwise (·.1 < ·.1) := by
  induction entries with
  | nil => simp [insert]
  | cons entry rest ih =>
    obtain ⟨k, v⟩ := entry
    have parts := List.pairwise_cons.1 h
    simp only [insert]
    split
    · subst k
      exact List.pairwise_cons.2 parts
    · next apart =>
      split
      · next before =>
        refine List.pairwise_cons.2 ⟨?_, h⟩
        intro e mem
        rcases List.mem_cons.1 mem with rfl | mem
        · exact before
        · exact String.lt_trans before (parts.1 e mem)
      · next after =>
        refine List.pairwise_cons.2 ⟨?_, ih parts.2⟩
        intro e mem
        rcases mem_insert mem with rfl | mem
        · exact Std.lt_of_le_of_ne (String.not_lt.1 after) (Ne.symm apart)
        · exact parts.1 e mem

end Formula.Entries
