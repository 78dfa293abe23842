import Formula.Json.Value
import Mathlib.Tactic.Lemma

/-!
# From values to JSON data and back

JSON has a form for every value but two kinds: a lambda becomes its text, and a number that is
infinite or a NaN becomes null. So every value comes back from its data, and as itself just when it
holds neither. Of data only objects stand for no value, wherever they occur; other data comes back
from its value with every number as a double.
-/

namespace Formula

/-! ### What occurs in values and in data -/

/-- That a value occurs in another one, at whatever depth. -/
inductive Value.Occurs (v : Value) : Value → Prop
  | self : Occurs v v
  | item {w : Value} {items : List Value} (mem : w ∈ items) (inside : Occurs v w) :
      Occurs v (.array items)

/-- That a value holds no lambda and no number that is infinite or a NaN. -/
structure Value.IsExpressible (v : Value) : Prop where
  unapplied : ∀ parameters body, ¬ Occurs (.lambda parameters body) v
  finite : ∀ x, Occurs (.number x) v → Number.isFinite x = true

/-- That data holds an object. -/
def Json.HasObject (j : Json) : Prop := ∃ members, Occurs (.object members) j

/-! ### Values as data -/

/-- A finite number equals itself. -/
lemma Number.beq_self_of_isFinite {x : Float} (finite : isFinite x = true) : (x == x) = true := by
  have unpacked : (!x.toModel.unpack.isInf && !x.toModel.unpack.isNaN) = true := finite
  change x.toModel.unpack.beq x.toModel.unpack = true
  generalize x.toModel.unpack = f at unpacked
  cases f with
  | notANumber => cases unpacked
  | infinity s => cases unpacked
  | zero s => cases s <;> rfl
  | finite s m e pos =>
    have same : (compare e e).then (compare m m) = .eq := by simp
    cases s with
    | positive =>
      change (some ((compare e e).then (compare m m)) == some .eq) = true
      rw [same]
      rfl
    | negative =>
      change (some ((compare e e).then (compare m m)).swap == some .eq) = true
      rw [same]
      rfl

namespace Value

variable {items : List Value}

lemma isExpressible_array_iff : (array items).IsExpressible ↔ ∀ v ∈ items, v.IsExpressible := by
  constructor
  · intro whole v mem
    exact ⟨fun ps e inside => whole.unapplied ps e (.item mem inside),
      fun x inside => whole.finite x (.item mem inside)⟩
  · intro each
    constructor
    · rintro ps e (_ | ⟨mem, inside⟩)
      exact (each _ mem).unapplied ps e inside
    · rintro x (_ | ⟨mem, inside⟩)
      exact (each _ mem).finite x inside

lemma isExpressible_number_iff {x : Float} :
    (number x).IsExpressible ↔ Number.isFinite x = true := by
  constructor
  · exact fun h => h.finite x .self
  · refine fun finite => ⟨nofun, ?_⟩
    rintro y ⟨⟩
    exact finite

lemma not_isExpressible_lambda {parameters : List String} {body : Expr} :
    ¬ (lambda parameters body).IsExpressible :=
  fun h => h.unapplied parameters body .self

mutual

/-- What comes back of a value from its data. -/
def viaJson : Value → Value
  | .number x => if Number.isFinite x then .number x else .null
  | .array items => .array (viaJsons items)
  | .lambda parameters _ => .text (lambdaText parameters)
  | v => v
termination_by structural v => v

/-- What comes back of the values of a list. -/
def viaJsons : List Value → List Value
  | [] => []
  | v :: vs => v.viaJson :: viaJsons vs
termination_by structural vs => vs

end

mutual

/-- Every value comes back from its data. -/
lemma toValue_toJson (v : Value) : v.toJson.toValue = .ok v.viaJson := by
  match v with
  | .number x =>
    rw [toJson, viaJson]
    split
    · next finite =>
      have made := Json.Number.ofFloat?_of_isFinite finite
      rw [made]
      exact congrArg (Except.ok <| number ·) (Json.Number.toFloat_of_ofFloat? made)
    · next infinite =>
      rw [Json.Number.ofFloat?_of_not_isFinite infinite]
      rfl
  | .array items =>
    rw [toJson, Json.toValue, toValues_toJsons items]
    rfl
  | .text _ | .boolean _ | .null | .lambda _ _ => rfl

lemma toValues_toJsons (vs : List Value) : Json.toValues (toJsons vs) = .ok (viaJsons vs) := by
  match vs with
  | [] => rfl
  | v :: vs =>
    rw [toJsons, Json.toValues, toValue_toJson v, toValues_toJsons vs]
    rfl

end

mutual

/-- The values that come back as they were are those that JSON has a form for. -/
lemma viaJson_eq_self_iff (v : Value) : v.viaJson = v ↔ v.IsExpressible := by
  match v with
  | .number x =>
    rw [viaJson, isExpressible_number_iff]
    split
    · next finite => simp [finite]
    · next infinite => simp [infinite]
  | .array items => rw [viaJson, array.injEq, viaJsons_eq_self_iff, isExpressible_array_iff]
  | .lambda _ _ => simp [viaJson, not_isExpressible_lambda]
  | .text _ | .boolean _ | .null => exact ⟨fun _ => ⟨nofun, nofun⟩, fun _ => rfl⟩

lemma viaJsons_eq_self_iff (vs : List Value) :
    viaJsons vs = vs ↔ ∀ v ∈ vs, v.IsExpressible := by
  match vs with
  | [] => simp [viaJsons]
  | v :: vs =>
    rw [viaJsons, List.cons.injEq, viaJson_eq_self_iff v, viaJsons_eq_self_iff vs,
      List.forall_mem_cons]

end

mutual

/-- They are also those that equal what comes back of them. -/
lemma equal_viaJson_iff (v : Value) : v.viaJson.equal v = true ↔ v.IsExpressible := by
  match v with
  | .number x =>
    rw [viaJson, isExpressible_number_iff]
    split
    · next finite => simp [finite, equal, Number.beq_self_of_isFinite finite]
    · next infinite => simp [infinite, equal]
  | .array items => rw [viaJson, equal, equalLists_viaJsons_iff, isExpressible_array_iff]
  | .lambda _ _ => simp [viaJson, equal, not_isExpressible_lambda]
  | .text _ | .boolean _ | .null =>
    simp only [viaJson, equal, beq_self_eq_true, true_iff]
    exact ⟨nofun, nofun⟩

lemma equalLists_viaJsons_iff (vs : List Value) :
    equalLists (viaJsons vs) vs = true ↔ ∀ v ∈ vs, v.IsExpressible := by
  match vs with
  | [] => simp [viaJsons, equalLists]
  | v :: vs =>
    rw [viaJsons, equalLists, Bool.and_eq_true, equal_viaJson_iff v, equalLists_viaJsons_iff vs,
      List.forall_mem_cons]

end

end Value

/-! ### Data as values -/

namespace Json

variable {items : List Json}

lemma hasObject_list_iff : (list items).HasObject ↔ ∃ j ∈ items, j.HasObject := by
  constructor
  · rintro ⟨members, _ | ⟨mem, inside⟩⟩
    exact ⟨_, mem, members, inside⟩
  · rintro ⟨j, mem, members, inside⟩
    exact ⟨members, .item mem inside⟩

lemma IsFinite.of_list (h : (list items).IsFinite) : ∀ j ∈ items, j.IsFinite :=
  fun _ mem n inside => h n (.item mem inside)

mutual

/-- Data with every number replaced by its double. -/
def inDoubles : Json → Json
  | .number n => .number (.double n.toFloat)
  | .list items => .list (listInDoubles items)
  | .object members => .object (membersInDoubles members)
  | j => j
termination_by structural j => j

/-- The items of a list with every number replaced by its double. -/
def listInDoubles : List Json → List Json
  | [] => []
  | j :: js => j.inDoubles :: listInDoubles js
termination_by structural js => js

/-- The members of an object with every number replaced by its double. -/
def membersInDoubles : List (String × Json) → List (String × Json)
  | [] => []
  | m :: ms => memberInDoubles m :: membersInDoubles ms
termination_by structural ms => ms

/-- One member with every number replaced by its double. -/
def memberInDoubles : String × Json → String × Json
  | (key, j) => (key, j.inDoubles)
termination_by structural m => m

end

mutual

/-- Data fails as a value for an object in it, or it has a value, which becomes the data again up to
its numbers. -/
lemma toValue_cases (j : Json) :
    j.HasObject ∧ j.toValue = .error (.evaluation .jsonObjectAsValue) ∨
      ¬ j.HasObject ∧ ∃ v, j.toValue = .ok v ∧ (j.IsFinite → v.toJson = j.inDoubles) := by
  match j with
  | .object members => exact .inl ⟨⟨members, .self⟩, rfl⟩
  | .list items =>
    rw [hasObject_list_iff, toValue]
    rcases toValues_cases items with ⟨object, failed⟩ | ⟨none, vs, values, again⟩
    · exact .inl ⟨object, by rw [failed]; rfl⟩
    · refine .inr ⟨by simpa using none, .array vs, by rw [values]; rfl, fun finite => ?_⟩
      rw [Value.toJson, inDoubles, again finite.of_list]
  | .number n =>
    refine .inr ⟨nofun, .number n.toFloat, rfl, fun finite => ?_⟩
    rw [Value.toJson, Number.ofFloat?_of_isFinite (finite n .self)]
    rfl
  | .text _ | .boolean _ | .null => exact .inr ⟨nofun, _, rfl, fun _ => rfl⟩

lemma toValues_cases (js : List Json) :
    (∃ j ∈ js, j.HasObject) ∧ toValues js = .error (.evaluation .jsonObjectAsValue) ∨
      (∀ j ∈ js, ¬ j.HasObject) ∧ ∃ vs, toValues js = .ok vs ∧
        ((∀ j ∈ js, j.IsFinite) → Value.toJsons vs = listInDoubles js) := by
  match js with
  | [] => exact .inr ⟨nofun, [], rfl, fun _ => rfl⟩
  | j :: js =>
    simp only [List.mem_cons, exists_eq_or_imp, forall_eq_or_imp, toValues]
    rcases toValue_cases j with ⟨object, failed⟩ | ⟨none, v, value, again⟩
    · exact .inl ⟨.inl object, by rw [failed]; rfl⟩
    rcases toValues_cases js with ⟨object, failed⟩ | ⟨none', vs, values, again'⟩
    · exact .inl ⟨.inr object, by rw [value, failed]; rfl⟩
    · refine .inr ⟨⟨none, none'⟩, v :: vs, by rw [value, values]; rfl, fun finite => ?_⟩
      rw [Value.toJsons, listInDoubles, again finite.1, again' finite.2]

end

end Json

/-! ### Both ways -/

/-- **Values and JSON data are converted into each other.** Every value comes back from its data,
and it is itself that comes back, by identity as well as by the equality of the language, just when
it holds no lambda and no number that is infinite or a NaN. Data has a value just when no object
occurs in it, and otherwise fails for that reason; and where the doubles of all its numbers are
finite, its value becomes the data again with every number replaced by its double. -/
theorem Json.converts_both_ways :
    (∀ v : Value, ∃ w, v.toJson.toValue = .ok w ∧
      (w = v ↔ v.IsExpressible) ∧ (w.equal v = true ↔ v.IsExpressible)) ∧
    ∀ j : Json, ((∃ v, j.toValue = .ok v) ↔ ¬ j.HasObject) ∧
      (j.HasObject → j.toValue = .error (.evaluation .jsonObjectAsValue)) ∧
      (j.IsFinite → ∀ v, j.toValue = .ok v → v.toJson = j.inDoubles) := by
  constructor
  · intro v
    exact ⟨v.viaJson, v.toValue_toJson, v.viaJson_eq_self_iff, v.equal_viaJson_iff⟩
  · intro j
    rcases j.toValue_cases with ⟨object, failed⟩ | ⟨none, v, value, again⟩
    · simp [object, failed]
    · refine ⟨⟨fun _ => none, fun _ => ⟨v, value⟩⟩, fun object => absurd object none, ?_⟩
      intro finite w value'
      rw [value] at value'
      cases value'
      exact again finite

/-- `[1, ["a"]]` comes back with the double of its number, and `[null, {}]` has no value for the
object at its end. -/
theorem Json.converts_both_ways_nested :
    let plain : Json := .list [.number (.whole 1), .list [.text "a"]]
    let nested : Json := .list [.null, .object []]
    plain.IsFinite ∧ plain.toValue = .ok (.array [.number 1, .array [.text "a"]]) ∧
      (Value.array [.number 1, .array [.text "a"]]).toJson = plain.inDoubles ∧
      nested.HasObject ∧ nested.toValue = .error (.evaluation .jsonObjectAsValue) := by
  intro plain nested
  have finite : (list [.number (.whole 1), .list [.text "a"]]).IsFinite := by
    rintro n (_ | ⟨mem, inside⟩)
    simp only [List.mem_cons, List.not_mem_nil, or_false] at mem
    rcases mem with rfl | rfl
    · cases inside
      rfl
    · obtain _ | ⟨mem, inside⟩ := inside
      rw [List.mem_singleton.1 mem] at inside
      cases inside
  have value : plain.toValue = .ok (.array [.number 1, .array [.text "a"]]) := rfl
  have object : nested.HasObject := ⟨[], .item (by simp) .self⟩
  obtain ⟨-, converts⟩ := converts_both_ways
  exact ⟨finite, value, (converts plain).2.2 finite _ value, object, (converts nested).2.1 object⟩

end Formula
