import Formula.Proofs.Registry.Keys
import Mathlib.Data.List.Induction

/-!
# Registries over a run

Whatever a registry is asked for, and in whatever order, it answers like a map from names to
functions in which two spellings with the same upper-case form are one name. What a request can do
to a registry is said once, in `serve_cases`; what holds after a run follows from that by induction.
-/

namespace Formula.Registry

/-! ### Requests -/

/-- What a registry can be asked for. -/
inductive Request where
  | register (f : Function)
  | registerHost (f : HostFunction)
  | unregister (name : String)
  | get (name : String)
  | contains (name : String)
  | names
  | size

/-- What a registry answers. -/
inductive Answer where
  | registered
  | refused (fault : Fault)
  | function (f? : Option Function)
  | truth (b : Bool)
  | names (keys : List String)
  | count (n : ℕ)

/-- The answer to an attempt to change a registry, which stays as it was if that fails. -/
def accept (r : Registry) : Except Fault Registry → Answer × Registry
  | .ok changed => (.registered, changed)
  | .error fault => (.refused fault, r)

/-- The answer to a request, and the registry after it. -/
def serve (r : Registry) : Request → Answer × Registry
  | .register f => r.accept (r.register f)
  | .registerHost f => r.accept (r.registerHost f)
  | .unregister name => (.truth (r.contains name), r.unregister name)
  | .get name => (.function (r.get? name), r)
  | .contains name => (.truth (r.contains name), r)
  | .names => (.names r.names, r)
  | .size => (.count r.size, r)

/-- The registry after requests. -/
def after (r : Registry) (requests : List Request) : Registry :=
  requests.foldl (fun r q => (r.serve q).2) r

/-- The answers to requests, one after the other. -/
def answers (r : Registry) : List Request → List Answer
  | [] => []
  | q :: qs => (r.serve q).1 :: (r.serve q).2.answers qs

/-- Two spellings of one name. -/
def SameName (a b : String) : Prop := Text.upperText a = Text.upperText b

/-- That a request puts a function into a registry: the function has a name, and the bounds of a
host function leave room for a call. -/
inductive Request.Adds : Request → Function → Prop
  | register {f : Function} (named : f.name ≠ "") : Adds (.register f) f
  | registerHost {f : HostFunction} (named : f.name ≠ "")
      (sound : ∀ most ∈ f.most?, f.least ≤ most) : Adds (.registerHost f) (.host f)

/-- That a request to register is turned down: the function has no name, or the bounds of a host
function contradict each other. -/
inductive Request.Fails : Request → Prop
  | register {f : Function} (unnamed : f.name = "") : Fails (.register f)
  | registerHost {f : HostFunction} (unnamed : f.name = "") : Fails (.registerHost f)
  | contradictory {f : HostFunction} {most : ℕ} (bound : f.most? = some most)
      (less : most < f.least) : Fails (.registerHost f)

/-- That a request only asks what is there. -/
inductive Request.Looks : Request → Prop
  | get {name : String} : Looks (.get name)
  | contains {name : String} : Looks (.contains name)
  | names : Looks .names
  | size : Looks .size

/-- That a request decides what is under a name from then on. -/
inductive Request.Concerns (name : String) : Request → Prop
  | adds {q : Request} {f : Function} (adds : q.Adds f) (same : SameName f.name name) :
      Concerns name q
  | removes {removed : String} (same : SameName removed name) :
      Concerns name (.unregister removed)

/-- That of the functions added under a spelling of a name this one was the last, and that the name
was not removed since, under any spelling. -/
def Latest (requests : List Request) (name : String) (f : Function) : Prop :=
  ∃ before q later, requests = before ++ q :: later ∧ q.Adds f ∧ SameName f.name name ∧
    ∀ p ∈ later, ¬ p.Concerns name

variable {r : Registry} {q : Request} {name : String} {f g : Function}

/-! ### What was asked last -/

lemma Request.Adds.unique (hf : q.Adds f) (hg : q.Adds g) : f = g := by
  cases hf <;> cases hg <;> rfl

lemma Request.Adds.not_fails (h : q.Adds f) : ¬ q.Fails := by
  intro fails
  cases h with
  | register named =>
    cases fails with
    | register unnamed => exact named unnamed
  | registerHost named sound =>
    cases fails with
    | registerHost unnamed => exact named unnamed
    | contradictory bound less => exact absurd (sound _ bound) (by omega)

lemma Request.Adds.adds_iff (h : q.Adds g) : q.Adds f ↔ f = g := by
  constructor
  · exact fun adds => adds.unique h
  · rintro rfl
    exact h

lemma Request.Adds.concerns_iff (h : q.Adds f) : q.Concerns name ↔ SameName f.name name := by
  constructor
  · rintro (⟨adds, same⟩ | ⟨-⟩)
    · rwa [h.unique adds]
    · cases h
  · exact .adds h

lemma Request.concerns_unregister_iff {removed : String} :
    (Request.unregister removed).Concerns name ↔ SameName removed name := by
  constructor
  · rintro (⟨⟨⟩, -⟩ | ⟨same⟩)
    exact same
  · exact .removes

lemma Request.Fails.not_concerns (h : q.Fails) : ¬ q.Concerns name := by
  rintro (⟨adds, -⟩ | ⟨-⟩)
  · exact adds.not_fails h
  · cases h

lemma Request.Looks.not_concerns (h : q.Looks) : ¬ q.Concerns name := by
  rintro (⟨adds, -⟩ | ⟨-⟩)
  · cases h <;> cases adds
  · cases h

lemma not_latest_nil : ¬ Latest [] name f := by
  rintro ⟨before, q, later, split, -⟩
  simp at split

/-- The last request decides, unless it does not concern the name. -/
lemma latest_concat_iff {requests : List Request} :
    Latest (requests ++ [q]) name f ↔
      (q.Adds f ∧ SameName f.name name) ∨ (¬ q.Concerns name ∧ Latest requests name f) := by
  constructor
  · rintro ⟨before, p, later, split, adds, same, quiet⟩
    rcases List.eq_nil_or_concat later with rfl | ⟨later, last, rfl⟩
    · obtain ⟨-, last⟩ := List.append_inj' split rfl
      obtain rfl := List.head_eq_of_cons_eq last
      exact .inl ⟨adds, same⟩
    · have split : requests ++ [q] = (before ++ p :: later) ++ [last] := by simpa using split
      obtain ⟨rfl, last⟩ := List.append_inj' split rfl
      obtain rfl := List.head_eq_of_cons_eq last
      refine .inr ⟨quiet q (by simp), before, p, later, rfl, adds, same, ?_⟩
      intro p mem
      exact quiet p (by simp [mem])
  · rintro (⟨adds, same⟩ | ⟨quiet, before, p, later, rfl, adds, same, still⟩)
    · exact ⟨requests, q, [], rfl, adds, same, by simp⟩
    · refine ⟨before, p, later ++ [q], by simp, adds, same, ?_⟩
      intro p mem
      rcases List.mem_append.1 mem with mem | mem
      · exact still p mem
      · rwa [List.mem_singleton.1 mem]

/-! ### What a request does -/

lemma register_of_named (named : f.name ≠ "") :
    r.register f = .ok (r.insert (key f.name) f) := by
  rw [register, key, if_neg (mt Text.upperText_eq_empty_iff.1 named)]

lemma register_of_unnamed (unnamed : f.name = "") :
    r.register f = .error (.evaluation .emptyFunctionName) := by
  rw [register, key, if_pos (Text.upperText_eq_empty_iff.2 unnamed)]

lemma validate_of_sound {f : HostFunction} (named : f.name ≠ "")
    (sound : ∀ most ∈ f.most?, f.least ≤ most) : f.validate = .ok () := by
  have room : f.most?.any (· < f.least) = false := by
    cases bound : f.most? with
    | none => rfl
    | some most => simpa using sound most bound
  simp [HostFunction.validate, named, room]

lemma validate_of_unnamed {f : HostFunction} (unnamed : f.name = "") :
    f.validate = .error (.evaluation .emptyFunctionName) := by
  simp [HostFunction.validate, unnamed]

lemma validate_of_contradictory {f : HostFunction} {most : ℕ} (named : f.name ≠ "")
    (bound : f.most? = some most) (less : most < f.least) :
    f.validate = .error (.evaluation .contradictoryBounds) := by
  simp [HostFunction.validate, named, bound, less]

lemma registerHost_of_invalid {f : HostFunction} {fault : Fault}
    (invalid : f.validate = .error fault) : r.registerHost f = .error fault := by
  simp [registerHost, invalid, bind, Except.bind]

lemma registerHost_of_valid {f : HostFunction} (valid : f.validate = .ok ()) :
    r.registerHost f = r.register (.host f) := by
  simp [registerHost, valid, bind, Except.bind]

lemma registerHost_of_sound {f : HostFunction} (named : f.name ≠ "")
    (sound : ∀ most ∈ f.most?, f.least ≤ most) :
    r.registerHost f = .ok (r.insert (key f.name) (.host f)) :=
  (registerHost_of_valid (validate_of_sound named sound)).trans
    (register_of_named (f := .host f) named)

/-- Everything that a request can do. -/
lemma serve_cases (r : Registry) (q : Request) :
    (∃ f, q.Adds f ∧ r.serve q = (.registered, r.insert (key f.name) f)) ∨
    (q.Fails ∧ ∃ fault, r.serve q = (.refused fault, r)) ∨
    (∃ name, q = .unregister name ∧ r.serve q = (.truth (r.contains name), r.unregister name)) ∨
    (q.Looks ∧ (r.serve q).2 = r) := by
  cases q with
  | register f =>
    by_cases named : f.name = ""
    · exact .inr (.inl ⟨.register named, _, by rw [serve, register_of_unnamed named, accept]⟩)
    · exact .inl ⟨f, .register named, by rw [serve, register_of_named named, accept]⟩
  | registerHost f =>
    by_cases named : f.name = ""
    · have failed := registerHost_of_invalid (r := r) (validate_of_unnamed named)
      exact .inr (.inl ⟨.registerHost named, _, by rw [serve, failed, accept]⟩)
    · by_cases sound : ∀ most ∈ f.most?, f.least ≤ most
      · refine .inl ⟨.host f, .registerHost named sound, ?_⟩
        rw [serve, registerHost_of_sound named sound, accept]
        rfl
      · obtain ⟨most, bound, less⟩ : ∃ most, f.most? = some most ∧ most < f.least := by
          simpa using sound
        have failed := registerHost_of_invalid (r := r)
          (validate_of_contradictory named bound less)
        exact .inr (.inl ⟨.contradictory bound less, _, by rw [serve, failed, accept]⟩)
  | unregister name => exact .inr (.inr (.inl ⟨name, rfl, rfl⟩))
  | get name => exact .inr (.inr (.inr ⟨.get, rfl⟩))
  | contains name => exact .inr (.inr (.inr ⟨.contains, rfl⟩))
  | names => exact .inr (.inr (.inr ⟨.names, rfl⟩))
  | size => exact .inr (.inr (.inr ⟨.size, rfl⟩))

lemma answer_of_looks (h : q.Looks) :
    (r.serve q).1 ≠ .registered ∧ ∀ fault, (r.serve q).1 ≠ .refused fault := by
  cases h <;> simp [serve]

/-- A request registers something if and only if it adds a function. -/
lemma registered_iff (r : Registry) (q : Request) :
    (r.serve q).1 = .registered ↔ ∃ f, q.Adds f := by
  rcases serve_cases r q with ⟨f, adds, step⟩ | ⟨fails, fault, step⟩ | ⟨name, rfl, step⟩ |
    ⟨looks, -⟩
  · exact iff_of_true (by rw [step]) ⟨f, adds⟩
  · exact iff_of_false (by simp [step]) fun ⟨f, adds⟩ => adds.not_fails fails
  · exact iff_of_false (by simp [step]) nofun
  · refine iff_of_false (answer_of_looks looks).1 ?_
    rintro ⟨f, adds⟩
    cases looks <;> cases adds

/-- A request is refused if and only if it fails. -/
lemma refused_iff (r : Registry) (q : Request) :
    (∃ fault, (r.serve q).1 = .refused fault) ↔ q.Fails := by
  rcases serve_cases r q with ⟨f, adds, step⟩ | ⟨fails, fault, step⟩ | ⟨name, rfl, step⟩ |
    ⟨looks, -⟩
  · exact iff_of_false (by simp [step]) adds.not_fails
  · exact iff_of_true ⟨fault, by rw [step]⟩ fails
  · exact iff_of_false (by simp [step]) nofun
  · refine iff_of_false (fun ⟨fault, refused⟩ => (answer_of_looks looks).2 fault refused) ?_
    intro fails
    cases looks <;> cases fails

lemma serve_of_fails (h : q.Fails) : (r.serve q).2 = r := by
  rcases serve_cases r q with ⟨f, adds, step⟩ | ⟨-, fault, step⟩ | ⟨name, rfl, step⟩ |
    ⟨looks, same⟩
  · exact absurd h adds.not_fails
  · rw [step]
  · cases h
  · exact same

/-! ### What is found -/

lemma get?_insert_eq_some_iff :
    (r.insert (key f.name) f).get? name = some g ↔
      (g = f ∧ SameName g.name name) ∨ (¬ SameName f.name name ∧ r.get? name = some g) := by
  have same_iff : SameName f.name name ↔ key name = key f.name := eq_comm
  rw [get?_insert]
  split
  · next same =>
    have same := same_iff.2 same
    constructor
    · rintro ⟨⟩
      exact .inl ⟨rfl, same⟩
    · rintro (⟨rfl, -⟩ | ⟨apart, -⟩)
      · rfl
      · exact absurd same apart
  · next apart =>
    have apart := mt same_iff.1 apart
    constructor
    · exact fun found => .inr ⟨apart, found⟩
    · rintro (⟨rfl, same⟩ | ⟨-, found⟩)
      · exact absurd same apart
      · exact found

lemma get?_unregister_eq_some_iff {removed : String} :
    (r.unregister removed).get? name = some f ↔
      ¬ SameName removed name ∧ r.get? name = some f := by
  have same_iff : SameName removed name ↔ key name = key removed := eq_comm
  rw [get?_unregister, same_iff]
  split
  · next same => simp [same]
  · next apart => simp [apart]

lemma get?_of_not_concerns (quiet : ¬ q.Concerns name) :
    r.get? name = some f ↔
      (q.Adds f ∧ SameName f.name name) ∨ (¬ q.Concerns name ∧ r.get? name = some f) := by
  constructor
  · exact fun found => .inr ⟨quiet, found⟩
  · rintro (⟨adds, same⟩ | ⟨-, found⟩)
    · exact absurd (.adds adds same) quiet
    · exact found

/-- What is found after a request is what it added, or what was there and is not concerned. -/
lemma get?_serve :
    (r.serve q).2.get? name = some f ↔
      (q.Adds f ∧ SameName f.name name) ∨ (¬ q.Concerns name ∧ r.get? name = some f) := by
  rcases serve_cases r q with ⟨g, adds, step⟩ | ⟨fails, fault, step⟩ | ⟨removed, rfl, step⟩ |
    ⟨looks, same⟩
  · rw [step, get?_insert_eq_some_iff, adds.adds_iff, adds.concerns_iff]
  · rw [step]
    exact get?_of_not_concerns fails.not_concerns
  · rw [step, get?_unregister_eq_some_iff, Request.concerns_unregister_iff]
    constructor
    · exact .inr
    · rintro (⟨⟨⟩, -⟩ | found)
      exact found
  · rw [same]
    exact get?_of_not_concerns looks.not_concerns

/-! ### Keys -/

/-- That every key is the key of itself, so that what is listed can be looked up again. -/
def Keyed (r : Registry) : Prop := ∀ e ∈ r.entries, key e.1 = e.1

lemma keyed_serve (keyed : r.Keyed) (q : Request) : (r.serve q).2.Keyed := by
  rcases serve_cases r q with ⟨f, adds, step⟩ | ⟨fails, fault, step⟩ | ⟨removed, rfl, step⟩ |
    ⟨looks, same⟩
  · rw [step]
    intro e mem
    rcases Entries.mem_insert mem with rfl | mem
    · exact Text.upperText_upperText f.name
    · exact keyed e mem
  · rwa [step]
  · rw [step]
    exact fun e mem => keyed e (List.mem_of_mem_filter mem)
  · rwa [same]

lemma contains_of_mem_names (keyed : r.Keyed) (listed : name ∈ r.names) :
    r.contains name = true := by
  obtain ⟨e, mem, rfl⟩ := List.mem_map.1 listed
  rw [contains, get?, keyed e mem, Option.isSome_iff_ne_none, ne_eq, List.lookup_eq_none_iff]
  intro absent
  simpa using absent e mem

/-! ### Runs -/

lemma after_append (r : Registry) (qs ps : List Request) :
    r.after (qs ++ ps) = (r.after qs).after ps :=
  List.foldl_append

lemma after_concat (r : Registry) (qs : List Request) (q : Request) :
    r.after (qs ++ [q]) = ((r.after qs).serve q).2 :=
  after_append r qs [q]

/-- After any requests, what is found under a name is what was added last and is not removed. -/
lemma get?_after {requests : List Request} :
    (empty.after requests).get? name = some f ↔ Latest requests name f := by
  induction requests using List.reverseRecOn with
  | nil => exact iff_of_false (by rintro ⟨⟩) not_latest_nil
  | append_singleton requests q ih => rw [after_concat, get?_serve, latest_concat_iff, ih]

lemma keyed_after (requests : List Request) : (empty.after requests).Keyed := by
  induction requests using List.reverseRecOn with
  | nil => exact fun e mem => absurd mem List.not_mem_nil
  | append_singleton requests q ih =>
    rw [after_concat]
    exact keyed_serve ih q

/-- What a registry starts with. -/
inductive Start where
  | empty
  | builtins

/-- The registry that a run starts from. -/
def Start.registry : Start → Registry
  | .empty => Registry.empty
  | .builtins => Registry.builtins

/-- The functions that are there at the start, in the order in which they were added. -/
def Start.functions : Start → List Function
  | .empty => []
  | .builtins => Function.builtins

/-- Adding functions that have names is a run of requests. -/
lemma foldl_insert_eq_after {fs : List Function} (named : ∀ f ∈ fs, f.name ≠ "") (r : Registry) :
    fs.foldl (fun r f => r.insert (key f.name) f) r = r.after (fs.map .register) := by
  induction fs generalizing r with
  | nil => rfl
  | cons f fs ih =>
    have added : (r.serve (.register f)).2 = r.insert (key f.name) f := by
      rw [serve, register_of_named (named f List.mem_cons_self), accept]
    rw [List.foldl_cons, ih (fun g mem => named g (List.mem_cons_of_mem f mem)), ← added]
    rfl

/-- Starting with functions is starting with none and adding them first. -/
lemma Start.registry_eq (start : Start) :
    start.registry = Registry.empty.after (start.functions.map .register) := by
  cases start with
  | empty => rfl
  | builtins => exact foldl_insert_eq_after (by decide) Registry.empty

/-- Over any run a registry is a map from names to functions, and spellings with the same upper-case
form are one name: what it finds is what was added last and is not removed since, it contains what
it finds, removing a name says whether it was there and touches no other, the names ascend, are as
many as there are functions and are found again, and what is refused has no effect on any answer
that is given later. -/
theorem serves_as_map (start : Start) (requests : List Request) :
    let r := start.registry.after requests
    let history := start.functions.map .register ++ requests
    (∀ name f, r.get? name = some f ↔ Latest history name f) ∧
    (∀ name, r.contains name = true ↔ ∃ f, r.get? name = some f) ∧
    (∀ name, (r.serve (.unregister name)).1 = .truth (r.contains name) ∧
      ∀ other f, (r.serve (.unregister name)).2.get? other = some f ↔
        ¬ SameName name other ∧ r.get? other = some f) ∧
    (r.names.Pairwise (· < ·) ∧ r.names.length = r.size ∧
      ∀ name ∈ r.names, r.contains name = true) ∧
    ∀ q, ((r.serve q).1 = .registered ↔ ∃ f, q.Adds f) ∧
      ((∃ fault, (r.serve q).1 = .refused fault) ↔ q.Fails) ∧
      (q.Fails → ∀ later, (r.serve q).2.answers later = r.answers later) := by
  intro r history
  have run : r = empty.after history := by
    rw [after_append, ← start.registry_eq]
  refine ⟨?_, ?_, ?_, ⟨?_, ?_, ?_⟩, ?_⟩
  · intro name f
    rw [run]
    exact get?_after
  · intro name
    rw [contains, Option.isSome_iff_exists]
  · exact fun name => ⟨rfl, fun other f => get?_unregister_eq_some_iff⟩
  · exact List.pairwise_map.2 r.ordered
  · exact List.length_map ..
  · intro name listed
    exact contains_of_mem_names (run ▸ keyed_after history) listed
  · refine fun q => ⟨registered_iff r q, refused_iff r q, ?_⟩
    intro fails later
    rw [serve_of_fails fails]

end Formula.Registry
