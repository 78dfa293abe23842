import Formula.Proofs.Context.Forget

/-!
# Views of a context

What lies under a binding is the view in which its expression is evaluated. `find` is the way down
to a binding, which looking up a name shares with every other way to read a binding; `Each` says
something of every binding together with its view.
-/

namespace Formula

/-! ### Finding a binding -/

/-- A way to read a binding in the view below it. -/
abbrev Reading := Binding → Context → List Execution → Except Failure Value × State

/-- Reads a binding: an expression is evaluated unless its value is kept. -/
def Binding.read (evaluate : Evaluator) : Reading := fun b below history =>
  match b.content with
  | .ready v => (.ok v, ⟨.binding b below, history⟩)
  | .deferred _ (some v) => (.ok v, ⟨.binding b below, history⟩)
  | .deferred e none =>
    let run := (evaluate e).runFrom ⟨below, history⟩
    (run.1, run.2.within (.binding (b.settle below run.1)))

/-- Reads a binding in the same way, except for what becomes of the binding when its expression was
evaluated. -/
def Binding.readWith (after : Binding → Context → Except Failure Value → Binding)
    (evaluate : Evaluator) : Reading := fun b below history =>
  match b.content with
  | .ready v => (.ok v, ⟨.binding b below, history⟩)
  | .deferred _ (some v) => (.ok v, ⟨.binding b below, history⟩)
  | .deferred e none =>
    let run := (evaluate e).runFrom ⟨below, history⟩
    (run.1, run.2.within (.binding (after b below run.1)))

lemma Binding.read_eq_readWith : Binding.read = Binding.readWith Binding.settle := rfl

/-- Finds what a name stands for, given how bindings are read. -/
def Context.find (read : Reading) (name : String) :
    Context → List Execution → Except Failure Value × State
  | .bare, history => (.error (.fault (.unresolved name)), ⟨.bare, history⟩)
  | .root r, history => ((r.lookup name).mapError .fault, ⟨.root r, history⟩)
  | .layer l below, history =>
    let run := below.find read name history
    (run.1, run.2.within (.layer l))
  | .scope parent, history =>
    let run := parent.find read name history
    (run.1, run.2.within .scope)
  | .binding b below, history =>
    if below.policy.namesEqual b.name name then read b below history
    else
      let run := below.find read name history
      (run.1, run.2.within (.binding b))

/-- Finds what a name stands for in the context as it is now. -/
def Evaluation.find (read : Reading) (name : String) : Evaluation Value :=
  fun s => s.context.find read name s.history

lemma Evaluation.runFrom_find (read : Reading) (name : String) (s : State) :
    (Evaluation.find read name).runFrom s = s.context.find read name s.history := rfl

lemma Context.lookup_eq_find (evaluate : Evaluator) (name : String) (c : Context)
    (history : List Execution) :
    c.lookup evaluate name history = c.find (Binding.read evaluate) name history := by
  induction c with
  | bare => rfl
  | root r => rfl
  | layer l below ih =>
    simp only [lookup, find, ih]
    rfl
  | scope parent ih =>
    simp only [lookup, find, ih]
    rfl
  | binding b below ih =>
    simp only [lookup, find, ih]
    split
    · cases content : b.content with
      | ready v => simp only [Binding.read, content]
      | deferred e memo =>
        cases memo <;> simp only [Binding.read, content]
        rfl
    · rfl

/-- Looking up a name is finding a binding and reading it. -/
lemma Evaluation.lookup_eq_find (evaluate : Evaluator) (name : String) :
    Evaluation.lookup evaluate name = Evaluation.find (Binding.read evaluate) name := by
  funext s
  exact s.context.lookup_eq_find evaluate name s.history

/-! ### Conditions on bindings -/

namespace Context

/-- That every binding meets a condition with the view below it. -/
def Each (P : Binding → Context → Prop) : Context → Prop
  | .bare => True
  | .root _ => True
  | .layer _ below => below.Each P
  | .scope parent => parent.Each P
  | .binding b below => P b below ∧ below.Each P

variable {P : Binding → Context → Prop} {c : Context}

lemma each_bind {bindings : List Binding} (h : c.Each P)
    (hb : ∀ b ∈ bindings, ∀ below, P b below) : (c.bind bindings).Each P := by
  induction bindings generalizing c with
  | nil => exact h
  | cons b bs ih =>
    exact ih ⟨hb b (by simp) c, h⟩ fun b mem => hb b (by simp [mem])

lemma each_leave (h : c.Each P) : c.leave.Each P := by
  induction c with
  | bare => exact h
  | root r => exact h
  | layer l below _ => exact h
  | scope parent _ => exact h
  | binding b below ih => exact ih h.2

end Context

/-! ### Functions -/

namespace Registry

variable {P : Function → Prop}

/-- That all functions of a registry have a property. -/
def All (P : Function → Prop) (r : Registry) : Prop :=
  ∀ name f, r.get? name = some f → P f

lemma all_empty : empty.All P := by
  intro name f found
  simp [empty, get?] at found

lemma All.insert {r : Registry} {f : Function} (h : r.All P) (hf : P f) (key : String) :
    (r.insert key f).All P := by
  intro name g found
  rw [get?_insert] at found
  split at found
  · cases found
    exact hf
  · exact h name g found

lemma all_builtins (h : ∀ f ∈ Function.builtins, P f) : builtins.All P := by
  have fold : ∀ (fs : List Function) (r : Registry), r.All P → (∀ f ∈ fs, P f) →
      (fs.foldl (fun r f => r.insert (key f.name) f) r).All P := by
    intro fs
    induction fs with
    | nil => exact fun r hr _ => hr
    | cons f fs ih =>
      intro r hr hf
      exact ih _ (hr.insert (hf f (by simp)) _) fun g mem => hf g (by simp [mem])
  exact fold Function.builtins empty all_empty h

end Registry

namespace Context

/-- The functions of the root. -/
def registry : Context → Registry
  | .bare => .empty
  | .root r => r.registry
  | .layer _ below => below.registry
  | .scope parent => parent.registry
  | .binding _ below => below.registry

@[simp] lemma registry_forget (c : Context) : c.forget.registry = c.registry := by
  induction c with
  | bare => rfl
  | root r => rfl
  | layer l below ih => exact ih
  | scope parent ih => exact ih
  | binding b below ih => exact ih

@[simp] lemma registry_bind (c : Context) (bindings : List Binding) :
    (c.bind bindings).registry = c.registry := by
  induction bindings generalizing c with
  | nil => rfl
  | cons b bs ih => exact ih (.binding b c)

@[simp] lemma registry_leave (c : Context) : c.leave.registry = c.registry := by
  induction c with
  | bare => rfl
  | root r => rfl
  | layer l below => rfl
  | scope parent => rfl
  | binding b below ih => exact ih

lemma registry_of_push {c inner : Context} {bindings : List Binding}
    (h : c.push bindings = .ok inner) : inner.registry = c.registry := by
  obtain ⟨-, -, rfl⟩ := push_eq_ok_iff.1 h
  rw [registry_bind, registry]

lemma registry_eq_of_forget {c d : Context} (h : c.forget = d.forget) :
    c.registry = d.registry := by
  rw [← registry_forget c, h, registry_forget]

/-- A function that is found is in the registry. -/
lemma get?_of_function? {c : Context} {name : String} {f : Function}
    (h : c.function? name = .ok (some f)) : c.registry.get? name = some f := by
  induction c with
  | bare => simp [function?] at h
  | root r => simpa [function?, registry] using h
  | layer l below ih => exact ih h
  | scope parent ih => exact ih h
  | binding b below ih =>
    simp only [function?] at h
    split at h
    · simp at h
    · exact ih h

end Context

end Formula
