import Formula.Json.Pretty
import Formula.Proofs.CommandLine.Scanning
import Formula.Proofs.Evaluation.Formulas

/-!
# Runs of the command line

If no argument is at fault, the formula is evaluated once, with the value of the last mention for
each variable and with the last configuration. If one is, the run ends at the first one, before
anything is evaluated. A formula that comes to nothing has no report, however deep it is followed.
-/

namespace Formula.CommandLine

section

variable {m : Type → Type} [Monad m] [LawfulMonad m] {codec : Json.Codec}
  {files : String → Except FileFault String} {arguments : List String} {settings : List Setting}
  {message : String}

/-- What was asked for decides what is evaluated and how it is reported. -/
lemma run_of_readsAll (reads : ReadsAll codec files arguments settings) (time : m String)
    (formula : String) (depth : ℕ) :
    run codec (fun path => pure (files path)) (fun work => do return (work (), ← time)) depth
        (formula :: arguments) = do
      let elapsed ← time
      return report? codec (wantsJson settings) elapsed (Root.evaluate
        ⟨assign [] (mentions settings), .builtins, (configs settings).getLast?.getD {}⟩
        formula depth) := by
  have scanned := scan_of_readsAll (m := m) reads {} []
  rw [List.append_nil, foldl_heed, scan] at scanned
  simp only [run, scanned, pure_bind, bind_assoc, Bool.false_or, Options.evaluate]

lemma run_of_stopsAt (stops : StopsAt codec files arguments message) (time : m String)
    (formula : String) (depth : ℕ) :
    run codec (fun path => pure (files path)) (fun work => do return (work (), ← time)) depth
      (formula :: arguments) = pure (some (complaint 1 message)) := by
  obtain ⟨before, rest, settings, rfl, reads, refuses⟩ := stops
  simp only [run, scan_of_readsAll reads, scan_of_refuses refuses, pure_bind]

end

/-- **Arguments are read from left to right, and the last mention counts.** If none of them is at
fault, the formula is evaluated once, over variables with the value of their last mention each and
with the last configuration. If it comes to an outcome, the report is of that value or of that
fault, from the depth on that suffices; otherwise there never is a report. If an argument is at
fault, nothing is evaluated, and the complaint is about the first such argument. -/
theorem run_reads_arguments {m : Type → Type} [Monad m] [LawfulMonad m] (codec : Json.Codec)
    (files : String → Except FileFault String) (time : m String) (formula : String)
    (arguments : List String) :
    let reported (depth : ℕ) : m (Option Report) := run codec (fun path => pure (files path))
      (fun work => do return (work (), ← time)) depth (formula :: arguments)
    (∀ settings, ReadsAll codec files arguments settings → ∃ vars : Variables,
      (vars.map Prod.fst).Nodup ∧
      (∀ name value, (name, value) ∈ vars ↔
        (mentions settings).reverse.lookup name = some value) ∧
      let root : Root := ⟨vars, .builtins, (configs settings).getLast?.getD {}⟩
      (∀ outcome, root.Evaluates formula outcome → ∃ enough, ∀ depth, reported depth = do
        let elapsed ← time
        return if enough ≤ depth then
          some (match outcome with
            | .ok v =>
              ⟨0, (if wantsJson settings then (codec.encode (timed elapsed v)).getD "\x7b\x7d"
                else v.inspect) ++ "\n", ""⟩
            | .error fault => ⟨2, "", s!"Error: {fault.message}\n"⟩)
        else none) ∧
      ((∀ outcome, ¬ root.Evaluates formula outcome) → ∀ depth, reported depth = do
        let _ ← time
        return none)) ∧
    (∀ message, StopsAt codec files arguments message →
      ∀ depth, reported depth = pure (some ⟨1, "", s!"Error: {message}\n"⟩)) ∧
    ((∃ settings, ReadsAll codec files arguments settings) ↔
      ¬ ∃ message, StopsAt codec files arguments message) := by
  intro reported
  refine ⟨?reads, ?stops, ?either⟩
  case reads =>
    intro settings reads
    obtain ⟨unique, last⟩ := assign_nil (mentions settings)
    refine ⟨_, unique, last, ?comes, ?endless⟩
    case comes =>
      intro outcome evaluates
      obtain ⟨enough, evaluated⟩ := evaluates.exists_enough
      refine ⟨enough, fun depth => (run_of_readsAll reads time formula depth).trans ?_⟩
      refine bind_congr fun elapsed => congrArg pure ?_
      rw [evaluated]
      split
      · cases outcome <;> rfl
      · rfl
    case endless =>
      intro endless depth
      refine (run_of_readsAll reads time formula depth).trans ?_
      rw [Root.evaluate_of_not_evaluates endless]
      rfl
  case stops => exact fun message stops depth => run_of_stopsAt stops time formula depth
  case either =>
    constructor
    · rintro ⟨settings, reads⟩ ⟨message, stops⟩
      exact not_stopsAt_of_readsAll codec files reads message stops
    · exact (readsAll_or_stopsAt codec files arguments).resolve_right

/-- Where names are compared letter by letter, a variable with one value has that value. -/
lemma lookup_eq_ok {vars : Variables} {registry : Registry} {name : String} {value : Value}
    (mem : (name, value) ∈ vars) (only : ∀ v, (name, v) ∈ vars → v = value) :
    Root.lookup ⟨vars, registry, {}⟩ name = .ok value := by
  simp only [Root.lookup, CasePolicy.namesEqual]
  split
  · next v found =>
    have named := List.find?_some found
    obtain rfl := beq_iff_eq.1 named
    rw [only v.2 (List.mem_of_find?_eq_some found)]
  · next missing => exact absurd (beq_self_eq_true name) (List.find?_eq_none.1 missing _ mem)

/-- The file `--json` is read as the configuration and `x` is null in the end. The operand `y=1` of
`--json` is at fault, and the codec says why. -/
theorem run_reads_arguments_operands :
    let codec : Json.Codec :=
      { decode := fun text =>
          if text = "\x7b\"x\": null\x7d" then .ok (.object [("x", .null)])
          else .error "expected value at line 1 column 1"
        decodeConfig := fun text =>
          if text = "\x7b\x7d" then .ok {} else .error "expected value at line 1 column 1"
        encode := fun json => some (json.pretty 0) }
    let files : String → Except FileFault String := fun path =>
      if path = "--json" then .ok "\x7b\x7d" else .error .missing
    let reported (arguments : List String) (depth : ℕ) : Id (Option Report) :=
      run codec (fun path => pure (files path)) (fun work => do return (work (), ← pure "0.00 ms"))
        depth ("=x" :: arguments)
    let arguments := ["x=1=2", "--config", "--json", "--json", "\x7b\"x\": null\x7d"]
    let faulty := ["x=[]", "--json", "y=1", "--config"]
    (∃ settings, ReadsAll codec files arguments settings) ∧
      StopsAt codec files faulty "Invalid JSON: expected value at line 1 column 1" ∧
      (∃ enough, ∀ depth, reported arguments depth =
        pure (if enough ≤ depth then some ⟨0, "Null\n", ""⟩ else none)) ∧
      ∀ depth, reported faulty depth =
        pure (some ⟨1, "", "Error: Invalid JSON: expected value at line 1 column 1\n"⟩) := by
  intro codec files reported arguments faulty
  have first (text : String) :
      Reads codec files ["x" ++ "=" ++ text] (.values [("x", parseValue text)]) :=
    .assignment (by decide) (parseValue_eq_iff.1 rfl)
  have config : Reads codec files ["--config", "--json"] (.config {}) := .config rfl rfl (by decide)
  have json : Reads codec files ["--json", "\x7b\"x\": null\x7d"] (.values [("x", .null)]) :=
    .json rfl (.cons ⟨rfl, rfl⟩ .nil)
  have reads : ReadsAll codec files arguments
      [.values [("x", parseValue "1=2")], .config {}, .values [("x", .null)]] :=
    ⟨[_, _, _], rfl, .cons (first "1=2") (.cons config (.cons json .nil))⟩
  have refuses : Refuses codec files ["--json", "y=1", "--config"] _ :=
    .jsonMalformed (show codec.decode "y=1" = .error "expected value at line 1 column 1" from rfl)
  have stops : StopsAt codec files faulty "Invalid JSON: expected value at line 1 column 1" :=
    ⟨["x=[]"], _, _, rfl, ⟨[_], rfl, .cons (first "[]") .nil⟩, refuses⟩
  obtain ⟨-, stopped, -⟩ := run_reads_arguments codec files (pure "0.00 ms" : Id String) "=x" faulty
  obtain ⟨done, -, -⟩ := run_reads_arguments codec files (pure "0.00 ms" : Id String) "=x" arguments
  obtain ⟨vars, -, last, comes, -⟩ := done _ reads
  have mentioned (v : Value) : ("x", v) ∈ vars ↔ v = .null :=
    (last "x" v).trans (by simp [mentions, eq_comm])
  have found : Root.lookup ⟨vars, .builtins, {}⟩ "x" = .ok .null :=
    lookup_eq_ok ((mentioned _).2 rfl) fun v mem => (mentioned v).1 mem
  have evaluates : Root.Evaluates ⟨vars, .builtins, {}⟩ "=x" (.ok .null) := by
    have parsed : Expr.parse "=x" = .ok (.variable "x") := rfl
    have run : (Expr.evaluate 1 (.variable "x")).runFrom ⟨.root ⟨vars, .builtins, {}⟩, []⟩ =
        ((Root.lookup ⟨vars, .builtins, {}⟩ "x").mapError .fault, _) := rfl
    rw [found] at run
    refine ⟨1, ?_⟩
    change (Root.run _ [] "=x" 1).1 = _
    simp only [Root.run, parsed, run]
  obtain ⟨enough, reported⟩ := comes _ evaluates
  exact ⟨⟨_, reads⟩, stops, ⟨enough, reported⟩, stopped _ stops⟩

end Formula.CommandLine
