import Formula.Proofs.CommandLine.Values
import Formula.Proofs.Grammar.Words
import Formula.Proofs.Json.Conversion
import Mathlib.Data.List.Induction

/-!
# Scanning the command line

Every argument behind the formula asks for something, alone or with the next argument as its
operand, or it is at fault and says so. The scan reads the arguments up to the first one at fault;
what they ask for adds up to options, in which each variable has the value of its last mention.
-/

namespace Formula.CommandLine

/-! ### What arguments ask for -/

/-- What can be asked for. -/
inductive Setting where
  | values (values : List (String × Value))
  | config (config : Config)
  | outputJson

/-- The flags. None of them is an assignment. -/
def flags : List String := ["--json", "--config", "--output-json"]

section

variable (codec : Json.Codec) (files : String → Except FileFault String)

/-- What an argument asks for, together with its operand if it takes one. Any text is taken as the
operand of a flag. -/
inductive Reads : List String → Setting → Prop
  | json {text : String} {members : List (String × Json)} {values : List (String × Value)}
      (decoded : codec.decode text = .ok (.object members))
      (converted : List.Forall₂ (fun m v => m.1 = v.1 ∧ m.2.toValue = .ok v.2) members values) :
      Reads ["--json", text] (.values values)
  | config {path content : String} {config : Config} (found : files path = .ok content)
      (decoded : codec.decodeConfig content = .ok config)
      (sound : config.separators.decimal ≠ config.separators.group) :
      Reads ["--config", path] (.config config)
  | outputJson : Reads ["--output-json"] .outputJson
  | assignment {name text : String} {value : Value} (first : '=' ∉ name.toList)
      (stands : Stands text.toList value) :
      Reads [name ++ "=" ++ text] (.values [(name, value)])

/-- What the first of some arguments is at fault for. A codec complains in its own words. -/
inductive Refuses : List String → String → Prop
  | jsonMissing : Refuses ["--json"] "--json flag requires a JSON string argument"
  | jsonMalformed {text complaint : String} {rest : List String}
      (malformed : codec.decode text = .error complaint) :
      Refuses ("--json" :: text :: rest) s!"Invalid JSON: {complaint}"
  | jsonOther {text : String} {rest : List String} {json : Json}
      (decoded : codec.decode text = .ok json) (other : ∀ members, json ≠ .object members) :
      Refuses ("--json" :: text :: rest) "JSON must be an object with key-value pairs"
  | jsonNested {text : String} {rest : List String} {members : List (String × Json)}
      (decoded : codec.decode text = .ok (.object members)) {m : String × Json}
      (mem : m ∈ members) (nested : m.2.HasObject) :
      Refuses ("--json" :: text :: rest) "JSON objects are not supported as values"
  | configMissing : Refuses ["--config"] "--config flag requires a file path"
  | configUnreadable {path : String} {rest : List String} {cause : FileFault}
      (unreadable : files path = .error cause) :
      Refuses ("--config" :: path :: rest) s!"Failed to read {path}: {cause.message}"
  | configMalformed {path content complaint : String} {rest : List String}
      (found : files path = .ok content)
      (malformed : codec.decodeConfig content = .error complaint) :
      Refuses ("--config" :: path :: rest) s!"Invalid configuration: {complaint}"
  | configUnsound {path content : String} {rest : List String} {config : Config}
      (found : files path = .ok content) (decoded : codec.decodeConfig content = .ok config)
      (unsound : config.separators.decimal = config.separators.group) :
      Refuses ("--config" :: path :: rest)
        s!"Decimal and group separators must differ (both are '{config.separators.decimal}')"
  | assignment {argument : String} {rest : List String} (unsplit : '=' ∉ argument.toList)
      (other : argument ∉ flags) :
      Refuses (argument :: rest)
        s!"Invalid variable assignment: '{argument}'. Use format: var=value"

end

/-! ### Assignments -/

section

variable {argument name text : String}

lemma toList_assignment (name text : String) :
    (name ++ "=" ++ text).toList = name.toList ++ '=' :: text.toList := by
  simp

lemma forall_ne_of_not_mem {cs : List Char} (h : '=' ∉ cs) : ∀ c ∈ cs, c != '=' :=
  fun _ mem => bne_iff_ne.2 fun same => h (same ▸ mem)

/-- An assignment is split at the first equals sign. -/
lemma assignment?_append (first : '=' ∉ name.toList) :
    assignment? (name ++ "=" ++ text) = some (name, parseValue text) := by
  rw [assignment?, toList_assignment,
    Tokens.span_append (forall_ne_of_not_mem first) (by simp)]
  simp

lemma assignment?_of_not_mem (unsplit : '=' ∉ argument.toList) : assignment? argument = none := by
  have all : (argument.toList ++ []).span (· != '=') = (argument.toList, []) :=
    Tokens.span_append (forall_ne_of_not_mem unsplit) (by simp)
  rw [List.append_nil] at all
  rw [assignment?, all]

lemma not_mem_flags (split : '=' ∈ argument.toList) : argument ∉ flags := by
  intro mem
  simp only [flags, List.mem_cons, List.not_mem_nil, or_false] at mem
  rcases mem with rfl | rfl | rfl <;> revert split <;> decide

lemma exists_assignment (split : '=' ∈ argument.toList) :
    ∃ name text, '=' ∉ name.toList ∧ argument = name ++ "=" ++ text := by
  obtain ⟨name, text, same, first⟩ := List.eq_append_cons_of_mem split
  refine ⟨String.ofList name, String.ofList text, by simpa using first, String.toList_inj.1 ?_⟩
  rw [toList_assignment, same, String.toList_ofList, String.toList_ofList]

end

/-! ### Variables in JSON -/

section

variable {vs : Variables} {members : List (String × Json)} {values : List (String × Value)}

/-- Gives variables values, in order. -/
def assign (vs : Variables) (values : List (String × Value)) : Variables :=
  values.foldl (fun vs v => vs.set v.1 v.2) vs

lemma setAll_eq_ok
    (converted : List.Forall₂ (fun m v => m.1 = v.1 ∧ m.2.toValue = .ok v.2) members values) :
    vs.setAll members = .ok (assign vs values) := by
  induction converted generalizing vs with
  | nil => rfl
  | @cons m v _ _ same _ ih =>
    obtain ⟨name, json⟩ := m
    obtain ⟨_, value⟩ := v
    obtain ⟨rfl, converts⟩ := same
    have converts : json.toValue = .ok value := converts
    simp only [Variables.setAll, converts]
    exact ih

/-- Variables cannot be set to objects. -/
lemma setAll_eq_error {m : String × Json} (mem : m ∈ members) (nested : m.2.HasObject) :
    vs.setAll members = .error (.evaluation .jsonObjectAsValue) := by
  induction members generalizing vs with
  | nil => cases mem
  | cons head rest ih =>
    obtain ⟨name, json⟩ := head
    rcases json.toValue_cases with ⟨-, fails⟩ | ⟨free, value, converts, -⟩
    · simp only [Variables.setAll, fails]
      rfl
    · have behind : m ∈ rest := by
        rcases List.mem_cons.1 mem with rfl | mem
        · exact absurd nested free
        · exact mem
      simp only [Variables.setAll, converts]
      exact ih behind

lemma exists_converted (free : ∀ m ∈ members, ¬ m.2.HasObject) : ∃ values : List (String × Value),
    List.Forall₂ (fun m v => m.1 = v.1 ∧ m.2.toValue = .ok v.2) members values := by
  induction members with
  | nil => exact ⟨[], .nil⟩
  | cons m rest ih =>
    rw [List.forall_mem_cons] at free
    obtain ⟨values, converted⟩ := ih free.2
    rcases m.2.toValue_cases with ⟨nested, -⟩ | ⟨-, value, converts, -⟩
    · exact absurd nested free.1
    · exact ⟨(m.1, value) :: values, .cons ⟨rfl, converts⟩ converted⟩

/-! ### Last mentions -/

lemma keys_set (vs : Variables) (name : String) (value : Value) :
    (vs.set name value).map Prod.fst = name :: (vs.map Prod.fst).filter (· != name) := by
  simp [Variables.set, List.filter_map, Function.comp_def]

lemma mem_set_iff (vs : Variables) (name name' : String) (value value' : Value) :
    (name, value) ∈ vs.set name' value' ↔
      if name = name' then value = value' else (name, value) ∈ vs := by
  split
  · next same => simp [Variables.set, same, Prod.ext_iff]
  · next other => simp [Variables.set, other, Prod.ext_iff]

/-- Each variable has the value of its last mention. -/
lemma assign_nil (values : List (String × Value)) :
    ((assign [] values).map Prod.fst).Nodup ∧
      ∀ name value, (name, value) ∈ assign [] values ↔ values.reverse.lookup name = some value := by
  induction values using List.reverseRecOn with
  | nil => simp [assign]
  | append_singleton values v ih =>
    obtain ⟨name', value'⟩ := v
    have last : assign [] (values ++ [(name', value')]) = (assign [] values).set name' value' := by
      simp [assign]
    rw [last]
    constructor
    · rw [keys_set, List.nodup_cons]
      exact ⟨by simp, ih.1.filter _⟩
    · intro name value
      rw [mem_set_iff, List.reverse_append]
      split
      · next same => simp [same, eq_comm]
      · next other => simp [List.lookup_cons, beq_false_of_ne other, ih.2]

end

/-! ### Configurations -/

section

variable {codec : Json.Codec} {text : String} {config : Config}

lemma ofJson_eq_ok (decoded : codec.decodeConfig text = .ok config)
    (sound : config.separators.decimal ≠ config.separators.group) :
    Config.ofJson codec text = .ok config := by
  simp only [Config.ofJson, decoded, Config.validate, if_neg sound]
  rfl

lemma ofJson_eq_error (decoded : codec.decodeConfig text = .ok config)
    (unsound : config.separators.decimal = config.separators.group) :
    Config.ofJson codec text =
      .error (.config (.equalSeparators config.separators.decimal)) := by
  simp only [Config.ofJson, decoded, Config.validate, if_pos unsound]
  rfl

end

/-! ### Settings -/

/-- All mentions of variables with their values. -/
def mentions (settings : List Setting) : List (String × Value) :=
  settings.flatMap fun
    | .values values => values
    | _ => []

/-- All configurations. -/
def configs (settings : List Setting) : List Config :=
  settings.filterMap fun
    | .config config => some config
    | _ => none

/-- Whether JSON is asked for. -/
def wantsJson (settings : List Setting) : Bool :=
  settings.any fun
    | .outputJson => true
    | _ => false

/-- Options with one more setting. -/
def Options.heed (options : Options) : Setting → Options
  | .values values => { options with vars := assign options.vars values }
  | .config config => { options with config }
  | .outputJson => { options with outputJson := true }

lemma foldl_heed (settings : List Setting) (options : Options) :
    settings.foldl Options.heed options =
      ⟨assign options.vars (mentions settings), (configs settings).getLast?.getD options.config,
        options.outputJson || wantsJson settings⟩ := by
  induction settings generalizing options with
  | nil => simp [mentions, configs, wantsJson, assign]
  | cons setting settings ih =>
    rw [List.foldl_cons, ih]
    cases setting with
    | values values => simp [Options.heed, mentions, configs, wantsJson, assign]
    | config config => simp [Options.heed, mentions, configs, wantsJson, List.getLast?_cons]
    | outputJson => simp [Options.heed, mentions, configs, wantsJson]

/-! ### Scanning -/

section

variable (codec : Json.Codec) (files : String → Except FileFault String)

/-- That arguments, cut where operands end, ask for settings. -/
def ReadsAll (arguments : List String) (settings : List Setting) : Prop :=
  ∃ fronts : List (List String), arguments = fronts.flatten ∧
    List.Forall₂ (Reads codec files) fronts settings

/-- That the first argument at fault among others is at fault for a reason. -/
def StopsAt (arguments : List String) (message : String) : Prop :=
  ∃ before rest settings, arguments = before ++ rest ∧ ReadsAll codec files before settings ∧
    Refuses codec files rest message

end

section

variable {m : Type → Type} [Monad m] [LawfulMonad m] {codec : Json.Codec}
  {files : String → Except FileFault String} {front before rest arguments : List String}
  {setting : Setting} {settings : List Setting} {message : String}

omit [LawfulMonad m] in
lemma scan_json (readFile : String → m (Except FileFault String)) (options : Options)
    (text : String) (rest : List String) :
    scan codec readFile options ("--json" :: text :: rest) =
      match options.vars.setJson codec text with
      | .error fault => pure (.error fault.message)
      | .ok vars => scan codec readFile { options with vars } rest := by
  cases sets : options.vars.setJson codec text <;> simp [scan, sets]

lemma scan_config (options : Options) (path : String) (rest : List String) :
    scan (m := m) codec (fun path => pure (files path)) options ("--config" :: path :: rest) =
      match configFrom codec path (files path) with
      | .error fault => pure (.error fault.message)
      | .ok config => scan codec (fun path => pure (files path)) { options with config } rest := by
  cases gives : configFrom codec path (files path) <;> simp [scan, gives]

omit [LawfulMonad m] in
lemma scan_of_not_mem_flags {argument : String} (other : argument ∉ flags)
    (readFile : String → m (Except FileFault String)) (options : Options) :
    scan codec readFile options (argument :: rest) =
      match assignment? argument with
      | some (name, value) =>
        scan codec readFile { options with vars := options.vars.set name value } rest
      | none =>
        pure (.error s!"Invalid variable assignment: '{argument}'. Use format: var=value") := by
  simp only [flags, List.mem_cons, List.not_mem_nil, or_false, not_or] at other
  rw [scan.eq_def]
  cases assigned : assignment? argument <;> simp [other, assigned]

/-- What an argument asks for is heeded, and the arguments behind it and its operand are next. -/
lemma scan_of_reads (reads : Reads codec files front setting) (options : Options)
    (rest : List String) :
    scan (m := m) codec (fun path => pure (files path)) options (front ++ rest) =
      scan codec (fun path => pure (files path)) (options.heed setting) rest := by
  cases reads with
  | @json text members values decoded converted =>
    have sets : options.vars.setJson codec text = .ok (assign options.vars values) := by
      simp only [Variables.setJson, decoded, setAll_eq_ok converted]
    simp only [List.cons_append, List.nil_append, scan_json, sets]
    rfl
  | config found decoded sound =>
    simp only [List.cons_append, List.nil_append, scan_config, configFrom, found,
      ofJson_eq_ok decoded sound]
    rfl
  | outputJson =>
    rw [List.singleton_append, scan.eq_def]
    simp [Options.heed]
  | @assignment name text value first stands =>
    have split : '=' ∈ (name ++ "=" ++ text).toList := by simp
    rw [List.singleton_append, scan_of_not_mem_flags (not_mem_flags split),
      assignment?_append first, parseValue_eq_iff.2 stands]
    rfl

/-- A fault ends the scan. -/
lemma scan_of_refuses (refuses : Refuses codec files rest message) (options : Options) :
    scan (m := m) codec (fun path => pure (files path)) options rest = pure (.error message) := by
  cases refuses with
  | jsonMissing => simp [scan]
  | @jsonMalformed text complaint _ malformed =>
    have fails : options.vars.setJson codec text =
        .error (.evaluation (.invalidJson complaint)) := by
      simp only [Variables.setJson, malformed]
    simp only [scan_json, fails]
    rfl
  | @jsonOther text _ json decoded other =>
    have fails : options.vars.setJson codec text = .error (.evaluation .jsonNotObject) := by
      cases json with
      | object members => exact absurd rfl (other members)
      | _ => simp only [Variables.setJson, decoded]
    simp only [scan_json, fails]
    rfl
  | @jsonNested text _ members decoded _ mem nested =>
    have fails : options.vars.setJson codec text = .error (.evaluation .jsonObjectAsValue) := by
      simp only [Variables.setJson, decoded, setAll_eq_error mem nested]
    simp only [scan_json, fails]
    rfl
  | configMissing => simp [scan]
  | configUnreadable unreadable =>
    simp only [scan_config, configFrom, unreadable]
    rfl
  | @configMalformed _ content complaint _ found malformed =>
    have fails : Config.ofJson codec content = .error (.config (.invalid complaint)) := by
      simp only [Config.ofJson, malformed]
    simp only [scan_config, configFrom, found, fails]
    rfl
  | configUnsound found decoded unsound =>
    simp only [scan_config, configFrom, found, ofJson_eq_error decoded unsound]
    rfl
  | assignment unsplit other =>
    rw [scan_of_not_mem_flags other, assignment?_of_not_mem unsplit]

lemma scan_of_readsAll (reads : ReadsAll codec files before settings) (options : Options)
    (rest : List String) :
    scan (m := m) codec (fun path => pure (files path)) options (before ++ rest) =
      scan codec (fun path => pure (files path)) (settings.foldl Options.heed options) rest := by
  obtain ⟨fronts, rfl, reads⟩ := reads
  induction reads generalizing options with
  | nil => rfl
  | cons read _ ih =>
    rw [List.flatten_cons, List.append_assoc, scan_of_reads read, ih, List.foldl_cons]

end

/-! ### The first argument at fault -/

section

variable (codec : Json.Codec) (files : String → Except FileFault String)

lemma reads_or_refuses_json (text : String) (rest : List String) :
    (∃ setting, Reads codec files ["--json", text] setting) ∨
      ∃ message, Refuses codec files ("--json" :: text :: rest) message := by
  cases decoded : codec.decode text with
  | error complaint => exact .inr ⟨_, .jsonMalformed decoded⟩
  | ok json =>
    cases json with
    | object members =>
      by_cases nested : ∃ m ∈ members, m.2.HasObject
      · obtain ⟨m, mem, nested⟩ := nested
        exact .inr ⟨_, .jsonNested decoded mem nested⟩
      · obtain ⟨values, converted⟩ := exists_converted (by simpa using nested)
        exact .inl ⟨_, .json decoded converted⟩
    | _ => exact .inr ⟨_, .jsonOther decoded nofun⟩

lemma reads_or_refuses_config (path : String) (rest : List String) :
    (∃ setting, Reads codec files ["--config", path] setting) ∨
      ∃ message, Refuses codec files ("--config" :: path :: rest) message := by
  cases found : files path with
  | error cause => exact .inr ⟨_, .configUnreadable found⟩
  | ok content =>
    cases decoded : codec.decodeConfig content with
    | error complaint => exact .inr ⟨_, .configMalformed found decoded⟩
    | ok config =>
      by_cases sound : config.separators.decimal = config.separators.group
      · exact .inr ⟨_, .configUnsound found decoded sound⟩
      · exact .inl ⟨_, .config found decoded sound⟩

/-- The first of some arguments asks for something, or is at fault. -/
lemma reads_or_refuses (argument : String) (arguments : List String) :
    (∃ front setting rest, argument :: arguments = front ++ rest ∧ front ≠ [] ∧
      Reads codec files front setting) ∨
    ∃ message, Refuses codec files (argument :: arguments) message := by
  by_cases flag : argument ∈ flags
  · simp only [flags, List.mem_cons, List.not_mem_nil, or_false] at flag
    rcases flag with rfl | rfl | rfl
    · cases arguments with
      | nil => exact .inr ⟨_, .jsonMissing⟩
      | cons text rest =>
        rcases reads_or_refuses_json codec files text rest with ⟨setting, reads⟩ | refuses
        · exact .inl ⟨["--json", text], setting, rest, rfl, by simp, reads⟩
        · exact .inr refuses
    · cases arguments with
      | nil => exact .inr ⟨_, .configMissing⟩
      | cons path rest =>
        rcases reads_or_refuses_config codec files path rest with ⟨setting, reads⟩ | refuses
        · exact .inl ⟨["--config", path], setting, rest, rfl, by simp, reads⟩
        · exact .inr refuses
    · exact .inl ⟨["--output-json"], _, arguments, rfl, by simp, .outputJson⟩
  · by_cases split : '=' ∈ argument.toList
    · obtain ⟨name, text, first, rfl⟩ := exists_assignment split
      exact .inl ⟨[_], _, arguments, rfl, by simp, .assignment first (parseValue_eq_iff.1 rfl)⟩
    · exact .inr ⟨_, .assignment split flag⟩

lemma readsAll_or_stopsAt (arguments : List String) :
    (∃ settings, ReadsAll codec files arguments settings) ∨
      ∃ message, StopsAt codec files arguments message := by
  induction size : arguments.length using Nat.strong_induction_on generalizing arguments with
  | h n ih =>
    cases arguments with
    | nil => exact .inl ⟨[], [], rfl, .nil⟩
    | cons argument arguments =>
      rcases reads_or_refuses codec files argument arguments with
        ⟨front, setting, rest, same, some, reads⟩ | ⟨message, refuses⟩
      · have shorter : rest.length < n := by
          have := List.length_pos_of_ne_nil some
          rw [← size, same, List.length_append]
          omega
        rcases ih _ shorter rest rfl with ⟨settings, fronts, rfl, all⟩ |
          ⟨message, before, rest, settings, rfl, ⟨fronts, rfl, all⟩, refuses⟩
        · exact .inl ⟨setting :: settings, front :: fronts, same, .cons reads all⟩
        · exact .inr ⟨message, _, rest, setting :: settings, by rw [same, List.append_assoc],
            ⟨front :: fronts, List.flatten_cons.symm, .cons reads all⟩, refuses⟩
      · exact .inr ⟨message, [], _, [], rfl, ⟨[], rfl, .nil⟩, refuses⟩

/-- Arguments cannot all be read if one of them is at fault. -/
lemma not_stopsAt_of_readsAll {arguments : List String} {settings : List Setting}
    (reads : ReadsAll codec files arguments settings) (message : String) :
    ¬ StopsAt codec files arguments message := by
  rintro ⟨before, rest, settings', rfl, reads', refuses⟩
  have ends := scan_of_readsAll (m := Id) reads {} []
  rw [List.append_nil, scan_of_readsAll reads' {} rest, scan_of_refuses refuses] at ends
  cases ends

end

end Formula.CommandLine
