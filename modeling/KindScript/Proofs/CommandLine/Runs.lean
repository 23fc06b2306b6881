import KindScript.Proofs.CommandLine.Layers
import KindScript.Proofs.Compilation.FirstFile
import KindScript.Proofs.Dumps.Contents
import KindScript.Proofs.Dumps.Indentation
import KindScript.Settings.Reader

/-!
# Runs

A run of a well-formed command line prints everything that is asked for, or nothing but one
error. It fails where the settings cannot be loaded, or else where there are files that do not
compile; no dump is ever printed before that is known. What is printed shows the tokens, the
program and the values: no other ones have the same text.
-/

namespace KindScript.CommandLine

open Settings

/-! ## What a run prints -/

/-- The text of an error, with the path and, in a source, the place that it is about. -/
inductive Reports : CompileError → String → Prop where
  | missing {path : String} :
    Reports (.fileNotFound path) ("FileNotFoundError: Invalid file path: " ++ path)
  | unreadable {path : String} {cause : Files.ReadError} :
    Reports (.unreadable path cause) ("IOError: " ++ path ++ ": " ++ cause.message)
  | unread {path : String} {cause : Files.ReadError} :
    Reports (.settings (.unreadable path cause))
      ("ConfigError: " ++ ("cannot read " ++ path ++ ": " ++ cause.message))
  | malformed {path cause : String} :
    Reports (.settings (.malformed path cause))
      ("ConfigError: " ++ ("invalid config " ++ path ++ ": " ++ cause))
  | scanning {path : String} {e : ScanError} :
    Reports (.scanning path e) ("LexError: " ++ e.message ++ ("\n  --> " ++ path ++ ":" ++
      (e.position.line.repr ++ ":" ++ e.position.column.repr)))
  | parsing {path : String} {e : ParseError} :
    Reports (.parsing path e) ("ParseError: " ++ e.message ++ ("\n  --> " ++ path ++ ":" ++
      (e.token.start.line.repr ++ ":" ++ e.token.start.column.repr)))
  | evaluation {path : String} {e : EvalError} :
    Reports (.evaluation path e) ("InterpreterError: " ++ e.message ++ ("\n  --> " ++ path))

/-- The text that is printed for parts of a source: every part under the path, indented, where
its own switch is on or the one for debugging. -/
inductive Printed (on : Switch → Prop) (path : String) : List (Switch × Json) → String → Prop where
  | nil : Printed on path [] ""
  | shown {s : Switch} {json : Json} {parts : List (Switch × Json)} {block text : String}
    (asked : on .debug ∨ on s) (writes : json.Indented 0 block)
    (more : Printed on path parts text) :
    Printed on path ((s, json) :: parts) ("(" ++ path ++ ")\n" ++ block ++ "\n" ++ text)
  | hidden {s : Switch} {json : Json} {parts : List (Switch × Json)} {text : String}
    (silent : ¬ (on .debug ∨ on s)) (more : Printed on path parts text) :
    Printed on path ((s, json) :: parts) text

/-- What can be printed of a source, each part with its switch. -/
def parts (unit : CompiledUnit) : List (Switch × Json) :=
  [(.tokens, Token.listToJson unit.tokens), (.trees, unit.tree.toJson),
    (.values, Value.listToJson unit.values)]

/-- The parts of two units that are shown are the same. -/
structure SameShown (on : Switch → Prop) (unit unit' : CompiledUnit) : Prop where
  tokens : on .debug ∨ on .tokens → unit.tokens = unit'.tokens
  tree : on .debug ∨ on .trees → unit.tree = unit'.tree
  values : on .debug ∨ on .values → unit.values = unit'.values

/-- Why a run fails. -/
inductive Fails (decode : Decoder) (view : Files.View) (env : Environment) (line : Line) :
    CompileError → Prop where
  | settings {e : LoadError} (loads : Loads decode view env line.config (.error e)) :
    Fails decode view env line (.settings e)
  | files {settings : Settings} {e : CompileError}
    (loads : Loads decode view env line.config (.ok settings)) (given : line.files ≠ [])
    (compiles : compileFiles view line.files = .error e) : Fails decode view env line e

/-- What a run succeeds with. -/
inductive Succeeds (decode : Decoder) (view : Files.View) (env : Environment) (line : Line) :
    String → Prop where
  | banner {settings : Settings} (loads : Loads decode view env line.config (.ok settings))
    (none : line.files = []) : Succeeds decode view env line "Horizon v0.1.0\n"
  | dumps {settings : Settings} {first source text : String} {rest : List String}
    {unit : CompiledUnit} (loads : Loads decode view env line.config (.ok settings))
    (given : line.files = first :: rest) (files : ∀ p ∈ line.files, view.isFile p = true)
    (bytes : view first = .file source.toUTF8) (compiles : Compiles first source (.ok unit))
    (prints : Printed (On env line settings) first (parts unit) text) :
    Succeeds decode view env line text

section

variable {decode : Decoder} {view : Files.View} {env : Environment} {line : Line}
  {file : Settings} {path : String} {e : CompileError}

/-! ## Errors -/

theorem Reports.eq {text : String} (reports : Reports e text) : text = e.message := by
  cases reports <;> rfl

theorem reports_message (e : CompileError) : Reports e e.message := by
  have exists_text : ∃ text, Reports e text := by
    cases e with
    | fileNotFound => exact ⟨_, .missing⟩
    | unreadable => exact ⟨_, .unreadable⟩
    | settings e =>
      cases e with
      | unreadable => exact ⟨_, .unread⟩
      | malformed => exact ⟨_, .malformed⟩
    | scanning => exact ⟨_, .scanning⟩
    | parsing => exact ⟨_, .parsing⟩
    | evaluation => exact ⟨_, .evaluation⟩
  obtain ⟨text, reports⟩ := exists_text
  exact reports.eq ▸ reports

/-! ## Dumps -/

theorem Printed.part {on : Switch → Prop} {s : Switch} {shown : Bool}
    {more : List (Switch × Json)} {text : String} (asked : shown = true ↔ on .debug ∨ on s)
    (json : Json) (prints : Printed on path more text) :
    Printed on path ((s, json) :: more) ((if shown then dump path json else "") ++ text) := by
  cases shown with
  | true => exact .shown (asked.mp rfl) (Json.indented_pretty 0 json) prints
  | false =>
    rw [if_neg Bool.false_ne_true, String.empty_append]
    exact .hidden (fun on => nomatch asked.mpr on) prints

/-- The settings of a run print what the three layers ask for. -/
theorem printed_dumps (unit : CompiledUnit) : Printed (On env line file) unit.path (parts unit)
    (dumps ((file.applyEnvironment env).enable line.options.debug line.options.showTokens
      line.options.showTrees line.options.showValues) unit) := by
  generalize settings_eq : (file.applyEnvironment env).enable _ _ _ _ = settings
  have on_iff (s : Switch) : s.isSet settings = true ↔ On env line file s :=
    settings_eq ▸ isSet_iff_on
  have asked (s : Switch) : (settings.debug || s.isSet settings) = true ↔
      On env line file .debug ∨ On env line file s := by
    rw [Bool.or_eq_true, ← on_iff s, ← on_iff .debug]
    rfl
  have none : Printed (On env line file) unit.path [] "" := .nil
  have last := none.part (asked .values) (Value.listToJson unit.values)
  have all := (last.part (asked .trees) unit.tree.toJson).part (asked .tokens)
    (Token.listToJson unit.tokens)
  rw [String.append_empty, ← String.append_assoc] at all
  exact all

theorem Printed.unique {on : Switch → Prop} {more : List (Switch × Json)} {text text' : String}
    (prints : Printed on path more text) (prints' : Printed on path more text') : text = text' := by
  induction prints generalizing text' with
  | nil =>
    cases prints'
    rfl
  | shown asked writes _ ih =>
    cases prints' with
    | shown _ writes' more' => rw [writes.eq, writes'.eq, ih more']
    | hidden silent => exact absurd asked silent
  | hidden silent _ ih =>
    cases prints' with
    | shown asked => exact absurd asked silent
    | hidden _ more' => exact ih more'

/-- A dump ends at a line break, and what follows begins with no number. -/
theorem Printed.stops {on : Switch → Prop} {more : List (Switch × Json)} {text : String}
    (prints : Printed on path more text) : Json.Stops (Json.dense false text.toList) := by
  induction prints with
  | nil => exact fun c mem => nomatch mem
  | shown =>
    simp only [String.toList_append, List.append_assoc]
    rintro c ⟨⟩
    rfl
  | hidden _ _ ih => exact ih

/-- Texts of the same switches that are the same show the same. -/
theorem Printed.agree {on : Switch → Prop} {some other : List (Switch × Json)} {text : String}
    (prints : Printed on path some text) (prints' : Printed on path other text)
    (each : List.Forall₂ (fun p q => p.1 = q.1 ∧ p.2.Plain ∧ q.2.Plain) some other) :
    List.Forall₂ (fun p q => on .debug ∨ on p.1 → p.2 = q.2) some other := by
  induction prints generalizing other with
  | nil =>
    cases each
    exact .nil
  | @shown s json _ block text asked writes more ih =>
    cases each with
    | @cons _ q _ others pair each =>
      obtain ⟨s', json'⟩ := q
      obtain ⟨same, plain, plain'⟩ := pair
      obtain rfl : s = s' := same
      generalize whole : "(" ++ path ++ ")\n" ++ block ++ "\n" ++ text = printed at prints'
      cases prints' with
      | hidden silent => exact absurd asked silent
      | @shown _ _ _ block' text' _ writes' more' =>
        have chars := congrArg String.toList whole
        simp only [String.toList_append, List.append_assoc] at chars
        replace chars :=
          List.append_cancel_left (List.append_cancel_left (List.append_cancel_left chars))
        have stops {rest : List (Switch × Json)} {text : String}
            (more : Printed on path rest text) :
            Json.Stops (Json.dense false ("\n".toList ++ text.toList)) := more.stops
        obtain ⟨json_eq, rest⟩ :=
          writes.delimited writes' plain plain' (stops more) (stops more') chars
        obtain rfl : text = text' := String.toList_inj.mp (List.append_cancel_left rest)
        exact .cons (fun _ => json_eq) (ih more' each)
  | @hidden s json _ text silent more ih =>
    cases each with
    | @cons _ q _ others pair each =>
      obtain ⟨s', json'⟩ := q
      obtain rfl : s = s' := pair.1
      cases prints' with
      | shown asked => exact absurd asked silent
      | hidden _ more' => exact .cons (fun asked => absurd asked silent) (ih more' each)

/-- What is printed of a source shows the parts of it that are asked for. -/
theorem Printed.sameShown {on : Switch → Prop} {unit unit' : CompiledUnit} {text : String}
    (prints : Printed on path (parts unit) text) (prints' : Printed on path (parts unit') text) :
    SameShown on unit unit' := by
  have tokens (unit : CompiledUnit) : (Token.listToJson unit.tokens).Plain :=
    Json.plain_map Token.plain_toJson _
  have values (unit : CompiledUnit) : (Value.listToJson unit.values).Plain :=
    Json.plain_map Value.plain_toJson _
  have agree := prints.agree prints'
    (.cons ⟨rfl, tokens unit, tokens unit'⟩
      (.cons ⟨rfl, unit.tree.plain_toJson, unit'.tree.plain_toJson⟩
      (.cons ⟨rfl, values unit, values unit'⟩ .nil)))
  obtain ⟨tokens_eq, agree⟩ := List.forall₂_cons.mp agree
  obtain ⟨tree_eq, agree⟩ := List.forall₂_cons.mp agree
  obtain ⟨values_eq, _⟩ := List.forall₂_cons.mp agree
  exact
    { tokens := fun asked => array_map_injective Token.toJson_injective (tokens_eq asked)
      tree := fun asked => Tree.toJson_injective (tree_eq asked)
      values := fun asked => array_map_injective Value.toJson_injective (values_eq asked) }

/-! ## Outcomes -/

theorem Loads.unique {named : Option String} {result result' : Except LoadError Settings}
    (loads : Loads decode view env named result) (loads' : Loads decode view env named result') :
    result = result' :=
  loads.load_eq.symm.trans loads'.load_eq

theorem Fails.unique {e' : CompileError} (fails : Fails decode view env line e)
    (fails' : Fails decode view env line e') : e = e' := by
  cases fails with
  | settings loads =>
    cases fails' with
    | settings loads' => rw [Except.error.inj (loads.unique loads')]
    | files loads' => cases loads.unique loads'
  | files loads given compiles =>
    cases fails' with
    | settings loads' => cases loads.unique loads'
    | files loads' given' compiles' => exact Except.error.inj (compiles.symm.trans compiles')

theorem run_words (decode : Decoder) (view : Files.View) (env : Environment) (line : Line) :
    run decode view env line.words = runOptions decode view env line.options := by
  rw [run, request_iff_line.mpr ⟨line, rfl, rfl⟩]

theorem runOptions_of_loads (loads : Loads decode view env line.config (.ok file)) :
    runOptions decode view env line.options =
      if line.files.isEmpty then .printed banner
      else
        match compileFiles view line.files with
        | .error e => .failed e
        | .ok units => .printed (String.join (units.map (dumps
            ((file.applyEnvironment env).enable line.options.debug line.options.showTokens
              line.options.showTrees line.options.showValues)))) := by
  have loaded : load decode view env line.options.config = .ok file := loads.load_eq
  rw [runOptions, effectiveSettings, loaded]
  rfl

theorem path_of_compiles {first source : String} {unit : CompiledUnit}
    (compiles : Compiles first source (.ok unit)) : unit.path = first := by
  cases compiles
  rfl

theorem compiles_of_ok {first : String} {rest paths : List String} {units : List CompiledUnit}
    (given : paths = first :: rest) (done : CompilesFiles view paths (.ok units)) :
    ∃ source unit, units = [unit] ∧ (∀ p ∈ paths, view.isFile p = true) ∧
      view first = .file source.toUTF8 ∧ Compiles first source (.ok unit) := by
  cases done with
  | nothing => cases given
  | compiled files bytes compiles =>
    obtain ⟨rfl, rfl⟩ := List.cons.inj given
    exact ⟨_, _, rfl, files, bytes, compiles⟩

/-- A run prints what it succeeds with or fails with its error. -/
theorem run_cases (decode : Decoder) (view : Files.View) (env : Environment) (line : Line) :
    (∃ e, run decode view env line.words = .failed e ∧ Fails decode view env line e) ∨
      ∃ text, run decode view env line.words = .printed text ∧
        Succeeds decode view env line text := by
  rw [run_words]
  have loads := loads_load decode view env line.config
  cases loaded : load decode view env line.config with
  | error e =>
    rw [loaded] at loads
    refine .inl ⟨.settings e, ?_, .settings loads⟩
    have failed : load decode view env line.options.config = .error e := loaded
    rw [runOptions, effectiveSettings, failed]
    rfl
  | ok file =>
    rw [loaded] at loads
    rw [runOptions_of_loads loads]
    cases given : line.files with
    | nil => exact .inr ⟨banner, rfl, .banner loads given⟩
    | cons first rest =>
      rw [← given, if_neg (by simp [given])]
      cases result : compileFiles view line.files with
      | error e => exact .inl ⟨e, rfl, .files loads (by simp [given]) result⟩
      | ok units =>
        have done := compilesFiles_compileFiles view line.files
        rw [result] at done
        obtain ⟨source, unit, rfl, files, bytes, compiles⟩ := compiles_of_ok given done
        refine .inr ⟨_, rfl, .dumps loads given files bytes compiles ?_⟩
        rw [List.map_singleton, String.join_cons, String.join_nil, String.append_empty,
          ← path_of_compiles compiles]
        exact printed_dumps unit

theorem fails_iff : (∃ e, Fails decode view env line e) ↔
    (∃ e, Loads decode view env line.config (.error e)) ∨
      line.files ≠ [] ∧ ∃ e, compileFiles view line.files = .error e := by
  constructor
  · rintro ⟨e, loads | ⟨loads, given, compiles⟩⟩
    · exact .inl ⟨_, loads⟩
    · exact .inr ⟨given, _, compiles⟩
  · rintro (⟨e, loads⟩ | ⟨given, e, compiles⟩)
    · exact ⟨_, .settings loads⟩
    · have loads := loads_load decode view env line.config
      cases loaded : load decode view env line.config with
      | error e => exact ⟨_, .settings (loaded ▸ loads)⟩
      | ok settings => exact ⟨e, .files (loaded ▸ loads) given compiles⟩

theorem Succeeds.not_fails {text : String} (succeeds : Succeeds decode view env line text) :
    ¬ Fails decode view env line e := by
  intro fails
  cases succeeds with
  | banner loads none =>
    cases fails with
    | settings loads' => cases loads.unique loads'
    | files _ given => exact given none
  | dumps loads given files bytes compiles =>
    cases fails with
    | settings loads' => cases loads.unique loads'
    | files _ _ failed =>
      rw [given] at files failed
      cases failed.symm.trans (CompilesFiles.compiled files bytes compiles).eq

theorem Succeeds.unique {text text' : String} (succeeds : Succeeds decode view env line text)
    (succeeds' : Succeeds decode view env line text') : text = text' := by
  cases succeeds with
  | banner loads none =>
    cases succeeds' with
    | banner => rfl
    | dumps _ given => exact absurd (none.symm.trans given) (List.cons_ne_nil _ _).symm
  | dumps loads given files bytes compiles prints =>
    cases succeeds' with
    | banner _ none => exact absurd (none.symm.trans given) (List.cons_ne_nil _ _).symm
    | dumps loads' given' files' bytes' compiles' prints' =>
      obtain ⟨rfl, rfl⟩ := List.cons.inj (given.symm.trans given')
      obtain rfl := Except.ok.inj (loads.unique loads')
      rw [given] at files files'
      have units_eq := (CompilesFiles.compiled files bytes compiles).eq.symm.trans
        (CompilesFiles.compiled files' bytes' compiles').eq
      obtain ⟨rfl, _⟩ := List.cons.inj (Except.ok.inj units_eq)
      exact prints.unique prints'

/-- Where nothing is at the path of the settings file, loading fails exactly if the path was
named. -/
theorem loads_error_of_absent {named : Option String} {needed : Bool}
    (file : SettingsFile env named path needed) (absent : view.isPresent path = false) :
    (∃ e, Loads decode view env named (.error e)) ↔
      named.isSome = true ∨ (env.lookup "HORIZON_CONFIG").isSome = true := by
  have unread (text : String) : view.read path ≠ .ok text := fun read => by
    rw [isPresent_of_read read] at absent
    cases absent
  have needed_of_error (fails : ∃ e, Loads decode view env named (.error e)) : needed = true := by
    obtain ⟨e, loads⟩ := fails
    have failed := loads.load_eq
    cases needed with
    | true => rfl
    | false =>
      rw [file.load_eq, if_pos ⟨rfl, absent⟩] at failed
      cases failed
  have error_of_needed (need : needed = true) : ∃ e, Loads decode view env named (.error e) := by
    cases read : view.read path with
    | error cause => exact ⟨_, .unreadable file (.inl need) read⟩
    | ok text => exact absurd read (unread text)
  have needed_iff : needed = true ↔
      named.isSome = true ∨ (env.lookup "HORIZON_CONFIG").isSome = true := by
    cases file with
    | line names => simp [names]
    | environment unnamed names => simp [names]
    | home unnamed unset => simp [unnamed, unset]
  exact Iff.trans ⟨needed_of_error, error_of_needed⟩ needed_iff

end

/-- Words that spell no well-formed line ask for help or the version, or are misused. -/
theorem run_of_no_line {words : List String} (none : ∀ line : Line, line.words ≠ words) :
    ∃ outcome : Outcome, (outcome = .printed help ∨ outcome = .printed versionLine ∨
        outcome.exitCode = 2) ∧ ∀ decode view env, run decode view env words = outcome := by
  cases asked : request words with
  | error e => exact ⟨.misused e, .inr (.inr rfl), fun _ _ _ => by rw [run, asked]⟩
  | ok request =>
    cases request with
    | help => exact ⟨.printed help, .inl rfl, fun _ _ _ => by rw [run, asked]⟩
    | version => exact ⟨.printed versionLine, .inr (.inl rfl), fun _ _ _ => by rw [run, asked]⟩
    | run options =>
      obtain ⟨line, words_eq, _⟩ := request_iff_line.mp asked
      exact absurd words_eq (none line)

/-- A run prints everything or only an error. -/
structure AllOrNothing (decode : Decoder) (view : Files.View) (env : Environment) (line : Line)
    (outcome : Outcome) : Prop where
  code : outcome.exitCode = 0 ∨ outcome.exitCode = 1
  failure : outcome.exitCode = 1 ↔ (∃ e, Loads decode view env line.config (.error e)) ∨
    line.files ≠ [] ∧ ∃ e, compileFiles view line.files = .error e
  error : outcome.exitCode = 1 → outcome.output = "" ∧ ∃ message,
    outcome.errorOutput = message ++ "\n" ∧
      ∀ text, (∃ e, Fails decode view env line e ∧ Reports e text) ↔ text = message
  success : outcome.exitCode = 0 → outcome.errorOutput = "" ∧
    ∀ text, Succeeds decode view env line text ↔ text = outcome.output
  absent : ∀ path needed, SettingsFile env line.config path needed → view.isPresent path = false →
    ((∃ e, Loads decode view env line.config (.error e)) ↔
      line.config.isSome = true ∨ (env.lookup "HORIZON_CONFIG").isSome = true)

/-- Whatever decodes settings and whatever the files and the environment are, a well-formed
command line prints everything that its layers of settings ask for, or only the error of the
first stage that fails; other words never come to a run. What is printed of a source determines
the parts of it that are shown. -/
theorem run_all_or_nothing :
    (∀ words, (∀ line : Line, line.words ≠ words) →
        ∃ outcome : Outcome, (outcome = .printed help ∨ outcome = .printed versionLine ∨
            outcome.exitCode = 2) ∧ ∀ decode view env, run decode view env words = outcome) ∧
      (∀ decode view env (line : Line),
        AllOrNothing decode view env line (run decode view env line.words)) ∧
      ∀ on path unit unit' text, Printed on path (parts unit) text →
        Printed on path (parts unit') text → SameShown on unit unit' := by
  refine ⟨fun _ => run_of_no_line, fun decode view env line => ?_,
    fun _ _ _ _ _ => Printed.sameShown⟩
  rcases run_cases decode view env line with ⟨e, run_eq, fails⟩ | ⟨text, run_eq, succeeds⟩
  · have message_iff (text : String) :
        (∃ e, Fails decode view env line e ∧ Reports e text) ↔ text = e.message := by
      constructor
      · rintro ⟨e', fails', reports⟩
        rw [reports.eq, fails'.unique fails]
      · rintro rfl
        exact ⟨e, fails, reports_message e⟩
    rw [run_eq]
    exact
      { code := .inr rfl
        failure := iff_of_true rfl (fails_iff.mp ⟨e, fails⟩)
        error := fun _ => ⟨rfl, e.message, rfl, message_iff⟩
        success := nofun
        absent := fun path needed => loads_error_of_absent }
  · rw [run_eq]
    exact
      { code := .inl rfl
        failure := iff_of_false nofun fun failure =>
          (fails_iff.mpr failure).elim fun e => succeeds.not_fails
        error := nofun
        success := fun _ => ⟨rfl, fun text' =>
          ⟨fun succeeds' => succeeds'.unique succeeds, fun same => same ▸ succeeds⟩⟩
        absent := fun path needed => loads_error_of_absent }

/-- A program, a settings file, and a file with an array that holds no settings. -/
private def shelf : Files.View := fun path =>
  if path = "a" then .file "7".toUTF8
  else if path = "c" then .file "\x7b\"show_trees\": true\x7d".toUTF8
  else if path = "m" then .file "[1]".toUTF8
  else .missing

private theorem exists_line {words : List String} {o : Options}
    (asked : request words = .ok (.run o)) : ∃ line : Line, line.words = words :=
  (request_iff_line.mp asked).imp fun _ => And.left

/-- Dumps are printed, a file is missing once the settings are there, settings are malformed, and
a switch is given twice. -/
theorem run_all_or_nothing_shelf :
    (∃ line : Line, line.words = ["--config", "c", "a"] ∧
        Succeeds ofText shelf [] line ("(a)\n\x7b\n  \"body\": [\n    \x7b\n      " ++
          "\"Expression\": \x7b\n        \"Literal\": \x7b\n          \"Integer\": 7\n" ++
          "        \x7d\n      \x7d\n    \x7d\n  ]\n\x7d\n" ++
          "(a)\n[\n  \x7b\n    \"Number\": \x7b\n      \"Integer\": 7\n    \x7d\n  \x7d\n]\n")) ∧
      (∃ line : Line, line.words = ["--config", "c", "a", "b"] ∧
        ∃ e, Fails ofText shelf [] line e ∧
          Reports e "FileNotFoundError: Invalid file path: b") ∧
      (∃ line : Line, line.words = ["a"] ∧
        ∃ e, Fails ofText shelf [("HORIZON_CONFIG", "m")] line e ∧
          Reports e ("ConfigError: invalid config m: invalid type: integer `1`, " ++
            "expected a boolean at line 1 column 2")) ∧
      ∀ decode view env, (run decode view env ["-d", "--debug"]).exitCode = 2 := by
  obtain ⟨others, lines, _⟩ := run_all_or_nothing
  have failure {env : Environment} {words : List String} {o : Options} {text : String}
      (asked : request words = .ok (.run o)) (code : (run ofText shelf env words).exitCode = 1)
      (output : (run ofText shelf env words).errorOutput = text ++ "\n") :
      ∃ line : Line, line.words = words ∧ ∃ e, Fails ofText shelf env line e ∧ Reports e text := by
    obtain ⟨line, rfl⟩ := exists_line asked
    obtain ⟨_, message, output', text_iff⟩ := (lines ofText shelf env line).error code
    refine ⟨line, rfl, (text_iff text).mpr ?_⟩
    have chars := congrArg String.toList (output.symm.trans output')
    rw [String.toList_append, String.toList_append] at chars
    exact String.toList_inj.mp (List.append_cancel_right chars)
  refine ⟨?_, ?_, ?_, ?_⟩
  · have asked : request ["--config", "c", "a"] =
        .ok (.run { files := ["a"], config := some "c" }) := by decide +kernel
    obtain ⟨line, words_eq⟩ := exists_line asked
    have all := lines ofText shelf [] line
    rw [words_eq] at all
    exact ⟨line, words_eq, ((all.success (by decide +kernel)).2 _).mpr (by decide +kernel)⟩
  · have asked : request ["--config", "c", "a", "b"] =
        .ok (.run { files := ["a", "b"], config := some "c" }) := by decide +kernel
    exact failure asked (by decide +kernel) (by decide +kernel)
  · have asked : request ["a"] = .ok (.run { files := ["a"] }) := by decide +kernel
    exact failure asked (by decide +kernel) (by decide +kernel)
  · have none (line : Line) : line.words ≠ ["-d", "--debug"] := by
      intro words_eq
      have asked := request_iff_line.mpr ⟨line, words_eq, rfl⟩
      have misused : request ["-d", "--debug"] = .error (.repeated "--debug") := by decide +kernel
      cases misused.symm.trans asked
    obtain ⟨outcome, _, run_eq⟩ := others _ none
    have code : (run ofText shelf [] ["-d", "--debug"]).exitCode = 2 := by decide +kernel
    intro decode view env
    rw [run_eq] at code ⊢
    exact code

example : run ofText (fun _ => .missing) [] [] = .printed "Horizon v0.1.0\n" := by decide

example : (run ofText (fun _ => .missing) [("HORIZON_CONFIG", "")] []).exitCode = 1 := by decide

end KindScript.CommandLine
