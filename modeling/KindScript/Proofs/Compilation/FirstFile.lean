import KindScript.Compile
import KindScript.Proofs.Scanning.Places

/-!
# The first file decides

Files are compiled by their paths in order. A path without a file is reported before any
file is opened; otherwise the bytes of the first file alone decide, through the stages of
compilation up to the first one that fails. So nothing that any other file holds is ever seen.
-/

namespace KindScript

open Token Scanning

/-! ## One source -/

/-- What compiling a source comes to: the error of the first stage that fails, or what all
stages give. -/
inductive Compiles (path source : String) : Except CompileError CompiledUnit → Prop where
  | unscannable {e : ScanError} (scanned : tokenize source = .error e) :
    Compiles path source (.error (.scanning path e))
  | unparsable {tokens : List Token} {e : ParseError} (scanned : tokenize source = .ok tokens)
    (parsed : parse tokens = .error e) : Compiles path source (.error (.parsing path e))
  | unevaluable {tokens : List Token} {tree : Tree} {e : EvalError} {after : Session}
    (scanned : tokenize source = .ok tokens) (parsed : parse tokens = .ok tree)
    (run : (Session.start 0).evaluateTree tree = (.error e, after)) :
    Compiles path source (.error (.evaluation path e))
  | compiled {tokens : List Token} {tree : Tree} {values : List Value} {after : Session}
    (scanned : tokenize source = .ok tokens) (parsed : parse tokens = .ok tree)
    (run : (Session.start 0).evaluateTree tree = (.ok values, after)) :
    Compiles path source (.ok ⟨path, tokens, tree, values⟩)

/-- A unit has a value for every statement of its program, and its tokens end in the only mark
of the end. -/
structure CompiledUnit.Complete (unit : CompiledUnit) : Prop where
  values : unit.values.length = unit.tree.body.length
  tokens : ∃ words mark, unit.tokens = words ++ [mark] ∧ mark.kind = .endOfFile ∧
    ∀ t ∈ words, t.kind ≠ .endOfFile

theorem compiles_compileSource (path source : String) :
    Compiles path source (compileSource path source) := by
  unfold compileSource
  split
  · exact .unscannable ‹_›
  rename_i tokens scanned
  split
  · exact .unparsable scanned ‹_›
  rename_i tree parsed
  cases run : (Session.start 0).evaluateTree tree with
  | mk result after =>
    cases result with
    | error e => exact .unevaluable scanned parsed run
    | ok values => exact .compiled scanned parsed run

theorem Compiles.eq {path source : String} {result : Except CompileError CompiledUnit}
    (compiles : Compiles path source result) : compileSource path source = result := by
  unfold compileSource
  cases compiles with
  | unscannable scanned => rw [scanned]
  | unparsable scanned parsed => simp only [scanned, parsed]
  | unevaluable scanned parsed run => simp only [scanned, parsed, run]
  | compiled scanned parsed run => simp only [scanned, parsed, run]

theorem Session.length_of_evaluateAll {session after : Session} {statements : List Statement}
    {values : List Value} (run : session.evaluateAll statements = (.ok values, after)) :
    values.length = statements.length := by
  induction statements generalizing session values with
  | nil =>
    cases run
    rfl
  | cons statement more ih =>
    rw [evaluateAll] at run
    split at run
    · cases run
    · rename_i value next _
      cases rest : next.evaluateAll more with
      | mk result last =>
        rw [rest] at run
        cases result with
        | error e => cases run
        | ok values =>
          cases run
          exact congrArg (· + 1) (ih rest)

theorem Compiles.complete {path source : String} {unit : CompiledUnit}
    (compiles : Compiles path source (.ok unit)) : unit.Complete := by
  cases compiles with
  | compiled scanned _ run =>
    exact ⟨Session.length_of_evaluateAll run,
      ((Scans.of_scanFrom scanned).tiles [] rfl).exists_words⟩

/-! ## Some files -/

/-- What compiling the files at some paths comes to. -/
inductive CompilesFiles (view : Files.View) :
    List String → Except CompileError (List CompiledUnit) → Prop where
  | missing {before after : List String} {path : String}
    (files : ∀ p ∈ before, view.isFile p = true) (missing : view.isFile path = false) :
    CompilesFiles view (before ++ path :: after) (.error (.fileNotFound path))
  | nothing : CompilesFiles view [] (.ok [])
  | notText {first : String} {rest : List String} {content : ByteArray}
    (files : ∀ p ∈ first :: rest, view.isFile p = true) (bytes : view first = .file content)
    (invalid : ¬ content.IsValidUTF8) :
    CompilesFiles view (first :: rest) (.error (.unreadable first .notText))
  | failed {first source : String} {rest : List String} {e : CompileError}
    (files : ∀ p ∈ first :: rest, view.isFile p = true)
    (bytes : view first = .file source.toUTF8) (compiles : Compiles first source (.error e)) :
    CompilesFiles view (first :: rest) (.error e)
  | compiled {first source : String} {rest : List String} {unit : CompiledUnit}
    (files : ∀ p ∈ first :: rest, view.isFile p = true)
    (bytes : view first = .file source.toUTF8) (compiles : Compiles first source (.ok unit)) :
    CompilesFiles view (first :: rest) (.ok [unit])

section Views

variable {view other : Files.View} {path : String} {paths : List String}

theorem Files.View.exists_content (file : view.isFile path = true) :
    ∃ content, view path = .file content := by
  unfold isFile at file
  split at file
  · exact ⟨_, ‹_›⟩
  · cases file

theorem Files.View.read_of_text {source : String} (bytes : view path = .file source.toUTF8) :
    view.read path = .ok source := by
  have valid : source.toUTF8.IsValidUTF8 := source.isValidUTF8
  have text : String.fromUTF8? source.toUTF8 = some source := by
    rw [String.fromUTF8?, dif_pos valid]
    rfl
  rw [read, bytes]
  simp only [text]

theorem Files.View.read_of_invalid {content : ByteArray} (bytes : view path = .file content)
    (invalid : ¬ content.IsValidUTF8) : view.read path = .error .notText := by
  have text : String.fromUTF8? content = none := dif_neg invalid
  rw [read, bytes]
  simp only [text]

theorem find?_isFile_eq_none (files : ∀ p ∈ paths, view.isFile p = true) :
    (paths.find? fun path => !view.isFile path) = none := by
  rw [List.find?_eq_none]
  intro p mem
  rw [files p mem]
  exact Bool.false_ne_true

theorem compilesFiles_compileFiles (view : Files.View) (paths : List String) :
    CompilesFiles view paths (compileFiles view paths) := by
  unfold compileFiles
  split
  · rename_i path found
    obtain ⟨absent, before, after, rfl, files⟩ := List.find?_eq_some_iff_append.mp found
    refine .missing (fun p mem => ?_) (Bool.not_eq_true' _ |>.mp absent)
    simpa using files p mem
  · rename_i all
    have files : ∀ p ∈ paths, view.isFile p = true := by
      intro p mem
      simpa using List.find?_eq_none.mp all p mem
    cases paths with
    | nil => exact .nothing
    | cons first rest =>
      obtain ⟨content, bytes⟩ := Files.View.exists_content (files first List.mem_cons_self)
      by_cases valid : content.IsValidUTF8
      · have bytes : view first = .file (String.fromUTF8 content valid).toUTF8 := bytes
        have compiles := compiles_compileSource first (String.fromUTF8 content valid)
        simp only [Files.View.read_of_text bytes]
        cases result : compileSource first (String.fromUTF8 content valid) with
        | error e => exact .failed files bytes (result ▸ compiles)
        | ok unit => exact .compiled files bytes (result ▸ compiles)
      · simp only [Files.View.read_of_invalid bytes valid]
        exact .notText files bytes valid

theorem CompilesFiles.eq {result : Except CompileError (List CompiledUnit)}
    (compiles : CompilesFiles view paths result) : compileFiles view paths = result := by
  unfold compileFiles
  cases compiles with
  | @missing before after path files missing =>
    have found : ((before ++ path :: after).find? fun path => !view.isFile path) = some path := by
      rw [List.find?_append, find?_isFile_eq_none files, Option.none_or, List.find?_cons,
        missing]
      rfl
    rw [found]
  | nothing => rfl
  | notText files bytes invalid =>
    simp only [find?_isFile_eq_none files, Files.View.read_of_invalid bytes invalid]
  | failed files bytes compiles =>
    simp only [find?_isFile_eq_none files, Files.View.read_of_text bytes, compiles.eq]
    rfl
  | compiled files bytes compiles =>
    simp only [find?_isFile_eq_none files, Files.View.read_of_text bytes, compiles.eq]
    rfl

/-- Two views agree on which of the paths are files and on the bytes of the first one. -/
structure AgreeOn (view other : Files.View) (paths : List String) : Prop where
  files : ∀ p ∈ paths, view.isFile p = other.isFile p
  bytes : ∀ first content, paths.head? = some first →
    (view first = .file content ↔ other first = .file content)

theorem AgreeOn.transfer (agree : AgreeOn view other paths)
    {result : Except CompileError (List CompiledUnit)}
    (compiles : CompilesFiles view paths result) : CompilesFiles other paths result := by
  obtain ⟨same, bytes'⟩ := agree
  cases compiles with
  | missing files missing =>
    refine .missing (fun p mem => ?_) ?_
    · rw [← same p (List.mem_append_left _ mem)]
      exact files p mem
    · rw [← same _ (List.mem_append_right _ List.mem_cons_self)]
      exact missing
  | nothing => exact .nothing
  | notText files bytes invalid =>
    exact .notText (fun p mem => same p mem ▸ files p mem) ((bytes' _ _ rfl).mp bytes) invalid
  | failed files bytes compiles =>
    exact .failed (fun p mem => same p mem ▸ files p mem) ((bytes' _ _ rfl).mp bytes) compiles
  | compiled files bytes compiles =>
    exact .compiled (fun p mem => same p mem ▸ files p mem) ((bytes' _ _ rfl).mp bytes) compiles

end Views

/-- Compiling files comes to what the first path without a file, or else the bytes of the first
file make of it. Views that agree on these give the same result, and a result is at most one
complete unit. -/
theorem compileFiles_first (view : Files.View) (paths : List String) :
    (∀ result, compileFiles view paths = result ↔ CompilesFiles view paths result) ∧
      (∀ other, AgreeOn view other paths →
        compileFiles view paths = compileFiles other paths) ∧
      ∀ units, compileFiles view paths = .ok units →
        units.length ≤ 1 ∧ ∀ unit ∈ units, unit.Complete := by
  have compiles := compilesFiles_compileFiles view paths
  refine ⟨fun result => ⟨fun same => same ▸ compiles, CompilesFiles.eq⟩, ?_, ?_⟩
  · intro other agree
    exact (agree.transfer compiles).eq.symm
  · intro units done
    rw [done] at compiles
    cases compiles with
    | nothing => exact ⟨Nat.zero_le _, nofun⟩
    | compiled files bytes compiles =>
      refine ⟨Nat.le_refl _, fun unit mem => ?_⟩
      rw [List.mem_singleton.mp mem]
      exact compiles.complete

/-- A file with a literal beside one with any text. -/
private def beside (text : String) : Files.View := fun path =>
  if path = "a" then .file "7".toUTF8 else if path = "b" then .file text.toUTF8 else .missing

theorem compileFiles_first_beside :
    (∃ unit, compileFiles (beside "\"") ["a", "b"] = .ok [unit] ∧
      compileFiles (beside "/") ["a", "b"] = .ok [unit] ∧ unit.Complete) ∧
      compileFiles (beside "\"") ["a", "c", "b"] = .error (.fileNotFound "c") := by
  have one : (compileFiles (beside "\"") ["a", "b"]).map List.length = .ok 1 := by decide +kernel
  obtain ⟨_, same, complete⟩ := compileFiles_first (beside "\"") ["a", "b"]
  have agree : AgreeOn (beside "\"") (beside "/") ["a", "b"] := by
    refine ⟨by decide, fun first content head => ?_⟩
    cases head
    exact Iff.rfl
  cases done : compileFiles (beside "\"") ["a", "b"] with
  | error e =>
    rw [done] at one
    cases one
  | ok units =>
    rw [done] at one
    obtain ⟨unit, rfl⟩ := List.length_eq_one_iff.mp (Except.ok.inj one)
    refine ⟨⟨unit, rfl, (same _ agree).symm.trans done, ?_⟩, ?_⟩
    · exact (complete _ done).2 _ List.mem_cons_self
    · have first : ∀ p ∈ ["a"], (beside "\"").isFile p = true := by decide
      exact ((compileFiles_first (beside "\"") ["a", "c", "b"]).1 _).mpr (.missing first rfl)

end KindScript
