import KindScript.Compile
import KindScript.Dump

/-!
# Command line

From the words of a command line to what the program prints. Words are taken
from left to right; the first one that breaks the rules, or that asks for help
or the version, decides. A run prints everything or only an error.
-/

namespace KindScript.CommandLine

/-! ## Options -/

/-- What a command line asks of a run. -/
structure Options where
  files : List String := []
  debug : Bool := false
  showTokens : Bool := false
  showTrees : Bool := false
  showValues : Bool := false
  config : Option String := none
deriving DecidableEq, Repr

inductive UsageError where
  | unknownOption (word : String)
  | repeated (option : String)
  | missingValue (option : String)
  | unexpectedValue (option : String)
  | emptyFile
deriving DecidableEq, Repr

def UsageError.message : UsageError → String
  | unknownOption word => "error: unexpected argument '" ++ word ++ "' found"
  | repeated option => "error: the argument '" ++ option ++ "' cannot be used multiple times"
  | missingValue option => "error: a value is required for '" ++ option ++ "' but none was supplied"
  | unexpectedValue option => "error: unexpected value for '" ++ option ++ "' found"
  | emptyFile => "error: a value is required for '[FILES]...' but none was supplied"

inductive Request where
  | run (options : Options)
  | help
  | version
deriving DecidableEq, Repr

inductive Flag where
  | debug
  | showTokens
  | showTrees
  | showValues
  | help
  | version
deriving DecidableEq, Repr

namespace Flag

def ofName? : String → Option Flag
  | "debug" => some debug
  | "show-tokens" => some showTokens
  | "show-trees" => some showTrees
  | "show-values" => some showValues
  | "help" => some help
  | "version" => some version
  | _ => none

def ofLetter? : Char → Option Flag
  | 'd' => some debug
  | 'h' => some help
  | 'V' => some version
  | _ => none

def name : Flag → String
  | debug => "--debug"
  | showTokens => "--show-tokens"
  | showTrees => "--show-trees"
  | showValues => "--show-values"
  | help => "--help"
  | version => "--version"

end Flag

/-- What reading words has come to: options so far, or an answer. -/
abbrev Progress (α : Type) := Except (Except UsageError Request) α

def fail {α : Type} (e : UsageError) : Progress α :=
  .error (.error e)

/-- A flag that may be given once. -/
def switch (flag : Flag) (old : Bool) : Progress Bool :=
  if old then fail (.repeated flag.name) else .ok true

/-- The options with one more flag. -/
def Options.setFlag (o : Options) (flag : Flag) : Progress Options :=
  match flag with
  | .debug => (switch flag o.debug).map fun debug => { o with debug }
  | .showTokens => (switch flag o.showTokens).map fun showTokens => { o with showTokens }
  | .showTrees => (switch flag o.showTrees).map fun showTrees => { o with showTrees }
  | .showValues => (switch flag o.showValues).map fun showValues => { o with showValues }
  | .help => .error (.ok .help)
  | .version => .error (.ok .version)

/-- The options with one more file. -/
def Options.addFile (o : Options) (path : String) : Progress Options :=
  if path.isEmpty then fail .emptyFile else .ok { o with files := o.files ++ [path] }

/-- The options with a settings file, which may be named once. -/
def Options.setConfig (o : Options) (path : String) : Progress Options :=
  if path.isEmpty then fail (.missingValue "--config <PATH>")
  else if o.config.isSome then fail (.repeated "--config <PATH>")
  else .ok { o with config := some path }

/-- The letters after a single dash. -/
def Options.setLetters (o : Options) : List Char → Progress Options
  | [] => .ok o
  | letter :: more =>
    match Flag.ofLetter? letter with
    | none => fail (.unknownOption (String.ofList ['-', letter]))
    | some flag =>
      match o.setFlag flag with
      | .error e => .error e
      | .ok o => o.setLetters more

/-- A long option at its first equals sign. -/
def splitValue (word : List Char) : String × Option String :=
  let name := word.takeWhile (· ≠ '=')
  match word.dropWhile (· ≠ '=') with
  | [] => (String.ofList name, none)
  | _ :: value => (String.ofList name, some (String.ofList value))

/-- The word may be the value of an option. -/
def isValue (word : String) : Bool :=
  !word.startsWith "-" || word = "-"

/-- The files after a double dash. -/
def readFiles (o : Options) : List String → Progress Options
  | [] => .ok o
  | path :: more =>
    match o.addFile path with
    | .error e => .error e
    | .ok o => readFiles o more

/-- Reads words until they end or one of them decides. -/
def read (o : Options) : List String → Progress Options
  | [] => .ok o
  | word :: more =>
    match word.toList with
    | ['-', '-'] => readFiles o more
    | '-' :: '-' :: long =>
      match splitValue long with
      | ("config", some value) =>
        match o.setConfig value with
        | .error e => .error e
        | .ok o => read o more
      | ("config", none) =>
        match more with
        | [] => fail (.missingValue "--config <PATH>")
        | value :: more =>
          if isValue value then
            match o.setConfig value with
            | .error e => .error e
            | .ok o => read o more
          else fail (.missingValue "--config <PATH>")
      | (name, value) =>
        match Flag.ofName? name with
        | none => fail (.unknownOption word)
        | some flag =>
          if value.isSome then fail (.unexpectedValue flag.name)
          else
            match o.setFlag flag with
            | .error e => .error e
            | .ok o => read o more
    | '-' :: letter :: letters =>
      match o.setLetters (letter :: letters) with
      | .error e => .error e
      | .ok o => read o more
    | _ =>
      match o.addFile word with
      | .error e => .error e
      | .ok o => read o more

/-- What a command line asks for. -/
def request (words : List String) : Except UsageError Request :=
  match read {} words with
  | .ok options => .ok (.run options)
  | .error answer => answer

/-! ## Runs -/

def name : String := "horizon"

def version : String := "0.1.0"

/-- The line that is printed where there is nothing to compile. -/
def banner : String :=
  "Horizon v" ++ version ++ "\n"

def versionLine : String :=
  name ++ " " ++ version ++ "\n"

def usage : String :=
  "Usage: " ++ name ++ " [OPTIONS] [FILES]...\n"

def help : String :=
  "Horizon language front-end\n\n" ++ usage ++
  "\nArguments:\n" ++
  "  [FILES]...  Source files\n" ++
  "\nOptions:\n" ++
  "  -d, --debug          Print every dump\n" ++
  "      --show-tokens    Print the tokens\n" ++
  "      --show-trees     Print the tree\n" ++
  "      --show-values    Print the values\n" ++
  "      --config <PATH>  Settings file\n" ++
  "  -h, --help           Print help\n" ++
  "  -V, --version        Print version\n"

/-- What a program prints and how it ends. -/
inductive Outcome where
  | printed (text : String)
  | failed (e : CompileError)
  | misused (e : UsageError)
deriving DecidableEq, Repr

namespace Outcome

def exitCode : Outcome → Nat
  | printed _ => 0
  | failed _ => 1
  | misused _ => 2

def output : Outcome → String
  | printed text => text
  | _ => ""

def errorOutput : Outcome → String
  | printed _ => ""
  | failed e => e.message ++ "\n"
  | misused e => e.message ++ "\n\n" ++ usage

end Outcome

/-- The settings of a run: from the file, the environment and the flags. -/
def effectiveSettings (decode : Settings.Decoder) (view : Files.View) (env : Settings.Environment)
    (o : Options) : Except Settings.LoadError Settings :=
  (Settings.load decode view env o.config).map fun settings =>
    (settings.applyEnvironment env).enable o.debug o.showTokens o.showTrees o.showValues

/-- A dump under the path of its source. -/
def dump (path : String) (json : Json) : String :=
  "(" ++ path ++ ")\n" ++ json.pretty 0 ++ "\n"

/-- The dumps of a source that the settings ask for. -/
def dumps (settings : Settings) (unit : CompiledUnit) : String :=
  (if settings.dumpTokens then dump unit.path (Token.listToJson unit.tokens) else "") ++
  (if settings.dumpTrees then dump unit.path unit.tree.toJson else "") ++
  (if settings.dumpValues then dump unit.path (Value.listToJson unit.values) else "")

/-- A run with given options. -/
def runOptions (decode : Settings.Decoder) (view : Files.View) (env : Settings.Environment)
    (o : Options) : Outcome :=
  match effectiveSettings decode view env o with
  | .error e => .failed (.settings e)
  | .ok settings =>
    if o.files.isEmpty then .printed banner
    else
      match compileFiles view o.files with
      | .error e => .failed e
      | .ok units => .printed (String.join (units.map (dumps settings)))

/-- The whole program. -/
def run (decode : Settings.Decoder) (view : Files.View) (env : Settings.Environment)
    (words : List String) : Outcome :=
  match request words with
  | .error e => .misused e
  | .ok .help => .printed help
  | .ok .version => .printed versionLine
  | .ok (.run options) => runOptions decode view env options

end KindScript.CommandLine
