import KindScript.Files
import KindScript.Json
import KindScript.Text.Blank

/-!
# Settings

Which dumps are printed. Settings come from a file, are overridden by variables
of the environment, and flags of the command line switch further ones on. What
decodes the text of the file is left open here.
-/

namespace KindScript

structure Settings where
  debug : Bool := false
  showTokens : Bool := false
  showTrees : Bool := false
  showValues : Bool := true
deriving DecidableEq, Repr

namespace Settings

/-- Debugging prints every dump. -/
def dumpTokens (s : Settings) : Bool :=
  s.debug || s.showTokens

def dumpTrees (s : Settings) : Bool :=
  s.debug || s.showTrees

def dumpValues (s : Settings) : Bool :=
  s.debug || s.showValues

/-- Switches on what the flags ask for. -/
def enable (s : Settings) (debug showTokens showTrees showValues : Bool) : Settings :=
  ⟨s.debug || debug, s.showTokens || showTokens, s.showTrees || showTrees,
    s.showValues || showValues⟩

def toJson (s : Settings) : Json :=
  .object [("debug", .boolean s.debug), ("show_tokens", .boolean s.showTokens),
    ("show_trees", .boolean s.showTrees), ("show_values", .boolean s.showValues)]

/-! ## The environment -/

/-- The variables that are set. -/
abbrev Environment := List (String × String)

/-- The truth value that a variable's text stands for, if any. -/
def flag? (text : String) : Option Bool :=
  let word := String.ofList ((Text.trimmed text.toList).map Char.toLower)
  if ["1", "true", "yes", "on"].contains word then some true
  else if ["0", "false", "no", "off"].contains word then some false
  else none

/-- A setting as a variable of the environment has it, or as it was. -/
def override (env : Environment) (name : String) (old : Bool) : Bool :=
  ((env.lookup name).bind flag?).getD old

def applyEnvironment (s : Settings) (env : Environment) : Settings where
  debug := override env "HORIZON_DEBUG" s.debug
  showTokens := override env "HORIZON_SHOW_TOKENS" s.showTokens
  showTrees := override env "HORIZON_SHOW_TREES" s.showTrees
  showValues := override env "HORIZON_SHOW_VALUES" s.showValues

/-! ## Loading -/

/-- What reads the text of a settings file, or says what is wrong with it. -/
abbrev Decoder := String → Except String Settings

inductive LoadError where
  | unreadable (path : String) (cause : Files.ReadError)
  | malformed (path cause : String)
deriving DecidableEq, Repr

def LoadError.message : LoadError → String
  | unreadable path cause => "cannot read " ++ path ++ ": " ++ cause.message
  | malformed path cause => "invalid config " ++ path ++ ": " ++ cause

/-- A path inside a directory. The empty directory adds nothing. -/
def inside (directory path : String) : String :=
  if directory.isEmpty || directory.endsWith "/" then directory ++ path
  else directory ++ "/" ++ path

/-- The variable that names the settings file. -/
def pathVariable : String := "HORIZON_CONFIG"

/-- The settings file that is used where none is named on the command line. -/
def defaultPath (env : Environment) : String :=
  match env.lookup pathVariable with
  | some path => path
  | none => inside ((env.lookup "HOME").getD ".") ".horizon/config.json"

/-- The settings of a file that has to be there. -/
def loadFile (decode : Decoder) (view : Files.View) (path : String) : Except LoadError Settings :=
  match view.read path with
  | .error cause => .error (.unreadable path cause)
  | .ok text =>
    match decode text with
    | .ok settings => .ok settings
    | .error cause => .error (.malformed path cause)

/-- The settings of the named file, or of the default one. Only the file in the home
directory may be missing. -/
def load (decode : Decoder) (view : Files.View) (env : Environment) (path : Option String) :
    Except LoadError Settings :=
  match path with
  | some path => loadFile decode view path
  | none =>
    let path := defaultPath env
    if (env.lookup pathVariable).isNone && !view.isPresent path then .ok {}
    else loadFile decode view path

end Settings

end KindScript
