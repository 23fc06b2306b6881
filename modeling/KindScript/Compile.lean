import KindScript.Session
import KindScript.Settings
import KindScript.Token.Scan
import KindScript.Tree.Parser

/-!
# Compilation

A source from its text to the values of its statements, and the files of a
command line. Every file has to exist, but only the first one is compiled.
-/

namespace KindScript

/-- A compiled source. The path only labels it. -/
structure CompiledUnit where
  path : String
  tokens : List Token
  tree : Tree
  values : List Value

inductive CompileError where
  | fileNotFound (path : String)
  | unreadable (path : String) (cause : Files.ReadError)
  | settings (e : Settings.LoadError)
  | scanning (path : String) (e : ScanError)
  | parsing (path : String) (e : ParseError)
  | evaluation (path : String) (e : EvalError)
deriving DecidableEq, Repr

namespace CompileError

/-- The line that says where an error arose. -/
def location (path : String) (place : Option Position) : String :=
  match place with
  | some p => "\n  --> " ++ path ++ ":" ++ p.text
  | none => "\n  --> " ++ path

def message : CompileError → String
  | fileNotFound path => "FileNotFoundError: Invalid file path: " ++ path
  | unreadable path cause => "IOError: " ++ path ++ ": " ++ cause.message
  | settings e => "ConfigError: " ++ e.message
  | scanning path e => "LexError: " ++ e.message ++ location path (some e.position)
  | parsing path e => "ParseError: " ++ e.message ++ location path (some e.token.start)
  | evaluation path e => "InterpreterError: " ++ e.message ++ location path none

end CompileError

/-- Scans, parses and runs a source in a session of its own. -/
def compileSource (path source : String) : Except CompileError CompiledUnit :=
  match tokenize source with
  | .error e => .error (.scanning path e)
  | .ok tokens =>
    match parse tokens with
    | .error e => .error (.parsing path e)
    | .ok tree =>
      match ((Session.start 0).evaluateTree tree).1 with
      | .error e => .error (.evaluation path e)
      | .ok values => .ok ⟨path, tokens, tree, values⟩

/-- Compiles the first of some files once all of them are known to exist. -/
def compileFiles (view : Files.View) (paths : List String) :
    Except CompileError (List CompiledUnit) :=
  match paths.find? fun path => !view.isFile path with
  | some path => .error (.fileNotFound path)
  | none =>
    match paths with
    | [] => .ok []
    | path :: _ =>
      match view.read path with
      | .error cause => .error (.unreadable path cause)
      | .ok source => (compileSource path source).map ([·])

end KindScript
