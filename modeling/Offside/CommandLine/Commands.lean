import Offside.CommandLine.Arguments
import Offside.CommandLine.Files
import Offside.Program
import Offside.Tree.Listing

/-!
# Commands

`CommandLine.run` is the whole program: from its arguments to what it writes and its exit code. It
reaches files through a `FileAccess` only.
-/

namespace Offside

structure Outcome where
  exitCode : UInt8 := 0
  stdout : String := ""
  stderr : String := ""
  deriving DecidableEq

/-- The ways to files. -/
structure FileAccess (m : Type → Type) where
  read : String → m (Except ReadFailure ByteArray)
  /-- The paths of the scripts below a path, in the order they are run in. -/
  scripts : String → m (List String)

def Folder.access (top : Folder) : FileAccess Id where
  read := top.read
  scripts := top.scripts

namespace CommandLine

def versionText : String := "adder 0.1.0\n"

def usage : String :=
  "Usage: adder [-d] [--tab-size N] run FILE | run -e CODE | tokens FILE | ast FILE | "
    ++ "test [DIR] [--result-name NAME]\n"

def failed (e : Error) (stdout : String := "") : Outcome :=
  { exitCode := 1, stdout, stderr := e.message ++ "\n" }

/-- The outcome of a listing, one line for each of its parts. -/
def listed : Except Error (List String) → Outcome
  | .ok lines => { stdout := String.join (lines.map (· ++ "\n")) }
  | .error e => failed e

def runSource (config : Config) (source : String) : Outcome :=
  let run := Program.run config source
  match run.outcome with
  | .ok _ => { stdout := run.printed }
  | .error e => failed e run.printed

def tokenLines (config : Config) (source : String) : Except Error (List String) :=
  match tokenize source config.tabSize with
  | .ok tokens => .ok (tokens.map Token.listing)
  | .error e => .error (.source (.lex e))

def treeLines (config : Config) (source : String) : Except Error (List String) :=
  match parse source config.tabSize with
  | .ok program => .ok program.outline.lines
  | .error e => .error (.source e)

/-- The text of a file that was read. -/
def decode (path : String) : Except ReadFailure ByteArray → Except Error String
  | .error failure => .error (.unreadable path failure.text)
  | .ok data =>
    match String.fromUTF8? data with
    | some source => .ok source
    | none => .error (.unreadable path "stream did not contain valid UTF-8")

/-- What is written about a test, and whether it passed. -/
structure Report where
  text : String
  passed : Bool

/-- Runs a script as a test. What it prints comes before the line on how it went. -/
def test (config : Config) (path : String) (source : Except Error String) : Report :=
  match source with
  | .error e => { text := s!"FAIL {path}: {e.message}\n", passed := false }
  | .ok source =>
    let run := Program.run config source
    match run.outcome with
    | .error e => { text := run.printed ++ s!"FAIL {path}: {e.message}\n", passed := false }
    | .ok s =>
      if Program.passes config s then { text := run.printed ++ s!"PASS {path}\n", passed := true }
      else
        { text := run.printed ++ s!"FAIL {path}: '{config.resultName}' is not truthy\n"
          passed := false }

def summary (reports : List Report) : Outcome :=
  let passed := reports.countP (·.passed)
  let failed := reports.length - passed
  { exitCode := if failed = 0 then 0 else 1
    stdout := String.join (reports.map (·.text)) ++ s!"{passed} passed, {failed} failed\n" }

variable {m : Type → Type} [Monad m]

def withSource (files : FileAccess m) (path : String) (f : String → Outcome) : m Outcome := do
  match decode path (← files.read path) with
  | .ok source => return f source
  | .error e => return failed e

def perform (files : FileAccess m) (config : Config) : Command → m Outcome
  | .runFile path => withSource files path (runSource config)
  | .runText source => return runSource config source
  | .listTokens path => withSource files path (listed ∘ tokenLines config)
  | .listTree path => withSource files path (listed ∘ treeLines config)
  | .runTests => do
    let paths ← files.scripts config.testDir
    let reports ← paths.mapM fun path => do
      return test config path (decode path (← files.read path))
    return summary reports

def run (files : FileAccess m) (args : List String) : m Outcome :=
  match Request.ofArgs args with
  | .ok request => perform files request.config request.command
  | .error .version => return { stdout := versionText }
  | .error .help => return { stderr := usage }
  | .error .invalid => return { exitCode := 2, stderr := usage }

end CommandLine

end Offside
