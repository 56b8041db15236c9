import Offside.Config
import Offside.Eval.Run
import Offside.Parser.Statement

/-!
# Programs

`Program.run` takes a source from text to its effects, and `Program.result` judges it by the truth
of one variable.
-/

namespace Offside

/-- What keeps a program from running to its end. -/
inductive Error where
  | source (e : SourceError)
  | runtime (e : RuntimeError)
  /-- The evaluator was given too few steps. -/
  | exhausted
  /-- A file whose text cannot be had. -/
  | unreadable (path reason : String)

def Error.message : Error → String
  | .source e => e.message
  | .runtime e => e.message
  | .exhausted => "Evaluation was given too few steps."
  | .unreadable path reason => s!"Failed to read '{path}': {reason}"

/-- What a program leaves behind. -/
structure Run where
  /-- What was printed, also before a failure. -/
  printed : String := ""
  /-- The variables, or what stopped the program. -/
  outcome : Except Error Evaluator

namespace Program

def run (config : Config) (source : String) : Run :=
  match parse source config.tabSize with
  | .error e => { outcome := .error (.source e) }
  | .ok program =>
    match (Evaluator.execute program).run .start with
    | .ok _ s => { printed := s.sink.text, outcome := .ok s }
    | .error (.error e) s => { printed := s.sink.text, outcome := .error (.runtime e) }
    | .error .exhausted s => { printed := s.sink.text, outcome := .error .exhausted }

/-- Whether the result variable of a finished program is bound to something true. -/
def passes (config : Config) (s : Evaluator) : Bool :=
  (s.global? config.resultName).any Value.truthy

def result (config : Config) (source : String) : Except Error Bool :=
  (run config source).outcome.map (passes config)

end Program

end Offside
