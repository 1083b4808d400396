import DocumentProof.Text.Quoted

/-!
# What commands print

A command prints lines of its own, and log lines, which are shown or not as the level of logging
says.
-/

namespace DocumentProof

/-- How grave a log line is. -/
inductive LogLevel where
  | error
  | warn
  | info
deriving DecidableEq

namespace LogLevel

def name : LogLevel → String
  | error => "ERROR"
  | warn => "WARN"
  | info => "INFO"

/-- Warnings are always shown, and the rest from this many requests on. -/
def threshold : LogLevel → Nat
  | error | warn => 0
  | info => 1

end LogLevel

/-- Something to print. -/
inductive Output where
  | line (text : String)
  | log (level : LogLevel) (event : String) (fields : List (String × String))
deriving DecidableEq

namespace Output

def isShown (verbosity : Nat) : Output → Bool
  | line _ => true
  | log level _ _ => level.threshold ≤ verbosity

/-- A line, or the event of a log line after its level and before its fields. -/
def text : Output → String
  | line text => text
  | log level event fields =>
    String.intercalate " " (level.name :: event :: fields.map fun f => f.1 ++ "=" ++ f.2)

end Output

end DocumentProof
