set_option autoImplicit false

/-!
# Log records

A record has a severity, the phase of the run it belongs to, and a message. Records outside the two
named phases belong to the application as a whole.
-/

namespace StructAtlas

/-- Severities, the least severe first. -/
inductive Severity where
  | trace
  | debug
  | info
  | success
  | warning
  | error
  | critical
deriving Repr, DecidableEq

namespace Severity

/-- The name of a severity. -/
def name : Severity → String
  | .trace => "TRACE"
  | .debug => "DEBUG"
  | .info => "INFO"
  | .success => "SUCCESS"
  | .warning => "WARNING"
  | .error => "ERROR"
  | .critical => "CRITICAL"

/-- The rank of a severity. -/
def rank : Severity → Nat
  | .trace => 5
  | .debug => 10
  | .info => 20
  | .success => 25
  | .warning => 30
  | .error => 40
  | .critical => 50

/-- All severities. -/
def all : List Severity :=
  [.trace, .debug, .info, .success, .warning, .error, .critical]

/-- The severity with a name; names are case sensitive. -/
def ofName? (name : String) : Option Severity :=
  all.find? (·.name == name)

end Severity

/-- The phase of the analysis. -/
def analysisPhase : String := "analysis"

/-- The phase of the generation. -/
def generatePhase : String := "generate"

/-- The phase of everything else. -/
def appPhase : String := "app"

/-- A log record. -/
structure Record where
  severity : Severity
  phase : String
  message : String
deriving Repr, DecidableEq

end StructAtlas
