set_option autoImplicit false

/-!
# Problems

A problem is a partial failure that does not stop a run: a file that cannot be read, a declaration
that cannot be understood, a struct without a body. Problems are listed in a file, one per line.
-/

namespace StructAtlas

/-- The kinds of problems. -/
inductive ProblemKind where
  | decode
  | io
  | malformedDeclaration
  | unmatchedBraces
  | missingBody
  | noFields
deriving Repr, DecidableEq

namespace ProblemKind

/-- The name of a kind. -/
def name : ProblemKind → String
  | .decode => "decode"
  | .io => "io"
  | .malformedDeclaration => "malformed_declaration"
  | .unmatchedBraces => "unmatched_braces"
  | .missingBody => "missing_body"
  | .noFields => "no_fields"

/-- All kinds. -/
def all : List ProblemKind :=
  [.decode, .io, .malformedDeclaration, .unmatchedBraces, .missingBody, .noFields]

/-- The kind with a name. -/
def ofName? (name : String) : Option ProblemKind :=
  all.find? (·.name == name)

end ProblemKind

/-- A problem of a run. -/
structure Problem where
  kind : ProblemKind
  message : String
deriving Repr, DecidableEq

/-- The line of a problem. -/
def Problem.toText (p : Problem) : String :=
  "[" ++ p.kind.name ++ "] " ++ p.message

end StructAtlas
