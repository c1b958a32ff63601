import StructAtlas.Calendar

set_option autoImplicit false

/-!
# Tokens of configuration markup

Configuration files are written in the YAML 1.1 format. A text is first cut into tokens. Blocks that
are shown by indentation only get explicit tokens for their beginning and end, so the later steps
need not look at columns.

A text can also be unusable for reasons that lie beyond the format, such as a number that cannot be
read. `Fault` lists them all.
-/

namespace StructAtlas.Markup

/-- Why a text cannot be used. -/
inductive Fault where
  | malformed
  | codePoint
  | tooLong (digits : Nat)
  | whole (base : Nat) (text : List Nat)
  | real (text : List Nat)
  | emptyNumber
  | overflow
  | truthWord
  | dateForm
  | dateKind
  | calendar (fault : Calendar.Fault)
  | tooDeep
deriving Repr, DecidableEq

/-- The name of a tag as it is written: a handle, which may be absent, and the rest. -/
structure TagName where
  handle : Option String
  suffix : String
deriving Repr, DecidableEq

/-- Lines that describe a document: its version, the meaning of a tag handle, or nothing here. -/
inductive Directive where
  | version (major : Nat)
  | handle (name expansion : String)
  | other
deriving Repr, DecidableEq

/-- Tokens. A plain scalar stands without quotes and without a block mark. -/
inductive Token where
  | directive (d : Directive)
  | documentStart
  | documentEnd
  | sequenceStart
  | mappingStart
  | blockEnd
  | listOpen
  | listClose
  | mapOpen
  | mapClose
  | comma
  | dash
  | key
  | value
  | reference (name : String)
  | anchor (name : String)
  | tag (name : TagName)
  | scalar (text : List Nat) (plain : Bool)
deriving Repr, DecidableEq

/-- What can be read of a text: tokens, and the fault that comes behind them if there is one. -/
structure Stream where
  tokens : List Token
  fault : Option Fault
deriving Repr, DecidableEq

end StructAtlas.Markup
