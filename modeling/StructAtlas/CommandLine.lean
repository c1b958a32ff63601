import StructAtlas.Decimal.Number

set_option autoImplicit false

/-!
# The command line

A command line names a command and then its options. Long options may be shortened as long as only
one fits. The value of an option is the next argument or stands behind an equals sign; behind the
letter of a short option it may follow directly. Short options without value may be written
together. Two dashes in the place of an attached value give the option no text at all.

Arguments are sorted into kinds before any of them is acted on, so a shortened option that fits
several ones is refused first. Then they are read from left to right. Help and misuse end the
reading; arguments that fit nowhere are misuse too, but only at the end.
-/

namespace StructAtlas

/-- The commands. -/
inductive Command where
  | analyze
  | generate
deriving Repr, DecidableEq

/-- What an option is set to: a text, a number, or no text at all. -/
inductive Setting where
  | text (s : String)
  | count (n : Int)
  | empty
deriving Repr, DecidableEq

/-- What a command line asks for. -/
structure Options where
  command : Command
  config : Setting
  sourceRoot : Option Setting
  outputDir : Option Setting
  logLevel : Option Setting
  topCount : Option Setting
deriving Repr, DecidableEq

namespace CommandLine

/-- The options. -/
inductive Flag where
  | help
  | config
  | sourceRoot
  | outputDir
  | logLevel
  | topCount
deriving Repr, DecidableEq

/-- What comes of a command line. -/
inductive Outcome where
  | run (options : Options)
  | help
  | misuse
  | noCommand
deriving Repr, DecidableEq

/-- The options before a command. -/
def mainFlags : List (String × Flag) :=
  [("-h", .help), ("--help", .help)]

/-- The options of every command. -/
def commonFlags : List (String × Flag) :=
  mainFlags ++ [("-c", .config), ("--config", .config), ("--source-root", .sourceRoot),
    ("--output-dir", .outputDir), ("--log-level", .logLevel)]

/-- The options of a command. -/
def flagsOf : Command → List (String × Flag)
  | .analyze => commonFlags
  | .generate => commonFlags ++ [("--top-n", .topCount)]

/-- The command of a name. -/
def commandOf? (name : String) : Option Command :=
  if name == "analyze" then some .analyze
  else if name == "generate" then some .generate
  else none

/-- The options that a command line starts from. -/
def start (command : Command) : Options :=
  ⟨command, .text "config.yaml", none, none, none, none⟩

/-! ## Kinds of arguments -/

/-- The kinds of arguments: a value or a command, the two dashes behind which nothing is an option,
an option with the text attached to it, and an option that does not exist. -/
inductive Kind where
  | plain
  | divider
  | option (flag : Flag) (short : Bool) (attached : Option (List Char))
  | unknown
deriving Repr, DecidableEq

/-- An argument with its kind. -/
structure Argument where
  text : String
  kind : Kind
deriving Repr, DecidableEq

/-- Whether a text is a negative number. A line feed at its end does not count. -/
def isNegative (cs : List Char) : Bool :=
  let body := if cs.getLast? == some '\n' then cs.dropLast else cs
  match body with
  | '-' :: number =>
    match Text.splitFirst? '.' number with
    | none => !number.isEmpty && number.all Text.isDecimal
    | some (whole, fraction) =>
      whole.all Text.isDecimal && !fraction.isEmpty && fraction.all Text.isDecimal
  | _ => false

/-- The part before the first equals sign and the part behind it. -/
def splitEquals (cs : List Char) : List Char × Option (List Char) :=
  match Text.splitFirst? '=' cs with
  | some (before, after) => (before, some after)
  | none => (cs, none)

/-- The options that a shortened or joined option may stand for. -/
def readings (flags : List (String × Flag)) (cs : List Char) : List Kind :=
  match cs with
  | '-' :: '-' :: _ =>
    let (start, attached) := splitEquals cs
    flags.filterMap fun f =>
      if Text.startsWith start f.1.toList then some (.option f.2 false attached) else none
  | '-' :: c :: rest =>
    flags.filterMap fun f =>
      if f.1.toList == ['-', c] then some (.option f.2 true (some rest)) else none
  | _ => []

/-- Whether an option is written with a single dash. -/
def isShort (cs : List Char) : Bool :=
  cs.tail.head? != some '-'

/-- The kind of an argument that begins with a dash and is not a known option as a whole. -/
def dashedKind (flags : List (String × Flag)) (cs : List Char) : Option Kind :=
  let (before, attached) := splitEquals cs
  match attached, flags.lookup (String.ofList before) with
  | some text, some flag => some (.option flag (isShort before) (some text))
  | _, _ =>
    match readings flags cs with
    | [kind] => some kind
    | [] => some (if isNegative cs || cs.contains ' ' then .plain else .unknown)
    | _ => none

/-- The kind of an argument; there is none if several options fit. -/
def kindOf (flags : List (String × Flag)) (arg : String) : Option Kind :=
  match arg.toList with
  | '-' :: c :: cs =>
    match flags.lookup arg with
    | some flag => some (.option flag (c != '-') none)
    | none => dashedKind flags ('-' :: c :: cs)
  | _ => some .plain

/-- Sorts arguments into kinds. Nothing behind the divider is an option. -/
def sort (flags : List (String × Flag)) : List String → Option (List Argument)
  | [] => some []
  | arg :: args =>
    if arg == "--" then some (⟨arg, .divider⟩ :: args.map fun a => ⟨a, .plain⟩)
    else
      match kindOf flags arg, sort flags args with
      | some kind, some rest => some (⟨arg, kind⟩ :: rest)
      | _, _ => none

/-! ## Reading from left to right -/

/-- What an option asks for: help, nothing because something is attached that it does not take, the
attached value, the next argument as its value, or help provided that the next argument is a value.
-/
inductive Request where
  | help
  | refused
  | given (text : List Char)
  | wanted
  | helpIfValue
deriving Repr, DecidableEq

/-- What the text attached to a short help option asks for. It is made of the letters of further
short options; the last of them may take a value. -/
def helpTail (flags : List (String × Flag)) : List Char → Request
  | [] => .help
  | c :: cs =>
    match flags.lookup (String.ofList ['-', c]) with
    | none => .refused
    | some .help => helpTail flags cs
    | some _ => if cs.isEmpty then .helpIfValue else .help

/-- What an option asks for. -/
def request (flags : List (String × Flag)) (flag : Flag) (short : Bool) :
    Option (List Char) → Request
  | none => if flag == .help then .help else .wanted
  | some text =>
    if flag != .help then .given text
    else if !short || text.isEmpty then .refused
    else helpTail flags text

/-- What an option is set to by a text. -/
def settingOf? (flag : Flag) (text : String) : Option Setting :=
  if flag == .topCount then (Decimal.readInt text.toList).toOption.map .count else some (.text text)

/-- What an option is set to by the text attached to it. -/
def attachedSetting? (flag : Flag) (text : List Char) : Option Setting :=
  if text == ['-', '-'] then some .empty else settingOf? flag (String.ofList text)

/-- The options with one option set. -/
def set (o : Options) (flag : Flag) (value : Setting) : Options :=
  match flag with
  | .help => o
  | .config => { o with config := value }
  | .sourceRoot => { o with sourceRoot := some value }
  | .outputDir => { o with outputDir := some value }
  | .logLevel => { o with logLevel := some value }
  | .topCount => { o with topCount := some value }

/-- Reads the arguments of a command. The flag says that an argument fitted nowhere. -/
def read (flags : List (String × Flag)) : List Argument → Options → Bool → Outcome
  | [], o, leftover => if leftover then .misuse else .run o
  | ⟨_, .divider⟩ :: _, _, _ => .misuse
  | ⟨_, .plain⟩ :: args, o, _ => read flags args o true
  | ⟨_, .unknown⟩ :: args, o, _ => read flags args o true
  | ⟨_, .option flag short attached⟩ :: args, o, leftover =>
    match request flags flag short attached, args with
    | .help, _ => .help
    | .refused, _ => .misuse
    | .given text, args =>
      match attachedSetting? flag text with
      | some value => read flags args (set o flag value) leftover
      | none => .misuse
    | .wanted, ⟨text, .plain⟩ :: args =>
      match settingOf? flag text with
      | some value => read flags args (set o flag value) leftover
      | none => .misuse
    | .wanted, _ => .misuse
    | .helpIfValue, ⟨_, .plain⟩ :: _ => .help
    | .helpIfValue, _ => .misuse

/-- Reads the arguments behind a command. -/
def readCommand (command : Command) (args : List String) : Outcome :=
  match sort (flagsOf command) args with
  | some sorted => read (flagsOf command) sorted (start command) false
  | none => .misuse

/-- Reads a whole command line. The flag says that an argument fitted nowhere. -/
def readMain : List Argument → Bool → Outcome
  | [], leftover => if leftover then .misuse else .noCommand
  | ⟨_, .divider⟩ :: _, _ => .misuse
  | ⟨_, .unknown⟩ :: args, _ => readMain args true
  | ⟨_, .option flag short attached⟩ :: _, _ =>
    match request mainFlags flag short attached with
    | .help => .help
    | _ => .misuse
  | ⟨name, .plain⟩ :: args, leftover =>
    match commandOf? name with
    | none => .misuse
    | some command =>
      match readCommand command (args.map (·.text)) with
      | .run o => if leftover then .misuse else .run o
      | outcome => outcome

/-- What comes of a command line. -/
def parse (args : List String) : Outcome :=
  match sort mainFlags args with
  | some sorted => readMain sorted false
  | none => .misuse

end CommandLine

end StructAtlas
