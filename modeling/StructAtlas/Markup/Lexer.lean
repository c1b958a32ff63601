import StructAtlas.Charset.Utf8
import StructAtlas.Decimal.Number
import StructAtlas.Markup.Scalar

set_option autoImplicit false

/-!
# Cutting configuration markup into tokens

The lexer walks over the text once. It keeps the columns of the open blocks, innermost first, and
closes blocks when a line is indented less. Inside brackets indentation does not count.

Whether a node is a key shows only at the colon behind it. So the lexer remembers where a key may
have begun and inserts the token for it when the colon comes. A key has to fit into one line and
into `keyReach` characters. A node at the indentation of its block has to become a key.

Tokens are handed out as soon as nothing can be inserted before them any more. So the tokens before
a fault can be acted on before the fault shows (`tokens`).
-/

namespace StructAtlas.Markup

/-- How many characters a key and what comes before its colon may have. -/
def keyReach : Nat := 1024

/-- A node that may or has to turn out to be a key, with the number of tokens before it. -/
structure PendingKey where
  position : Nat
  required : Bool
  start : Cursor

/-- The state of the lexer: the unread text, the tokens not yet handed out and the number of those
that are, the columns of the open blocks and the possible keys before open brackets, both innermost
first, the possible key at the current depth, whether a key may begin here, and whether the end is
reached. -/
structure Lexer where
  cursor : Cursor
  queue : List Token
  taken : Nat
  indents : List Int
  keyAllowed : Bool
  pending : Option PendingKey
  outer : List (Option PendingKey)
  done : Bool

namespace Lexer

/-- The beginning of a text. -/
def ofText (cs : List Char) : Lexer :=
  let start := Cursor.ofText cs
  ⟨if start.isAt byteOrderMark then start.next else start, [], 0, [], true, none, [], false⟩

/-- Whether the text is inside brackets. -/
def inFlow (l : Lexer) : Bool :=
  !l.outer.isEmpty

/-- The column of the innermost open block. -/
def indent (l : Lexer) : Int :=
  l.indents.headD (-1)

/-- The current column. -/
def column (l : Lexer) : Int :=
  l.cursor.column

/-- Adds a token. -/
def emit (l : Lexer) (t : Token) : Lexer :=
  { l with queue := l.queue ++ [t] }

/-- Adds a token for a number of characters. -/
def take (l : Lexer) (n : Nat) (t : Token) : Lexer :=
  { l.emit t with cursor := l.cursor.skip n }

/-- Inserts tokens before a position. -/
def insert (l : Lexer) (position : Nat) (ts : List Token) : Lexer :=
  let n := position - l.taken
  { l with queue := l.queue.take n ++ ts ++ l.queue.drop n }

/-- Skips spaces, comments and line ends before the next token. Behind a line end a key may begin.
-/
def skipGaps : Nat → Lexer → Lexer
  | 0, l => l
  | fuel + 1, l =>
    let c := l.cursor.dropWhile (· == ' ')
    let c := if c.isAt '#' then c.dropWhile fun x => !isBreak x else c
    match c.takeBreak? with
    | some (_, c) => skipGaps fuel { l with cursor := c, keyAllowed := l.keyAllowed || !l.inFlow }
    | none => { l with cursor := c }

/-- Whether a possible key is out of reach. -/
def isStale (l : Lexer) (k : PendingKey) : Bool :=
  k.start.line != l.cursor.line || keyReach < l.cursor.index - k.start.index

/-- A possible key that is still in reach. -/
def freshKey (l : Lexer) : Option PendingKey → Except Fault (Option PendingKey)
  | none => .ok none
  | some k =>
    if !l.isStale k then .ok (some k) else if k.required then .error .malformed else .ok none

/-- Forgets the possible keys that are out of reach. -/
def dropStale (l : Lexer) : Except Fault Lexer := do
  let pending ← l.freshKey l.pending
  let outer ← l.outer.mapM l.freshKey
  return { l with pending, outer }

/-- Forgets the possible key at the current depth. -/
def dropKey (l : Lexer) : Except Fault Lexer :=
  match l.pending with
  | some k => if k.required then .error .malformed else .ok { l with pending := none }
  | none => .ok l

/-- Remembers that a key may begin here. -/
def saveKey (l : Lexer) : Except Fault Lexer :=
  if l.keyAllowed then do
    let required := !l.inFlow && l.indent == l.column
    let key : PendingKey := ⟨l.taken + l.queue.length, required, l.cursor⟩
    return { ← l.dropKey with pending := some key }
  else .ok l

/-- Splits off the blocks that stand further right than a column. -/
def closed (column : Int) : List Int → Nat × List Int
  | [] => (0, [])
  | i :: is =>
    if column < i then
      let r := closed column is
      (r.1 + 1, r.2)
    else (0, i :: is)

/-- Closes the blocks that stand further right than a column. -/
def unwind (l : Lexer) (column : Int) : Lexer :=
  if l.inFlow then l
  else
    let (n, indents) := closed column l.indents
    { l with queue := l.queue ++ List.replicate n .blockEnd, indents }

/-- Opens a block at a column, if the column is further right than the innermost block. -/
def openBlock (l : Lexer) (column : Int) : Lexer × Bool :=
  if l.indent < column then ({ l with indents := column :: l.indents }, true) else (l, false)

/-- Opens a block at the current column outside of brackets, where one may begin. -/
def openHere (l : Lexer) (start : Token) : Except Fault Lexer :=
  if l.inFlow then .ok l
  else if !l.keyAllowed then .error .malformed
  else
    let (l, isNew) := l.openBlock l.column
    .ok (if isNew then l.emit start else l)

/-- Ends all blocks and the possible key, before a mark of the document. -/
def endBlocks (l : Lexer) : Except Fault Lexer := do
  return { ← (l.unwind (-1)).dropKey with keyAllowed := false }

/-- Takes an opening bracket. -/
def openBracket (l : Lexer) (t : Token) : Except Fault Lexer := do
  let l ← l.saveKey
  return { l.take 1 t with keyAllowed := true, pending := none, outer := l.pending :: l.outer }

/-- Takes a closing bracket. -/
def closeBracket (l : Lexer) (t : Token) : Except Fault Lexer := do
  let l ← l.dropKey
  match l.outer with
  | pending :: outer => return { l.take 1 t with keyAllowed := false, pending, outer }
  | [] => throw .malformed

/-- Takes a comma. -/
def comma (l : Lexer) : Except Fault Lexer := do
  return { (← l.dropKey).take 1 .comma with keyAllowed := true }

/-- Takes the dash before an item. -/
def dash (l : Lexer) : Except Fault Lexer := do
  let l ← (← l.openHere .sequenceStart).dropKey
  return { l.take 1 .dash with keyAllowed := true }

/-- Takes the question mark before a key. -/
def question (l : Lexer) : Except Fault Lexer := do
  let l ← (← l.openHere .mappingStart).dropKey
  return { l.take 1 .key with keyAllowed := !l.inFlow }

/-- Takes the colon before a value. A possible key becomes one, and opens a mapping if it stands
further right than the innermost block. -/
def colon (l : Lexer) : Except Fault Lexer :=
  match l.pending with
  | some k =>
    let (l, isNew) := if l.inFlow then (l, false) else l.openBlock k.start.column
    let marks : List Token := if isNew then [.mappingStart, .key] else [.key]
    .ok { (l.insert k.position marks).take 1 .value with pending := none, keyAllowed := false }
  | none => do
    let l ← l.openHere .mappingStart
    return { l.take 1 .value with keyAllowed := !l.inFlow }

/-- Characters of the names of anchors and directives. -/
def isNameChar (c : Char) : Bool :=
  c.isAlphanum || c == '-' || c == '_'

/-- Takes an anchor or a reference to one. -/
def anchor (l : Lexer) (make : String → Token) : Except Fault Lexer := do
  let l ← l.saveKey
  let (name, after) := l.cursor.next.takeWhile isNameChar
  let ends := after.rest.head?.all fun c => isGap c || "?:,]\x7d%@`".toList.contains c
  if name.isEmpty || !ends then throw .malformed
  return { l.emit (make (String.ofList name)) with cursor := after, keyAllowed := false }

/-- Characters of a tag. -/
def isTagChar (c : Char) : Bool :=
  c.isAlphanum || "-;/?:@&=+$,_.!~*'()[]%".toList.contains c

/-- The bytes that escapes at the beginning of a text stand for, and the text behind them. An escape
is a percent sign and two hexadecimal digits. -/
def escapedBytes : List Char → Option (List UInt8 × List Char)
  | '%' :: a :: b :: cs => do
    let byte := UInt8.ofNat ((← Text.hexValue? a) * 16 + (← Text.hexValue? b))
    let (bytes, rest) ← escapedBytes cs
    return (byte :: bytes, rest)
  | '%' :: _ => none
  | cs => some ([], cs)

/-- The text of a tag with its escapes resolved; the first argument bounds the number of steps. -/
def resolveEscapes : Nat → List Char → Option (List Char)
  | 0, _ => none
  | _ + 1, [] => some []
  | fuel + 1, '%' :: cs =>
    match escapedBytes ('%' :: cs) with
    | none => none
    | some (bytes, rest) =>
      match Charset.Utf8.decode bytes, resolveEscapes fuel rest with
      | .ok own, some more => some (own ++ more)
      | _, _ => none
  | fuel + 1, c :: cs => (resolveEscapes fuel cs).map (c :: ·)

/-- Takes the characters of a tag; there has to be one. -/
def takeTagText (c : Cursor) : Except Fault (String × Cursor) :=
  let (text, c) := c.takeWhile isTagChar
  match resolveEscapes (text.length + 1) text with
  | some resolved => if text.isEmpty then .error .malformed else .ok (String.ofList resolved, c)
  | none => .error .malformed

/-- Takes a handle, which begins and ends with an exclamation mark. Before a space one mark is
enough. -/
def takeHandle (c : Cursor) : Except Fault (String × Cursor) :=
  if !c.isAt '!' then .error .malformed
  else if c.next.isAt ' ' then .ok ("!", c.next)
  else
    let (middle, c) := c.next.takeWhile isNameChar
    if c.isAt '!' then .ok ("!" ++ String.ofList middle ++ "!", c.next) else .error .malformed

/-- Takes the name of a tag at its exclamation mark. -/
def tagName (c : Cursor) : Except Fault (TagName × Cursor) := do
  let after := c.next
  if after.isAt '<' then
    let (name, c) ← takeTagText after.next
    if c.isAt '>' then return (⟨none, name⟩, c.next) else throw .malformed
  else if atGap after.rest then return (⟨none, "!"⟩, after)
  else if (after.rest.takeWhile fun x => !(x == ' ' || isBreak x)).contains '!' then
    let (handle, c) ← takeHandle c
    let (suffix, c) ← takeTagText c
    return (⟨some handle, suffix⟩, c)
  else
    let (suffix, c) ← takeTagText after
    return (⟨some "!", suffix⟩, c)

/-- Takes a tag. -/
def tag (l : Lexer) : Except Fault Lexer := do
  let l ← l.saveKey
  let (name, after) ← tagName l.cursor
  if !atSpace after.rest then throw .malformed
  return { l.emit (.tag name) with cursor := after, keyAllowed := false }

/-- Takes a block scalar. -/
def blockScalar (l : Lexer) (folded : Bool) : Except Fault Lexer := do
  let l ← l.dropKey
  let (text, after) ← Scalar.block folded l.indent l.cursor
  return { l.emit (.scalar (Text.codes text) false) with cursor := after, keyAllowed := true }

/-- Takes a scalar in quotes. -/
def quotedScalar (l : Lexer) (quote : Char) : Except Fault Lexer := do
  let l ← l.saveKey
  let (text, after) ← Scalar.quoted quote l.cursor
  return { l.emit (.scalar text false) with cursor := after, keyAllowed := false }

/-- Whether a plain scalar begins at a text. -/
def startsPlain (inFlow : Bool) : List Char → Bool
  | [] => false
  | c :: cs =>
    !(isGap c || "-?:,[]\x7b\x7d#&*!|>'\"%@`".toList.contains c)
      || (!atGap cs && (c == '-' || (!inFlow && (c == '?' || c == ':'))))

/-- Takes a plain scalar. -/
def plainScalar (l : Lexer) : Except Fault Lexer := do
  let l ← l.saveKey
  let (text, crossed, after) := Scalar.plain l.inFlow (l.indent + 1) l.cursor
  return { l.emit (.scalar (Text.codes text) true) with cursor := after, keyAllowed := crossed }

/-- Takes one number of a version. -/
def versionNumber (c : Cursor) : Except Fault (Nat × Cursor) :=
  let (digits, c) := c.takeWhile Char.isDigit
  if digits.isEmpty then .error .malformed
  else if Decimal.digitLimit < digits.length then .error (.tooLong digits.length)
  else .ok ((Text.digitsValue? digits 0).getD 0, c)

/-- Takes the version behind the name of its directive. Only the part before the point is kept. -/
def version (c : Cursor) : Except Fault (Directive × Cursor) := do
  let (major, c) ← versionNumber (c.dropWhile (· == ' '))
  if !c.isAt '.' then throw .malformed
  let (_, c) ← versionNumber c.next
  if atSpace c.rest then return (.version major, c) else throw .malformed

/-- Takes a handle and what it stands for behind the name of its directive. -/
def handle (c : Cursor) : Except Fault (Directive × Cursor) := do
  let (name, c) ← takeHandle (c.dropWhile (· == ' '))
  if !c.isAt ' ' then throw .malformed
  let (expansion, c) ← takeTagText (c.dropWhile (· == ' '))
  if atSpace c.rest then return (.handle name expansion, c) else throw .malformed

/-- Takes a directive. -/
def directive (l : Lexer) : Except Fault Lexer := do
  let l ← l.endBlocks
  let (name, c) := l.cursor.next.takeWhile isNameChar
  if name.isEmpty || !atSpace c.rest then throw .malformed
  let (d, c) ←
    if name == "YAML".toList then version c
    else if name == "TAG".toList then handle c
    else pure (Directive.other, c.dropWhile fun x => !isBreak x)
  return { l.emit (.directive d) with cursor := ← Scalar.ignoredLine c }

/-- Takes a mark of the document. -/
def documentMark (l : Lexer) (t : Token) : Except Fault Lexer := do
  return (← l.endBlocks).take 3 t

/-- Takes the token at a character. -/
def token (l : Lexer) (c : Char) (cs : List Char) : Except Fault Lexer :=
  let next := atGap cs
  if c == '%' && l.cursor.column == 0 then l.directive
  else if c == '-' && l.cursor.column == 0 && l.cursor.isAtMark then l.documentMark .documentStart
  else if c == '.' && l.cursor.column == 0 && l.cursor.isAtMark then l.documentMark .documentEnd
  else if c == '[' then l.openBracket .listOpen
  else if c == '\x7b' then l.openBracket .mapOpen
  else if c == ']' then l.closeBracket .listClose
  else if c == '\x7d' then l.closeBracket .mapClose
  else if c == ',' then l.comma
  else if c == '-' && next then l.dash
  else if c == '?' && (l.inFlow || next) then l.question
  else if c == ':' && (l.inFlow || next) then l.colon
  else if c == '*' then l.anchor .reference
  else if c == '&' then l.anchor .anchor
  else if c == '!' then l.tag
  else if c == '|' && !l.inFlow then l.blockScalar false
  else if c == '>' && !l.inFlow then l.blockScalar true
  else if c == '\'' || c == '"' then l.quotedScalar c
  else if startsPlain l.inFlow (c :: cs) then l.plainScalar
  else .error .malformed

/-- Takes the next token, or ends the stream. -/
def step (l : Lexer) : Except Fault Lexer := do
  let l ← (skipGaps (l.cursor.rest.length + 1) l).dropStale
  let l := l.unwind l.column
  match l.cursor.rest with
  | [] => return { ← l.endBlocks with done := true }
  | c :: cs => l.token c cs

/-- Whether a possible key stands at the next token to hand out, so that tokens may still come
before it. -/
def isHeld (l : Lexer) : Bool :=
  (l.pending :: l.outer).any fun k => k.any (·.position == l.taken)

/-- Whether more text has to be looked at before a token can be handed out. -/
def needsMore (l : Lexer) : Except Fault (Bool × Lexer) := do
  if l.done then return (false, l)
  if l.queue.isEmpty then return (true, l)
  let l ← l.dropStale
  return (l.isHeld, l)

/-- Hands out tokens up to the end of the text or to a fault. The tokens handed out so far are
given, the last one first. -/
def run : Nat → Lexer → List Token → Stream
  | 0, _, out => ⟨out.reverse, some .malformed⟩
  | fuel + 1, l, out =>
    match l.needsMore with
    | .error fault => ⟨out.reverse, some fault⟩
    | .ok (true, l) =>
      match l.step with
      | .ok l => run fuel l out
      | .error fault => ⟨out.reverse, some fault⟩
    | .ok (false, l) =>
      match l.queue with
      | [] => ⟨out.reverse, none⟩
      | t :: ts => run fuel { l with queue := ts, taken := l.taken + 1 } (t :: out)

end Lexer

/-- The characters that a text may hold. -/
def isAllowed (c : Char) : Bool :=
  let n := c.toNat
  n == 0x9 || n == 0xa || n == 0xd || (0x20 ≤ n && n ≤ 0x7e) || n == 0x85
    || (0xa0 ≤ n && n ≤ 0xfffd) || 0x10000 ≤ n

/-- The tokens of a text. At most one step is taken for every character and at most four tokens come
of a step, apart from ends of blocks, of which there are as many as beginnings. -/
def tokens (cs : List Char) : Stream :=
  if cs.all isAllowed then (Lexer.ofText cs).run (6 * cs.length + 8) [] else ⟨[], some .malformed⟩

end StructAtlas.Markup
