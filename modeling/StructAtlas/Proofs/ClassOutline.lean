import StructAtlas.Proofs.BraceGroups
import StructAtlas.Proofs.JavaTokens

set_option autoImplicit false

/-!
# What the lines of a class say

A line of the body of a Java class declares a field, opens or declares a constructor, assigns to a
field or declares an accessor; it is read from its tokens alone (`Java.Member.read`). The lines of a
rendered class read as its `JavaClass.outline`, in this order (`JavaClass.filterMap_read_inside`):
the fields, the constructors with the assignments, and the accessors. The outline repeats the list
of fields four times, in one order (`JavaClass.filterMap_field?_outline` and its neighbours).

No line holds a line feed, and the braces of all lines together are matched
(`JavaClass.isClosed_inside`).
-/

namespace StructAtlas

namespace Java

open Text Body

/-! ## Members -/

/-- What a line of the body of a class says. -/
inductive Member where
  | field (type name : String)
  | constructor (name : String) (parameters : List (String × String))
  | assignment (target source : String)
  | getter (type method source : String)
  | setter (method type parameter target source : String)
deriving DecidableEq

/-- The parameters of a constructor, from the tokens behind its opening bracket. -/
def parameterPairs : List String → List (String × String)
  | type :: name :: "," :: rest => (type, name) :: parameterPairs rest
  | [type, name, ")", "\x7b"] => [(type, name)]
  | _ => []

namespace Member

/-- Reads the tokens of a line. -/
def ofTokens? : List String → Option Member
  | ["private", type, name, ";"] => some (.field type name)
  | "public" :: name :: "(" :: rest => some (.constructor name (parameterPairs rest))
  | ["this", ".", target, "=", source, ";"] => some (.assignment target source)
  | ["public", type, method, "(", ")", "\x7b", "return", source, ";", "\x7d"] =>
    some (.getter type method source)
  | ["public", "void", method, "(", type, parameter, ")", "\x7b", "this", ".", target, "=", source,
      ";", "\x7d"] => some (.setter method type parameter target source)
  | _ => none

/-- Reads a line. -/
def read (line : List Char) : Option Member :=
  ofTokens? ((tokens line).map String.ofList)

theorem ofTokens?_getter {method : String} (h : method ≠ "(") (type source : String) :
    ofTokens? ["public", type, method, "(", ")", "\x7b", "return", source, ";", "\x7d"]
      = some (.getter type method source) := by
  rw [ofTokens?]
  exact h

theorem ofTokens?_setter {method : String} (h : method ≠ "(")
    (type parameter target source : String) :
    ofTokens? ["public", "void", method, "(", type, parameter, ")", "\x7b", "this", ".", target,
        "=", source, ";", "\x7d"]
      = some (.setter method type parameter target source) := by
  rw [ofTokens?]
  exact h

theorem read_toList (line : String) : read line.toList = ofTokens? (tokensOf line) :=
  rfl

/-- The type and the name of a private field. -/
def field? : Member → Option (String × String)
  | .field type name => some (type, name)
  | _ => none

/-- The types and names of the parameters of a constructor. -/
def parameters : Member → List (String × String)
  | .constructor _ parameters => parameters
  | _ => []

/-- The target and the source of an assignment. -/
def assignment? : Member → Option (String × String)
  | .assignment target source => some (target, source)
  | _ => none

/-- Whether a method reads or sets a field. -/
def isAccessor : Member → Bool
  | .getter .. => true
  | .setter .. => true
  | _ => false

end Member

end Java

/-! ## Classes with proper names -/

open Text Java

/-- A field whose name and Java type are words. -/
structure JavaField.IsSpelled (f : JavaField) : Prop where
  name : IsName f.name.toList
  type : IsToken f.type.render.toList

namespace JavaField.IsSpelled

variable {f : JavaField}

theorem token (h : f.IsSpelled) : IsToken f.name.toList :=
  isToken_of_isName h.name

theorem getter (h : f.IsSpelled) : IsToken (Naming.getter f.name).toList :=
  isToken_getter h.name

theorem setter (h : f.IsSpelled) : IsToken (Naming.setter f.name).toList :=
  isToken_setter h.name

end JavaField.IsSpelled

namespace JavaClass

variable {c : JavaClass} {f : JavaField} {fs : List JavaField}

/-! ## Tokens of the lines -/

theorem tokensOf_indent (b : String) : tokensOf (indent ++ b) = tokensOf b := by
  rw [tokensOf_lead (by decide)]
  rfl

theorem tokensOf_public (b : String) : tokensOf ("public " ++ b) = "public" :: tokensOf b := by
  rw [tokensOf_lead (by decide)]
  rfl

theorem tokensOf_space {w : String} (hw : IsToken w.toList) (b : String) :
    tokensOf (w ++ (" " ++ b)) = w :: tokensOf b := by
  rw [tokensOf_piece hw (by decide)]
  rfl

/-- The tokens of the line that declares a field. -/
def fieldTokens (f : JavaField) : List String :=
  ["private", f.type.render, f.name, ";"]

theorem tokensOf_fieldLine (h : f.IsSpelled) : tokensOf (fieldLine f) = fieldTokens f := by
  simp only [fieldLine, String.append_assoc]
  rw [tokensOf_indent, tokensOf_lead (by decide), tokensOf_space h.type,
    tokensOf_last h.token (by decide)]
  rfl

/-- The line of the constructor without parameters. -/
def emptyConstructorLine (name : String) : String :=
  indent ++ "public " ++ name ++ "() \x7b\x7d"

theorem tokensOf_emptyConstructorLine {name : String} (h : IsToken name.toList) :
    tokensOf (emptyConstructorLine name) = ["public", name, "(", ")", "\x7b", "\x7d"] := by
  simp only [emptyConstructorLine, String.append_assoc]
  rw [tokensOf_indent, tokensOf_public, tokensOf_last h (by decide)]
  rfl

/-- The line that opens the constructor for all fields. -/
def constructorLine (name : String) (fs : List JavaField) : String :=
  indent ++ "public " ++ name ++ "(" ++ ", ".intercalate (fs.map parameter) ++ ") \x7b"

/-- The tokens of the parameters of a constructor and of what follows them. -/
def parameterTokens : List JavaField → List String
  | [] => [")", "\x7b"]
  | [f] => [f.type.render, f.name, ")", "\x7b"]
  | f :: fs => f.type.render :: f.name :: "," :: parameterTokens fs

theorem tokensOf_parameters (h : ∀ f ∈ fs, f.IsSpelled) :
    tokensOf (", ".intercalate (fs.map parameter) ++ ") \x7b") = parameterTokens fs := by
  induction fs with
  | nil => rfl
  | cons f fs ih =>
    have hf := h f List.mem_cons_self
    cases fs with
    | nil =>
      rw [List.map_singleton, String.intercalate_singleton]
      simp only [parameter, String.append_assoc]
      rw [tokensOf_space hf.type, tokensOf_last hf.token (by decide)]
      rfl
    | cons g fs =>
      have hrest := ih fun f' hf' => h f' (List.mem_cons_of_mem _ hf')
      rw [List.map_cons, List.map_cons, String.intercalate_cons_cons, ← List.map_cons, parameter]
      simp only [String.append_assoc]
      rw [tokensOf_space hf.type, tokensOf_piece hf.token (by decide), hrest]
      rfl

theorem tokensOf_constructorLine {name : String} (hname : IsToken name.toList)
    (h : ∀ f ∈ fs, f.IsSpelled) :
    tokensOf (constructorLine name fs) = "public" :: name :: "(" :: parameterTokens fs := by
  simp only [constructorLine, String.append_assoc]
  rw [tokensOf_indent, tokensOf_public, tokensOf_piece hname (by decide), tokensOf_parameters h]
  rfl

/-- The tokens of the line that assigns a parameter to its field. -/
def assignmentTokens (f : JavaField) : List String :=
  ["this", ".", f.name, "=", f.name, ";"]

theorem tokensOf_assignment (h : f.IsSpelled) : tokensOf (assignment f) = assignmentTokens f := by
  simp only [assignment, String.append_assoc]
  rw [tokensOf_indent, tokensOf_indent, tokensOf_lead (by decide),
    tokensOf_piece h.token (by decide), tokensOf_last h.token (by decide)]
  rfl

/-- The line of the method that reads a field. -/
def getterLine (f : JavaField) : String :=
  indent ++ "public " ++ f.type.render ++ " " ++ Naming.getter f.name ++ "() \x7b return "
    ++ f.name ++ "; \x7d"

/-- The line of the method that sets a field. -/
def setterLine (f : JavaField) : String :=
  indent ++ "public void " ++ Naming.setter f.name ++ "(" ++ parameter f ++ ") \x7b this."
    ++ f.name ++ " = " ++ f.name ++ "; \x7d"

/-- The tokens of the lines of the accessors of a field. -/
def accessorTokens (f : JavaField) : List (List String) :=
  [[],
   ["public", f.type.render, Naming.getter f.name, "(", ")", "\x7b", "return", f.name, ";", "\x7d"],
   ["public", "void", Naming.setter f.name, "(", f.type.render, f.name, ")", "\x7b", "this", ".",
    f.name, "=", f.name, ";", "\x7d"]]

theorem tokensOf_accessorLines (h : f.IsSpelled) :
    (accessorLines f).map tokensOf = accessorTokens f := by
  have hgetter : tokensOf (getterLine f) = ["public", f.type.render, Naming.getter f.name, "(", ")",
      "\x7b", "return", f.name, ";", "\x7d"] := by
    simp only [getterLine, String.append_assoc]
    rw [tokensOf_indent, tokensOf_public, tokensOf_space h.type,
      tokensOf_piece h.getter (by decide), tokensOf_last h.token (by decide)]
    rfl
  have hsetter : tokensOf (setterLine f) = ["public", "void", Naming.setter f.name, "(",
      f.type.render, f.name, ")", "\x7b", "this", ".", f.name, "=", f.name, ";", "\x7d"] := by
    simp only [setterLine, parameter, String.append_assoc]
    rw [tokensOf_indent, tokensOf_lead (by decide), tokensOf_piece h.setter (by decide),
      tokensOf_space h.type, tokensOf_piece h.token (by decide),
      tokensOf_piece h.token (by decide), tokensOf_last h.token (by decide)]
    rfl
  have hlines : accessorLines f = ["", getterLine f, setterLine f] := rfl
  rw [hlines, List.map_cons, List.map_cons, List.map_cons, hgetter, hsetter]
  rfl

/-! ## The body of a class -/

/-- The lines between the braces of a class. -/
def inside (c : JavaClass) : List String :=
  c.fields.map fieldLine ++ (if c.fields.isEmpty then [] else [""])
    ++ [emptyConstructorLine c.name.shown] ++ constructorLines c ++ c.fields.flatMap accessorLines

theorem render_eq (c : JavaClass) (isPublic : Bool) :
    c.render isPublic
      = ((if isPublic then "public class " else "class ") ++ c.name.shown ++ " \x7b")
        :: (c.inside ++ ["\x7d"]) := by
  simp only [render, inside, emptyConstructorLine, List.append_assoc, List.cons_append,
    List.nil_append]

/-- A class whose name is a word and whose fields are spelled with words. -/
structure IsSpelled (c : JavaClass) : Prop where
  isText : ∃ s, c.name = .text s
  name : IsToken c.name.shown.toList
  fields : ∀ f ∈ c.fields, f.IsSpelled

/-- The tokens of the lines between the braces of a class. -/
def tokenLines (c : JavaClass) : List (List String) :=
  c.fields.map fieldTokens ++ (if c.fields.isEmpty then [] else [[]])
    ++ [["public", c.name.shown, "(", ")", "\x7b", "\x7d"]]
    ++ (if c.fields.isEmpty then []
      else
        [[], "public" :: c.name.shown :: "(" :: parameterTokens c.fields]
          ++ c.fields.map assignmentTokens ++ [["\x7d"]])
    ++ c.fields.flatMap accessorTokens

theorem tokensOf_inside (h : c.IsSpelled) : c.inside.map tokensOf = c.tokenLines := by
  have hfields : (c.fields.map fieldLine).map tokensOf = c.fields.map fieldTokens := by
    rw [List.map_map]
    exact List.map_congr_left fun f hf => tokensOf_fieldLine (h.fields f hf)
  have hassignments :
      (c.fields.map assignment).map tokensOf = c.fields.map assignmentTokens := by
    rw [List.map_map]
    exact List.map_congr_left fun f hf => tokensOf_assignment (h.fields f hf)
  have haccessors :
      (c.fields.flatMap accessorLines).map tokensOf = c.fields.flatMap accessorTokens := by
    rw [List.map_flatMap]
    exact List.flatMap_congr fun f hf => tokensOf_accessorLines (h.fields f hf)
  have hconstructor : (constructorLines c).map tokensOf = if c.fields.isEmpty then []
      else [[], "public" :: c.name.shown :: "(" :: parameterTokens c.fields]
        ++ c.fields.map assignmentTokens ++ [["\x7d"]] := by
    rw [constructorLines]
    split
    · rfl
    · rw [List.map_append, List.map_append, hassignments, List.map_cons, List.map_singleton,
        ← constructorLine, tokensOf_constructorLine h.name h.fields]
      rfl
  have hgap : (if c.fields.isEmpty then [] else [""]).map tokensOf
      = if c.fields.isEmpty then [] else [[]] := by
    split <;> rfl
  rw [inside, List.map_append, List.map_append, List.map_append, List.map_append, hfields, hgap,
    List.map_singleton, tokensOf_emptyConstructorLine h.name, hconstructor, haccessors, tokenLines]

/-! ## Reading the lines -/

/-- The Java types and names of the fields. -/
def pairs (c : JavaClass) : List (String × String) :=
  c.fields.map fun f => (f.type.render, f.name)

/-- What the accessors of a field say. -/
def accessors (f : JavaField) : List Member :=
  [.getter f.type.render (Naming.getter f.name) f.name,
   .setter (Naming.setter f.name) f.type.render f.name f.name f.name]

/-- What the lines between the braces of a class say. -/
def outline (c : JavaClass) : List Member :=
  c.fields.map (fun f => .field f.type.render f.name)
    ++ [.constructor c.name.shown []]
    ++ (if c.fields.isEmpty then []
      else
        .constructor c.name.shown c.pairs :: c.fields.map fun f => .assignment f.name f.name)
    ++ c.fields.flatMap accessors

theorem parameterPairs_parameterTokens (fs : List JavaField) :
    parameterPairs (parameterTokens fs) = fs.map fun f => (f.type.render, f.name) := by
  induction fs with
  | nil => rfl
  | cons f fs ih =>
    cases fs with
    | nil => rfl
    | cons g fs =>
      rw [List.map_cons, ← ih]
      rfl

theorem filterMap_accessorTokens (h : f.IsSpelled) :
    (accessorTokens f).filterMap Member.ofTokens? = accessors f := by
  have hopen : ¬ IsToken "(".toList := by decide
  have hgetter := Member.ofTokens?_getter (fun e => hopen (e ▸ h.getter)) f.type.render f.name
  have hsetter := Member.ofTokens?_setter (fun e => hopen (e ▸ h.setter)) f.type.render f.name
    f.name f.name
  rw [accessorTokens, List.filterMap_cons_none rfl, List.filterMap_cons_some hgetter,
    List.filterMap_cons_some hsetter, List.filterMap_nil, accessors]

theorem filterMap_tokenLines (h : c.IsSpelled) :
    c.tokenLines.filterMap Member.ofTokens? = c.outline := by
  have hfields : (c.fields.map fieldTokens).filterMap Member.ofTokens?
      = c.fields.map fun f => .field f.type.render f.name := by
    rw [List.filterMap_map, ← List.filterMap_eq_map]
    rfl
  have hassignments : (c.fields.map assignmentTokens).filterMap Member.ofTokens?
      = c.fields.map fun f => .assignment f.name f.name := by
    rw [List.filterMap_map, ← List.filterMap_eq_map]
    rfl
  have haccessors : (c.fields.flatMap accessorTokens).filterMap Member.ofTokens?
      = c.fields.flatMap accessors := by
    rw [List.filterMap_flatMap]
    exact List.flatMap_congr fun f hf => filterMap_accessorTokens (h.fields f hf)
  have hgap : (if c.fields.isEmpty then [] else [[]]).filterMap Member.ofTokens? = [] := by
    split <;> rfl
  have hempty : Member.ofTokens? ["public", c.name.shown, "(", ")", "\x7b", "\x7d"]
      = some (.constructor c.name.shown []) := rfl
  have hopen : Member.ofTokens? ("public" :: c.name.shown :: "(" :: parameterTokens c.fields)
      = some (.constructor c.name.shown c.pairs) := by
    rw [pairs, ← parameterPairs_parameterTokens]
    rfl
  rw [tokenLines, outline, List.filterMap_append, List.filterMap_append, List.filterMap_append,
    List.filterMap_append, hfields, hgap, haccessors, List.append_nil,
    List.filterMap_cons_some hempty, List.filterMap_nil]
  split
  · rfl
  · rw [List.filterMap_append, List.filterMap_append, hassignments, List.filterMap_cons_none rfl,
      List.filterMap_cons_some hopen, List.filterMap_cons_none rfl]
    simp

/-- The lines between the braces of a class read as its outline. -/
theorem filterMap_read_inside (h : c.IsSpelled) :
    (c.inside.map String.toList).filterMap Member.read = c.outline := by
  rw [← filterMap_tokenLines h, ← tokensOf_inside h, List.filterMap_map, List.filterMap_map]
  rfl

/-! ## The lists of fields in an outline -/

section Lists

variable (c : JavaClass)

theorem filterMap_field?_outline : c.outline.filterMap Member.field? = c.pairs := by
  have haccessors : (c.fields.flatMap accessors).filterMap Member.field? = [] := by
    simp [List.filterMap_flatMap, accessors, Member.field?]
  simp only [outline, List.filterMap_append, haccessors]
  split <;> simp [List.filterMap_map, Function.comp_def, Member.field?, pairs]

theorem flatMap_parameters_outline : c.outline.flatMap Member.parameters = c.pairs := by
  have hfields : (c.fields.map fun f => Member.field f.type.render f.name).flatMap
      Member.parameters = [] := by
    simp [List.flatMap_eq_nil_iff, Member.parameters]
  have hassignments : (c.fields.map fun f => Member.assignment f.name f.name).flatMap
      Member.parameters = [] := by
    simp [List.flatMap_eq_nil_iff, Member.parameters]
  have haccessors : (c.fields.flatMap accessors).flatMap Member.parameters = [] := by
    simp [List.flatMap_assoc, accessors, Member.parameters]
  rw [outline, List.flatMap_append, List.flatMap_append, List.flatMap_append, hfields, haccessors]
  split
  · rename_i hempty
    simp [List.isEmpty_iff.1 hempty, Member.parameters, pairs]
  · rw [List.flatMap_singleton, List.flatMap_cons, hassignments]
    simp [Member.parameters]

theorem filterMap_assignment?_outline :
    c.outline.filterMap Member.assignment? = c.fields.map fun f => (f.name, f.name) := by
  have haccessors : (c.fields.flatMap accessors).filterMap Member.assignment? = [] := by
    simp [List.filterMap_flatMap, accessors, Member.assignment?]
  simp only [outline, List.filterMap_append, haccessors]
  split
  · rename_i hempty
    simp [List.isEmpty_iff.1 hempty, Member.assignment?]
  · simp [List.filterMap_cons, List.filterMap_map, Function.comp_def, Member.assignment?]

theorem filter_isAccessor_outline :
    c.outline.filter Member.isAccessor = c.fields.flatMap accessors := by
  have haccessors : (c.fields.flatMap accessors).filter Member.isAccessor
      = c.fields.flatMap accessors := by
    simp [List.filter_flatMap, accessors]
    rfl
  simp only [outline, List.filter_append, haccessors]
  split <;> simp [List.filter_map, Function.comp_def, Member.isAccessor]

end Lists

/-! ## Line feeds and braces -/

/-- The line feeds and braces of a line. -/
def marksOf (line : String) : List Char :=
  line.toList.filter fun c => c == '\n' || decide (Field.IsBrace c)

theorem marksOf_append (a b : String) : marksOf (a ++ b) = marksOf a ++ marksOf b := by
  rw [marksOf, String.toList_append, List.filter_append]
  rfl

theorem marksOf_word {w : String} (h : IsToken w.toList) : marksOf w = [] := by
  rw [marksOf, List.filter_eq_nil_iff]
  intro c hc hmark
  have hsign : isSeparator '\n' = true ∧ isSeparator '\x7b' = true ∧ isSeparator '\x7d' = true := by
    decide
  have hc := h.2 c hc
  rcases Bool.or_eq_true_iff.1 hmark with hfeed | hbrace
  · rw [beq_iff_eq.1 hfeed, hsign.1] at hc
    cases hc
  · rcases of_decide_eq_true hbrace with rfl | rfl
    · rw [hsign.2.1] at hc
      cases hc
    · rw [hsign.2.2] at hc
      cases hc

theorem braces_toList (line : String) : Body.braces line.toList = Body.braces (marksOf line) := by
  rw [marksOf, Body.braces, Body.braces, List.filter_filter]
  refine List.filter_congr fun c _ => ?_
  by_cases hbrace : Field.IsBrace c <;> simp [hbrace]

theorem lineFeed_not_mem {line : String} (h : '\n' ∉ marksOf line) : '\n' ∉ line.toList :=
  fun hmem => h (List.mem_filter.2 ⟨hmem, rfl⟩)

/-- Lines without line feeds in which all braces are matched. -/
structure IsClosed (lines : List String) : Prop where
  lineFeed : ∀ line ∈ lines, '\n' ∉ line.toList
  balanced : Body.IsBalanced (lines.flatMap fun line => Body.braces line.toList)

theorem IsClosed.append {ls ls' : List String} (h : IsClosed ls) (h' : IsClosed ls') :
    IsClosed (ls ++ ls') := by
  refine ⟨List.forall_mem_append.2 ⟨h.lineFeed, h'.lineFeed⟩, ?_⟩
  rw [List.flatMap_append]
  exact h.balanced.append h'.balanced

theorem isClosed_nil : IsClosed [] :=
  ⟨fun _ h => (List.not_mem_nil h).elim, Body.isBalanced_nil⟩

theorem isClosed_flatMap {α : Type} {items : List α} {linesOf : α → List String}
    (h : ∀ item ∈ items, IsClosed (linesOf item)) : IsClosed (items.flatMap linesOf) := by
  induction items with
  | nil => exact isClosed_nil
  | cons item items ih =>
    rw [List.flatMap_cons]
    exact (h item List.mem_cons_self).append (ih fun i hi => h i (List.mem_cons_of_mem _ hi))

theorem isClosed_of_unmarked {line : String} (h : marksOf line = []) : IsClosed [line] := by
  refine ⟨?_, ?_⟩
  · intro l hl
    rw [List.mem_singleton.1 hl]
    exact lineFeed_not_mem (by rw [h]; exact List.not_mem_nil)
  · rw [List.flatMap_singleton, braces_toList, h]
    exact Body.isBalanced_nil

theorem isClosed_map {α : Type} {items : List α} {lineOf : α → String}
    (h : ∀ item ∈ items, marksOf (lineOf item) = []) : IsClosed (items.map lineOf) := by
  rw [List.map_eq_flatMap]
  exact isClosed_flatMap fun item hitem => isClosed_of_unmarked (h item hitem)

/-- A line that opens and closes braces once. -/
theorem isClosed_of_group {line : String} (h : marksOf line = ['\x7b', '\x7d']) :
    IsClosed [line] := by
  refine ⟨?_, ?_⟩
  · intro l hl
    rw [List.mem_singleton.1 hl]
    exact lineFeed_not_mem (by rw [h]; decide)
  · rw [List.flatMap_singleton, braces_toList, h]
    exact Body.isBalanced_nil.group

theorem isClosed_accessorLines (h : f.IsSpelled) : IsClosed (accessorLines f) := by
  have hgetter : marksOf (getterLine f) = ['\x7b', '\x7d'] := by
    simp only [getterLine, marksOf_append, marksOf_word h.type, marksOf_word h.getter,
      marksOf_word h.token]
    rfl
  have hsetter : marksOf (setterLine f) = ['\x7b', '\x7d'] := by
    simp only [setterLine, parameter, marksOf_append, marksOf_word h.type, marksOf_word h.setter,
      marksOf_word h.token]
    rfl
  exact ((isClosed_of_unmarked rfl).append (isClosed_of_group hgetter)).append
    (isClosed_of_group hsetter)

theorem marksOf_parameters (h : ∀ f ∈ fs, f.IsSpelled) :
    marksOf (", ".intercalate (fs.map parameter)) = [] := by
  have hparameter : ∀ f ∈ fs, marksOf (parameter f) = [] := by
    intro f hf
    simp only [parameter, marksOf_append, marksOf_word (h f hf).type, marksOf_word (h f hf).token]
    rfl
  induction fs with
  | nil => rfl
  | cons f fs ih =>
    have hf := hparameter f List.mem_cons_self
    cases fs with
    | nil => rw [List.map_singleton, String.intercalate_singleton, hf]
    | cons g fs =>
      have hrest := ih (fun f' hf' => h f' (List.mem_cons_of_mem _ hf'))
        fun f' hf' => hparameter f' (List.mem_cons_of_mem _ hf')
      rw [List.map_cons, List.map_cons, String.intercalate_cons_cons, marksOf_append,
        marksOf_append, hf, ← List.map_cons, hrest]
      rfl

theorem marksOf_assignment (h : f.IsSpelled) : marksOf (assignment f) = [] := by
  simp only [assignment, marksOf_append, marksOf_word h.token]
  rfl

theorem isClosed_constructorLines (h : c.IsSpelled) : IsClosed (constructorLines c) := by
  have hopen : marksOf (constructorLine c.name.shown c.fields) = ['\x7b'] := by
    simp only [constructorLine, marksOf_append, marksOf_word h.name, marksOf_parameters h.fields]
    rfl
  have hassignments := isClosed_map fun f hf => marksOf_assignment (h.fields f hf)
  rw [constructorLines]
  split
  · exact isClosed_nil
  · rw [← constructorLine]
    refine ⟨?_, ?_⟩
    · simp only [List.forall_mem_append, List.forall_mem_cons]
      exact ⟨⟨⟨by decide, lineFeed_not_mem (by rw [hopen]; decide), fun _ hl => by cases hl⟩,
        hassignments.lineFeed⟩, by decide, fun _ hl => by cases hl⟩
    -- The braces of the block stand around those of the assignments.
    · have hblock := hassignments.balanced.group
      rw [List.flatMap_append, List.flatMap_append, List.flatMap_cons, List.flatMap_singleton,
        List.flatMap_singleton, braces_toList (constructorLine _ _), hopen]
      exact hblock

/-- The lines between the braces of a class hold no line feeds, and their braces are matched. -/
theorem isClosed_inside (h : c.IsSpelled) : IsClosed c.inside := by
  have hfields : IsClosed (c.fields.map fieldLine) := by
    refine isClosed_map fun f hf => ?_
    simp only [fieldLine, marksOf_append, marksOf_word (h.fields f hf).type,
      marksOf_word (h.fields f hf).token]
    rfl
  have hgap : IsClosed (if c.fields.isEmpty then [] else [""]) := by
    split
    · exact isClosed_nil
    · exact isClosed_of_unmarked rfl
  have hempty : marksOf (emptyConstructorLine c.name.shown) = ['\x7b', '\x7d'] := by
    simp only [emptyConstructorLine, marksOf_append, marksOf_word h.name]
    rfl
  have haccessors := isClosed_flatMap fun f hf => isClosed_accessorLines (h.fields f hf)
  exact (((hfields.append hgap).append (isClosed_of_group hempty)).append
    (isClosed_constructorLines h)).append haccessors

end JavaClass

end StructAtlas
