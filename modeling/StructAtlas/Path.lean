import StructAtlas.Text.Quoted
import StructAtlas.Text.Split

set_option autoImplicit false

/-!
# File paths

A path is a root and a list of components. The root is empty for a relative path, one slash, or two
slashes when the text begins with exactly two. Empty components and single dots disappear when a
path is read; `..` stays as it is. Joining with a path that has a root gives that path. All
operations are lexical. A relative path joined to a base is found again behind the base
(`relativeTo?_join`).
-/

namespace StructAtlas

/-- A normalised file path: none, one or two leading slashes, and the components between slashes. -/
structure Path where
  root : String
  parts : List String
deriving Repr, DecidableEq, Inhabited

namespace Path

/-- The root that a text begins with. -/
def rootOf : List Char → String
  | '/' :: '/' :: '/' :: _ => "/"
  | '/' :: '/' :: _ => "//"
  | '/' :: _ => "/"
  | _ => ""

/-- The components of a text. -/
def partsOf (cs : List Char) : List String :=
  ((Text.splitOn '/' cs).filter fun p => !p.isEmpty && p != ['.']).map String.ofList

/-- Reads a path from its text. -/
def parse (s : String) : Path :=
  ⟨rootOf s.toList, partsOf s.toList⟩

/-- The text of a path; the path without components is a single dot. -/
def toText (p : Path) : String :=
  if p.root.isEmpty && p.parts.isEmpty then "." else p.root ++ "/".intercalate p.parts

/-- The path `q` seen from `p`. -/
def join (p q : Path) : Path :=
  if q.root.isEmpty then ⟨p.root, p.parts ++ q.parts⟩ else q

/-- The path named by a text, seen from `p`. -/
def joinText (p : Path) (s : String) : Path :=
  p.join (parse s)

/-- The path one component deeper. -/
def child (p : Path) (part : String) : Path :=
  ⟨p.root, p.parts ++ [part]⟩

/-- The path without its last component. -/
def parent (p : Path) : Path :=
  ⟨p.root, p.parts.dropLast⟩

/-- One step of `collapse`: a component that goes up takes the one before it away. -/
def collapseStep (rooted : Bool) (parts : List String) (part : String) : List String :=
  if part != ".." then parts ++ [part]
  else
    match parts.getLast? with
    | some last => if last == ".." then parts ++ [part] else parts.dropLast
    | none => if rooted then [] else [part]

/-- The path without components that go up, as far as they can be resolved by the text alone. -/
def collapse (p : Path) : Path :=
  ⟨p.root, p.parts.foldl (collapseStep (!p.root.isEmpty)) []⟩

/-- The last component, or the empty text. -/
def fileName (p : Path) : String :=
  p.parts.getLast?.getD ""

/-- A file name before and after the dot of its extension. The dot may be neither the first nor the
last character. -/
def splitName? (name : List Char) : Option (List Char × List Char) :=
  match Text.splitLast? '.' name with
  | some (stem, extension) =>
    if stem.isEmpty || extension.isEmpty then none else some (stem, extension)
  | none => none

/-- The file name without its extension. -/
def stem (p : Path) : String :=
  match splitName? p.fileName.toList with
  | some (stem, _) => String.ofList stem
  | none => p.fileName

/-- The extension of the file name, without its dot; empty if there is none. -/
def extension (p : Path) : String :=
  match splitName? p.fileName.toList with
  | some (_, extension) => String.ofList extension
  | none => ""

/-- The components that remain of a list behind a given beginning. -/
def dropParts? : List String → List String → Option (List String)
  | [], ps => some ps
  | _ :: _, [] => none
  | k :: ks, p :: ps => if k == p then dropParts? ks ps else none

/-- The path relative to a base that it begins with. -/
def relativeTo? (p base : Path) : Option Path :=
  if p.root == base.root then (dropParts? base.parts p.parts).map fun parts => ⟨"", parts⟩ else none

/-- The message for a path that does not lie below a base. -/
def notBelowMessage (p base : Path) : String :=
  Text.quote p.toText ++ " is not in the subpath of " ++ Text.quote base.toText
    ++ " OR one path is relative and the other is absolute."

/-- Order of component lists, each component compared by code points. -/
def partsLe : List String → List String → Bool
  | [], _ => true
  | _ :: _, [] => false
  | p :: ps, q :: qs => if p == q then partsLe ps qs else decide (p < q)

theorem dropParts?_eq_some {base ps rest : List String} :
    dropParts? base ps = some rest ↔ ps = base ++ rest := by
  induction base generalizing ps with
  | nil => simp [dropParts?, eq_comm]
  | cons k ks ih =>
    cases ps with
    | nil => simp [dropParts?]
    | cons p ps =>
      by_cases h : k = p
      · subst h; simp [dropParts?, ih]
      · have h' : ¬ p = k := fun e => h e.symm
        simp [dropParts?, h, h']

/-- A path joined to a base is found again behind it. -/
theorem relativeTo?_join (base : Path) (parts : List String) :
    (base.join ⟨"", parts⟩).relativeTo? base = some ⟨"", parts⟩ := by
  simp [relativeTo?, join, dropParts?_eq_some.2 rfl]

end Path

end StructAtlas
