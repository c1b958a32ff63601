import StructAtlas.Proofs.ClassOutline
import StructAtlas.Proofs.QuickTest

set_option autoImplicit false

/-!
# The groups of a Java file

A Java file is balanced, and its outermost groups of braces are its classes in order. A group is
read without knowledge of the classes: its class name and whether it is public stand on the last
line in front of it (`Body.Group.heading`), and its members on the lines between its braces
(`Body.Group.members`). `Body.Group.Shows` says that these are the name and the fields of a class,
with the fields in the same order wherever they are listed.

Since a text falls into groups in one way, a Java file determines the names of its classes and the
Java types and names of their fields (`Packages.units_are_faithful`).
-/

namespace StructAtlas

open Text Body Java

/-! ## Lines of a text -/

namespace Text

variable {ls ls' : List (List Char)}

theorem joinLines_cons_cons (l l' : List Char) (ls : List (List Char)) :
    joinLines (l :: l' :: ls) = l ++ '\n' :: joinLines (l' :: ls) := by
  simp [joinLines, List.intercalate]

theorem joinLines_singleton (l : List Char) : joinLines [l] = l := by
  simp [joinLines, List.intercalate]

theorem joinLines_append_cons (hne : ls ≠ []) (l : List Char) (ls' : List (List Char)) :
    joinLines (ls ++ l :: ls') = joinLines ls ++ '\n' :: joinLines (l :: ls') := by
  induction ls with
  | nil => exact absurd rfl hne
  | cons k ls ih =>
    cases ls with
    | nil => rw [List.singleton_append, joinLines_cons_cons, joinLines_singleton]
    | cons k' ls =>
      rw [List.cons_append, List.cons_append, joinLines_cons_cons, ← List.cons_append,
        ih (List.cons_ne_nil k' ls), joinLines_cons_cons, List.append_assoc, List.cons_append]

/-- The last line can be cut in two. -/
theorem joinLines_concat_append (ls : List (List Char)) (l tail : List Char) :
    joinLines (ls ++ [l ++ tail]) = joinLines (ls ++ [l]) ++ tail := by
  cases ls with
  | nil => rw [List.nil_append, List.nil_append, joinLines_singleton, joinLines_singleton]
  | cons k ls =>
    have hne := List.cons_ne_nil k ls
    rw [joinLines_append_cons hne, joinLines_append_cons hne, joinLines_singleton,
      joinLines_singleton, List.append_assoc, List.cons_append]

theorem lines_joinLines (hne : ls ≠ []) (h : ∀ l ∈ ls, '\n' ∉ l) : lines (joinLines ls) = ls := by
  induction ls with
  | nil => exact absurd rfl hne
  | cons l ls ih =>
    have hl := h l List.mem_cons_self
    have halone : lines l = [l] := splitOn_of_not_mem hl
    cases ls with
    | nil => rw [joinLines_singleton, halone]
    | cons l' ls =>
      rw [joinLines_cons_cons, lines_append_lineFeed, halone,
        ih (List.cons_ne_nil l' ls) fun k hk => h k (List.mem_cons_of_mem _ hk)]
      rfl

theorem getLast?_lines_joinLines {l : List Char} (h : '\n' ∉ l) (ls : List (List Char)) :
    (lines (joinLines (ls ++ [l]))).getLast? = some l := by
  have halone : lines l = [l] := splitOn_of_not_mem h
  cases ls with
  | nil => rw [List.nil_append, joinLines_singleton, halone, List.getLast?_singleton]
  | cons k ls =>
    rw [joinLines_append_cons (List.cons_ne_nil k ls), lines_append_lineFeed,
      joinLines_singleton, halone, List.getLast?_append_cons, List.getLast?_singleton]

theorem braces_joinLines (ls : List (List Char)) :
    braces (joinLines ls) = ls.flatMap braces := by
  rw [braces, filter_joinLines (by decide), List.flatMap_def, List.filter_flatten]
  rfl

end Text

/-! ## Reading a group -/

namespace Body.Group

variable (g : Group)

/-- The tokens of the last line in front of a group. -/
def heading : List String :=
  (tokens ((lines g.lead).getLast?.getD [])).map String.ofList

/-- Whether the class of a group is public. -/
def isPublic : Bool :=
  g.heading.head? == some "public"

/-- The name of the class of a group. -/
def className? : Option String :=
  match g.heading with
  | ["class", name] => some name
  | ["public", "class", name] => some name
  | _ => none

/-- What the lines between the braces of a group say. -/
def members : List Member :=
  (lines g.inner).filterMap Member.read

/-- The Java types and names of the private fields of a group. -/
def fieldPairs : List (String × String) :=
  g.members.filterMap Member.field?

/-- A group shows a class in the Java file with a name. -/
structure Shows (unit : String) (c : JavaClass) : Prop where
  className : g.className? = some c.name.shown
  isPublic : g.isPublic = true ↔ c.name = .text unit
  fieldPairs : g.fieldPairs = c.pairs
  parameters : g.members.flatMap Member.parameters = c.pairs
  assignments : g.members.filterMap Member.assignment?
    = c.fields.map fun f => (f.name, f.name)
  accessors : g.members.filter Member.isAccessor = c.fields.flatMap JavaClass.accessors

end Body.Group

namespace JavaClass

variable {c : JavaClass}

/-- The line that opens a class, without its brace. -/
def openingLine (c : JavaClass) (isPublic : Bool) : String :=
  (if isPublic then "public class " else "class ") ++ c.name.shown ++ " "

theorem tokensOf_openingLine (h : IsToken c.name.shown.toList) (isPublic : Bool) :
    tokensOf (c.openingLine isPublic)
      = if isPublic then ["public", "class", c.name.shown] else ["class", c.name.shown] := by
  rw [openingLine, String.append_assoc]
  cases isPublic with
  | true =>
    rw [if_pos rfl, if_pos rfl, tokensOf_lead (by decide), tokensOf_last h (by decide)]
    rfl
  | false =>
    rw [if_neg Bool.false_ne_true, if_neg Bool.false_ne_true, tokensOf_lead (by decide),
      tokensOf_last h (by decide)]
    rfl

theorem marksOf_openingLine (h : IsToken c.name.shown.toList) (isPublic : Bool) :
    marksOf (c.openingLine isPublic) = [] := by
  rw [openingLine, marksOf_append, marksOf_append, marksOf_word h]
  cases isPublic <;> rfl

/-- The group of a class behind some lines. -/
def group (before : List (List Char)) (unit : String) (c : JavaClass) : Group where
  lead := joinLines (before ++ [(c.openingLine (c.name.same unit)).toList])
  inner := '\n' :: (joinLines (c.inside.map String.toList) ++ ['\n'])

theorem inside_ne_nil (c : JavaClass) : c.inside.map String.toList ≠ [] := by
  simp [inside]

theorem members_group (h : c.IsSpelled) (before : List (List Char)) (unit : String) :
    (c.group before unit).members = c.outline := by
  have hlines : lines (c.group before unit).inner
      = [] :: (c.inside.map String.toList ++ [[]]) := by
    have hfeed : ∀ l ∈ c.inside.map String.toList, '\n' ∉ l := by
      intro l hl
      obtain ⟨line, hline, rfl⟩ := List.mem_map.1 hl
      exact (isClosed_inside h).lineFeed line hline
    rw [group, lines_lineFeed, lines_append_lineFeed, lines_joinLines c.inside_ne_nil hfeed]
    rfl
  rw [Group.members, hlines, List.filterMap_cons_none rfl, List.filterMap_append,
    filterMap_read_inside h]
  exact List.append_nil c.outline

theorem heading_group (h : c.IsSpelled) (before : List (List Char)) (unit : String) :
    (c.group before unit).heading
      = if c.name.same unit then ["public", "class", c.name.shown]
        else ["class", c.name.shown] := by
  have hfeed : '\n' ∉ (c.openingLine (c.name.same unit)).toList :=
    lineFeed_not_mem (by rw [marksOf_openingLine h.name]; exact List.not_mem_nil)
  rw [← tokensOf_openingLine h.name, Group.heading, group, getLast?_lines_joinLines hfeed]
  rfl

/-- The group of a class shows it. -/
theorem shows_group (h : c.IsSpelled) (before : List (List Char)) (unit : String) :
    (c.group before unit).Shows unit c where
  className := by
    rw [Group.className?, heading_group h]
    cases c.name.same unit <;> rfl
  isPublic := by
    obtain ⟨name, hname⟩ := h.isText
    have hsame : c.name.same unit = true ↔ c.name = .text unit := by
      rw [hname, Name.same_text, beq_iff_eq, Name.text.injEq]
    rw [← hsame, Group.isPublic, heading_group h]
    cases c.name.same unit with
    | true => exact iff_of_true rfl rfl
    | false => exact iff_of_false (by simp) Bool.false_ne_true
  fieldPairs := by rw [Group.fieldPairs, members_group h, filterMap_field?_outline]
  parameters := by rw [members_group h, flatMap_parameters_outline]
  assignments := by rw [members_group h, filterMap_assignment?_outline]
  accessors := by rw [members_group h, filter_isAccessor_outline]

/-- The braces between those of a class are matched. -/
theorem isBalanced_inner (h : c.IsSpelled) (before : List (List Char)) (unit : String) :
    IsBalanced (c.group before unit).inner := by
  have hinner : braces (c.group before unit).inner
      = c.inside.flatMap fun line => braces line.toList := by
    have hparts : (c.group before unit).inner
        = ['\n'] ++ (joinLines (c.inside.map String.toList) ++ ['\n']) := rfl
    rw [hparts, braces_append, braces_append, braces_joinLines, List.flatMap_map]
    exact List.append_nil _
  apply isBalanced_of_braces
  rw [hinner]
  exact (isClosed_inside h).balanced

theorem not_isBrace_lead (h : c.IsSpelled) {before : List (List Char)}
    (hbefore : before.flatMap braces = []) (unit : String) :
    ∀ x ∈ (c.group before unit).lead, ¬ Field.IsBrace x := by
  rw [← braces_eq_nil_iff, group, braces_joinLines, List.flatMap_append, hbefore,
    List.flatMap_singleton, braces_toList, marksOf_openingLine h.name]
  rfl

/-- The text from the lines before a class on is cut at its group. -/
theorem joinLines_render (c : JavaClass) (before behind : List (List Char)) (unit : String) :
    joinLines (before ++ ((c.render (c.name.same unit) ++ [""]).map String.toList ++ behind))
      = (c.group before unit).lead
        ++ '\x7b' :: ((c.group before unit).inner ++ '\x7d' :: joinLines ([[], []] ++ behind)) := by
  have hopening : ((if c.name.same unit then "public class " else "class ") ++ c.name.shown
      ++ " \x7b").toList = (c.openingLine (c.name.same unit)).toList ++ ['\x7b'] := by
    simp [openingLine]
  have hparts : before ++ ((c.render (c.name.same unit) ++ [""]).map String.toList ++ behind)
      = (before ++ [(c.openingLine (c.name.same unit)).toList ++ ['\x7b']])
        ++ (c.inside.map String.toList ++ ('\x7d' :: []) :: [] :: behind) := by
    rw [render_eq, ← hopening]
    simp
  obtain ⟨first, others, hinside⟩ := List.exists_cons_of_ne_nil c.inside_ne_nil
  have hclose : joinLines (('\x7d' :: []) :: [] :: behind)
      = '\x7d' :: joinLines ([[], []] ++ behind) :=
    joinLines_append ['\x7d'] [] ([] :: behind)
  rw [hparts, group, hinside, List.cons_append, joinLines_append_cons (by simp),
    joinLines_concat_append, ← List.cons_append,
    joinLines_append_cons (List.cons_ne_nil first others), hclose]
  simp

/-- Classes behind lines without braces are the groups of the text. -/
theorem exists_groups {classes : List JavaClass} (h : ∀ c ∈ classes, c.IsSpelled) (unit : String)
    {before : List (List Char)} (hbefore : before.flatMap braces = []) :
    ∃ groups,
      Grouped (joinLines (before ++ (classes.flatMap fun c =>
        c.render (c.name.same unit) ++ [""]).map String.toList)) groups
      ∧ List.Forall₂ (fun g c => Group.Shows g unit c) groups classes := by
  induction classes generalizing before with
  | nil =>
    refine ⟨[], .flat ?_, .nil⟩
    rw [← braces_eq_nil_iff, braces_joinLines, List.flatMap_append, hbefore]
    rfl
  | cons c classes ih =>
    have hc := h c List.mem_cons_self
    -- The lines before the next class are the rest of the last line and an empty one.
    have hrest : ([[], []] : List (List Char)).flatMap braces = [] := rfl
    obtain ⟨groups, hgroups, hshows⟩ := ih (fun d hd => h d (List.mem_cons_of_mem _ hd)) hrest
    refine ⟨c.group before unit :: groups, ?_, .cons (shows_group hc before unit) hshows⟩
    rw [List.flatMap_cons, List.map_append, joinLines_render]
    exact .group (not_isBrace_lead hc hbefore unit) (isBalanced_inner hc before unit) hgroups

/-- A class that is made of fields, with names made of word characters. -/
inductive IsBuilt : JavaClass → Prop where
  | ofFields {name : String} {fields : List Field} {known : List String}
      (hname : IsName name.toList) (hfields : ∀ f ∈ fields, IsName f.name.toList)
      (hknown : ∀ k ∈ known, IsName k.toList) : IsBuilt (.ofFields (.text name) fields known)

theorem IsBuilt.isSpelled (h : c.IsBuilt) : c.IsSpelled := by
  cases h with
  | ofFields hname hfields hknown =>
    refine ⟨⟨_, rfl⟩, isToken_of_isName hname, ?_⟩
    intro f hf
    obtain ⟨declared, hdeclared, rfl⟩ := List.mem_map.1 hf
    exact ⟨hfields declared hdeclared, isToken_render hknown declared⟩

end JavaClass

/-! ## Java files -/

theorem map_eq_map_of_forall₂ {α β γ : Type} {R : α → β → Prop} {f : α → γ} {k : β → γ}
    {as : List α} {bs : List β} (h : List.Forall₂ R as bs) (hfk : ∀ a b, R a b → f a = k b) :
    as.map f = bs.map k := by
  rw [← List.forall₂_eq_eq_eq, List.forall₂_map_left_iff, List.forall₂_map_right_iff]
  exact h.imp hfk

namespace Packages

open JavaClass

variable {p : Packages}

/-- A line that mentions a package or an import has no braces beside those of what it mentions. -/
theorem braces_mention {lead name tail : String} (hname : braces name.toList = [])
    (hlead : braces lead.toList = []) (htail : braces tail.toList = []) :
    braces (lead ++ name ++ tail).toList = [] := by
  rw [String.toList_append, String.toList_append, braces_append, braces_append, hlead, hname, htail]
  rfl

/-- The lines in front of the classes have no braces if the packages have none. -/
theorem braces_front (hown : ∀ x ∈ p.own.text.toList, ¬ Field.IsBrace x)
    (hsupport : ∀ x ∈ p.support.text.toList, ¬ Field.IsBrace x) (classes : List JavaClass) :
    ((p.packageLines ++ p.importLines classes).map String.toList).flatMap braces = [] := by
  have himport : ∀ name ∈ p.imports classes, braces name.toList = [] := by
    intro name hname
    rcases mem_imports.1 hname with ⟨rfl, -⟩ | ⟨rfl, -⟩
    · decide
    · rw [supportImport, String.append_assoc, String.toList_append, braces_append,
        braces_eq_nil_iff.2 hsupport]
      decide
  rw [List.flatMap_map, List.flatMap_append, List.append_eq_nil_iff]
  constructor
  · rw [packageLines]
    split
    · rw [List.flatMap_cons, braces_mention (braces_eq_nil_iff.2 hown) (by decide) (by decide)]
      rfl
    · rfl
  · rw [importLines, List.flatMap_append, List.flatMap_map, List.append_eq_nil_iff,
      List.flatMap_eq_nil_iff]
    constructor
    · exact fun name hname => braces_mention (himport name hname) (by decide) (by decide)
    · split <;> rfl

/-- The Java file of classes falls into groups that show them. -/
theorem exists_groups_renderUnit (unit : String) {classes : List JavaClass}
    (hown : ∀ x ∈ p.own.text.toList, ¬ Field.IsBrace x)
    (hsupport : ∀ x ∈ p.support.text.toList, ¬ Field.IsBrace x)
    (hbuilt : ∀ c ∈ classes, c.IsBuilt) :
    ∃ groups, Grouped (p.renderUnit classes unit).toList groups
      ∧ List.Forall₂ (fun g c => Group.Shows g unit c) groups classes := by
  have htext : (p.renderUnit classes unit).toList
      = joinLines ((p.packageLines ++ p.importLines classes).map String.toList
        ++ (classes.flatMap fun c => c.render (c.name.same unit) ++ [""]).map String.toList) := by
    rw [renderUnit, String.toList_intercalate, List.map_append]
    rfl
  have hspelled : ∀ c ∈ classes, c.IsSpelled := fun c hc => (hbuilt c hc).isSpelled
  rw [htext]
  exact exists_groups hspelled unit (braces_front hown hsupport classes)

/-- Among groups of classes with different names, at most one is public. -/
theorem countP_isPublic_le_one {unit : String} {groups : List Group} {classes : List JavaClass}
    (h : List.Forall₂ (fun g c => Group.Shows g unit c) groups classes)
    (hdistinct : (classes.map (·.name)).Nodup) : groups.countP Group.isPublic ≤ 1 := by
  have hpublic : groups.map Group.isPublic = classes.map fun c => decide (c.name = .text unit) :=
    map_eq_map_of_forall₂ h fun g c hshows =>
      Bool.eq_iff_iff.2 (hshows.isPublic.trans decide_eq_true_iff.symm)
  have hcount : groups.countP Group.isPublic = (classes.map (·.name)).count (Name.text unit) := by
    have hcountP := congrArg (List.countP id) hpublic
    rw [List.countP_map, List.countP_map] at hcountP
    rw [List.count, List.countP_map]
    exact hcountP
  rw [hcount]
  exact List.nodup_iff_count_le_one.1 hdistinct _

/-- **Java files are well formed and faithful.** Let no package have a brace in its text, and let
classes be built with names made of word characters. Their Java file is balanced, and it falls into
one group of braces for each class, in order and in this way only. Each group shows its class: it
is headed by the name, it is public exactly if the file is named for the class, and its fields, the
parameters and assignments of its constructor and its accessors list the fields in their order. If
no two classes share a name, at most one is public. Any other classes with the same Java file have
the same names and the same Java types and names of fields, in order. -/
theorem units_are_faithful (p : Packages) (unit : String) (classes : List JavaClass)
    (hown : ∀ x ∈ p.own.text.toList, ¬ Field.IsBrace x)
    (hsupport : ∀ x ∈ p.support.text.toList, ¬ Field.IsBrace x)
    (hbuilt : ∀ c ∈ classes, c.IsBuilt) (hdistinct : (classes.map (·.name)).Nodup) :
    IsBalanced (p.renderUnit classes unit).toList
      ∧ (∃ groups, Grouped (p.renderUnit classes unit).toList groups
        ∧ (∀ groups', Grouped (p.renderUnit classes unit).toList groups' → groups' = groups)
        ∧ List.Forall₂ (fun g c => Group.Shows g unit c) groups classes
        ∧ (groups.filter Group.isPublic).length ≤ 1)
      ∧ ∀ classes' : List JavaClass, (∀ c ∈ classes', c.IsBuilt) →
        p.renderUnit classes' unit = p.renderUnit classes unit →
        classes'.map (·.name.shown) = classes.map (·.name.shown)
          ∧ classes'.map pairs = classes.map pairs := by
  obtain ⟨groups, hgroups, hshows⟩ := exists_groups_renderUnit unit hown hsupport hbuilt
  have hunique := fun groups' (h' : Grouped _ groups') => hgroups.unique h'
  refine ⟨hgroups.isBalanced, ⟨groups, hgroups, hunique, hshows, ?_⟩, ?_⟩
  · rw [← List.countP_eq_length_filter]
    exact countP_isPublic_le_one hshows hdistinct
  · intro classes' hbuilt' hsame
    obtain ⟨groups', hgroups', hshows'⟩ := exists_groups_renderUnit unit hown hsupport hbuilt'
    -- The same text has the same groups, and they show both lists of classes.
    rw [hsame] at hgroups'
    obtain rfl := hgroups.unique hgroups'
    have hname : ∀ (g : Group) (c : JavaClass), g.Shows unit c →
        g.className?.getD "" = c.name.shown := fun g c h => by rw [h.className]; rfl
    have hpairs : ∀ (g : Group) (c : JavaClass), g.Shows unit c → g.fieldPairs = c.pairs :=
      fun g c h => h.fieldPairs
    exact ⟨(map_eq_map_of_forall₂ hshows' hname).symm.trans (map_eq_map_of_forall₂ hshows hname),
      (map_eq_map_of_forall₂ hshows' hpairs).symm.trans (map_eq_map_of_forall₂ hshows hpairs)⟩

/-- A struct with a list and a pointer to another struct. -/
def orderFields : List Field :=
  [⟨"prices", "unsigned int", false, some "8", false⟩, ⟨"buyer", "Buyer", true, none, true⟩]

/-- A class with fields and one without. -/
def orderClasses : List JavaClass :=
  [.ofFields (.text "Order") orderFields ["Buyer", "Order"],
   .ofFields (.text "Buyer") [] ["Buyer", "Order"]]

/-- Packages of a shop. -/
def shop : Packages :=
  ⟨.str "shop.orders", .str "shop.numbers"⟩

theorem order_file_is_faithful :
    ∃ groups, Grouped (shop.renderUnit orderClasses "Order").toList groups
      ∧ groups.map (fun g => (g.className?, g.isPublic, g.fieldPairs))
        = [(some "Order", true, [("List<UnsignedInt>", "prices"), ("Buyer", "buyer")]),
          (some "Buyer", false, [])] := by
  have hbuilt : ∀ c ∈ orderClasses, c.IsBuilt := by
    have hfields : ∀ f ∈ orderFields, IsName f.name.toList := by decide
    have hknown : ∀ k ∈ ["Buyer", "Order"], IsName k.toList := by decide
    intro c hc
    rcases List.mem_pair.1 hc with rfl | rfl
    · exact .ofFields (by decide) hfields hknown
    · exact .ofFields (by decide) (fun f hf => by cases hf) hknown
  have hown : braces shop.own.text.toList = [] := by decide
  have hsupport : braces shop.support.text.toList = [] := by decide
  obtain ⟨-, ⟨groups, hgroups, -, hshows, -⟩, -⟩ :=
    units_are_faithful shop "Order" orderClasses (braces_eq_nil_iff.1 hown)
      (braces_eq_nil_iff.1 hsupport) hbuilt (by decide)
  refine ⟨groups, hgroups, ?_⟩
  have hshown : ∀ (g : Group) (c : JavaClass), g.Shows "Order" c →
      (g.className?, g.isPublic, g.fieldPairs)
        = (some c.name.shown, decide (c.name = .text "Order"), c.pairs) := fun g c h => by
    rw [h.className, h.fieldPairs, Bool.eq_iff_iff.2 (h.isPublic.trans decide_eq_true_iff.symm)]
  rw [map_eq_map_of_forall₂ hshows hshown]
  decide

end Packages

end StructAtlas
