import StructAtlas.Proofs.UnitGroups

set_option autoImplicit false

/-!
# Names of accessors

The accessors of a field are named for it, with its first character in upper case. Upper case
forgets the case of the character, and for some characters it is more than one character, so
different fields may have accessors of one name. `Naming.Clash` lists how that comes about: the
names differ in their first character alone and its upper case is the same, as in `a` and `A`, or
the upper case of one first character takes in the beginning of the rest of the other name, as in
`ßx` and `SSx`. There is no other way (`Naming.upperFirst_eq_iff`), so the accessors of a class with
different fields are different exactly if no two fields clash
(`JavaClass.accessors_are_distinct_iff`).
-/

namespace StructAtlas

open Text

/-! ## Names that agree in upper case -/

namespace Naming

variable {a b s t : List Char} {c d : Char}

/-- Different names that agree when their first characters are in upper case. -/
inductive Clash : List Char → List Char → Prop where
  | sameUpper {c d : Char} {rest : List Char} (hne : c ≠ d) (h : upperChar c = upperChar d) :
      Clash (c :: rest) (d :: rest)
  | longerLeft {c d : Char} {more rest : List Char} (hmore : more ≠ [])
      (h : upperChar c = upperChar d ++ more) : Clash (c :: rest) (d :: (more ++ rest))
  | longerRight {c d : Char} {more rest : List Char} (hmore : more ≠ [])
      (h : upperChar d = upperChar c ++ more) : Clash (c :: (more ++ rest)) (d :: rest)

theorem upperChar_ne_nil (c : Char) : upperChar c ≠ [] := by
  rw [upperChar]
  split
  · exact List.cons_ne_nil _ _
  · split
    · rename_i e he
      have hall : ∀ e ∈ caseExpansions, e.2 ≠ [] := by decide
      rw [ne_eq, List.map_eq_nil_iff]
      exact hall e (List.mem_of_find?_eq_some he)
    · split <;> exact List.cons_ne_nil _ _

/-- Different names agree in upper case exactly if they clash. -/
theorem upperFirst_eq_iff (hne : a ≠ b) : upperFirst a = upperFirst b ↔ Clash a b := by
  constructor
  · intro h
    cases a with
    | nil =>
      cases b with
      | nil => exact absurd rfl hne
      | cons d t => exact absurd (List.append_eq_nil_iff.1 h.symm).1 (upperChar_ne_nil d)
    | cons c s =>
      cases b with
      | nil => exact absurd (List.append_eq_nil_iff.1 h).1 (upperChar_ne_nil c)
      | cons d t =>
        -- One of the two upper cases begins with the other.
        rcases List.append_eq_append_iff.1 h with ⟨more, hd, rfl⟩ | ⟨more, hc, rfl⟩
        · by_cases hmore : more = []
          · subst hmore
            rw [List.append_nil] at hd
            rw [List.nil_append] at hne ⊢
            exact .sameUpper (fun e => hne (by rw [e])) hd.symm
          · exact .longerRight hmore hd
        · by_cases hmore : more = []
          · subst hmore
            rw [List.append_nil] at hc
            rw [List.nil_append] at hne ⊢
            exact .sameUpper (fun e => hne (by rw [e])) hc
          · exact .longerLeft hmore hc
  · intro h
    cases h with
    | sameUpper _ h => rw [upperFirst, upperFirst, h]
    | longerLeft _ h => rw [upperFirst, upperFirst, h, List.append_assoc]
    | longerRight _ h => rw [upperFirst, upperFirst, h, List.append_assoc]

example : upperFirst "ßx".toList = upperFirst "SSx".toList := by decide

/-- Names that begin with ASCII characters clash if they differ in the case of these alone. -/
theorem clash_iff_of_ascii (hc : c.toNat < 128) (hd : d.toNat < 128) :
    Clash (c :: s) (d :: t) ↔ c ≠ d ∧ c.toUpper = d.toUpper ∧ s = t := by
  have hupper : upperChar c = [c.toUpper] := if_pos hc
  have hupper' : upperChar d = [d.toUpper] := if_pos hd
  constructor
  · intro h
    cases h with
    | sameUpper hne h =>
      rw [hupper, hupper'] at h
      exact ⟨hne, List.singleton_inj.1 h, rfl⟩
    | longerLeft hmore h =>
      rw [hupper, hupper', List.singleton_append] at h
      exact absurd (List.cons.inj h).2.symm hmore
    | longerRight hmore h =>
      rw [hupper, hupper', List.singleton_append] at h
      exact absurd (List.cons.inj h).2.symm hmore
  · rintro ⟨hne, h, rfl⟩
    exact .sameUpper hne (by rw [hupper, hupper', h])

theorem capitalize_eq_iff {x y : String} (hne : x ≠ y) :
    capitalize x = capitalize y ↔ Clash x.toList y.toList := by
  rw [← upperFirst_eq_iff fun e => hne (String.toList_injective e), capitalize, capitalize,
    String.ofList_inj]

theorem getter_eq_iff {x y : String} (hne : x ≠ y) :
    getter x = getter y ↔ Clash x.toList y.toList := by
  rw [← capitalize_eq_iff hne, getter, getter, String.append_right_inj]

theorem setter_eq_iff {x y : String} (hne : x ≠ y) :
    setter x = setter y ↔ Clash x.toList y.toList := by
  rw [← capitalize_eq_iff hne, setter, setter, String.append_right_inj]

/-- Names made from different names are different exactly if no two of these clash. -/
theorem nodup_map_iff {names : List String} {accessor : String → String}
    (h : ∀ {x y : String}, x ≠ y → (accessor x = accessor y ↔ Clash x.toList y.toList))
    (hdistinct : names.Nodup) :
    (names.map accessor).Nodup ↔ names.Pairwise fun x y => ¬ Clash x.toList y.toList := by
  rw [List.Nodup, List.pairwise_map]
  constructor
  · intro hnames
    exact (hdistinct.and hnames).imp fun hxy hclash => hxy.2 ((h hxy.1).2 hclash)
  · intro hnames
    exact (hdistinct.and hnames).imp fun hxy e => hxy.2 ((h hxy.1).1 e)

end Naming

/-! ## Accessors of a class -/

namespace Java

/-- The name of a method that reads a field. -/
def Member.getterName? : Member → Option String
  | .getter _ method _ => some method
  | _ => none

/-- The name of a method that sets a field. -/
def Member.setterName? : Member → Option String
  | .setter method _ _ _ _ => some method
  | _ => none

/-- What the lines of a class say. -/
def membersOf (lines : List String) : List Member :=
  (lines.map String.toList).filterMap Member.read

end Java

namespace JavaClass

open Java

variable {c : JavaClass}

/-- The names of the getters of a class, in the order of its fields. -/
def getterNames (c : JavaClass) : List String :=
  c.fields.map fun f => Naming.getter f.name

/-- The names of the setters of a class, in the order of its fields. -/
def setterNames (c : JavaClass) : List String :=
  c.fields.map fun f => Naming.setter f.name

theorem read_openingLine (h : IsToken c.name.shown.toList) {keywords : String}
    (hkeywords : keywords = "public class " ∨ keywords = "class ") :
    Member.read (keywords ++ c.name.shown ++ " \x7b").toList = none := by
  have hopen : ¬ IsToken "(".toList := by decide
  have hname : c.name.shown ≠ "(" := fun e => hopen (e ▸ h)
  have hbrace : tokensOf " \x7b" = ["\x7b"] := by decide
  rw [Member.read_toList, String.append_assoc]
  rcases hkeywords with rfl | rfl
  · have hlead : tokensOf "public class " = ["public", "class"] := by decide
    rw [tokensOf_lead (by decide), tokensOf_last h (by decide), hlead, hbrace]
    simp [Member.ofTokens?, hname]
  · have hlead : tokensOf "class " = ["class"] := by decide
    rw [tokensOf_lead (by decide), tokensOf_last h (by decide), hlead, hbrace]
    simp [Member.ofTokens?]

/-- The first and the last line of a class say nothing. -/
theorem membersOf_render (h : c.IsSpelled) (isPublic : Bool) :
    membersOf (c.render isPublic) = c.outline := by
  have hkeywords : (if isPublic then "public class " else "class ") = "public class "
      ∨ (if isPublic then "public class " else "class ") = "class " := by
    cases isPublic <;> decide
  rw [membersOf, render_eq, List.map_cons, List.map_append,
    List.filterMap_cons_none (read_openingLine h.name hkeywords), List.filterMap_append,
    filterMap_read_inside h]
  exact List.append_nil c.outline

/-- A reading of accessors alone finds those of the fields, one field after the other. -/
theorem filterMap_outline_of_accessors {α : Type} {pick : Member → Option α}
    (h : ∀ m, m.isAccessor = false → pick m = none) (c : JavaClass) :
    c.outline.filterMap pick = c.fields.flatMap fun f => (accessors f).filterMap pick := by
  have hfields : (c.fields.map fun f => Member.field f.type.render f.name).filterMap pick = [] := by
    rw [List.filterMap_map, List.filterMap_eq_nil_iff]
    exact fun f _ => h _ rfl
  have hassignments :
      (c.fields.map fun f => Member.assignment f.name f.name).filterMap pick = [] := by
    rw [List.filterMap_map, List.filterMap_eq_nil_iff]
    exact fun f _ => h _ rfl
  have hempty : pick (.constructor c.name.shown []) = none := h _ rfl
  have hconstructor : pick (.constructor c.name.shown c.pairs) = none := h _ rfl
  rw [outline, List.filterMap_append, List.filterMap_append, List.filterMap_append, hfields,
    List.filterMap_cons_none hempty, List.filterMap_flatMap]
  split
  · rfl
  · rw [List.filterMap_cons_none hconstructor, hassignments]
    rfl

theorem filterMap_getterName?_outline (c : JavaClass) :
    c.outline.filterMap Member.getterName? = c.getterNames := by
  have hpick : ∀ m : Member, m.isAccessor = false → m.getterName? = none := by
    intro m hm
    cases m with
    | getter => cases hm
    | _ => rfl
  rw [filterMap_outline_of_accessors hpick, getterNames, List.map_eq_flatMap]
  rfl

theorem filterMap_setterName?_outline (c : JavaClass) :
    c.outline.filterMap Member.setterName? = c.setterNames := by
  have hpick : ∀ m : Member, m.isAccessor = false → m.setterName? = none := by
    intro m hm
    cases m with
    | setter => cases hm
    | _ => rfl
  rw [filterMap_outline_of_accessors hpick, setterNames, List.map_eq_flatMap]
  rfl

/-- **Accessors of different fields.** A class declares a getter and a setter for each of its
fields. If the fields have different names, the getters have different names exactly if no two
fields clash, and so have the setters. -/
theorem accessors_are_distinct_iff (c : JavaClass)
    (hdistinct : (c.fields.map JavaField.name).Nodup) :
    (c.IsBuilt → ∀ isPublic,
        (membersOf (c.render isPublic)).filterMap Member.getterName? = c.getterNames
          ∧ (membersOf (c.render isPublic)).filterMap Member.setterName? = c.setterNames)
      ∧ (c.getterNames.Nodup ↔
        (c.fields.map JavaField.name).Pairwise fun x y => ¬ Naming.Clash x.toList y.toList)
      ∧ (c.setterNames.Nodup ↔
        (c.fields.map JavaField.name).Pairwise fun x y => ¬ Naming.Clash x.toList y.toList) := by
  refine ⟨?_, ?_, ?_⟩
  · intro hbuilt isPublic
    rw [membersOf_render hbuilt.isSpelled]
    exact ⟨filterMap_getterName?_outline c, filterMap_setterName?_outline c⟩
  · rw [← Naming.nodup_map_iff Naming.getter_eq_iff hdistinct, List.map_map]
    rfl
  · rw [← Naming.nodup_map_iff Naming.setter_eq_iff hdistinct, List.map_map]
    rfl

/-- A class with the fields `id` and `next`. -/
def linkClass : JavaClass :=
  .ofFields (.text "Link")
    [⟨"id", "int", false, none, false⟩, ⟨"next", "Link", true, none, true⟩] ["Link"]

theorem accessors_of_link :
    (membersOf (linkClass.render true)).filterMap Member.getterName? = ["getId", "getNext"]
      ∧ linkClass.getterNames.Nodup ∧ linkClass.setterNames.Nodup := by
  have hbuilt : linkClass.IsBuilt := .ofFields (by decide) (by decide) (by decide)
  have hdistinct : (linkClass.fields.map JavaField.name).Nodup := by decide
  have hclash : ¬ Naming.Clash "id".toList "next".toList := fun h =>
    absurd ((Naming.clash_iff_of_ascii (by decide) (by decide)).1 h).2.2 (by decide)
  have hpairwise : (linkClass.fields.map JavaField.name).Pairwise
      fun x y => ¬ Naming.Clash x.toList y.toList :=
    List.pairwise_pair.2 hclash
  obtain ⟨hdeclared, hgetters, hsetters⟩ := accessors_are_distinct_iff linkClass hdistinct
  refine ⟨?_, hgetters.2 hpairwise, hsetters.2 hpairwise⟩
  rw [(hdeclared hbuilt true).1]
  decide

/-- A class with the fields `a` and `A`. -/
def caseClass : JavaClass :=
  .ofFields (.text "P") [⟨"a", "int", false, none, false⟩, ⟨"A", "int", false, none, false⟩] []

/-- Fields that differ in the case of their first character share their accessors. -/
theorem accessors_of_two_cases_agree :
    caseClass.IsBuilt ∧ (caseClass.fields.map JavaField.name).Nodup
      ∧ (membersOf (caseClass.render true)).filterMap Member.getterName? = ["getA", "getA"]
      ∧ (membersOf (caseClass.render true)).filterMap Member.setterName? = ["setA", "setA"]
      ∧ ¬ caseClass.getterNames.Nodup ∧ ¬ caseClass.setterNames.Nodup := by
  have hbuilt : caseClass.IsBuilt := .ofFields (by decide) (by decide) (by decide)
  rw [membersOf_render hbuilt.isSpelled]
  exact ⟨hbuilt, by decide, by decide, by decide, by decide, by decide⟩

end JavaClass

end StructAtlas
