import Mathlib.Logic.Relation
import StructAtlas.JavaType
import StructAtlas.Proofs.ImportedTypes
import StructAtlas.Proofs.NestedGroups

set_option autoImplicit false

/-!
# Spellings of a type

One type can be spelled in many ways: blanks may stand around its words and between them, and
qualifiers that do not matter may stand anywhere among the words. `TypeEdit` is one such change and
`SameType` relates the texts that can be changed into each other. Every text can be changed into its
normal form (`sameType_normalizeType`), and no change alters the normal form, so the normal form
decides (`sameType_iff`).

The Java type of a field depends on the spelling through the normal form only. `JavaType.plainOf` is
the type that a field has apart from its repetition; it is the only part of the field's type that is
no list (`JavaType.hasPart_ofField_iff`). The main statement reads off it what pointers,
repetitions, known names and unknown ones lead to.
-/

namespace StructAtlas

open Text

/-! ## Words around blanks -/

namespace Text

/-- The words on both sides of a blank are the words of the whole. -/
theorem words_append {c : Char} (hc : isBlank c = true) (as bs : List Char) :
    words (as ++ c :: bs) = words as ++ words bs := by
  rw [words, splitBy_append isBlank hc, List.filter_append]
  rfl

/-- A text ends with a blank unless it is empty. -/
def EndsBlank (cs : List Char) : Prop :=
  ∀ c ∈ cs.getLast?, isBlank c = true

/-- A text begins with a blank unless it is empty. -/
def BeginsBlank (cs : List Char) : Prop :=
  ∀ c ∈ cs.head?, isBlank c = true

theorem EndsBlank.append {before blanks : List Char} (h : EndsBlank before)
    (hblanks : Run isBlank blanks) : EndsBlank (before ++ blanks) := by
  intro c hc
  rw [List.getLast?_append] at hc
  cases hlast : blanks.getLast? with
  | none => exact h c (by simpa [hlast] using hc)
  | some d =>
    obtain rfl : d = c := by simpa [hlast] using hc
    exact hblanks d (List.mem_of_getLast? hlast)

theorem EndsBlank.words_append {before : List Char} (h : EndsBlank before) (cs : List Char) :
    words (before ++ cs) = words before ++ words cs := by
  rcases List.eq_nil_or_concat before with rfl | ⟨lead, c, rfl⟩
  · rfl
  · have hc : isBlank c = true := h c (by simp)
    rw [List.concat_eq_append, List.append_assoc, List.singleton_append, Text.words_append hc,
      Text.words_append hc]
    simp [words, splitBy]

theorem BeginsBlank.words_append {behind : List Char} (h : BeginsBlank behind) (cs : List Char) :
    words (cs ++ behind) = words cs ++ words behind := by
  cases behind with
  | nil => simp [words, splitBy]
  | cons c behind =>
    have hc : isBlank c = true := h c rfl
    rw [Text.words_append hc, words_of_blank hc]

theorem words_of_token {w : List Char} (hne : w ≠ []) (h : ∀ c ∈ w, isBlank c = false) :
    words w = [w] := by
  rw [words, splitBy_of_forall h, List.filter_cons_of_pos (by simpa using hne), List.filter_nil]

/-- A text holds blanks only, or it has a first word. -/
theorem exists_token (cs : List Char) :
    Run isBlank cs ∨ ∃ blanks w rest, cs = blanks ++ (w ++ rest) ∧ Run isBlank blanks ∧ w ≠ []
      ∧ (∀ c ∈ w, isBlank c = false) ∧ BeginsBlank rest := by
  obtain ⟨blanks, hcs, hblanks, hstop⟩ := exists_run isBlank cs
  generalize cs.dropWhile isBlank = behind at hcs hstop
  obtain ⟨w, hbehind, hw, hend⟩ := exists_run (fun c => !isBlank c) behind
  generalize behind.dropWhile (fun c => !isBlank c) = rest at hbehind hend
  subst hbehind hcs
  have hrest : BeginsBlank rest := fun c hc => by simpa using hend c hc
  by_cases hne : w = []
  · subst hne
    -- What follows the blanks would have to begin with a blank and must not.
    cases rest with
    | nil => exact .inl (by simpa using hblanks)
    | cons c rest =>
      have hc := hrest c rfl
      rw [List.nil_append, stops_cons, hc] at hstop
      cases hstop
  · exact .inr ⟨blanks, w, rest, rfl, hblanks, hne, fun c hc => by simpa using hw c hc, hrest⟩

end Text

/-! ## Changes of spelling -/

/-- The words of a type text that matter. -/
def typeTokens (cs : List Char) : List (List Char) :=
  (words cs).filter fun w => !ignoredQualifiers.contains w

/-- One change of spelling. -/
inductive TypeEdit : List Char → List Char → Prop where
  | gap {before gap gap' behind : List Char} : IsGap gap → IsGap gap' →
    TypeEdit (before ++ (gap ++ behind)) (before ++ (gap' ++ behind))
  | lead {blanks cs : List Char} : Run isBlank blanks → TypeEdit cs (blanks ++ cs)
  | trail {blanks cs : List Char} : Run isBlank blanks → TypeEdit cs (cs ++ blanks)
  | qualifier {before w behind : List Char} : w ∈ ignoredQualifiers → EndsBlank before →
    BeginsBlank behind → TypeEdit (before ++ behind) (before ++ (w ++ behind))

/-- Two texts are spellings of one type: changes of spelling lead from one to the other. -/
def SameType (s t : List Char) : Prop :=
  Relation.EqvGen TypeEdit s t

theorem typeTokens_append_gap {gap : List Char} (h : IsGap gap) (before behind : List Char) :
    typeTokens (before ++ (gap ++ behind)) = typeTokens before ++ typeTokens behind := by
  obtain ⟨hne, hrun⟩ := h
  obtain ⟨c, gap, rfl⟩ := List.exists_cons_of_ne_nil hne
  obtain ⟨hc, hrun⟩ := run_cons.1 hrun
  rw [typeTokens, List.cons_append, words_append hc, words_of_blanks hrun, List.filter_append]
  rfl

theorem typeTokens_of_blanks {blanks : List Char} (h : Run isBlank blanks) (cs : List Char) :
    typeTokens (blanks ++ cs) = typeTokens cs := by
  rw [typeTokens, words_of_blanks h, typeTokens]

/-- The qualifiers that do not matter are words. -/
theorem words_of_ignored {w : List Char} (h : w ∈ ignoredQualifiers) : words w = [w] := by
  have hall : ∀ v ∈ ignoredQualifiers, v ≠ [] ∧ Run (fun c => !isBlank c) v := by decide
  exact words_of_token (hall w h).1 fun c hc => by simpa using (hall w h).2 c hc

/-- A change of spelling leaves the words that matter. -/
theorem TypeEdit.typeTokens_eq {s t : List Char} (h : TypeEdit s t) :
    typeTokens s = typeTokens t := by
  cases h with
  | gap hgap hgap' => rw [typeTokens_append_gap hgap, typeTokens_append_gap hgap']
  | lead hblanks => rw [typeTokens_of_blanks hblanks]
  | @trail blanks _ hblanks =>
    by_cases hne : blanks = []
    · rw [hne, List.append_nil]
    · rw [← List.append_nil blanks, typeTokens_append_gap ⟨hne, hblanks⟩]
      exact (List.append_nil _).symm
  | @qualifier before w behind hw hbefore hbehind =>
    rw [typeTokens, typeTokens, hbefore.words_append, hbefore.words_append, hbehind.words_append,
      words_of_ignored hw, List.filter_append, List.filter_append, List.filter_append,
      List.filter_cons_of_neg (by simpa using hw)]
    rfl

theorem SameType.typeTokens_eq {s t : List Char} (h : SameType s t) :
    typeTokens s = typeTokens t := by
  induction h with
  | rel _ _ hedit => exact hedit.typeTokens_eq
  | refl _ => rfl
  | symm _ _ _ ih => exact ih.symm
  | trans _ _ _ _ _ ih ih' => exact ih.trans ih'

/-! ## The normal form as a spelling -/

theorem SameType.symm {s t : List Char} (h : SameType s t) : SameType t s :=
  Relation.EqvGen.symm _ _ h

theorem SameType.trans {s t u : List Char} (h : SameType s t) (h' : SameType t u) :
    SameType s u :=
  Relation.EqvGen.trans _ _ _ h h'

theorem TypeEdit.same {s t : List Char} (h : TypeEdit s t) : SameType s t :=
  Relation.EqvGen.rel _ _ h

/-- Blanks behind a blank, or at the beginning, can be dropped. -/
theorem sameType_of_blanks {before blanks : List Char} (hbefore : EndsBlank before)
    (hblanks : Run isBlank blanks) (cs : List Char) :
    SameType (before ++ (blanks ++ cs)) (before ++ cs) := by
  rcases List.eq_nil_or_concat before with rfl | ⟨lead, c, rfl⟩
  · exact (TypeEdit.lead hblanks).same.symm
  · have hc : isBlank c = true := hbefore c (by simp)
    have hgap : IsGap [c] := ⟨by simp, by simp [hc]⟩
    have hgap' : IsGap (c :: blanks) := ⟨by simp, run_cons.2 ⟨hc, hblanks⟩⟩
    have hedit : SameType (lead ++ ((c :: blanks) ++ cs)) (lead ++ ([c] ++ cs)) :=
      (TypeEdit.gap hgap' hgap).same
    simpa using hedit

/-- A blank behind a word becomes a single space, or nothing if no word follows. -/
theorem sameType_of_space {c : Char} (hc : isBlank c = true) (before w : List Char)
    (ws : List (List Char)) :
    SameType (before ++ (w ++ c :: [' '].intercalate ws))
      (before ++ [' '].intercalate (w :: ws)) := by
  cases ws with
  | nil =>
    have hblanks : Run isBlank [c] := by simp [hc]
    have hedit : SameType ((before ++ w) ++ [c]) (before ++ w) := (TypeEdit.trail hblanks).same.symm
    simpa using hedit
  | cons v ws =>
    have hgap : IsGap [c] := ⟨by simp, by simp [hc]⟩
    have hgap' : IsGap [' '] := by decide
    have hedit : SameType ((before ++ w) ++ ([c] ++ [' '].intercalate (v :: ws)))
        ((before ++ w) ++ ([' '] ++ [' '].intercalate (v :: ws))) :=
      (TypeEdit.gap hgap hgap').same
    simpa [List.intercalate_cons_cons] using hedit

/-- Behind a blank, or at the beginning, every text can be changed into its words with single spaces
between them. -/
theorem sameType_intercalate {before : List Char} (hbefore : EndsBlank before) (cs : List Char) :
    SameType (before ++ cs) (before ++ [' '].intercalate (typeTokens cs)) := by
  induction hn : cs.length using Nat.strongRecOn generalizing before cs with
  | ind n ih =>
    subst hn
    rcases exists_token cs with hblank | ⟨blanks, w, rest, rfl, hblanks, hne, hw, hrest⟩
    · have hnone : typeTokens cs = [] := by
        rw [← List.append_nil cs, typeTokens_of_blanks hblank]
        rfl
      rw [hnone, List.intercalate_nil, List.append_nil]
      exact (TypeEdit.trail hblank).same.symm
    · have hpos : 0 < w.length := List.length_pos_iff.2 hne
      have hwords : words (w ++ rest) = w :: words rest := by
        rw [hrest.words_append, words_of_token hne hw, List.singleton_append]
      have htokens : typeTokens (blanks ++ (w ++ rest)) = typeTokens (w ++ rest) :=
        typeTokens_of_blanks hblanks _
      by_cases hignored : w ∈ ignoredQualifiers
      · -- The qualifier is dropped, and the rest is shorter.
        have hdrop : typeTokens (blanks ++ (w ++ rest)) = typeTokens (blanks ++ rest) := by
          rw [htokens, typeTokens, hwords, List.filter_cons_of_neg (by simpa using hignored),
            typeTokens_of_blanks hblanks, typeTokens]
        have hedit : SameType ((before ++ blanks) ++ rest) ((before ++ blanks) ++ (w ++ rest)) :=
          (TypeEdit.qualifier hignored (hbefore.append hblanks) hrest).same
        rw [List.append_assoc, List.append_assoc] at hedit
        rw [hdrop]
        exact hedit.symm.trans (ih _ (by simp; omega) hbefore _ rfl)
      · have hkeep : typeTokens (blanks ++ (w ++ rest)) = w :: typeTokens rest := by
          rw [htokens, typeTokens, hwords, List.filter_cons_of_pos (by simpa using hignored),
            typeTokens]
        rw [hkeep]
        refine (sameType_of_blanks hbefore hblanks _).trans ?_
        cases rest with
        | nil =>
          have hnone : typeTokens [] = [] := rfl
          rw [hnone, List.append_nil, List.intercalate_singleton]
          exact Relation.EqvGen.refl _
        | cons c rest =>
          -- The word and the blank behind it are settled, and the rest is shorter.
          have hc : isBlank c = true := hrest c rfl
          have hskip : typeTokens (c :: rest) = typeTokens rest := by
            rw [typeTokens, words_of_blank hc, typeTokens]
          have hbehind : EndsBlank (before ++ (w ++ [c])) := fun d hd => by simp_all
          have hlater := ih rest.length (by simp; omega) hbehind rest rfl
          rw [List.append_assoc, List.append_assoc, List.append_assoc, List.append_assoc] at hlater
          rw [hskip]
          exact hlater.trans (sameType_of_space hc before w _)

theorem toList_normalizeType (type : String) :
    (normalizeType type).toList = [' '].intercalate (typeTokens type.toList) := by
  rw [normalizeType, String.toList_ofList, typeTokens]

/-- The normal form of a type is a spelling of it. -/
theorem sameType_normalizeType (type : String) :
    SameType type.toList (normalizeType type).toList := by
  rw [toList_normalizeType]
  have hstart : EndsBlank [] := fun c hc => by cases hc
  exact sameType_intercalate hstart type.toList

/-- Two texts are spellings of one type exactly if they have the same normal form. -/
theorem sameType_iff {s t : String} :
    SameType s.toList t.toList ↔ normalizeType s = normalizeType t := by
  constructor
  · intro h
    rw [← String.toList_inj, toList_normalizeType, toList_normalizeType, h.typeTokens_eq]
  · intro h
    have hs := sameType_normalizeType s
    rw [h] at hs
    exact hs.trans (sameType_normalizeType t).symm

theorem normalizeType_normalizeType (type : String) :
    normalizeType (normalizeType type) = normalizeType type :=
  (sameType_iff.1 (sameType_normalizeType type)).symm

/-! ## Java types by their normal forms -/

/-- The type words that stand for a primitive kind. -/
def Primitive.words : List String :=
  table.map (·.1)

theorem Primitive.ofType?_eq_none_iff {type : String} :
    ofType? type = none ↔ type ∉ Primitive.words := by
  rw [ofType?, List.lookup_eq_none_iff, Primitive.words, List.mem_map]
  simp only [bne_iff_ne, ne_eq, not_exists, not_and]
  exact ⟨fun h p hp e => h p hp e.symm, fun h p hp e => h p hp e.symm⟩

namespace JavaType

variable {known : List String} {f : Field}

/-- The type of a field apart from its repetition. -/
def plainOf (known : List String) (f : Field) : JavaType :=
  if f.isPointer then ofName known f.type else base known f.type

theorem ofName_eq (known : List String) (type : String) :
    ofName known type
      = if normalizeType type ∈ known then .reference (normalizeType type) else .unknown := by
  simp [ofName]

theorem usesList_ofName (known : List String) (type : String) :
    (ofName known type).usesList = false := by
  rw [ofName_eq]
  split <;> rfl

theorem usesList_base (known : List String) (type : String) :
    (base known type).usesList = false := by
  rw [base]
  split
  · rfl
  · exact usesList_ofName known type

theorem usesList_plainOf (known : List String) (f : Field) :
    (plainOf known f).usesList = false := by
  rw [plainOf]
  split
  · exact usesList_ofName known f.type
  · exact usesList_base known f.type

/-- A field is a list of its plain type if it has a repetition and no star. -/
theorem ofField_eq (known : List String) (f : Field) :
    ofField known f
      = if f.isPointer = false ∧ f.repetition.isSome = true then .repeated (plainOf known f)
        else plainOf known f := by
  rw [ofField, plainOf]
  cases f.isPointer <;> simp

/-- A list comes from a repetition, and its elements have the plain type. -/
theorem ofField_eq_repeated_iff {element : JavaType} :
    ofField known f = .repeated element ↔
      f.isPointer = false ∧ f.repetition.isSome = true ∧ element = plainOf known f := by
  rw [ofField_eq]
  split
  · rename_i hlist
    simp [hlist, eq_comm]
  · rename_i hno
    refine iff_of_false ?_ fun h => hno ⟨h.1, h.2.1⟩
    intro h
    have hplain := usesList_plainOf known f
    rw [h] at hplain
    cases hplain

theorem ofField_of_none : ofField known { f with repetition := none } = plainOf known f := by
  rw [ofField_eq, if_neg (by simp), plainOf, plainOf]

/-- Apart from a list, the plain type is all that a field's type is made of. -/
theorem hasPart_ofField_iff {part : JavaType} (hplain : part.usesList = false) :
    (ofField known f).HasPart part ↔ part = plainOf known f := by
  have hself : (plainOf known f).HasPart part ↔ part = plainOf known f :=
    ⟨fun h => h.eq_self (usesList_plainOf known f), fun h => h ▸ .self _⟩
  rw [ofField_eq]
  split
  · rw [hasPart_repeated, hself]
    refine or_iff_right ?_
    rintro rfl
    cases hplain
  · exact hself

/-- A type is read by its normal form. -/
theorem plainOf_eq (known : List String) (f : Field) :
    plainOf known f
      = match if f.isPointer then none else Primitive.ofType? (normalizeType f.type) with
        | some kind => .primitive kind
        | none => if normalizeType f.type ∈ known then .reference (normalizeType f.type)
          else .unknown := by
  rw [plainOf, base, ofName_eq]
  cases f.isPointer with
  | true => rw [if_pos rfl, if_pos rfl]
  | false =>
    cases Primitive.ofType? (normalizeType f.type) with
    | none => rfl
    | some kind => rfl

theorem plainOf_eq_reference {name : String} (h : plainOf known f = .reference name) :
    name ∈ known ∧ name = normalizeType f.type := by
  rw [plainOf_eq] at h
  split at h
  · cases h
  · split at h
    · rename_i hmem
      cases h
      exact ⟨hmem, rfl⟩
    · cases h

theorem plainOf_eq_unknown_iff :
    plainOf known f = .unknown ↔
      (f.isPointer = false → normalizeType f.type ∉ Primitive.words)
        ∧ normalizeType f.type ∉ known := by
  rw [plainOf_eq, ← Primitive.ofType?_eq_none_iff]
  cases hp : f.isPointer <;> cases hkind : Primitive.ofType? (normalizeType f.type) <;> simp

/-- **Types of fields.** The type of a field depends on the spelling of the C type through its
normal form only, which two texts share exactly if changes of blanks and of qualifiers that do not
matter lead from one to the other, and on the known names as a set. A pointer is neither primitive
nor a list. Any other field is a list exactly if it has a repetition, an empty one included, and its
elements are no lists and have the type of the field without repetition. A struct in the type is a
known one and its name is the normal form of the C type. The type is unknown, or a list of unknowns,
exactly if the normal form is no known name and, unless the field is a pointer, stands for no
primitive kind. -/
theorem ofField_by_normal_form (known : List String) (f : Field) :
    (∀ s t : String, SameType s.toList t.toList ↔ normalizeType s = normalizeType t)
      ∧ (∀ s, normalizeType (normalizeType s) = normalizeType s)
      ∧ (∀ s t : String, SameType s.toList t.toList →
          ofField known { f with type := s } = ofField known { f with type := t })
      ∧ (∀ known' : List String, (∀ name, name ∈ known' ↔ name ∈ known) →
          ofField known' f = ofField known f)
      ∧ (f.isPointer = true → ∀ kind element,
          ofField known f ≠ .primitive kind ∧ ofField known f ≠ .repeated element)
      ∧ (f.isPointer = false →
          ((∃ element, ofField known f = .repeated element) ↔ ∃ text, f.repetition = some text)
            ∧ ∀ element, ofField known f = .repeated element →
              (∀ inner, element ≠ .repeated inner)
                ∧ element = ofField known { f with repetition := none })
      ∧ (∀ name, (ofField known f).HasPart (.reference name) →
          name ∈ known ∧ name = normalizeType f.type)
      ∧ ((ofField known f).HasPart .unknown ↔
          (f.isPointer = false → normalizeType f.type ∉ Primitive.words)
            ∧ normalizeType f.type ∉ known) := by
  refine ⟨fun s t => sameType_iff, normalizeType_normalizeType, ?_, ?_, ?_, ?_, ?_, ?_⟩
  · intro s t h
    rw [ofField_eq, ofField_eq, plainOf_eq, plainOf_eq]
    simp only [sameType_iff.1 h]
  · intro known' h
    rw [ofField_eq, ofField_eq, plainOf_eq, plainOf_eq]
    simp only [h]
  · intro hp kind element
    rw [ofField_eq, if_neg (by simp [hp]), plainOf, if_pos hp, ofName_eq]
    split <;> exact ⟨by simp, by simp⟩
  · intro hp
    refine ⟨?_, ?_⟩
    · simp only [ofField_eq_repeated_iff, hp, true_and, exists_and_left, exists_eq, and_true,
        Option.isSome_iff_exists]
    · intro element h
      obtain ⟨-, -, rfl⟩ := ofField_eq_repeated_iff.1 h
      refine ⟨fun inner hinner => ?_, ofField_of_none.symm⟩
      have hplain := usesList_plainOf known f
      rw [hinner] at hplain
      cases hplain
  · exact fun name h => plainOf_eq_reference ((hasPart_ofField_iff rfl).1 h).symm
  · rw [hasPart_ofField_iff rfl, eq_comm, plainOf_eq_unknown_iff]

/-- A list of known structs, spelled with qualifiers in the middle and at the end. -/
def spelledField : Field :=
  ⟨"nodes", "Node\tconst  volatile", false, some "", false⟩

theorem spelled_field_is_list_of_nodes :
    SameType "Node\tconst  volatile".toList "const Node".toList
      ∧ ofField ["Table", "Node"] spelledField
        = ofField ["Table", "Node"] { spelledField with type := "const Node" }
      ∧ spelledField.isPointer = false
      ∧ ofField ["Table", "Node"] spelledField = .repeated (.reference "Node")
      ∧ "Node" = normalizeType spelledField.type := by
  have h := ofField_by_normal_form ["Table", "Node"] spelledField
  have hsame : SameType "Node\tconst  volatile".toList "const Node".toList :=
    sameType_iff.2 (by decide +kernel)
  have hlist : ofField ["Table", "Node"] spelledField = .repeated (.reference "Node") := by
    decide +kernel
  have hpart : (ofField ["Table", "Node"] spelledField).HasPart (.reference "Node") := by
    rw [hlist]
    exact .element (.self _)
  exact ⟨hsame, h.2.2.1 _ _ hsame, rfl, hlist, (h.2.2.2.2.2.2.1 "Node" hpart).2⟩

end JavaType

end StructAtlas
