import StructAtlas.Field
import StructAtlas.Proofs.Runs

set_option autoImplicit false

/-!
# Printed fields

A `FieldSpec` is a field in the parts it is written with, together with the facts that make it one:
its words are words, its qualifiers are qualifiers, and the text in its square brackets holds
nothing that would end the brackets, the statement or the body. `FieldSpec.statement` prints it and
`FieldSpec.field` is the field it stands for. The reader of statements inverts the printer
(`read_statement`), and the reader of bodies does so for any list of printed fields
(`ofBody_inner`).
-/

namespace StructAtlas

open Text

namespace Text

/-! ## Parts between separators -/

theorem splitBy_run {p : Char → Bool} {part : List Char} (h : ∀ c ∈ part, p c = false)
    {cs first : List Char} {others : List (List Char)} (hcs : splitBy p cs = first :: others) :
    splitBy p (part ++ cs) = (part ++ first) :: others := by
  induction part with
  | nil => exact hcs
  | cons c part ih =>
    have hpart := ih fun d hd => h d (List.mem_cons_of_mem _ hd)
    obtain ⟨first', others', hcs', hc'⟩ :=
      splitBy_cons_of_neg (h c List.mem_cons_self) (part ++ cs)
    rw [hpart, List.cons.injEq] at hcs'
    rw [List.cons_append, hc', ← hcs'.1, ← hcs'.2, List.cons_append]

/-- A part without separators in front of a separator stands alone. -/
theorem splitBy_part {p : Char → Bool} {part : List Char} (h : ∀ c ∈ part, p c = false) {c : Char}
    (hc : p c = true) (cs : List Char) : splitBy p (part ++ c :: cs) = part :: splitBy p cs := by
  rw [splitBy_run h (splitBy_cons_of_pos hc cs), List.append_nil]

theorem splitBy_of_forall {p : Char → Bool} {part : List Char} (h : ∀ c ∈ part, p c = false) :
    splitBy p part = [part] := by
  have hrun : splitBy p (part ++ []) = [part ++ []] := splitBy_run h rfl
  simpa using hrun

theorem splitOn_flatMap {sep : Char} {parts : List (List Char)} (h : ∀ q ∈ parts, sep ∉ q)
    {tail : List Char} (htail : sep ∉ tail) :
    splitOn sep (parts.flatMap (· ++ [sep]) ++ tail) = parts ++ [tail] := by
  induction parts with
  | nil =>
    apply splitBy_of_forall
    intro c hc
    simpa using fun e : c = sep => htail (e ▸ hc)
  | cons part parts ih =>
    have hpart : ∀ c ∈ part, (c == sep) = false := by
      intro c hc
      simpa using fun e : c = sep => h part List.mem_cons_self (e ▸ hc)
    have hrest := ih fun q hq => h q (List.mem_cons_of_mem _ hq)
    rw [List.flatMap_cons, List.append_assoc, List.append_assoc, List.singleton_append, splitOn,
      splitBy_part hpart (by simp)]
    exact congrArg (part :: ·) hrest

/-! ## Words -/

theorem words_of_blank {c : Char} (h : isBlank c = true) (cs : List Char) :
    words (c :: cs) = words cs := by
  rw [words, splitBy_cons_of_pos h]
  rfl

theorem words_of_blanks {blanks : List Char} (h : Run isBlank blanks) (cs : List Char) :
    words (blanks ++ cs) = words cs := by
  induction blanks with
  | nil => rfl
  | cons c blanks ih =>
    obtain ⟨hc, hblanks⟩ := run_cons.1 h
    rw [List.cons_append, words_of_blank hc, ih hblanks]

theorem IsName.not_blank {w : List Char} (h : IsName w) : ∀ c ∈ w, isBlank c = false := fun c hc =>
  isBlank_of_isWord c (h.2 c hc)

theorem words_of_name {w : List Char} (h : IsName w) : words w = [w] := by
  have hne : w.isEmpty = false := by simpa using h.1
  rw [words, splitBy_of_forall h.not_blank, List.filter_cons_of_pos (by simp [hne]),
    List.filter_nil]

/-- A word in front of a gap comes out in front of the words behind the gap. -/
theorem words_of_gap {w gap : List Char} (hw : IsName w) (hgap : IsGap gap) (cs : List Char) :
    words (w ++ (gap ++ cs)) = w :: words cs := by
  obtain ⟨hne, hrun⟩ := hgap
  obtain ⟨c, gap, rfl⟩ := List.exists_cons_of_ne_nil hne
  obtain ⟨hc, hrun⟩ := run_cons.1 hrun
  have hword : w.isEmpty = false := by simpa using hw.1
  rw [List.cons_append, words, splitBy_part hw.not_blank hc,
    List.filter_cons_of_pos (by simp [hword]), ← words_of_blanks hrun cs]
  rfl

/-- Words that are each followed by a blank come out in front of the words of the rest. -/
theorem words_flatMap {ws : List (List Char)} (h : ∀ w ∈ ws, IsName w) (cs : List Char) :
    words (ws.flatMap (· ++ [' ']) ++ cs) = ws ++ words cs := by
  induction ws with
  | nil => rfl
  | cons w ws ih =>
    have hblank : IsGap [' '] := by decide
    rw [List.flatMap_cons, List.append_assoc, List.append_assoc,
      words_of_gap (h w List.mem_cons_self) hblank, ih fun v hv => h v (List.mem_cons_of_mem _ hv)]
    rfl

end Text

/-- A field as it is written. -/
structure FieldSpec where
  isStruct : Bool
  qualifiers : List (List Char)
  base : List Char
  isPointer : Bool
  name : List Char
  repetition : Option (List Char)
  mem_qualifiers : ∀ q ∈ qualifiers, q ∈ Field.qualifiers
  isName_base : IsName base
  base_ne : base ≠ "struct".toList
  isName_name : IsName name
  trim_repetition : ∀ r ∈ repetition, trim r = r
  repetition_inner : ∀ r ∈ repetition, ∀ c ∈ r,
    c ∉ ['[', ']', '\x7b', '\x7d', ';', '#', '/', '\r', '\n']

namespace FieldSpec

/-- The words in front of the name, the keyword included. -/
def typeWords (f : FieldSpec) : List (List Char) :=
  (if f.isStruct then ["struct".toList] else []) ++ (f.qualifiers ++ [f.base])

/-- The text in square brackets, if there is one. -/
def brackets (f : FieldSpec) : List Char :=
  match f.repetition with
  | some r => '[' :: (r ++ [']'])
  | none => []

/-- The statement of a field, without its semicolon. -/
def statement (f : FieldSpec) : List Char :=
  f.typeWords.flatMap (· ++ [' '])
    ++ ((if f.isPointer then ['*'] else []) ++ (f.name ++ f.brackets))

/-- The field that a statement declares. -/
def field (f : FieldSpec) : Field where
  name := String.ofList f.name
  type := String.ofList ([' '].intercalate (f.qualifiers ++ [f.base]))
  isPointer := f.isPointer
  repetition := f.repetition.map String.ofList
  isStruct := f.isStruct

variable (f : FieldSpec)

theorem isName_of_mem_typeWords : ∀ w ∈ f.typeWords, IsName w := by
  intro w hw
  rw [typeWords, List.mem_append, List.mem_append, List.mem_singleton] at hw
  rcases hw with hw | hw | rfl
  · split at hw
    · rw [List.mem_singleton.1 hw]
      decide
    · cases hw
  · have hqualifiers : ∀ q ∈ Field.qualifiers, IsName q := by decide
    exact hqualifiers w (f.mem_qualifiers w hw)
  · exact f.isName_base

/-- The keyword and the type words are told apart. -/
theorem typeOf?_typeWords :
    Field.typeOf? f.typeWords
      = some (f.isStruct, [' '].intercalate (f.qualifiers ++ [f.base])) := by
  have hall : (f.qualifiers ++ [f.base]).dropLast.all Field.qualifiers.contains = true := by
    rw [List.dropLast_concat, List.all_eq_true]
    intro q hq
    exact List.contains_iff_mem.2 (f.mem_qualifiers q hq)
  have htake : Field.takeStruct f.typeWords = (f.isStruct, f.qualifiers ++ [f.base]) := by
    rw [typeWords]
    cases hs : f.isStruct with
    | true =>
      obtain ⟨w, ws, hw⟩ := List.exists_cons_of_ne_nil
        (show f.qualifiers ++ [f.base] ≠ [] by simp)
      rw [hw]
      rfl
    | false =>
      -- The first word is a qualifier or the last word, and neither is the keyword.
      have hne : ∀ w ∈ f.qualifiers ++ [f.base], (w == "struct".toList) = false := by
        intro w hw
        rw [beq_eq_false_iff_ne]
        rintro rfl
        rcases List.mem_append.1 hw with hq | hb
        · exact absurd (f.mem_qualifiers _ hq) (by decide)
        · exact f.base_ne (List.mem_singleton.1 hb).symm
      rcases hw : f.qualifiers ++ [f.base] with _ | ⟨w, _ | ⟨v, ws⟩⟩
      · rfl
      · rfl
      · have hfirst := hne w (by rw [hw]; exact List.mem_cons_self)
        change (if w == "struct".toList then _ else _) = _
        rw [hfirst]
        rfl
  rw [Field.typeOf?, htake]
  simp only [hall]
  simp

theorem readRepetition_brackets : Field.readRepetition f.brackets = some f.repetition := by
  rw [brackets]
  cases hr : f.repetition with
  | none => rfl
  | some r =>
    have hrun : Run Field.isInner r := by
      intro c hc
      have hnot := f.repetition_inner r hr c hc
      simp only [List.mem_cons, not_or] at hnot
      simp [Field.isInner, hnot.1, hnot.2.1]
    have hstop : Stops Field.isInner [']'] := stops_cons.2 (by decide)
    have hskip : skipBlanks ('[' :: (r ++ [']'])) = '[' :: (r ++ [']']) :=
      skipBlanks_of_stops (stops_cons.2 (by decide))
    rw [Field.readRepetition, hskip]
    simp only [dropWhile_run hrun hstop, takeWhile_run hrun hstop]
    simp [allBlank, f.trim_repetition r hr]

/-- Word characters and blanks end where the star or the bracket begins. -/
theorem stops_brackets {p : Char → Bool} (h : p '[' = false) : Stops p f.brackets := by
  rw [brackets]
  cases f.repetition with
  | none => exact stops_nil p
  | some r => exact stops_cons.2 h

theorem run_typeWords : Run Field.isWordOrBlank (f.typeWords.flatMap (· ++ [' '])) := by
  intro c hc
  obtain ⟨w, hw, hcw⟩ := List.mem_flatMap.1 hc
  rw [Field.isWordOrBlank, Bool.or_eq_true]
  rcases List.mem_append.1 hcw with hcw | hcw
  · exact Or.inl ((f.isName_of_mem_typeWords w hw).2 c hcw)
  · rw [List.mem_singleton.1 hcw]
    exact Or.inr (by decide)

theorem make?_typeWords (isPointer : Bool) :
    Field.make? f.typeWords isPointer f.name f.brackets
      = some { f.field with isPointer := isPointer } := by
  simp [Field.make?, typeOf?_typeWords, readRepetition_brackets, field]

theorem run_lead {lead : List Char} (hlead : Run isBlank lead) :
    Run Field.isWordOrBlank (lead ++ f.typeWords.flatMap (· ++ [' '])) := by
  refine run_append.2 ⟨?_, f.run_typeWords⟩
  intro c hc
  simp [Field.isWordOrBlank, hlead c hc]

/-- The words before a star are the type, and the name stands behind it. -/
theorem read_pointer {lead : List Char} (hlead : Run isBlank lead) (hp : f.isPointer = true) :
    Field.read (lead ++ f.statement) = some f.field := by
  have hstop : Stops Field.isWordOrBlank ('*' :: (f.name ++ f.brackets)) :=
    stops_cons.2 (by decide)
  have htext : lead ++ f.statement
      = (lead ++ f.typeWords.flatMap (· ++ [' '])) ++ '*' :: (f.name ++ f.brackets) := by
    rw [statement, hp, List.append_assoc]
    rfl
  have hword : Reading.word (skipBlanks (f.name ++ f.brackets)) = some (f.name, f.brackets) := by
    rw [skipBlanks_of_stops (f.isName_name.stops_blank _)]
    exact Reading.word_iff.2 ⟨rfl, f.isName_name, f.stops_brackets (by decide)⟩
  have hwords : words (lead ++ f.typeWords.flatMap (· ++ [' '])) = f.typeWords := by
    rw [words_of_blanks hlead, ← List.append_nil (f.typeWords.flatMap _),
      words_flatMap f.isName_of_mem_typeWords]
    exact List.append_nil _
  have hhead := f.run_lead hlead
  rw [Field.read, htext]
  simp only [takeWhile_run hhead hstop, dropWhile_run hhead hstop, Reading.mark, beq_self_eq_true,
    ↓reduceIte, hword, hwords, make?_typeWords]
  rw [← hp]
  rfl

/-- Without a star the last word is the name, and the words before it are the type. -/
theorem read_plain {lead : List Char} (hlead : Run isBlank lead) (hp : f.isPointer = false) :
    Field.read (lead ++ f.statement) = some f.field := by
  have hname : Run Field.isWordOrBlank f.name := by
    intro c hc
    simp [Field.isWordOrBlank, f.isName_name.2 c hc]
  have hhead : Run Field.isWordOrBlank (lead ++ f.typeWords.flatMap (· ++ [' ']) ++ f.name) :=
    run_append.2 ⟨f.run_lead hlead, hname⟩
  have hstop : Stops Field.isWordOrBlank f.brackets := f.stops_brackets (by decide)
  have htext : lead ++ f.statement
      = (lead ++ f.typeWords.flatMap (· ++ [' ']) ++ f.name) ++ f.brackets := by
    rw [statement, hp]
    simp
  have hmark : Reading.mark '*' f.brackets = none := by
    rw [brackets]
    cases f.repetition <;> rfl
  have hwords : words (lead ++ f.typeWords.flatMap (· ++ [' ']) ++ f.name)
      = f.typeWords ++ [f.name] := by
    rw [List.append_assoc, words_of_blanks hlead, words_flatMap f.isName_of_mem_typeWords,
      words_of_name f.isName_name]
  rw [Field.read, htext]
  simp only [takeWhile_run hhead hstop, dropWhile_run hhead hstop, hmark, hwords,
    List.getLast?_concat, List.dropLast_concat, make?_typeWords]
  rw [← hp]
  rfl

/-- Reading a printed statement gives its field. -/
theorem read_statement {lead : List Char} (hlead : Run isBlank lead) :
    Field.read (lead ++ f.statement) = some f.field := by
  cases hp : f.isPointer with
  | true => exact f.read_pointer hlead hp
  | false => exact f.read_plain hlead hp

/-! ## Bodies of printed fields -/

/-- Characters that neither end anything nor begin a directive or a comment. -/
def isPlain (c : Char) : Bool :=
  !(['\x7b', '\x7d', ';', '#', '/', '\r', '\n'].contains c)

theorem isPlain_iff {c : Char} :
    isPlain c = true ↔ c ∉ ['\x7b', '\x7d', ';', '#', '/', '\r', '\n'] := by
  rw [isPlain, Bool.not_eq_true', List.contains_eq_mem, decide_eq_false_iff_not]

theorem isPlain_of_class {p : Char → Bool}
    (h : ['\x7b', '\x7d', ';', '#', '/', '\r', '\n'].all (fun c => !p c) = true) {c : Char}
    (hc : p c = true) : isPlain c = true := by
  rw [isPlain_iff]
  intro hm
  have := List.all_eq_true.1 h c hm
  rw [hc] at this
  cases this

theorem isPlain_of_isWord {c : Char} (hc : isWord c = true) : isPlain c = true :=
  isPlain_of_class (by decide) hc

theorem run_statement : Run isPlain f.statement := by
  have hwords : Run isPlain (f.typeWords.flatMap (· ++ [' '])) := by
    intro c hc
    obtain ⟨w, hw, hcw⟩ := List.mem_flatMap.1 hc
    rcases List.mem_append.1 hcw with hcw | hcw
    · exact isPlain_of_isWord ((f.isName_of_mem_typeWords w hw).2 c hcw)
    · rw [List.mem_singleton.1 hcw]
      decide
  have hstar : Run isPlain (if f.isPointer then ['*'] else []) := by
    cases f.isPointer <;> decide
  have hname : Run isPlain f.name := fun c hc => isPlain_of_isWord (f.isName_name.2 c hc)
  have hbrackets : Run isPlain f.brackets := by
    rw [brackets]
    cases hr : f.repetition with
    | none => exact run_nil _
    | some r =>
      refine run_cons.2 ⟨by decide, run_append.2 ⟨?_, by decide⟩⟩
      intro c hc
      have hnot := f.repetition_inner r hr c hc
      simp only [List.mem_cons, not_or] at hnot
      simp [isPlain, hnot]
  exact run_append.2 ⟨hwords, run_append.2 ⟨hstar, run_append.2 ⟨hname, hbrackets⟩⟩⟩

/-- The line of a field. -/
def line (indent : List Char) (f : FieldSpec) : List Char :=
  indent ++ (f.statement ++ [';', '\n'])

/-- The text between the braces of a struct: the rest of the first line and the lines of the fields.
-/
def inner (indent : List Char) (fs : List FieldSpec) : List Char :=
  '\n' :: fs.flatMap (line indent)

/-- Seen from the semicolons, every statement begins with the line feed before it. -/
theorem inner_eq (indent : List Char) (fs : List FieldSpec) :
    inner indent fs
      = (fs.map fun f => '\n' :: (indent ++ f.statement)).flatMap (· ++ [';']) ++ ['\n'] := by
  rw [inner]
  induction fs with
  | nil => rfl
  | cons f fs ih =>
    rw [List.flatMap_cons, List.map_cons, List.flatMap_cons, List.append_assoc, ← ih]
    simp [line]

/-- The indentation of a printed field. -/
def IsIndent (indent : List Char) : Prop :=
  Run (fun c => c == ' ' || c == '\t') indent

theorem IsIndent.blank {indent : List Char} (h : IsIndent indent) : Run isBlank indent := by
  intro c hc
  rcases Bool.or_eq_true_iff.1 (h c hc) with e | e <;> rw [beq_iff_eq.1 e] <;> decide

theorem IsIndent.plain {indent : List Char} (h : IsIndent indent) : Run isPlain indent := by
  intro c hc
  rcases Bool.or_eq_true_iff.1 (h c hc) with e | e <;> rw [beq_iff_eq.1 e] <;> decide

theorem dropDirectivesFrom_of_not_mem {lineStart : Bool} {cs : List Char} (h : '#' ∉ cs) :
    Field.dropDirectivesFrom 0 lineStart cs = cs := by
  induction cs generalizing lineStart with
  | nil => rfl
  | cons c cs ih =>
    have hnone : Field.directiveLength? (c :: cs) = none := by
      rw [Field.directiveLength?]
      split
      · rename_i rest hskip
        -- A directive would bring its sign with it.
        have hm : '#' ∈ skipBlanks (c :: cs) := by
          rw [hskip]
          exact List.mem_cons_self
        exact absurd ((List.dropWhile_sublist isBlank).mem hm) h
      · rfl
    rw [Field.dropDirectivesFrom, hnone]
    simp only [ite_self]
    rw [ih fun hm => h (List.mem_cons_of_mem _ hm)]

variable {indent : List Char} (hindent : IsIndent indent) (fs : List FieldSpec)

include hindent

theorem run_inner : ∀ c ∈ inner indent fs, c ∉ ['\x7b', '\x7d', '#', '/', '\r'] := by
  intro c hc
  rw [inner, List.mem_cons] at hc
  rcases hc with rfl | hc
  · decide
  · obtain ⟨f, hf, hcf⟩ := List.mem_flatMap.1 hc
    rw [line, List.mem_append, List.mem_append] at hcf
    -- Only the end of a line is not plain, and it is none of these characters either.
    have hplain : isPlain c = true ∨ c ∈ [';', '\n'] := by
      rcases hcf with hcf | hcf | hcf
      · exact Or.inl (hindent.plain c hcf)
      · exact Or.inl (f.run_statement c hcf)
      · exact Or.inr hcf
    rcases hplain with hplain | hend
    · simp only [isPlain_iff, List.mem_cons, not_or] at hplain
      simp [hplain]
    · rcases List.mem_cons.1 hend with rfl | hend
      · decide
      · rw [List.mem_singleton.1 hend]
        decide

theorem statements_inner :
    Field.statements (inner indent fs) = fs.map fun f => '\n' :: (indent ++ f.statement) := by
  have hdirective : '#' ∉ inner indent fs := fun hm =>
    run_inner hindent fs _ hm (by decide)
  have hparts : ∀ q ∈ fs.map fun f => '\n' :: (indent ++ f.statement), ';' ∉ q := by
    intro q hq hm
    obtain ⟨f, hf, rfl⟩ := List.mem_map.1 hq
    rcases List.mem_cons.1 hm with h | h
    · exact absurd h (by decide)
    · rcases List.mem_append.1 h with h | h
      · exact absurd (hindent.plain _ h) (by decide)
      · exact absurd (f.run_statement _ h) (by decide)
  rw [Field.statements, Field.dropDirectives, dropDirectivesFrom_of_not_mem hdirective, inner_eq,
    splitOn_flatMap hparts (by decide), List.dropLast_concat]

theorem read_indented (f : FieldSpec) :
    Field.read ('\n' :: (indent ++ f.statement)) = some f.field := by
  have hlead : Run isBlank ('\n' :: indent) := run_cons.2 ⟨by decide, hindent.blank⟩
  have hread := f.read_statement hlead
  rwa [List.cons_append] at hread

/-- The fields of a printed body are those that were printed, in their order. -/
theorem ofBody_inner : Field.ofBody (inner indent fs) = fs.map field := by
  rw [Field.ofBody, statements_inner hindent, List.filterMap_map]
  have hread : Field.read ∘ (fun f : FieldSpec => '\n' :: (indent ++ f.statement))
      = fun f => some f.field :=
    funext fun f => read_indented hindent f
  rw [hread, List.filterMap_eq_map']

end FieldSpec

end StructAtlas
