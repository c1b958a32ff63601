import StructAtlas.Proofs.FieldText

set_option autoImplicit false

/-!
# The grammar of fields

A statement that is a field has type words, a gap or a star, a name and perhaps a text in square
brackets, with blanks around them. `Field.Written` says so of a text, and `Field.Parts.field` is the
field that the parts stand for. The reader takes the longest run of words and blanks and decides
then where the name is. It reads every text of this form as the field of its parts, and no other
text (`read_eq_some_iff`), so no text can be read in two ways.
-/

namespace StructAtlas.Field

open Text

/-! ## Statements -/

/-- Words with gaps between them. -/
inductive Joined : List (List Char) → List Char → Prop where
  | one {w : List Char} : IsName w → Joined [w] w
  | more {w gap text : List Char} {ws : List (List Char)} :
    IsName w → IsGap gap → Joined ws text → Joined (w :: ws) (w ++ (gap ++ text))

/-- What stands between the type words and the name. The flag says that it holds a star. -/
inductive Separates : Bool → List Char → Prop where
  | gap {gap : List Char} : IsGap gap → Separates false gap
  | star {b₁ b₂ : List Char} : Run isBlank b₁ → Run isBlank b₂ → Separates true (b₁ ++ '*' :: b₂)

/-- The square brackets behind a name, with the text in them. -/
inductive Bracketed : Option (List Char) → List Char → Prop where
  | absent : Bracketed none []
  | present {inside : List Char} : '[' ∉ inside → ']' ∉ inside →
    Bracketed (some inside) ('[' :: (inside ++ [']']))

/-- The parts of a statement. -/
structure Parts where
  words : List (List Char)
  isPointer : Bool
  name : List Char
  inside : Option (List Char)

namespace Parts

/-- The keyword `struct` stands before other words. -/
def isStruct (p : Parts) : Bool :=
  p.words.head? == some "struct".toList && decide (2 ≤ p.words.length)

/-- The words of the type, without the keyword. -/
def types (p : Parts) : List (List Char) :=
  if p.isStruct then p.words.tail else p.words

/-- The field that the parts stand for. -/
def field (p : Parts) : Field where
  name := String.ofList p.name
  type := String.ofList ([' '].intercalate p.types)
  isPointer := p.isPointer
  repetition := p.inside.map fun inside => String.ofList (trim inside)
  isStruct := p.isStruct

end Parts

/-- A text is a statement with these parts. -/
inductive Written : Parts → List Char → Prop where
  | parts {p : Parts} {lead joined sep b brackets tail : List Char} :
    Run isBlank lead → Joined p.words joined → Separates p.isPointer sep → IsName p.name →
    Run isBlank b → Bracketed p.inside brackets → Run isBlank tail →
    (∀ w ∈ p.types.dropLast, w ∈ qualifiers) →
    Written p (lead ++ (joined ++ (sep ++ (p.name ++ (b ++ (brackets ++ tail))))))

/-! ## Joined words -/

variable {ws : List (List Char)} {text gap name cs : List Char}

theorem Joined.ne_nil (h : Joined ws text) : ws ≠ [] := by
  cases h <;> simp

/-- Joined words begin with a word character. -/
theorem Joined.exists_cons (h : Joined ws text) : ∃ c cs, text = c :: cs ∧ isWord c = true := by
  have hname : ∀ {w : List Char}, IsName w → ∃ c cs, w = c :: cs ∧ isWord c = true := by
    rintro w ⟨hne, hrun⟩
    obtain ⟨c, cs, rfl⟩ := List.exists_cons_of_ne_nil hne
    exact ⟨c, cs, rfl, (run_cons.1 hrun).1⟩
  cases h with
  | one hw => exact hname hw
  | more hw =>
    obtain ⟨c, cs, rfl, hc⟩ := hname hw
    exact ⟨c, _, rfl, hc⟩

theorem Joined.run (h : Joined ws text) : Run isWordOrBlank text := by
  have hword : ∀ {w}, IsName w → Run isWordOrBlank w := fun hw c hc => by
    simp [isWordOrBlank, hw.2 c hc]
  induction h with
  | one hw => exact hword hw
  | more hw hgap _ ih =>
    refine run_append.2 ⟨hword hw, run_append.2 ⟨fun c hc => ?_, ih⟩⟩
    simp [isWordOrBlank, hgap.2 c hc]

/-- One more word at the end. -/
theorem Joined.concat (h : Joined ws text) (hgap : IsGap gap) (hname : IsName name) :
    Joined (ws ++ [name]) (text ++ (gap ++ name)) := by
  induction h with
  | one hw => exact .more hw hgap (.one hname)
  | more hw hgap' _ ih =>
    rw [List.append_assoc, List.append_assoc]
    exact .more hw hgap' ih

/-- The last of several words stands behind a gap. -/
theorem exists_of_joined_concat (h : Joined (ws ++ [name]) text) (hws : ws ≠ []) :
    ∃ joined gap, text = joined ++ (gap ++ name) ∧ Joined ws joined ∧ IsGap gap ∧ IsName name := by
  induction ws generalizing text with
  | nil => exact absurd rfl hws
  | cons w ws ih =>
    rw [List.cons_append] at h
    generalize hall : ws ++ [name] = all at h
    cases h with
    | one => simp at hall
    | @more _ gap text _ hw hgap hrest =>
      subst hall
      cases ws with
      | nil =>
        cases hrest with
        | one hname => exact ⟨w, gap, rfl, .one hw, hgap, hname⟩
        | more _ _ hnone => exact absurd rfl hnone.ne_nil
      | cons v ws =>
        obtain ⟨joined, gap', rfl, hjoined, hgap', hname⟩ := ih hrest (by simp)
        exact ⟨w ++ (gap ++ joined), gap', by simp, .more hw hgap hjoined, hgap', hname⟩

/-- The words of joined words, also with blanks around them. -/
theorem Joined.words_eq (h : Joined ws text) {lead tail : List Char} (hlead : Run isBlank lead)
    (htail : Run isBlank tail) : words (lead ++ (text ++ tail)) = ws := by
  rw [words_of_blanks hlead]
  induction h with
  | @one w hw =>
    cases tail with
    | nil => rw [List.append_nil, words_of_name hw]
    | cons c tail =>
      have hgap : IsGap (c :: tail) := ⟨by simp, htail⟩
      rw [← List.append_nil (c :: tail), words_of_gap hw hgap]
      rfl
  | more hw hgap _ ih => rw [List.append_assoc, List.append_assoc, words_of_gap hw hgap, ih]

/-- A run of word characters and blanks holds blanks only, or it has a first word. -/
theorem exists_name (h : Run isWordOrBlank cs) :
    Run isBlank cs ∨ ∃ lead w rest, cs = lead ++ (w ++ rest) ∧ Run isBlank lead ∧ IsName w ∧
      Stops isWord rest := by
  obtain ⟨lead, hcs, hlead, hstop⟩ := exists_skipBlanks cs
  obtain ⟨w, hbehind, hw, hend⟩ := exists_run isWord (skipBlanks cs)
  cases hskip : skipBlanks cs with
  | nil =>
    rw [hskip, List.append_nil] at hcs
    exact .inl (hcs ▸ hlead)
  | cons c behind =>
    -- The first character behind the blanks is one of a word.
    have hc : isWord c = true := by
      have hclass := h c (by rw [hcs, hskip]; simp)
      rw [hskip, stops_cons] at hstop
      rwa [isWordOrBlank, hstop, Bool.or_false] at hclass
    have hne : w ≠ [] := by
      rintro rfl
      rw [List.nil_append, hskip] at hbehind
      rw [hskip, ← hbehind, stops_cons, hc] at hend
      cases hend
    exact .inr ⟨lead, w, _, by rw [← hbehind, ← hcs], hlead, ⟨hne, hw⟩, hend⟩

/-- A run of word characters and blanks holds blanks only, or words with blanks around them. -/
theorem exists_joined (h : Run isWordOrBlank cs) :
    Run isBlank cs ∨ ∃ ws lead text tail, cs = lead ++ (text ++ tail) ∧ Run isBlank lead ∧
      Joined ws text ∧ Run isBlank tail := by
  induction hn : cs.length using Nat.strongRecOn generalizing cs with
  | ind n ih =>
    subst hn
    rcases exists_name h with hblank | ⟨lead, w, rest, rfl, hlead, hw, hend⟩
    · exact .inl hblank
    · have hrest := (run_append.1 (run_append.1 h).2).2
      have hshorter : rest.length < (lead ++ (w ++ rest)).length := by
        have hpos := List.length_pos_iff.2 hw.1
        simp only [List.length_append]
        omega
      rcases ih _ hshorter hrest rfl with hblank | ⟨ws, gap, text, tail, rfl, hgap, hjoined, htail⟩
      · exact .inr ⟨[w], lead, w, rest, rfl, hlead, .one hw, hblank⟩
      · -- The word has ended, so blanks stand before the other words.
        have hne : gap ≠ [] := by
          rintro rfl
          obtain ⟨c, cs, rfl, hc⟩ := hjoined.exists_cons
          rw [List.nil_append, List.cons_append, stops_cons, hc] at hend
          cases hend
        exact .inr ⟨w :: ws, lead, w ++ (gap ++ text), tail, by simp, hlead,
          .more hw ⟨hne, hgap⟩ hjoined, htail⟩

/-! ## Type words and brackets -/

theorem takeStruct_words (p : Parts) : takeStruct p.words = (p.isStruct, p.types) := by
  rw [Parts.types, Parts.isStruct]
  rcases p.words with _ | ⟨w, _ | ⟨v, more⟩⟩
  · rfl
  · simp [takeStruct]
  · cases hw : w == "struct".toList with
    | true => simp [takeStruct, eq_of_beq hw]
    | false =>
      rw [takeStruct, hw, List.head?_cons, Option.some_beq_some, hw]
      rfl

theorem Parts.types_eq_nil_iff (p : Parts) : p.types = [] ↔ p.words = [] := by
  rw [types, isStruct]
  rcases p.words with _ | ⟨w, _ | ⟨v, more⟩⟩
  · simp
  · simp
  · split <;> simp

/-- Which words form a type. -/
theorem typeOf?_eq_some_iff {p : Parts} {r : Bool × List Char} :
    typeOf? p.words = some r ↔
      p.words ≠ [] ∧ (∀ w ∈ p.types.dropLast, w ∈ qualifiers) ∧
        (p.isStruct, [' '].intercalate p.types) = r := by
  rw [typeOf?, takeStruct_words]
  simp only [Option.ite_none_left_eq_some, Bool.or_eq_true, List.isEmpty_iff, not_or,
    Bool.not_eq_true', Bool.not_eq_false, List.all_eq_true, List.contains_iff_mem,
    Option.some.injEq, and_assoc, ne_eq, p.types_eq_nil_iff]

theorem run_isInner_iff {inside : List Char} :
    Run isInner inside ↔ '[' ∉ inside ∧ ']' ∉ inside := by
  simp only [Run, isInner, Bool.and_eq_true, bne_iff_ne]
  constructor
  · intro h
    exact ⟨fun hm => (h _ hm).1 rfl, fun hm => (h _ hm).2 rfl⟩
  · rintro ⟨hopen, hclose⟩ c hc
    exact ⟨fun e => hopen (e ▸ hc), fun e => hclose (e ▸ hc)⟩

theorem allBlank_iff : allBlank cs = true ↔ Run isBlank cs := List.all_eq_true

variable {repetition : Option (List Char)} {b brackets tail : List Char}

/-- What stands behind a name where the reader accepts it. -/
theorem exists_bracketed_of_readRepetition (h : readRepetition cs = some repetition) :
    ∃ inside b brackets tail, cs = b ++ (brackets ++ tail) ∧ Run isBlank b ∧
      Bracketed inside brackets ∧ Run isBlank tail ∧ inside.map trim = repetition := by
  obtain ⟨b, hcs, hb, -⟩ := exists_skipBlanks cs
  rw [readRepetition] at h
  split at h
  · rename_i hskip
    cases h
    rw [hskip] at hcs
    exact ⟨none, b, [], [], hcs, hb, .absent, run_nil _, rfl⟩
  · rename_i inner hskip
    obtain ⟨inside, hinner, hrun, -⟩ := exists_run isInner inner
    split at h
    · rename_i tail hclose
      rw [hclose] at hinner
      subst hinner
      rw [takeWhile_run hrun (stops_cons.2 (by decide))] at h
      simp only [Option.ite_none_right_eq_some, Option.some.injEq] at h
      obtain ⟨htail, rfl⟩ := h
      obtain ⟨hopen, hclose⟩ := run_isInner_iff.1 hrun
      refine ⟨some inside, b, _, tail, ?_, hb, .present hopen hclose, allBlank_iff.1 htail, rfl⟩
      rw [hcs, hskip]
      simp
    · cases h
  · cases h

/-- The reader accepts blanks and square brackets behind a name. -/
theorem Bracketed.readRepetition_eq {inside : Option (List Char)}
    (hbrackets : Bracketed inside brackets) (hb : Run isBlank b) (htail : Run isBlank tail) :
    readRepetition (b ++ (brackets ++ tail)) = some (inside.map trim) := by
  cases hbrackets with
  | absent =>
    have hblank : skipBlanks (b ++ ([] ++ tail)) = [] := by
      have hrun := run_append.2 ⟨hb, htail⟩
      have hskip := skipBlanks_append hrun (stops_nil isBlank)
      rwa [List.append_nil] at hskip
    rw [readRepetition, hblank]
    rfl
  | @present inside hopen hclose =>
    have hrun := run_isInner_iff.2 ⟨hopen, hclose⟩
    have hstop : Stops isInner (']' :: tail) := stops_cons.2 (by decide)
    have hskip : skipBlanks (b ++ ('[' :: (inside ++ [']']) ++ tail)) =
        '[' :: (inside ++ ']' :: tail) := by
      rw [List.cons_append, skipBlanks_append hb (stops_cons.2 (by decide)), List.append_assoc]
      rfl
    rw [readRepetition, hskip]
    simp only [dropWhile_run hrun hstop, takeWhile_run hrun hstop, allBlank_iff.2 htail, if_true,
      Option.map_some]

variable {isPointer : Bool} {rest : List Char} {f : Field}

/-- Which parts make a field. -/
theorem make?_eq_some_iff :
    make? ws isPointer name rest = some f ↔
      ∃ inside b brackets tail, rest = b ++ (brackets ++ tail) ∧ Run isBlank b ∧
        Bracketed inside brackets ∧ Run isBlank tail ∧ ws ≠ [] ∧
        (∀ w ∈ (Parts.mk ws isPointer name inside).types.dropLast, w ∈ qualifiers) ∧
        (Parts.mk ws isPointer name inside).field = f := by
  have htype := @typeOf?_eq_some_iff ⟨ws, isPointer, name, none⟩
  constructor
  · intro h
    simp only [make?, Option.bind_eq_bind, Option.bind_eq_some_iff, Option.pure_def,
      Option.some.injEq] at h
    obtain ⟨type, hwords, repetition, hrepetition, rfl⟩ := h
    obtain ⟨hne, hqualifiers, rfl⟩ := htype.1 hwords
    obtain ⟨inside, b, brackets, tail, rfl, hb, hbrackets, htail, rfl⟩ :=
      exists_bracketed_of_readRepetition hrepetition
    refine ⟨inside, b, brackets, tail, rfl, hb, hbrackets, htail, hne, hqualifiers, ?_⟩
    rw [Parts.field, Option.map_map]
    rfl
  · rintro ⟨inside, b, brackets, tail, rfl, hb, hbrackets, htail, hne, hqualifiers, rfl⟩
    have hwords := htype.2 ⟨hne, hqualifiers, rfl⟩
    have hrepetition := hbrackets.readRepetition_eq hb htail
    simp only at hwords
    simp only [make?, hwords, hrepetition, Option.bind_eq_bind, Option.bind_some, Option.pure_def,
      Parts.field, Option.map_map]
    rfl

/-! ## Reading -/

variable {head : List Char}

/-- With a star behind the words, the name stands behind the star. -/
theorem read_star (hhead : Run isWordOrBlank head) (behind : List Char) :
    read (head ++ '*' :: behind) =
      (Reading.word (skipBlanks behind)).bind fun r => make? (words head) true r.1 r.2 := by
  have hstop : Stops isWordOrBlank ('*' :: behind) := stops_cons.2 (by decide)
  rw [read, takeWhile_run hhead hstop, dropWhile_run hhead hstop, Reading.mark]
  simp only [beq_self_eq_true, if_true]
  cases Reading.word (skipBlanks behind) <;> rfl

/-- Without a star, the name is the last one of the words. -/
theorem read_gap (hhead : Run isWordOrBlank head) (hstop : Stops isWordOrBlank rest)
    (hmark : Reading.mark '*' rest = none) :
    read (head ++ rest) =
      (words head).getLast?.bind fun name => make? (words head).dropLast false name rest := by
  rw [read, takeWhile_run hhead hstop, dropWhile_run hhead hstop, hmark]
  cases (words head).getLast? <;> rfl

/-- The words of a run of words and blanks, with the text that they are joined to. -/
theorem exists_of_words (hhead : Run isWordOrBlank head) (hne : words head ≠ []) :
    ∃ lead text tail, head = lead ++ (text ++ tail) ∧ Run isBlank lead ∧
      Joined (words head) text ∧ Run isBlank tail := by
  rcases exists_joined hhead with hblank | ⟨ws, lead, text, tail, rfl, hlead, hjoined, htail⟩
  · have hnone := words_of_blanks hblank []
    rw [List.append_nil] at hnone
    exact absurd hnone hne
  · refine ⟨lead, text, tail, rfl, hlead, ?_, htail⟩
    rwa [hjoined.words_eq hlead htail]

/-- A text that is read as a pointer is a statement. -/
theorem exists_written_of_star {behind : List Char} (hhead : Run isWordOrBlank head)
    (h : read (head ++ '*' :: behind) = some f) :
    ∃ p, Written p (head ++ '*' :: behind) ∧ p.field = f := by
  rw [read_star hhead, Option.bind_eq_some_iff] at h
  obtain ⟨⟨name, more⟩, hword, hmake⟩ := h
  obtain ⟨b₂, hbehind, hb₂, -⟩ := exists_skipBlanks behind
  obtain ⟨hskip, hname, -⟩ := Reading.word_iff.1 hword
  obtain ⟨inside, b, brackets, tail, rfl, hb, hbrackets, htail, hne, hqualifiers, rfl⟩ :=
    make?_eq_some_iff.1 hmake
  obtain ⟨lead, text, b₁, hhead', hlead, hjoined, hb₁⟩ := exists_of_words hhead hne
  have hwritten := @Written.parts ⟨words head, true, name, inside⟩ lead text _ b brackets tail
    hlead hjoined (.star hb₁ hb₂) hname hb hbrackets htail hqualifiers
  refine ⟨_, ?_, rfl⟩
  generalize words head = ws at hwritten ⊢
  rw [hhead', hbehind, hskip]
  simpa using hwritten

/-- A text that is read without a star is a statement, too. -/
theorem exists_written_of_gap (hhead : Run isWordOrBlank head) (hstop : Stops isWordOrBlank rest)
    (hmark : Reading.mark '*' rest = none) (h : read (head ++ rest) = some f) :
    ∃ p, Written p (head ++ rest) ∧ p.field = f := by
  rw [read_gap hhead hstop hmark, Option.bind_eq_some_iff] at h
  obtain ⟨name, hlast, hmake⟩ := h
  obtain ⟨ws, hws⟩ := List.getLast?_eq_some_iff.1 hlast
  rw [hws, List.dropLast_concat] at hmake
  obtain ⟨inside, b, brackets, tail, rfl, hb, hbrackets, htail, hne, hqualifiers, rfl⟩ :=
    make?_eq_some_iff.1 hmake
  obtain ⟨lead, text, b', hhead', hlead, hjoined, hb'⟩ := exists_of_words hhead (by simp [hws])
  rw [hws] at hjoined
  obtain ⟨joined, gap, rfl, hjoined, hgap, hname⟩ := exists_of_joined_concat hjoined hne
  have hwritten := @Written.parts ⟨ws, false, name, inside⟩ lead joined gap (b' ++ b) brackets tail
    hlead hjoined (.gap hgap) hname (run_append.2 ⟨hb', hb⟩) hbrackets htail hqualifiers
  refine ⟨_, ?_, rfl⟩
  rw [hhead']
  simpa using hwritten

/-- A text that is read is a statement. -/
theorem exists_written_of_read (h : read cs = some f) : ∃ p, Written p cs ∧ p.field = f := by
  obtain ⟨head, hcs, hhead, hstop⟩ := exists_run isWordOrBlank cs
  generalize cs.dropWhile isWordOrBlank = rest at hcs hstop
  subst hcs
  cases hmark : Reading.mark '*' rest with
  | some behind =>
    obtain rfl := Reading.mark_eq_some.1 hmark
    exact exists_written_of_star hhead h
  | none => exact exists_written_of_gap hhead hstop hmark h

/-- Blanks that no brackets follow belong to the words before them. -/
theorem Bracketed.exists_end {inside : Option (List Char)} (hbrackets : Bracketed inside brackets)
    (hb : Run isBlank b) (htail : Run isBlank tail) :
    ∃ b' tail', b ++ (brackets ++ tail) = b' ++ (brackets ++ tail') ∧ Run isBlank b' ∧
      Run isBlank tail' ∧ Stops isWordOrBlank (brackets ++ tail') ∧
      Reading.mark '*' (brackets ++ tail') = none := by
  cases hbrackets with
  | absent =>
    exact ⟨b ++ tail, [], by simp, run_append.2 ⟨hb, htail⟩, run_nil _, stops_nil _, rfl⟩
  | present =>
    exact ⟨b, tail, rfl, hb, htail, stops_cons.2 (by decide), rfl⟩

theorem Bracketed.stops_word {inside : Option (List Char)} (hbrackets : Bracketed inside brackets)
    (hb : Run isBlank b) (htail : Run isBlank tail) :
    Stops isWord (b ++ (brackets ++ tail)) := by
  apply hb.stops_append isWord_of_isBlank
  cases hbrackets with
  | absent =>
    have hstop := htail.stops_append isWord_of_isBlank (stops_nil isWord)
    rwa [List.append_nil] at hstop
  | present => exact stops_cons.2 (by decide)

theorem run_isWordOrBlank (h : Run isBlank cs) : Run isWordOrBlank cs := by
  intro c hc
  simp [isWordOrBlank, h c hc]

/-- A statement is read as the field of its parts. -/
theorem Written.read_eq {p : Parts} (h : Written p cs) : read cs = some p.field := by
  obtain ⟨ws, isPointer, name, inside⟩ := p
  cases h with
  | @parts lead joined sep b brackets tail hlead hjoined hsep hname hb hbrackets htail
      hqualifiers =>
    cases hsep with
    | @star b₁ b₂ hb₁ hb₂ =>
      have hhead : Run isWordOrBlank (lead ++ (joined ++ b₁)) :=
        run_append.2 ⟨run_isWordOrBlank hlead, run_append.2 ⟨hjoined.run, run_isWordOrBlank hb₁⟩⟩
      have hword : Reading.word (skipBlanks (b₂ ++ (name ++ (b ++ (brackets ++ tail))))) =
          some (name, b ++ (brackets ++ tail)) := by
        rw [skipBlanks_append hb₂ (hname.stops_blank _)]
        exact Reading.word_iff.2 ⟨rfl, hname, hbrackets.stops_word hb htail⟩
      have hread := read_star hhead (b₂ ++ (name ++ (b ++ (brackets ++ tail))))
      rw [hword, hjoined.words_eq hlead hb₁] at hread
      have hmake := make?_eq_some_iff.2
        ⟨inside, b, brackets, tail, rfl, hb, hbrackets, htail, hjoined.ne_nil, hqualifiers, rfl⟩
      rw [← hmake]
      simpa using hread
    | gap hgap =>
      obtain ⟨b', tail', hend, hb', htail', hstop, hmark⟩ := hbrackets.exists_end hb htail
      have hall := hjoined.concat hgap hname
      have hhead : Run isWordOrBlank (lead ++ ((joined ++ (sep ++ name)) ++ b')) :=
        run_append.2 ⟨run_isWordOrBlank hlead, run_append.2 ⟨hall.run, run_isWordOrBlank hb'⟩⟩
      have hread := read_gap hhead hstop hmark
      rw [hall.words_eq hlead hb', List.getLast?_concat, List.dropLast_concat] at hread
      have hmake := make?_eq_some_iff.2
        ⟨inside, [], brackets, tail', rfl, run_nil _, hbrackets, htail', hjoined.ne_nil,
          hqualifiers, rfl⟩
      rw [hend, ← hmake]
      simpa using hread

/-- The reader accepts exactly the statements and reads them as the fields of their parts. -/
theorem read_eq_some_iff : read cs = some f ↔ ∃ p, Written p cs ∧ p.field = f := by
  constructor
  · exact exists_written_of_read
  · rintro ⟨p, hp, rfl⟩
    exact hp.read_eq

end StructAtlas.Field
