import StructAtlas.Proofs.CommentPattern
import StructAtlas.Proofs.FieldPattern

set_option autoImplicit false

/-!
# The grammar of bodies

A body lists fields: each field is declared by a statement with a semicolon behind it, directives
stand on lines of their own between the statements, and the text behind the last statement has no
semicolon. `Field.Listed` says so of a text. Blanks may stand wherever a statement allows them, and
a directive may hold anything, semicolons and braces too.

The directives are dropped before the body is cut at its semicolons. What is left of them is blank
(`Directives.exists_dropped`), so every part that the cut leaves is one statement, and the fields
that are read are those that were listed, in their order (`ofBody_of_listed`).
-/

namespace StructAtlas.Field

open Text

/-! ## Declared fields -/

/-- Type words: qualifiers, and any word behind them. -/
def IsTypeWords (ws : List (List Char)) : Prop :=
  ∃ quals base, ws = quals ++ [base] ∧ (∀ q ∈ quals, q ∈ qualifiers) ∧ IsName base

/-- A field that a statement can declare. -/
structure IsDeclarable (f : Field) : Prop where
  type : ∃ ws, IsTypeWords ws ∧ f.type.toList = [' '].intercalate ws
  name : IsName f.name.toList
  trim_repetition : ∀ r ∈ f.repetition, trim r.toList = r.toList
  repetition_inner : ∀ r ∈ f.repetition, ∀ c ∈ ['[', ']', ';', '#'], c ∉ r.toList

/-- The square brackets of a field, with blanks around the text in them. -/
inductive Encloses : Option String → List Char → Prop where
  | absent : Encloses none []
  | present {r : String} {b₁ b₂ : List Char} : Run isBlank b₁ → Run isBlank b₂ →
    Encloses (some r) ('[' :: (b₁ ++ (r.toList ++ (b₂ ++ [']']))))

/-- The words before the name of a field. -/
def headWords (f : Field) : List (List Char) :=
  (if f.isStruct then ["struct".toList] else []) ++ words f.type.toList

/-- A text declares a field: its parts follow each other with blanks between them. -/
inductive Declares (f : Field) : List Char → Prop where
  | parts {lead joined sep b brackets tail : List Char} :
    Run isBlank lead → Joined f.headWords joined → Separates f.isPointer sep → Run isBlank b →
    Encloses f.repetition brackets → Run isBlank tail →
    Declares f (lead ++ (joined ++ (sep ++ (f.name.toList ++ (b ++ (brackets ++ tail))))))

/-- Lines of directives. The flag says that a line starts before them. The first one starts this
line, or another one among the blanks before it. -/
inductive Directives : Bool → List Char → Prop where
  | none {lineStart : Bool} : Directives lineStart []
  | line {lineStart : Bool} {blanks content rest : List Char} :
    Run isBlank blanks → lineStart = true ∨ '\n' ∈ blanks → '\n' ∉ content →
    Directives true rest → Directives lineStart (blanks ++ '#' :: (content ++ '\n' :: rest))

/-- A text lists fields. The flag says that a line starts before it. -/
inductive Listed : Bool → List Field → List Char → Prop where
  | done {lineStart : Bool} {directives trailing : List Char} :
    Directives lineStart directives → ';' ∉ trailing → '#' ∉ trailing →
    Listed lineStart [] (directives ++ trailing)
  | next {lineStart : Bool} {f : Field} {fields : List Field}
      {directives statement rest : List Char} :
    Directives lineStart directives → Declares f statement → Listed false fields rest →
    Listed lineStart (f :: fields) (directives ++ (statement ++ ';' :: rest))

/-! ## Statements -/

variable {f : Field} {ws : List (List Char)} {cs : List Char}

theorem IsTypeWords.isName (h : IsTypeWords ws) : ∀ w ∈ ws, IsName w := by
  obtain ⟨quals, base, rfl, hquals, hbase⟩ := h
  have hname : ∀ q ∈ qualifiers, IsName q := by decide
  intro w hw
  rcases List.mem_append.1 hw with hw | hw
  · exact hname w (hquals w hw)
  · rw [List.mem_singleton.1 hw]
    exact hbase

theorem IsTypeWords.dropLast (h : IsTypeWords ws) : ∀ w ∈ ws.dropLast, w ∈ qualifiers := by
  obtain ⟨quals, base, rfl, hquals, -⟩ := h
  rwa [List.dropLast_concat]

theorem IsTypeWords.ne_nil (h : IsTypeWords ws) : ws ≠ [] := by
  obtain ⟨quals, base, rfl, -, -⟩ := h
  simp

/-- Words with single spaces between them are joined. -/
theorem joined_intercalate (hne : ws ≠ []) (h : ∀ w ∈ ws, IsName w) :
    Joined ws ([' '].intercalate ws) := by
  induction ws with
  | nil => exact absurd rfl hne
  | cons w ws ih =>
    obtain ⟨hw, hws⟩ := List.forall_mem_cons.1 h
    cases ws with
    | nil => simpa using Joined.one hw
    | cons v ws =>
      have hspace : IsGap [' '] := by decide
      have hmore := Joined.more hw hspace (ih (by simp) hws)
      simpa [List.intercalate_cons_cons] using hmore

/-- The words of a declarable type are its type words. -/
theorem IsDeclarable.exists_words (h : IsDeclarable f) :
    IsTypeWords (words f.type.toList)
      ∧ f.type.toList = [' '].intercalate (words f.type.toList) := by
  obtain ⟨ws, hws, htype⟩ := h.type
  have hjoined := joined_intercalate hws.ne_nil hws.isName
  have hwords := hjoined.words_eq (run_nil isBlank) (run_nil isBlank)
  rw [List.nil_append, List.append_nil, ← htype] at hwords
  rw [hwords]
  exact ⟨hws, htype⟩

/-- The keyword and the type are told apart among the words before the name. -/
theorem IsDeclarable.parts (h : IsDeclarable f) (inside : Option (List Char)) :
    let p : Parts := ⟨f.headWords, f.isPointer, f.name.toList, inside⟩
    p.isStruct = f.isStruct ∧ p.types = words f.type.toList := by
  intro p
  obtain ⟨hwords, -⟩ := h.exists_words
  cases hstruct : f.isStruct with
  | true =>
    have hhead : p.words = "struct".toList :: words f.type.toList := by
      change f.headWords = _
      rw [headWords, hstruct]
      rfl
    exact Parts.isStruct_of_words hwords.ne_nil hhead
  | false =>
    have hhead : p.words = words f.type.toList := by
      change f.headWords = _
      rw [headWords, hstruct]
      rfl
    have hall : ∀ w ∈ p.words.dropLast, w ∈ qualifiers := by
      rw [hhead]
      exact hwords.dropLast
    rw [← hhead]
    exact Parts.isStruct_of_qualifiers hall

/-- The brackets of a declarable field enclose its text and blanks. -/
theorem Encloses.exists_bracketed {brackets : List Char}
    (hbrackets : Encloses f.repetition brackets)
    (h : IsDeclarable f) :
    ∃ inside, Bracketed inside brackets ∧
      (inside.map fun inside => String.ofList (trim inside)) = f.repetition := by
  generalize hrepetition : f.repetition = repetition at hbrackets
  cases hbrackets with
  | absent => exact ⟨none, .absent, rfl⟩
  | @present r b₁ b₂ hb₁ hb₂ =>
    have hblank : ∀ {b}, Run isBlank b → Run isInner b := by
      intro b hb c hc
      exact isInner_of_isBlank c (hb c hc)
    have hinner := h.repetition_inner r hrepetition
    have hr : Run isInner r.toList :=
      run_isInner_iff.2 ⟨hinner '[' (by decide), hinner ']' (by decide)⟩
    have hrun : Run isInner (b₁ ++ (r.toList ++ b₂)) :=
      run_append.2 ⟨hblank hb₁, run_append.2 ⟨hr, hblank hb₂⟩⟩
    obtain ⟨hopen, hclose⟩ := run_isInner_iff.1 hrun
    have hbracketed := Bracketed.present hopen hclose
    refine ⟨some (b₁ ++ (r.toList ++ b₂)), by simpa using hbracketed, ?_⟩
    rw [Option.map_some, trim_append hb₁ hb₂, h.trim_repetition r hrepetition,
      String.ofList_toList]

/-- A statement of a field is read as the field. -/
theorem Declares.read_eq (hcs : Declares f cs) (h : IsDeclarable f) : read cs = some f := by
  cases hcs with
  | parts hlead hjoined hsep hb hbrackets htail =>
    obtain ⟨inside, hbracketed, hinside⟩ := hbrackets.exists_bracketed h
    obtain ⟨hstruct, htypes⟩ := h.parts inside
    obtain ⟨hwords, htype⟩ := h.exists_words
    have hwritten := @Written.parts ⟨f.headWords, f.isPointer, f.name.toList, inside⟩ _ _ _ _ _ _
      hlead hjoined hsep h.name hb hbracketed htail (by rw [htypes]; exact hwords.dropLast)
    rw [hwritten.read_eq, Parts.field, hstruct, htypes, hinside, ← htype, String.ofList_toList,
      String.ofList_toList]

/-- More blanks may stand before a statement. -/
theorem Declares.behind {blanks : List Char} (hcs : Declares f cs) (hblanks : Run isBlank blanks) :
    Declares f (blanks ++ cs) := by
  cases hcs with
  | parts hlead hjoined hsep hb hbrackets htail =>
    rw [← List.append_assoc]
    exact .parts (run_append.2 ⟨hblanks, hlead⟩) hjoined hsep hb hbrackets htail

/-- Neither a semicolon nor the sign of a directive stands in a statement. -/
theorem Declares.not_mem (hcs : Declares f cs) (h : IsDeclarable f) : ';' ∉ cs ∧ '#' ∉ cs := by
  have hclasses : ∀ c ∈ [';', '#'], isWord c = false ∧ isBlank c = false := by
    simp only [List.mem_cons, List.not_mem_nil, or_false, forall_eq_or_imp, forall_eq]
    decide
  -- Every character of a statement is one of a word, a blank, a mark or one inside the brackets.
  have hnot : ∀ c ∈ [';', '#'], c ∉ cs := by
    intro c hc hm
    obtain ⟨hword, hblank⟩ := hclasses c hc
    have hrun : ∀ {b}, Run isBlank b → c ∉ b := by
      intro b hb hm
      rw [hb c hm] at hblank
      cases hblank
    have hbracket : ∀ {brackets}, Encloses f.repetition brackets → c ∉ brackets := by
      intro brackets hbrackets
      generalize hrepetition : f.repetition = repetition at hbrackets
      cases hbrackets with
      | absent => simp
      | @present r b₁ b₂ hb₁ hb₂ =>
        have hr : c ∉ r.toList := by
          apply h.repetition_inner r hrepetition
          simp only [List.mem_cons, List.not_mem_nil, or_false] at hc ⊢
          exact .inr (.inr hc)
        have hmarks : c ≠ '[' ∧ c ≠ ']' := by
          constructor <;> rintro rfl <;> revert hc <;> decide
        simp [hmarks, hrun hb₁, hrun hb₂, hr]
    cases hcs with
    | @parts lead joined sep b brackets tail hlead hjoined hsep hb hbrackets htail =>
      have hjoinedChars : c ∉ joined := by
        intro hm
        have hclass := hjoined.run c hm
        rw [isWordOrBlank, hword, hblank] at hclass
        cases hclass
      have hname : c ∉ f.name.toList := by
        intro hm
        rw [h.name.2 c hm] at hword
        cases hword
      have hsepChars : c ∉ sep := by
        generalize f.isPointer = isPointer at hsep
        cases hsep with
        | gap hgap => exact hrun hgap.2
        | star hb₁ hb₂ =>
          have hstar : c ≠ '*' := by rintro rfl; revert hc; decide
          simp [hstar, hrun hb₁, hrun hb₂]
      simp [hrun hlead, hjoinedChars, hsepChars, hname, hrun hb, hbracket hbrackets, hrun htail]
        at hm
  exact ⟨hnot ';' (by decide), hnot '#' (by decide)⟩

/-! ## Directives are dropped -/

variable {rest blanks content : List Char} {lineStart : Bool}

/-- What is still ahead of a directive is dropped. -/
theorem dropDirectivesFrom_pending (pending : Nat) (cs : List Char) :
    dropDirectivesFrom pending false cs = dropDirectivesFrom 0 false (cs.drop pending) := by
  induction pending generalizing cs with
  | zero => rfl
  | succ pending ih =>
    cases cs with
    | nil => rfl
    | cons c cs => rw [dropDirectivesFrom, ih, List.drop_succ_cons]

/-- A directive ends where its line does. -/
theorem directiveLength?_of_line (hblanks : Run isBlank blanks) (hcontent : '\n' ∉ content) :
    directiveLength? (blanks ++ '#' :: (content ++ '\n' :: rest)) =
      some (blanks ++ '#' :: content).length := by
  have hstop : Stops isBlank ('#' :: (content ++ '\n' :: rest)) := stops_cons.2 (by decide)
  have hend : Comment.lineLength (content ++ '\n' :: rest) = content.length :=
    Comment.lineLength_append hcontent (by simp)
  have hlength : blanks.length + 1 + content.length = (blanks ++ '#' :: content).length := by
    rw [List.length_append, List.length_cons]
    omega
  rw [directiveLength?, skipBlanks_append hblanks hstop, takeWhile_run hblanks hstop, ← hlength,
    ← hend]
  rfl

/-- A directive at the start of a line leaves the end of its line. -/
theorem dropDirectivesFrom_line (hblanks : Run isBlank blanks) (hcontent : '\n' ∉ content) :
    dropDirectivesFrom 0 true (blanks ++ '#' :: (content ++ '\n' :: rest)) =
      '\n' :: dropDirectivesFrom 0 true rest := by
  have hlength := @directiveLength?_of_line rest blanks content hblanks hcontent
  have htext : blanks ++ '#' :: (content ++ '\n' :: rest) =
      (blanks ++ '#' :: content) ++ '\n' :: rest := by
    simp
  rw [htext] at hlength ⊢
  obtain ⟨c, directive, hdirective⟩ :=
    List.exists_cons_of_ne_nil (show blanks ++ '#' :: content ≠ [] by simp)
  rw [hdirective] at hlength ⊢
  -- The first character is dropped at once and the others of the directive as pending.
  rw [List.cons_append] at hlength ⊢
  rw [dropDirectivesFrom, if_pos rfl, hlength]
  simp only [List.length_cons, Nat.add_sub_cancel]
  rw [dropDirectivesFrom_pending, List.drop_left' rfl, dropDirectivesFrom]
  rfl

/-- Inside a line no directive begins. -/
theorem dropDirectivesFrom_inside {cs : List Char} (h : '\n' ∉ cs) :
    dropDirectivesFrom 0 false (cs ++ '\n' :: rest) =
      cs ++ '\n' :: dropDirectivesFrom 0 true rest := by
  induction cs with
  | nil => rfl
  | cons c cs ih =>
    rw [List.mem_cons, not_or] at h
    have hc : (c == '\n') = false := beq_eq_false_iff_ne.2 fun e => h.1 e.symm
    rw [List.cons_append, dropDirectivesFrom, if_neg Bool.false_ne_true]
    simp only [hc]
    rw [ih h.2, List.cons_append]

/-- A directive on a line of its own leaves blanks, and the next line starts behind it. -/
theorem exists_dropped_line (hblanks : Run isBlank blanks)
    (hline : lineStart = true ∨ '\n' ∈ blanks) (hcontent : '\n' ∉ content) :
    ∃ left, Run isBlank left ∧ ∀ rest,
      dropDirectivesFrom 0 lineStart (blanks ++ '#' :: (content ++ '\n' :: rest)) =
        left ++ dropDirectivesFrom 0 true rest := by
  cases lineStart with
  | true => exact ⟨['\n'], by decide, fun rest => dropDirectivesFrom_line hblanks hcontent⟩
  | false =>
    -- The blanks up to the end of the line before are left, too.
    have hmem : '\n' ∈ blanks := hline.resolve_left Bool.false_ne_true
    obtain ⟨before, indent, rfl, hbefore⟩ := List.eq_append_cons_of_mem hmem
    obtain ⟨hrun, hindent⟩ := run_append.1 hblanks
    refine ⟨before ++ ['\n', '\n'], run_append.2 ⟨hrun, by decide⟩, fun rest => ?_⟩
    rw [List.append_assoc, List.cons_append, dropDirectivesFrom_inside hbefore,
      dropDirectivesFrom_line (run_cons.1 hindent).2 hcontent]
    simp

/-- Lines of directives leave blanks. -/
theorem Directives.exists_dropped {directives : List Char} (h : Directives lineStart directives) :
    ∃ left lineStart', Run isBlank left ∧ ∀ rest,
      dropDirectivesFrom 0 lineStart (directives ++ rest) =
        left ++ dropDirectivesFrom 0 lineStart' rest := by
  induction h with
  | none => exact ⟨[], _, run_nil _, fun rest => rfl⟩
  | line hblanks hline hcontent _ ih =>
    obtain ⟨left, hleft, hfirst⟩ := exists_dropped_line hblanks hline hcontent
    obtain ⟨left', lineStart', hleft', hothers⟩ := ih
    refine ⟨left ++ left', lineStart', run_append.2 ⟨hleft, hleft'⟩, fun behind => ?_⟩
    rw [List.append_assoc, List.cons_append, List.append_assoc, List.cons_append, hfirst, hothers,
      List.append_assoc]

/-- A text without the sign of a directive is left as it is up to a character that is none. -/
theorem dropDirectivesFrom_statement {c : Char} (hcs : '#' ∉ cs) (hc : isBlank c = false)
    (hsign : c ≠ '#') (rest : List Char) :
    dropDirectivesFrom 0 lineStart (cs ++ c :: rest) =
      cs ++ c :: dropDirectivesFrom 0 false rest := by
  have hnone : ∀ {cs}, '#' ∉ cs → directiveLength? (cs ++ c :: rest) = none := by
    intro cs hcs
    rw [directiveLength?]
    split
    · rename_i behind hskip
      -- The first character that is no blank is one of the text or the one behind it.
      rw [skipBlanks, List.dropWhile_append] at hskip
      split at hskip
      · rw [List.dropWhile_cons_of_neg (by simp [hc]), List.cons.injEq] at hskip
        exact absurd hskip.1 hsign
      · rename_i hne
        obtain ⟨d, ds, hds⟩ := List.exists_cons_of_ne_nil fun e => hne (List.isEmpty_iff.2 e)
        rw [hds, List.cons_append, List.cons.injEq] at hskip
        have hd : d ∈ cs.dropWhile isBlank := hds ▸ List.mem_cons_self
        rw [hskip.1] at hd
        exact absurd ((List.dropWhile_sublist isBlank).mem hd) hcs
    · rfl
  induction cs generalizing lineStart with
  | nil =>
    have hfeed : (c == '\n') = false := by
      rw [beq_eq_false_iff_ne]
      rintro rfl
      cases hc
    have hfirst := hnone hcs
    rw [List.nil_append] at hfirst ⊢
    rw [dropDirectivesFrom, hfirst, ite_self]
    simp only [hfeed]
    rfl
  | cons d cs ih =>
    have hfirst := hnone hcs
    rw [List.cons_append] at hfirst ⊢
    rw [dropDirectivesFrom, hfirst, ite_self]
    simp only
    rw [ih fun hm => hcs (List.mem_cons_of_mem _ hm), List.cons_append]

/-! ## Bodies -/

/-- Without its directives a body is the statements of its fields and a rest. -/
theorem Listed.exists_statements {fields : List Field} {body : List Char}
    (h : Listed lineStart fields body) (hfields : ∀ f ∈ fields, f.IsDeclarable) :
    ∃ (parts : List (List Char)) (tail : List Char),
      dropDirectivesFrom 0 lineStart body = parts.flatMap (· ++ [';']) ++ tail ∧
      (∀ part ∈ parts, ';' ∉ part) ∧ ';' ∉ tail ∧ parts.map read = fields.map some := by
  induction h with
  | @done _ _ trailing hdirectives hsemicolon hsign =>
    obtain ⟨left, lineStart', hleft, hdropped⟩ := hdirectives.exists_dropped
    refine ⟨[], left ++ trailing, ?_, by simp, ?_, rfl⟩
    · rw [hdropped, FieldSpec.dropDirectivesFrom_of_not_mem hsign]
      rfl
    · rw [List.mem_append, not_or]
      exact ⟨fun hm => absurd (hleft _ hm) (by decide), hsemicolon⟩
  | @next _ f fields _ statement rest hdirectives hstatement _ ih =>
    obtain ⟨hf, hfields⟩ := List.forall_mem_cons.1 hfields
    obtain ⟨left, lineStart', hleft, hdropped⟩ := hdirectives.exists_dropped
    obtain ⟨parts, tail, hrest, hparts, htail, hread⟩ := ih hfields
    obtain ⟨hsemicolon, hsign⟩ := hstatement.not_mem hf
    refine ⟨(left ++ statement) :: parts, tail, ?_, ?_, htail, ?_⟩
    · rw [hdropped, dropDirectivesFrom_statement hsign (by decide) (by decide), hrest]
      simp
    · rw [List.forall_mem_cons, List.mem_append, not_or]
      exact ⟨⟨fun hm => absurd (hleft _ hm) (by decide), hsemicolon⟩, hparts⟩
    · rw [List.map_cons, List.map_cons, (hstatement.behind hleft).read_eq hf, hread]

/-- Every field that can be declared has a statement. -/
theorem IsDeclarable.exists_declares (h : IsDeclarable f) : ∃ statement, Declares f statement := by
  obtain ⟨hwords, -⟩ := h.exists_words
  have hne : f.headWords ≠ [] := by
    rw [headWords]
    exact List.append_ne_nil_of_right_ne_nil _ hwords.ne_nil
  have hnames : ∀ w ∈ f.headWords, IsName w := by
    intro w hw
    rcases List.mem_append.1 hw with hw | hw
    · split at hw
      · rw [List.mem_singleton.1 hw]
        decide
      · cases hw
    · exact hwords.isName w hw
  have hsep : ∃ sep, Separates f.isPointer sep := by
    cases f.isPointer with
    | true => exact ⟨_, .star (run_nil isBlank) (run_nil isBlank)⟩
    | false => exact ⟨[' '], .gap (by decide)⟩
  have hbrackets : ∃ brackets, Encloses f.repetition brackets := by
    cases f.repetition with
    | none => exact ⟨_, .absent⟩
    | some r => exact ⟨_, .present (run_nil isBlank) (run_nil isBlank)⟩
  obtain ⟨sep, hsep⟩ := hsep
  obtain ⟨brackets, hbrackets⟩ := hbrackets
  exact ⟨_, .parts (run_nil isBlank) (joined_intercalate hne hnames) hsep (run_nil isBlank)
    hbrackets (run_nil isBlank)⟩

theorem exists_listed {fields : List Field} (h : ∀ f ∈ fields, f.IsDeclarable) :
    ∃ body, Listed lineStart fields body := by
  induction fields generalizing lineStart with
  | nil => exact ⟨[], .done .none (by simp) (by simp)⟩
  | cons f fields ih =>
    obtain ⟨hf, hfields⟩ := List.forall_mem_cons.1 h
    obtain ⟨statement, hstatement⟩ := hf.exists_declares
    obtain ⟨rest, hrest⟩ := @ih false hfields
    exact ⟨_, .next .none hstatement hrest⟩

/-- **Reading undoes listing.** Fields that can be declared are listed by some body, and whatever
body lists them is read as these fields in this order: blanks may stand wherever a statement allows
them, lines of directives with any content may stand before, between and behind the statements, and
the text behind the last one does not count. -/
theorem ofBody_of_listed (fields : List Field) (h : ∀ f ∈ fields, f.IsDeclarable) :
    (∃ body, Listed true fields body) ∧ ∀ body, Listed true fields body → ofBody body = fields := by
  refine ⟨exists_listed h, ?_⟩
  intro body hbody
  obtain ⟨parts, tail, hdropped, hparts, htail, hread⟩ := hbody.exists_statements h
  have hall : parts.filterMap read = fields := by
    have hmap := congrArg (List.filterMap id) hread
    rwa [List.filterMap_map, List.filterMap_map, Function.id_comp, Function.id_comp,
      List.filterMap_some] at hmap
  rw [ofBody, statements, dropDirectives, hdropped, splitOn_flatMap hparts htail,
    List.dropLast_concat, hall]

/-- A body of two fields with directives that hold semicolons and a brace. -/
def guardedBody : List Char :=
  "\n #if A; \x7b\n".toList ++ ("const\tunsigned\nint flags [ N * 2\n] ".toList
    ++ ';' :: ("\n\n\t# else; x\n".toList ++ ("struct Node * next".toList
    ++ ';' :: "  \n#endif\n \x7d".toList)))

/-- The fields of this body. -/
def guardedFields : List Field :=
  [⟨"flags", "const unsigned int", false, some "N * 2", false⟩, ⟨"next", "Node", true, none, true⟩]

theorem ofBody_between_directives :
    (∀ f ∈ guardedFields, f.IsDeclarable) ∧ Listed true guardedFields guardedBody ∧
      ofBody guardedBody = guardedFields := by
  have hfields : ∀ f ∈ guardedFields, f.IsDeclarable := by
    have hflags : IsTypeWords ["const".toList, "unsigned".toList, "int".toList] :=
      ⟨["const".toList, "unsigned".toList], "int".toList, rfl, by decide, by decide⟩
    have hnext : IsTypeWords ["Node".toList] := ⟨[], "Node".toList, rfl, by decide, by decide⟩
    intro f hf
    simp only [guardedFields, List.mem_cons, List.not_mem_nil, or_false] at hf
    rcases hf with rfl | rfl
    · have hinner : ∀ c ∈ ['[', ']', ';', '#'], c ∉ "N * 2".toList := by
        simp only [List.mem_cons, List.not_mem_nil, or_false, forall_eq_or_imp, forall_eq]
        decide
      refine ⟨⟨_, hflags, by decide⟩, by decide, by decide, fun r hr => ?_⟩
      obtain rfl := Option.some.inj hr
      exact hinner
    · exact ⟨⟨_, hnext, by decide⟩, by decide, by decide, fun r hr => nomatch hr⟩
  have hlast : Listed false [] "  \n#endif\n \x7d".toList :=
    @Listed.done false "  \n#endif\n".toList " \x7d".toList
      (@Directives.line false "  \n".toList "endif".toList [] (by decide) (by decide) (by decide)
        .none) (by decide) (by decide)
  have hnext : Declares ⟨"next", "Node", true, none, true⟩ "struct Node * next".toList :=
    @Declares.parts _ [] "struct Node".toList " * ".toList [] [] [] (by decide)
      (@Joined.more "struct".toList [' '] "Node".toList ["Node".toList] (by decide) (by decide)
        (.one (by decide)))
      (@Separates.star [' '] [' '] (by decide) (by decide)) (by decide) .absent (by decide)
  have hflags : Declares ⟨"flags", "const unsigned int", false, some "N * 2", false⟩
      "const\tunsigned\nint flags [ N * 2\n] ".toList :=
    @Declares.parts _ [] "const\tunsigned\nint".toList [' '] [' '] "[ N * 2\n]".toList [' ']
      (by decide) (@Joined.more "const".toList ['\t'] "unsigned\nint".toList
        ["unsigned".toList, "int".toList]
        (by decide) (by decide) (@Joined.more "unsigned".toList ['\n'] "int".toList ["int".toList]
          (by decide) (by decide) (.one (by decide))))
      (.gap (by decide)) (by decide)
      (@Encloses.present "N * 2" [' '] ['\n'] (by decide) (by decide)) (by decide)
  have hsecond := @Listed.next false _ _ "\n\n\t# else; x\n".toList _ _
    (@Directives.line false "\n\n\t".toList " else; x".toList [] (by decide) (by decide) (by decide)
      .none) hnext hlast
  have hlisted : Listed true guardedFields guardedBody :=
    @Listed.next true _ _ "\n #if A; \x7b\n".toList _ _
      (@Directives.line true "\n ".toList "if A; \x7b".toList [] (by decide) (by decide) (by decide)
        .none) hflags hsecond
  exact ⟨hfields, hlisted, (ofBody_of_listed guardedFields hfields).2 guardedBody hlisted⟩

end StructAtlas.Field
