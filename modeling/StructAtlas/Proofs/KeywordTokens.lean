import Mathlib.Data.Nat.Find
import StructAtlas.Proofs.BodySearch
import StructAtlas.Proofs.DeclarationSearch

set_option autoImplicit false

/-!
# Keywords as whole words

The search for candidates does not look at the character before a keyword, and behind the keyword of
a typedef it takes a tag without a blank in front of it. So a keyword can be cut out of a longer
word in two ways: the candidate begins inside a word, or its keyword `struct` is the front of one
(`Candidate.IsEmbedded`). There is no other way (`Candidate.isWhole_iff`), and a text in which
keywords occur as whole words only has neither (`WholeKeywords.not_isEmbedded`).

The search for bodies begins at the first place of a line that it recognises a keyword at, and there
it asks for whole words (`Body.keywordAt?_first`). Among the places where a declaration is written
it passes over those inside a word, except for directives and attributes
(`Body.keywordAt_of_written`), while each of these places begins a candidate or lies inside an
earlier one (`Candidate.exists_covering`).
-/

namespace StructAtlas

open Text

namespace Text

/-- A text ends with a word character. -/
def endsInWord (cs : List Char) : Bool :=
  cs.getLast?.any isWord

variable {as bs : List Char}

theorem endsInWord_append (h : bs ≠ []) : endsInWord (as ++ bs) = endsInWord bs := by
  rw [endsInWord, endsInWord, List.getLast?_append, List.getLast?_eq_some_getLast h, Option.some_or]

theorem endsInWord_concat (cs : List Char) (c : Char) : endsInWord (cs ++ [c]) = isWord c := by
  rw [endsInWord, List.getLast?_concat, Option.any_some]

theorem Run.endsInWord (h : Run isBlank bs) : endsInWord bs = false := by
  rw [Text.endsInWord, Option.any_eq_false]
  intro c hc
  simp [isWord_of_isBlank c (h c (List.mem_of_getLast? hc))]

end Text

/-! ## The keyword of a declaration -/

/-- What may stand in front of the keyword `struct` in a declaration. -/
inductive BeforeStruct : List Char → Prop where
  | nothing : BeforeStruct []
  | typedef {gap : List Char} : IsGap gap → BeforeStruct ("typedef".toList ++ gap)
  | packed {packing b : List Char} : PackingText packing → Run isBlank b →
    BeforeStruct (packing ++ b)

/-- A declaration is cut at its keyword `struct`. -/
structure KeywordSplit (text front behind : List Char) : Prop where
  text_eq : text = front ++ ("struct".toList ++ behind)
  before : BeforeStruct front

/-- The keyword `struct` of a typedef is the front of a longer word. -/
def HasGluedTag (text : List Char) : Prop :=
  ∃ gap c behind, IsGap gap ∧ isWord c = true
    ∧ text = "typedef".toList ++ (gap ++ ("struct".toList ++ c :: behind))

/-- A packing text ends with a parenthesis. -/
theorem PackingText.exists_concat {packing : List Char} (h : PackingText packing) :
    ∃ start, packing = start ++ [')'] := by
  cases h with
  | @pragma gap b₁ b₂ digits b₃ =>
    exact ⟨"#pragma".toList ++ (gap ++ ("pack".toList ++ (b₁ ++ '(' :: (b₂ ++ (digits ++ b₃))))),
      by simp⟩
  | @packedAttribute b₁ b₂ b₃ =>
    exact ⟨"__attribute__".toList
      ++ (b₁ ++ '(' :: '(' :: (b₂ ++ ("packed".toList ++ (b₃ ++ [')'])))), by simp⟩

/-- No word goes on into the keyword, unless it begins in front of the declaration. -/
theorem BeforeStruct.endsInWord_append {front : List Char} (h : BeforeStruct front)
    (before : List Char) :
    endsInWord (before ++ front) = (endsInWord before && front.isEmpty) := by
  cases h with
  | nothing => simp
  | @typedef gap hgap =>
    have hempty : ("typedef".toList ++ gap).isEmpty = false := rfl
    rw [← List.append_assoc, Text.endsInWord_append hgap.1, hgap.2.endsInWord, hempty,
      Bool.and_false]
  | @packed packing b hpacking hb =>
    obtain ⟨start, rfl⟩ := hpacking.exists_concat
    have hempty : ((start ++ [')']) ++ b).isEmpty = false := by simp
    rw [hempty, Bool.and_false]
    by_cases hne : b = []
    · rw [hne, List.append_nil, ← List.append_assoc, endsInWord_concat]
      decide +kernel
    · rw [← List.append_assoc, Text.endsInWord_append hne, hb.endsInWord]

namespace KeywordSplit

variable {text front front' behind behind' : List Char}

/-- A packing text is followed by one text only. -/
theorem packing_unique {packing packing' rest rest' : List Char} (h : PackingText packing)
    (h' : PackingText packing') (htext : packing ++ rest = packing' ++ rest') : rest = rest' := by
  have hread : Reading.packing (packing ++ rest) = some rest :=
    Reading.packing_iff.2 ⟨packing, rfl, h⟩
  have hread' : Reading.packing (packing' ++ rest') = some rest' :=
    Reading.packing_iff.2 ⟨packing', rfl, h'⟩
  rw [htext, hread'] at hread
  exact (Option.some.inj hread).symm

theorem stops_blank (behind : List Char) : Stops isBlank ("struct".toList ++ behind) :=
  IsName.stops_blank (by decide) behind

/-- A declaration is cut at one place. -/
theorem unique (h : KeywordSplit text front behind) (h' : KeywordSplit text front' behind') :
    front = front' ∧ behind = behind' := by
  obtain ⟨rfl, hbefore⟩ := h
  obtain ⟨htext, hbefore'⟩ := h'
  -- The parts in front of the keyword begin differently, so both are of the same form.
  cases hbefore with
  | nothing =>
    cases hbefore' with
    | nothing => exact ⟨rfl, List.append_cancel_left htext⟩
    | typedef => simp at htext
    | packed hpacking => cases hpacking <;> simp at htext
  | typedef hgap =>
    cases hbefore' with
    | nothing => simp at htext
    | typedef hgap' =>
      rw [List.append_assoc, List.append_assoc] at htext
      obtain ⟨rfl, hrest⟩ := run_append_inj hgap.2 hgap'.2 (stops_blank _) (stops_blank _)
        (List.append_cancel_left htext)
      exact ⟨rfl, List.append_cancel_left hrest⟩
    | packed hpacking => cases hpacking <;> simp at htext
  | @packed packing b hpacking hb =>
    cases hbefore' with
    | nothing => cases hpacking <;> simp at htext
    | typedef => cases hpacking <;> simp at htext
    | @packed packing' b' hpacking' hb' =>
      rw [List.append_assoc, List.append_assoc] at htext
      have hrest := packing_unique hpacking hpacking' htext
      obtain ⟨rfl, hbehind⟩ := run_append_inj hb hb' (stops_blank _) (stops_blank _) hrest
      rw [hbehind] at htext
      obtain rfl := List.append_cancel_right htext
      exact ⟨rfl, List.append_cancel_left hbehind⟩

end KeywordSplit

namespace Shape.Written

variable {s : Shape} {tag typeName text front behind : List Char}

/-- Every declaration can be cut at its keyword. Only in a typedef can it be the front of a word. -/
theorem exists_keywordSplit (h : Written s tag typeName text) :
    ∃ front behind, KeywordSplit text front behind ∧ (Stops isWord behind ∨ HasGluedTag text) := by
  have hstop {gap rest : List Char} (hgap : IsGap gap) : Stops isWord (gap ++ rest) :=
    hgap.2.stops_append_of_ne_nil isWord_of_isBlank hgap.1 rest
  cases h with
  | @typedef gap b₁ _ b₂ inner b₃ _ b₄ hgap hb₁ htag hb₂ =>
    generalize hbehind : b₁ ++ (tag ++ (b₂ ++ '\x7b' :: (inner ++ '\x7d' ::
      (b₃ ++ (typeName ++ (b₄ ++ [';'])))))) = behind
    refine ⟨_, behind, ⟨(List.append_assoc ..).symm, .typedef hgap⟩, ?_⟩
    cases behind with
    | nil => exact Or.inl (stops_nil isWord)
    | cons c behind =>
      cases hc : isWord c with
      | false => exact Or.inl (stops_cons.2 hc)
      | true => exact Or.inr ⟨gap, c, behind, hgap, hc, rfl⟩
  | tagged hgap => exact ⟨[], _, ⟨rfl, .nothing⟩, Or.inl (hstop hgap)⟩
  | packed hpacking hb hwritten =>
    cases hwritten with
    | tagged hgap =>
      exact ⟨_, _, ⟨(List.append_assoc ..).symm, .packed hpacking hb⟩, Or.inl (hstop hgap)⟩
  | forward hgap => exact ⟨[], _, ⟨rfl, .nothing⟩, Or.inl (hstop hgap)⟩

/-- A word character stands behind the keyword exactly if a tag is glued to it. -/
theorem stops_behind_iff (h : Written s tag typeName text)
    (hsplit : KeywordSplit text front behind) : Stops isWord behind ↔ ¬ HasGluedTag text := by
  constructor
  · rintro hstops ⟨gap, c, more, hgap, hc, htext⟩
    have hglued : KeywordSplit text ("typedef".toList ++ gap) (c :: more) :=
      ⟨by rw [htext, List.append_assoc], .typedef hgap⟩
    obtain ⟨-, rfl⟩ := hsplit.unique hglued
    rw [stops_cons.1 hstops] at hc
    cases hc
  · intro hglued
    obtain ⟨front', behind', hsplit', hstops⟩ := h.exists_keywordSplit
    obtain ⟨-, rfl⟩ := hsplit.unique hsplit'
    exact hstops.resolve_right hglued

/-- Only directives begin with another character than those of words, and they are packing texts. -/
theorem exists_head (h : Written s tag typeName text) :
    ∃ d, text.head? = some d ∧ (d ≠ '#' → isWord d = true) ∧ (d = '#' → s = .packed) := by
  have hword : ∀ d ∈ ['t', 's', '_'], isWord d = true := by
    simp only [List.mem_cons, List.not_mem_nil, or_false, forall_eq_or_imp, forall_eq]
    decide
  have hends := h.ends_mem
  cases hhead : text.head? with
  | none => exact absurd (List.head?_eq_none_iff.1 hhead) h.ne_nil
  | some d =>
    rw [hhead] at hends
    refine ⟨d, rfl, fun hd => hword d ?_, fun hd => ?_⟩
    · cases s <;> simp only [ends, List.mem_cons, List.not_mem_nil, or_false, Prod.mk.injEq,
        Option.some.injEq] at hends <;> grind
    · cases s <;> simp only [ends, List.mem_cons, List.not_mem_nil, or_false, Prod.mk.injEq,
        Option.some.injEq] at hends <;> grind

end Shape.Written

/-! ## Keywords on a line -/

namespace Text

/-- A text is made up of complete lines, the line of an offset up to it and from it on, and what
stands behind this line. -/
theorem exists_line_parts (cs : List Char) (offset : Nat) :
    ∃ before lead rest after, cs = before ++ (lead ++ (rest ++ after))
      ∧ cs.take offset = before ++ lead ∧ EndsLine before
      ∧ (after = [] ∨ ∃ more, after = '\n' :: more)
      ∧ column cs offset = lead.length
      ∧ (lines cs)[countLines (cs.take offset)]? = some (lead ++ rest) := by
  obtain ⟨before, lead, htake, hbefore, hlead, hcolumn⟩ := exists_line cs offset
  obtain ⟨rest, hrest, hrun, hstop⟩ := exists_run (· != '\n') (cs.drop offset)
  generalize hafter : (cs.drop offset).dropWhile (· != '\n') = after at hrest hstop
  have hcs : cs = before ++ (lead ++ (rest ++ after)) := by
    rw [← hrest, ← List.append_assoc, ← htake, List.take_append_drop]
  have hline : '\n' ∉ lead ++ rest := by
    rw [List.mem_append, not_or]
    exact ⟨hlead, fun hm => by simpa using hrun _ hm⟩
  have hend : after = [] ∨ ∃ more, after = '\n' :: more := by
    cases after with
    | nil => exact Or.inl rfl
    | cons c more =>
      have hc : c = '\n' := by simpa using stops_cons.1 hstop
      exact Or.inr ⟨more, by rw [hc]⟩
  refine ⟨before, lead, rest, after, hcs, htake, hbefore, hend, hcolumn.symm, ?_⟩
  have hcount : countLines (before ++ lead) = countLines before := by
    rw [countLines, List.count_append, List.count_eq_zero.2 hlead]
    rfl
  have hfirst : ∃ others, lines (lead ++ (rest ++ after)) = (lead ++ rest) :: others := by
    have hnil : lines [] = [[]] := rfl
    rw [← List.append_assoc]
    rcases hend with rfl | ⟨more, rfl⟩
    · exact ⟨[], by simpa using lines_append_of_not_mem hline hnil⟩
    · obtain ⟨others, hmore⟩ : ∃ others, lines ('\n' :: more) = [] :: others :=
        ⟨_, lines_lineFeed more⟩
      exact ⟨others, by simpa using lines_append_of_not_mem hline hmore⟩
  obtain ⟨others, hothers⟩ := hfirst
  have hdrop := drop_lines hbefore (lead ++ (rest ++ after))
  rw [← hcs, hothers] at hdrop
  rw [htake, hcount, ← List.head?_drop, hdrop]
  rfl

end Text

namespace Body

open Reading

/-- A declaration keyword begins at a column of a line. The flag says that a word character stands
before the line. -/
def startsAt (insideWord : Bool) (line : List Char) (k : Nat) : Bool :=
  startsDeclaration (((line.take k).getLast?.map isWord).getD insideWord) (line.drop k)

theorem startsAt_succ (insideWord : Bool) (c : Char) (line : List Char) (k : Nat) :
    startsAt insideWord (c :: line) (k + 1) = startsAt (isWord c) line k := by
  rw [startsAt, startsAt, List.take_succ_cons, List.drop_succ_cons, List.getLast?_cons]
  cases (line.take k).getLast? <;> rfl

/-- The search for a keyword stops at the first one. -/
theorem fromKeyword?_eq_some {insideWord : Bool} {line rest : List Char} :
    fromKeyword? insideWord line = some rest ↔
      ∃ k < line.length, rest = line.drop k ∧ startsAt insideWord line k = true
        ∧ ∀ j < k, startsAt insideWord line j = false := by
  induction line generalizing insideWord with
  | nil => simp [fromKeyword?]
  | cons c line ih =>
    have hzero : startsAt insideWord (c :: line) 0 = startsDeclaration insideWord (c :: line) := rfl
    rw [fromKeyword?]
    cases hstart : startsDeclaration insideWord (c :: line) with
    | true =>
      rw [if_pos rfl, Option.some.injEq]
      constructor
      · rintro rfl
        exact ⟨0, by simp, rfl, hzero.trans hstart, fun j hj => absurd hj (Nat.not_lt_zero j)⟩
      · rintro ⟨k, -, rfl, -, hbefore⟩
        cases k with
        | zero => rfl
        | succ k =>
          have hfirst := hbefore 0 (Nat.succ_pos k)
          rw [hzero, hstart] at hfirst
          cases hfirst
    | false =>
      rw [if_neg Bool.false_ne_true, ih]
      constructor
      · rintro ⟨k, hk, rfl, hat, hbefore⟩
        refine ⟨k + 1, Nat.succ_lt_succ hk, rfl, (startsAt_succ ..).trans hat, fun j hj => ?_⟩
        cases j with
        | zero => exact hzero.trans hstart
        | succ j => exact (startsAt_succ ..).trans (hbefore j (Nat.lt_of_succ_lt_succ hj))
      · rintro ⟨k, hk, rfl, hat, hbefore⟩
        cases k with
        | zero =>
          rw [hzero, hstart] at hat
          cases hat
        | succ k =>
          refine ⟨k, Nat.lt_of_succ_lt_succ hk, rfl, (startsAt_succ ..).symm.trans hat, ?_⟩
          exact fun j hj => (startsAt_succ ..).symm.trans (hbefore (j + 1) (Nat.succ_lt_succ hj))

/-- The search on a line begins at its first keyword. -/
theorem keywordColumn?_eq_some {line : List Char} {k : Nat} :
    keywordColumn? line = some k ↔
      k < line.length ∧ startsAt false line k = true ∧ ∀ j < k, startsAt false line j = false := by
  rw [keywordColumn?, Option.map_eq_some_iff]
  simp only [fromKeyword?_eq_some]
  constructor
  · rintro ⟨_, ⟨j, hj, rfl, hat, hbefore⟩, hk⟩
    rw [List.length_drop, Nat.sub_sub_self (Nat.le_of_lt hj)] at hk
    subst hk
    exact ⟨hj, hat, hbefore⟩
  · rintro ⟨hk, hat, hbefore⟩
    refine ⟨line.drop k, ⟨k, hk, rfl, hat, hbefore⟩, ?_⟩
    rw [List.length_drop, Nat.sub_sub_self (Nat.le_of_lt hk)]

/-- The search for bodies takes an offset of a text for the beginning of a declaration: a keyword
begins there on its line. -/
def keywordAt (cs : List Char) (offset : Nat) : Bool :=
  (lines cs)[countLines (cs.take offset)]?.any fun line => startsAt false line (column cs offset)

theorem dropStart?_append {start : List Char} {c : Char} (h : c ∉ start) (cs more : List Char) :
    dropStart? start (cs ++ c :: more) = (dropStart? start cs).map (· ++ c :: more) := by
  induction start generalizing cs with
  | nil => rfl
  | cons d start ih =>
    rw [List.mem_cons, not_or] at h
    cases cs with
    | nil =>
      have hne : (d == c) = false := beq_eq_false_iff_ne.2 fun e => h.1 e.symm
      simp [dropStart?, hne]
    | cons e cs =>
      rw [List.cons_append, dropStart?, dropStart?, ih h.2]
      split <;> rfl

theorem startsWithWord_lineFeed {k : String} (h : '\n' ∉ k.toList) (cs more : List Char) :
    startsWithWord k (cs ++ '\n' :: more) = startsWithWord k cs := by
  rw [startsWithWord, startsWithWord, keyword, dropStart?_append h, keyword]
  cases dropStart? k.toList cs with
  | none => rfl
  | some rest =>
    cases rest with
    | nil =>
      have hfeed : (!isWord '\n') = true := by decide
      exact hfeed
    | cons c rest => rfl

/-- Whether a keyword begins a text is decided on the first line. -/
theorem startsDeclaration_lineFeed (insideWord : Bool) (cs more : List Char) :
    startsDeclaration insideWord (cs ++ '\n' :: more) = startsDeclaration insideWord cs := by
  rw [startsDeclaration, startsDeclaration, startsWithWord_lineFeed (by decide),
    startsWithWord_lineFeed (by decide), startsWithWord_lineFeed (by decide), keyword,
    dropStart?_append (by decide), Option.isSome_map, keyword]

/-- What stands around a line does not matter: keywords go over no line feed, and a line feed is no
word character. -/
theorem startsAt_line {before after : List Char} (hbefore : EndsLine before)
    (hafter : after = [] ∨ ∃ more, after = '\n' :: more) (line : List Char) (k : Nat) :
    startsAt false line k
      = startsDeclaration (endsInWord (before ++ line.take k)) (line.drop k ++ after) := by
  have hflag : ((line.take k).getLast?.map isWord).getD false
      = endsInWord (before ++ line.take k) := by
    rcases List.eq_nil_or_concat (line.take k) with hnil | ⟨start, c, hlast⟩
    · -- At the beginning of a line the character before is a line feed, if there is one.
      rw [hnil, List.append_nil]
      rcases hbefore with rfl | ⟨start, rfl⟩
      · rfl
      · rw [endsInWord_concat]
        decide +kernel
    · rw [hlast, List.concat_eq_append, ← List.append_assoc, endsInWord_concat,
        List.getLast?_concat]
      rfl
  rw [startsAt, hflag]
  rcases hafter with rfl | ⟨more, rfl⟩
  · rw [List.append_nil]
  · rw [startsDeclaration_lineFeed]

theorem keywordAt_eq (cs : List Char) (offset : Nat) :
    keywordAt cs offset = startsDeclaration (endsInWord (cs.take offset)) (cs.drop offset) := by
  obtain ⟨before, lead, rest, after, hcs, htake, hbefore, hafter, hcolumn, hline⟩ :=
    exists_line_parts cs offset
  have hdrop : cs.drop offset = rest ++ after := by
    have hsplit := List.take_append_drop offset cs
    rw [htake] at hsplit
    conv at hsplit => rhs; rw [hcs]
    rw [List.append_assoc] at hsplit
    exact List.append_cancel_left (List.append_cancel_left hsplit)
  rw [keywordAt, hline, Option.any_some, startsAt_line hbefore hafter, hcolumn, List.take_left,
    List.drop_left, htake, hdrop]

/-- The columns of a line that keywords begin at are the places that are recognised. -/
theorem keywordAt_line {before after : List Char} (hbefore : EndsLine before)
    (hafter : after = [] ∨ ∃ more, after = '\n' :: more) {line : List Char} {k : Nat}
    (hk : k ≤ line.length) :
    keywordAt (before ++ (line ++ after)) (before.length + k) = startsAt false line k := by
  rw [keywordAt_eq, List.take_length_add_append, List.take_append_of_le_length hk,
    List.drop_length_add_append, List.drop_append_of_le_length hk, startsAt_line hbefore hafter]

/-- The search for the body of a declaration begins at the first recognised place of its line. -/
theorem keywordAt?_first {cs : List Char} {offset : Nat} (h : offset ≤ cs.length) :
    (∀ k, keywordAt? cs offset = some k → keywordAt cs k = true
      ∧ ∀ j < k, offset - column cs offset ≤ j → keywordAt cs j = false)
    ∧ (keywordAt cs offset = true → ∃ k ≤ offset, keywordAt? cs offset = some k) := by
  obtain ⟨before, lead, rest, after, hcs, htake, hbefore, hafter, hcolumn, hline⟩ :=
    exists_line_parts cs offset
  have hoffset : offset = before.length + lead.length := by
    rw [← List.length_append, ← htake, List.length_take]
    omega
  have hstart : offset - column cs offset = before.length := by omega
  have hsearch : keywordAt? cs offset
      = (keywordColumn? (lead ++ rest)).map fun column => before.length + column := by
    rw [keywordAt?, hline, hstart, Option.bind_some]
  rw [← List.append_assoc lead] at hcs
  constructor
  · intro k hk
    rw [hsearch, Option.map_eq_some_iff] at hk
    obtain ⟨column, hfirst, rfl⟩ := hk
    obtain ⟨hlt, hat, hfree⟩ := keywordColumn?_eq_some.1 hfirst
    refine ⟨?_, fun j hj hle => ?_⟩
    · rw [hcs, keywordAt_line hbefore hafter (Nat.le_of_lt hlt), hat]
    · rw [hstart] at hle
      obtain ⟨i, rfl⟩ := Nat.exists_eq_add_of_le hle
      have hi : i < column := Nat.lt_of_add_lt_add_left hj
      rw [hcs, keywordAt_line hbefore hafter (Nat.le_of_lt (Nat.lt_trans hi hlt)), hfree i hi]
  · intro hat
    have hle : lead.length ≤ (lead ++ rest).length := by
      rw [List.length_append]
      exact Nat.le_add_right _ _
    rw [hcs, hoffset, keywordAt_line hbefore hafter hle] at hat
    have hsome : ∃ k, startsAt false (lead ++ rest) k = true := ⟨lead.length, hat⟩
    have hfirst : Nat.find hsome ≤ lead.length := Nat.find_min' hsome hat
    have hlt : lead.length < (lead ++ rest).length := by
      refine Nat.lt_of_le_of_ne hle fun heq => ?_
      rw [startsAt, heq, List.drop_length] at hat
      simp [startsDeclaration, startsWithWord, keyword, dropStart?] at hat
    refine ⟨before.length + Nat.find hsome, by omega, ?_⟩
    rw [hsearch, keywordColumn?_eq_some.2 ⟨Nat.lt_of_le_of_lt hfirst hlt, Nat.find_spec hsome,
      fun j hj => by simpa using Nat.find_min hsome hj⟩, Option.map_some]

/-! ## Keywords of declarations -/

variable {s : Shape} {tag typeName text : List Char}

theorem startsWithWord_of_stops (k : String) {rest : List Char} (h : Stops isWord rest) :
    startsWithWord k (k.toList ++ rest) = true := by
  rw [startsWithWord, keyword_eq_some.2 rfl]
  cases rest with
  | nil => rfl
  | cons c rest => simp [wordEnds, stops_cons.1 h]

theorem keyword_of_head? {k : String} {cs : List Char} (hk : k.toList ≠ [])
    (h : k.toList.head? ≠ cs.head?) : keyword k cs = none := by
  rw [Option.eq_none_iff_forall_ne_some]
  intro rest hrest
  obtain ⟨c, ds, hc⟩ := List.exists_cons_of_ne_nil hk
  rw [keyword_eq_some.1 hrest, hc] at h
  exact h rfl

/-- A keyword with a gap behind it is recognised unless it goes on a word. -/
theorem startsDeclaration_of_gap {k : String} (hk : k = "typedef" ∨ k = "struct") {gap : List Char}
    (hgap : IsGap gap) (insideWord : Bool) (rest : List Char) :
    startsDeclaration insideWord (k.toList ++ (gap ++ rest)) = !insideWord := by
  have hstops : Stops isWord (gap ++ rest) :=
    hgap.2.stops_append_of_ne_nil isWord_of_isBlank hgap.1 rest
  have hpacking : keyword "#pragma" (k.toList ++ (gap ++ rest)) = none
      ∧ keyword "__attribute__" (k.toList ++ (gap ++ rest)) = none := by
    rcases hk with rfl | rfl
    · exact ⟨keyword_of_head? (by simp) (by simp), keyword_of_head? (by simp) (by simp)⟩
    · exact ⟨keyword_of_head? (by simp) (by simp), keyword_of_head? (by simp) (by simp)⟩
  have hword : (startsWithWord "typedef" (k.toList ++ (gap ++ rest))
      || startsWithWord "struct" (k.toList ++ (gap ++ rest))) = true := by
    rcases hk with rfl | rfl
    · rw [startsWithWord_of_stops "typedef" hstops, Bool.true_or]
    · rw [startsWithWord_of_stops "struct" hstops, Bool.or_true]
  rw [startsDeclaration, hword, startsWithWord, hpacking.1, hpacking.2]
  simp

/-- A packing text is recognised in any case. -/
theorem startsDeclaration_of_packing {packing : List Char} (h : PackingText packing)
    (insideWord : Bool) (rest : List Char) :
    startsDeclaration insideWord (packing ++ rest) = true := by
  rw [startsDeclaration]
  cases h with
  | pragma hgap =>
    rw [List.append_assoc, List.append_assoc, startsWithWord_of_stops "#pragma"
      (hgap.2.stops_append_of_ne_nil isWord_of_isBlank hgap.1 _), Bool.or_true, Bool.true_or]
  | packedAttribute =>
    rw [List.append_assoc, (keyword_eq_some (k := "__attribute__")).2 rfl, Option.isSome_some,
      Bool.or_true]

/-- Where a declaration begins, the search for bodies recognises it unless it goes on a word. -/
theorem startsDeclaration_of_written (h : Shape.Written s tag typeName text) (insideWord : Bool)
    (after : List Char) :
    startsDeclaration insideWord (text ++ after) = (!insideWord || decide (s = .packed)) := by
  cases h with
  | typedef hgap =>
    rw [List.append_assoc, List.append_assoc, startsDeclaration_of_gap (Or.inl rfl) hgap]
    simp
  | tagged hgap =>
    rw [List.append_assoc, List.append_assoc, startsDeclaration_of_gap (Or.inr rfl) hgap]
    simp
  | packed hpacking =>
    rw [List.append_assoc, startsDeclaration_of_packing hpacking]
    simp
  | forward hgap =>
    rw [List.append_assoc, List.append_assoc, startsDeclaration_of_gap (Or.inr rfl) hgap]
    simp

/-- The search for bodies recognises a declaration unless it begins inside a word. -/
theorem keywordAt_of_written (h : Shape.Written s tag typeName text) (before after : List Char) :
    keywordAt (before ++ (text ++ after)) before.length
      = (!endsInWord before || decide (s = .packed)) := by
  rw [keywordAt_eq, List.take_left, List.drop_left, startsDeclaration_of_written h]

end Body

/-! ## Candidates -/

namespace Candidate

variable {cs : List Char} {c : Candidate}

/-- A declaration begins a candidate, or it begins inside an earlier one. -/
theorem exists_covering_collect (pending pos : Nat) {k n : Nat}
    (h : length? (cs.drop k) = some n) :
    k < pending ∨ ∃ c ∈ collect pending pos cs,
      c.start ≤ pos + k ∧ pos + k < c.start + c.content.length := by
  fun_induction collect pending pos cs generalizing k with
  | case1 =>
    rw [List.drop_nil] at h
    cases h
  | case2 pending pos d cs ih =>
    cases k with
    | zero => exact Or.inl (Nat.succ_pos pending)
    | succ k =>
      rw [List.drop_succ_cons] at h
      rcases ih h with hlt | ⟨c, hc, hle, hlt⟩
      · exact Or.inl (Nat.succ_lt_succ hlt)
      · exact Or.inr ⟨c, hc, by omega, by omega⟩
  | case3 pos d cs m hm ih =>
    -- The candidate that was just taken covers its own places, the later ones the others.
    obtain ⟨s, tag, typeName, text, rest, hcs, rfl, hwritten⟩ := length?_iff.1 hm
    have hlength : ((d :: cs).take text.length).length = text.length := by
      rw [hcs, List.take_left' rfl]
    have hpos : 0 < text.length := List.length_pos_iff.2 hwritten.ne_nil
    refine Or.inr ?_
    cases k with
    | zero => exact ⟨_, List.mem_cons_self, by simp, by simp only [hlength]; omega⟩
    | succ k =>
      rw [List.drop_succ_cons] at h
      rcases ih h with hlt | ⟨c, hc, hle, hlt⟩
      · exact ⟨_, List.mem_cons_self, by simp, by simp only [hlength]; omega⟩
      · exact ⟨c, List.mem_cons_of_mem _ hc, by omega, by omega⟩
  | case4 pos d cs hnone ih =>
    cases k with
    | zero =>
      rw [List.drop_zero, hnone] at h
      cases h
    | succ k =>
      rw [List.drop_succ_cons] at h
      rcases ih h with hlt | ⟨c, hc, hle, hlt⟩
      · exact absurd hlt (Nat.not_lt_zero k)
      · exact Or.inr ⟨c, hc, by omega, by omega⟩

theorem exists_covering {before text after : List Char} {s : Shape} {tag typeName : List Char}
    (h : Shape.Written s tag typeName text) :
    ∃ c ∈ candidates (before ++ (text ++ after)),
      c.start ≤ before.length ∧ before.length < c.start + c.content.length := by
  have hlength : length? ((before ++ (text ++ after)).drop before.length) = some text.length := by
    rw [List.drop_left]
    exact length?_iff.2 ⟨s, tag, typeName, text, after, rfl, rfl, h⟩
  rcases exists_covering_collect 0 0 hlength with hlt | hcovering
  · exact absurd hlt (Nat.not_lt_zero _)
  · simpa [candidates] using hcovering

/-- The keywords of a candidate of a text are whole words, and the search for bodies recognises the
place. -/
structure IsWhole (cs : List Char) (c : Candidate) : Prop where
  boundary : ∀ d ∈ c.content.head?, isWord d = true → endsInWord (cs.take c.start) = false
  keyword : ∃ front behind, KeywordSplit c.content front behind
    ∧ endsInWord (cs.take c.start ++ front) = false ∧ Stops isWord behind
  recognised : Body.keywordAt cs c.start = true

/-- A keyword of a candidate is cut out of a longer word: its first one, unless that begins with the
sign of a directive, or the keyword `struct` of a typedef. -/
def IsEmbedded (cs : List Char) (c : Candidate) : Prop :=
  (endsInWord (cs.take c.start) = true ∧ c.content.head? ≠ some '#') ∨ HasGluedTag c.content

theorem take_start {before after : List Char} (hcs : cs = before ++ (c.content ++ after))
    (hstart : c.start = before.length) : cs.take c.start = before := by
  rw [hcs, hstart, List.take_left]

/-- **The keywords of a candidate are whole unless one is cut out of a longer word.** -/
theorem isWhole_iff (hc : c ∈ candidates cs) : c.IsWhole cs ↔ ¬ c.IsEmbedded cs := by
  obtain ⟨before, after, s, tag, typeName, hcs, hstart, hwritten⟩ := mem_candidates hc
  have hbefore := take_start hcs hstart
  obtain ⟨d, hhead, hword, hpacked⟩ := hwritten.exists_head
  obtain ⟨front, behind, hsplit, -⟩ := hwritten.exists_keywordSplit
  rw [IsEmbedded, hbefore, hhead]
  constructor
  · rintro ⟨hboundary, ⟨front', behind', hsplit', -, hstops⟩, -⟩ (⟨hinside, hne⟩ | hglued)
    · have hd : d ≠ '#' := fun e => hne (congrArg some e)
      rw [hbefore, hhead] at hboundary
      rw [hboundary d rfl (hword hd)] at hinside
      cases hinside
    · exact (hwritten.stops_behind_iff hsplit').1 hstops hglued
  · intro hnot
    rw [not_or] at hnot
    -- Behind a word character there is a directive, so the candidate is packed.
    have hinside (h : endsInWord before = true) : d = '#' := by
      refine Decidable.byContradiction fun hd => ?_
      exact hnot.1 ⟨h, fun e => hd (Option.some.inj e)⟩
    refine ⟨?_, ⟨front, behind, hsplit, ?_, ?_⟩, ?_⟩
    · rw [hbefore, hhead]
      rintro _ ⟨⟩ hd
      refine Bool.eq_false_iff.2 fun h => ?_
      rw [hinside h] at hd
      exact absurd hd (by decide)
    · rw [hbefore, hsplit.before.endsInWord_append, Bool.and_eq_false_iff]
      by_cases h : endsInWord before = true
      · have hd := hinside h
        cases front with
        | nil =>
          rw [hsplit.text_eq, hd] at hhead
          simp at hhead
        | cons e front => exact Or.inr rfl
      · exact Or.inl (by simpa using h)
    · exact (hwritten.stops_behind_iff hsplit).2 hnot.2
    · have hat := Body.keywordAt_of_written hwritten before after
      rw [← hcs, ← hstart] at hat
      rw [hat, Bool.or_eq_true, Bool.not_eq_true', decide_eq_true_eq]
      by_cases h : endsInWord before = true
      · exact Or.inr (hpacked (hinside h))
      · exact Or.inl (by simpa using h)

end Candidate

/-- In a text the keywords of declarations occur as whole words only. -/
def WholeKeywords (cs : List Char) : Prop :=
  ∀ k ∈ ["typedef".toList, "struct".toList, "__attribute__".toList], ∀ before behind,
    cs = before ++ (k ++ behind) → endsInWord before = false ∧ Stops isWord behind

namespace WholeKeywords

variable {cs before text after : List Char} {s : Shape} {tag typeName : List Char}

/-- A declaration does not begin inside a word, unless it begins with a directive. -/
theorem endsInWord_eq (h : WholeKeywords cs) (hcs : cs = before ++ (text ++ after))
    (hwritten : Shape.Written s tag typeName text) (hhead : text.head? ≠ some '#') :
    endsInWord before = false := by
  obtain ⟨w, hw, c, behind, rfl, -⟩ := hwritten.exists_opens
  have hkeyword : w ∈ ["typedef".toList, "struct".toList, "__attribute__".toList] := by
    simp only [Shape.openers, List.mem_cons, List.not_mem_nil, or_false] at hw ⊢
    rcases hw with rfl | rfl | rfl | rfl
    · exact Or.inl rfl
    · exact Or.inr (Or.inl rfl)
    · simp at hhead
    · exact Or.inr (Or.inr rfl)
  rw [List.append_assoc] at hcs
  exact (h w hkeyword _ _ hcs).1

theorem not_isEmbedded (h : WholeKeywords cs) {c : Candidate} (hc : c ∈ candidates cs) :
    ¬ c.IsEmbedded cs := by
  obtain ⟨before, after, s, tag, typeName, hcs, hstart, hwritten⟩ := mem_candidates hc
  rw [Candidate.IsEmbedded, Candidate.take_start hcs hstart]
  rintro (⟨hinside, hhead⟩ | ⟨gap, d, behind, -, hd, htext⟩)
  · rw [h.endsInWord_eq hcs hwritten hhead] at hinside
    cases hinside
  · have hsplit : cs = (before ++ ("typedef".toList ++ gap))
        ++ ("struct".toList ++ (d :: behind ++ after)) := by
      rw [hcs, htext]
      simp only [List.append_assoc]
    have hstops := (h _ (by simp) _ _ hsplit).2
    rw [stops_cons.1 hstops] at hd
    cases hd

end WholeKeywords

/-- **Keywords are whole words or cut out of one.** The keywords of a candidate are whole words, and
the search for bodies recognises the place, unless the candidate begins inside a word or a tag is
glued to the keyword `struct` of its typedef. The search for the body of a candidate begins at the
first recognised place of its line. Where a declaration is written, a candidate begins or goes on,
while the search for bodies recognises the place exactly if it is not inside a word or a packing
text begins there. If keywords occur in the text as whole words only, all candidates are whole and
all declarations are recognised. -/
theorem candidates_are_whole_or_embedded (cs : List Char) :
    (∀ c ∈ candidates cs, (c.IsWhole cs ↔ ¬ c.IsEmbedded cs)
      ∧ (∀ k, Body.keywordAt? cs c.start = some k → Body.keywordAt cs k = true
        ∧ ∀ j < k, c.start - column cs c.start ≤ j → Body.keywordAt cs j = false)
      ∧ (Body.keywordAt cs c.start = true →
        ∃ k ≤ c.start, Body.keywordAt? cs c.start = some k))
    ∧ (∀ before text after s tag typeName, cs = before ++ (text ++ after) →
      Shape.Written s tag typeName text →
        (∃ c ∈ candidates cs, c.start ≤ before.length
          ∧ before.length < c.start + c.content.length)
        ∧ (Body.keywordAt cs before.length = true ↔ endsInWord before = false ∨ s = .packed))
    ∧ (WholeKeywords cs → (∀ c ∈ candidates cs, c.IsWhole cs)
      ∧ ∀ before text after s tag typeName, cs = before ++ (text ++ after) →
        Shape.Written s tag typeName text → Body.keywordAt cs before.length = true) := by
  have hat : ∀ before text after s tag typeName, cs = before ++ (text ++ after) →
      Shape.Written s tag typeName text →
      (Body.keywordAt cs before.length = true ↔ endsInWord before = false ∨ s = .packed) := by
    rintro before text after s tag typeName rfl hwritten
    rw [Body.keywordAt_of_written hwritten, Bool.or_eq_true, Bool.not_eq_true', decide_eq_true_eq]
  refine ⟨fun c hc => ⟨Candidate.isWhole_iff hc, Body.keywordAt?_first (Candidate.start_le hc)⟩, ?_,
    fun hwhole => ⟨fun c hc => ?_, ?_⟩⟩
  · intro before text after s tag typeName hcs hwritten
    refine ⟨?_, hat before text after s tag typeName hcs hwritten⟩
    rw [hcs]
    exact Candidate.exists_covering hwritten
  · exact (Candidate.isWhole_iff hc).2 (hwhole.not_isEmbedded hc)
  · intro before text after s tag typeName hcs hwritten
    rw [hat before text after s tag typeName hcs hwritten]
    obtain ⟨d, hhead, -, hpacked⟩ := hwritten.exists_head
    by_cases hd : d = '#'
    · exact Or.inr (hpacked hd)
    · refine Or.inl (hwhole.endsInWord_eq hcs hwritten ?_)
      rw [hhead]
      exact fun e => hd (Option.some.inj e)

/-- A declaration, and another one inside a word. -/
def embeddedText : List Char :=
  "struct A; mystruct B;".toList

/-- The first candidate is whole and the second one is not. -/
theorem embedded_and_whole_candidates :
    candidates embeddedText = [⟨"struct A;".toList, 0⟩, ⟨"struct B;".toList, 12⟩]
      ∧ Candidate.IsWhole embeddedText ⟨"struct A;".toList, 0⟩
      ∧ ¬ Candidate.IsWhole embeddedText ⟨"struct B;".toList, 12⟩ := by
  have hcandidates : candidates embeddedText
      = [⟨"struct A;".toList, 0⟩, ⟨"struct B;".toList, 12⟩] := by
    decide +kernel
  have hiff := (candidates_are_whole_or_embedded embeddedText).1
  rw [hcandidates] at hiff
  refine ⟨hcandidates, (hiff _ (by simp)).1.2 ?_, fun hwhole => ?_⟩
  · rintro (⟨hinside, -⟩ | ⟨gap, d, behind, -, -, htext⟩)
    · exact absurd hinside (by decide)
    · simp at htext
  · exact (hiff _ (by simp)).1.1 hwhole (Or.inl (by decide +kernel))

/-- A forward declaration is taken out of a word and becomes a declaration, at a place that the
search for bodies does not recognise, and a word that begins like the keyword `struct` is taken for
the keyword and a tag. -/
theorem embedded_keyword_is_declared :
    candidates "mystruct A;".toList = [⟨"struct A;".toList, 2⟩]
      ∧ disambiguate Rule.defaults "struct A;".toList = .ok (some ⟨"A", .forward⟩)
      ∧ ¬ Candidate.IsWhole "mystruct A;".toList ⟨"struct A;".toList, 2⟩
      ∧ Body.keywordAt "mystruct A;".toList 2 = false
      ∧ candidates "typedef structural \x7b int a; \x7d T;".toList
        = [⟨"typedef structural \x7b int a; \x7d T;".toList, 0⟩]
      ∧ KeywordSplit "typedef structural \x7b int a; \x7d T;".toList "typedef ".toList
        "ural \x7b int a; \x7d T;".toList := by
  have hdeclared : disambiguate Rule.defaults "struct A;".toList = .ok (some ⟨"A", .forward⟩) :=
    disambiguate_defaults_iff.2 ⟨['A'], [], Shape.written_of_readWhole rfl, rfl⟩
  refine ⟨by decide +kernel, hdeclared, fun hwhole => ?_, by decide +kernel,
    by decide +kernel, by decide +kernel, .typedef (by decide)⟩
  have hstart := hwhole.boundary 's' (by decide) (by decide)
  exact absurd hstart (by decide)

end StructAtlas
