import Mathlib.Data.List.Infix
import StructAtlas.Proofs.Braces
import StructAtlas.Proofs.FieldGrammar

set_option autoImplicit false

/-!
# Fields in nested groups

A body is cut at every semicolon, whatever stands around it, so braces inside the body do not hide
the statements between them. Each statement has its place (`Field.placed`), and the fields are read
off the statements in their order. Outside of its square brackets a field holds no brace, so its
statement lies at one depth, which need not be zero (`surplus_in_field`).

Only the two statements that hold the braces of a nested group are never fields
(`read_eq_none_of_brace`). `fieldsOf_group` says what this leaves of a group: the text up to its
first semicolon belongs to the statement that the group begins in, the text behind its last one to
the statement that it ends in, and the statements between them are fields of the outer struct like
all others.
-/

namespace StructAtlas

namespace Text

variable {p : Char → Bool} {c sep : Char} {cs : List Char}

theorem mem_dropWhile_of_mem (h : c ∈ cs) (hc : p c = false) : c ∈ cs.dropWhile p := by
  have hsplit : c ∈ cs.takeWhile p ++ cs.dropWhile p := by rwa [List.takeWhile_append_dropWhile]
  rcases List.mem_append.1 hsplit with hrun | hrest
  · have hpos := run_takeWhile p cs c hrun
    rw [hc] at hpos
    cases hpos
  · exact hrest

/-- Trimming takes blanks away only. -/
theorem mem_trim_of_mem (h : c ∈ cs) (hc : isBlank c = false) : c ∈ trim cs := by
  have hskip : c ∈ (skipBlanks cs).reverse := List.mem_reverse.2 (mem_dropWhile_of_mem h hc)
  exact List.mem_reverse.2 (mem_dropWhile_of_mem hskip hc)

/-- A separator divides the parts. -/
theorem splitBy_append (p : Char → Bool) (hc : p c = true) (before after : List Char) :
    splitBy p (before ++ c :: after) = splitBy p before ++ splitBy p after := by
  induction before with
  | nil => exact splitBy_cons_of_pos hc after
  | cons d before ih =>
    rw [List.cons_append]
    cases hd : p d with
    | true => rw [splitBy_cons_of_pos hd, splitBy_cons_of_pos hd, ih, List.cons_append]
    | false =>
      obtain ⟨part, parts, hparts, hcons⟩ := splitBy_cons_of_neg hd before
      obtain ⟨part', parts', hparts', hcons'⟩ := splitBy_cons_of_neg hd (before ++ c :: after)
      rw [ih, hparts, List.cons_append, List.cons.injEq] at hparts'
      rw [hcons, hcons', ← hparts'.1, ← hparts'.2, List.cons_append]

theorem splitOn_append (sep : Char) (before after : List Char) :
    splitOn sep (before ++ sep :: after) = splitOn sep before ++ splitOn sep after :=
  splitBy_append (· == sep) (beq_self_eq_true sep) before after

theorem splitOn_of_not_mem (h : sep ∉ cs) : splitOn sep cs = [cs] :=
  splitBy_of_forall fun _ hc => beq_eq_false_iff_ne.2 fun e => h (e ▸ hc)

theorem splitOn_ne_nil (sep : Char) (cs : List Char) : splitOn sep cs ≠ [] :=
  splitBy_ne_nil _ cs

end Text

namespace Field

open Text Body

/-! ## Braces in a statement -/

section Braces

variable {s rest : List Char} {c : Char} {f : Field}

/-- Braces. -/
def IsBrace (c : Char) : Prop :=
  c = '\x7b' ∨ c = '\x7d'

instance (c : Char) : Decidable (IsBrace c) :=
  inferInstanceAs (Decidable (c = '\x7b' ∨ c = '\x7d'))

/-- A square bracket is left open: none closes behind it. -/
def LeavesOpen (s : List Char) : Prop :=
  ∃ t ∈ s.tails, t.head? = some '[' ∧ ']' ∉ t

instance (s : List Char) : Decidable (LeavesOpen s) :=
  inferInstanceAs (Decidable (∃ t ∈ s.tails, t.head? = some '[' ∧ ']' ∉ t))

/-- Behind every opening bracket a closing one divides the text. -/
theorem exists_close_of_not_leavesOpen {front behind : List Char}
    (h : ¬ LeavesOpen (front ++ '[' :: behind)) :
    ∃ inside after, behind = inside ++ ']' :: after ∧ ']' ∉ inside := by
  refine List.eq_append_cons_of_mem (Classical.byContradiction fun hnone => h ?_)
  refine ⟨'[' :: behind, (List.mem_tails _ _).2 (List.suffix_append _ _), rfl, ?_⟩
  rw [List.mem_cons, not_or]
  exact ⟨by decide, hnone⟩

theorem IsBrace.not_wordOrBlank (h : IsBrace c) : isWordOrBlank c = false ∧ isBlank c = false := by
  rcases h with rfl | rfl <;> decide +kernel

/-- A statement that is a field is words and blanks, perhaps with a star among them, in front of its
square brackets. -/
theorem Written.exists_front {p : Parts} (h : Written p s) :
    ∃ front brackets tail, s = front ++ (brackets ++ tail)
      ∧ (∀ c ∈ front, isWordOrBlank c = true ∨ c = '*')
      ∧ Bracketed p.inside brackets ∧ Run isBlank tail := by
  cases h with
  | @parts lead joined sep b brackets tail hlead hjoined hsep hname hb hbrackets htail =>
    refine ⟨lead ++ (joined ++ (sep ++ (p.name ++ b))), brackets, tail, by simp, ?_, hbrackets,
      htail⟩
    have hsep : ∀ c ∈ sep, isWordOrBlank c = true ∨ c = '*' := by
      generalize p.isPointer = isPointer at hsep
      intro c hc
      cases hsep with
      | gap hgap => exact Or.inl (run_isWordOrBlank hgap.2 c hc)
      | star hb₁ hb₂ =>
        rcases List.mem_append.1 hc with hc | hc
        · exact Or.inl (run_isWordOrBlank hb₁ c hc)
        · rcases List.mem_cons.1 hc with rfl | hc
          · exact Or.inr rfl
          · exact Or.inl (run_isWordOrBlank hb₂ c hc)
    intro c hc
    simp only [List.mem_append] at hc
    rcases hc with hc | hc | hc | hc | hc
    · exact Or.inl (run_isWordOrBlank hlead c hc)
    · exact Or.inl (hjoined.run c hc)
    · exact hsep c hc
    · exact Or.inl (by simp [isWordOrBlank, hname.2 c hc])
    · exact Or.inl (run_isWordOrBlank hb c hc)

/-- A field without braces in its repetition has none in its statement. -/
theorem not_isBrace_of_read (h : read s = some f)
    (hrepetition : ∀ r ∈ f.repetition, ∀ c ∈ r.toList, ¬ IsBrace c) : ∀ c ∈ s, ¬ IsBrace c := by
  obtain ⟨p, hwritten, rfl⟩ := read_eq_some_iff.1 h
  obtain ⟨front, brackets, tail, rfl, hfront, hbrackets, htail⟩ := hwritten.exists_front
  intro c hc hbrace
  obtain ⟨hword, hblank⟩ := hbrace.not_wordOrBlank
  rcases List.mem_append.1 hc with hc | hc
  · rcases hfront c hc with hpos | rfl
    · rw [hword] at hpos
      cases hpos
    · exact absurd hbrace (by decide)
  rcases List.mem_append.1 hc with hc | hc
  · rw [Parts.field] at hrepetition
    generalize p.inside = inside at hbrackets hrepetition
    cases hbrackets with
    | absent => cases hc
    | @present inside =>
      -- What the brackets hold is the repetition up to blanks.
      simp only [List.mem_cons, List.mem_append, List.not_mem_nil, or_false] at hc
      rcases hc with rfl | hc | rfl
      · exact absurd hbrace (by decide)
      · refine hrepetition _ rfl c ?_ hbrace
        rw [String.toList_ofList]
        exact mem_trim_of_mem hc hblank
      · exact absurd hbrace (by decide)
  · rw [htail c hc] at hblank
    cases hblank

/-- A brace in a statement that is a field stands behind the beginning of its brackets. -/
theorem Written.exists_behind {p : Parts} (h : Written p (s ++ c :: rest)) (hbrace : IsBrace c) :
    ∃ front behind brackets tail, s = front ++ behind ∧ brackets ++ tail = behind ++ c :: rest
      ∧ Bracketed p.inside brackets ∧ Run isBlank tail := by
  obtain ⟨front, brackets, tail, hsplit, hfront, hbrackets, htail⟩ := h.exists_front
  have hnot : c ∉ front := by
    intro hc
    rcases hfront c hc with hpos | rfl
    · rw [hbrace.not_wordOrBlank.1] at hpos
      cases hpos
    · exact absurd hbrace (by decide)
  rcases List.append_eq_append_iff.1 hsplit with ⟨mid, rfl, hmid⟩ | ⟨mid, rfl, hmid⟩
  · cases mid with
    | nil => exact ⟨s, [], brackets, tail, by simp, hmid.symm, hbrackets, htail⟩
    | cons d mid =>
      obtain ⟨rfl, -⟩ := List.cons.inj hmid
      exact absurd (List.mem_append_right s List.mem_cons_self) hnot
  · exact ⟨front, mid, brackets, tail, rfl, hmid, hbrackets, htail⟩

/-- A statement with a brace outside of square brackets is no field. -/
theorem read_eq_none_of_brace (hs : ¬ LeavesOpen s) (hbrace : IsBrace c) (rest : List Char) :
    read (s ++ c :: rest) = none := by
  rw [Option.eq_none_iff_forall_ne_some]
  intro f h
  obtain ⟨p, hwritten, -⟩ := read_eq_some_iff.1 h
  obtain ⟨front, behind, brackets, tail, rfl, hbehind, hbrackets, htail⟩ :=
    hwritten.exists_behind hbrace
  have hblanks : c ∉ tail := fun hc =>
    Bool.false_ne_true (hbrace.not_wordOrBlank.2.symm.trans (htail c hc))
  generalize p.inside = inside at hbrackets
  cases hbrackets with
  | absent =>
    rw [List.nil_append] at hbehind
    exact hblanks (hbehind ▸ List.mem_append_right behind List.mem_cons_self)
  | @present inside _ hinside =>
    cases behind with
    | nil =>
      obtain ⟨rfl, -⟩ := List.cons.inj hbehind
      exact absurd hbrace (by decide)
    | cons d behind =>
      -- The brackets are closed in front of the brace, so it stands among the blanks behind them.
      rw [List.cons_append, List.cons_append, List.append_assoc] at hbehind
      obtain ⟨rfl, hclosed⟩ := List.cons.inj hbehind
      obtain ⟨inside', after, rfl, hfirst⟩ := exists_close_of_not_leavesOpen hs
      rw [List.append_assoc, List.cons_append] at hclosed
      have hsame := (splitFirst?_eq_some.2 ⟨hclosed, hfirst⟩).symm.trans
        (splitFirst?_eq_some.2 ⟨rfl, hinside⟩)
      obtain ⟨-, rfl⟩ := Prod.mk.inj (Option.some.inj hsame)
      exact hblanks (List.mem_append_right after List.mem_cons_self)

end Braces

/-! ## Fields of a text -/

/-- The fields among the statements of a text that has no directives. -/
def fieldsOf (text : List Char) : List Field :=
  ((splitOn ';' text).dropLast).filterMap read

/-- The text behind the first semicolon. -/
def behindFirst (text : List Char) : List Char :=
  match splitFirst? ';' text with
  | some (_, rest) => rest
  | none => []

/-- The text behind the last semicolon. -/
def behindLast (text : List Char) : List Char :=
  match splitLast? ';' text with
  | some (_, rest) => rest
  | none => text

theorem ofBody_eq_fieldsOf (body : List Char) : ofBody body = fieldsOf (dropDirectives body) :=
  rfl

section Text

variable {s text : List Char}

theorem fieldsOf_of_not_mem (h : ';' ∉ text) : fieldsOf text = [] := by
  rw [fieldsOf, splitOn_of_not_mem h]
  rfl

theorem fieldsOf_append_semicolon (before after : List Char) :
    fieldsOf (before ++ ';' :: after) = (splitOn ';' before).filterMap read ++ fieldsOf after := by
  rw [fieldsOf, splitOn_append, List.dropLast_append_of_ne_nil (splitOn_ne_nil ';' after),
    List.filterMap_append, fieldsOf]

theorem fieldsOf_statement (h : ';' ∉ s) (after : List Char) :
    fieldsOf (s ++ ';' :: after) = (read s).toList ++ fieldsOf after := by
  rw [fieldsOf_append_semicolon, splitOn_of_not_mem h]
  cases hread : read s <;> simp [hread]

/-- What follows a text changes its last statement only. -/
theorem fieldsOf_append (text after : List Char) :
    fieldsOf (text ++ after) = fieldsOf text ++ fieldsOf (behindLast text ++ after) := by
  rw [behindLast]
  split
  · rename_i before rest hlast
    obtain ⟨rfl, hrest⟩ := splitLast?_eq_some.1 hlast
    rw [List.append_assoc, List.cons_append, fieldsOf_append_semicolon, fieldsOf_append_semicolon,
      fieldsOf_of_not_mem hrest, List.append_nil]
  · rename_i hnone
    rw [fieldsOf_of_not_mem (splitLast?_eq_none.1 hnone), List.nil_append]

theorem behindFirst_of_not_mem (h : ';' ∉ text) : behindFirst text = [] := by
  rw [behindFirst]
  split
  · rename_i before rest hfirst
    obtain ⟨rfl, -⟩ := splitFirst?_eq_some.1 hfirst
    exact absurd (List.mem_append_right before List.mem_cons_self) h
  · rfl

theorem behindFirst_statement (h : ';' ∉ s) (after : List Char) :
    behindFirst (s ++ ';' :: after) = after := by
  rw [behindFirst, splitFirst?_eq_some.2 ⟨rfl, h⟩]

theorem behindFirst_append_of_not_mem (h : ';' ∉ s) (after : List Char) :
    behindFirst (s ++ after) = behindFirst after := by
  by_cases hmem : ';' ∈ after
  · obtain ⟨t, rest, rfl, ht⟩ := List.eq_append_cons_of_mem hmem
    have hst : ';' ∉ s ++ t := fun hc => (List.mem_append.1 hc).elim h ht
    rw [behindFirst_statement ht, ← List.append_assoc, behindFirst_statement hst]
  · have hall : ';' ∉ s ++ after := fun hc => (List.mem_append.1 hc).elim h hmem
    rw [behindFirst_of_not_mem hmem, behindFirst_of_not_mem hall]

theorem semicolon_not_mem_behindLast (text : List Char) : ';' ∉ behindLast text := by
  rw [behindLast]
  split
  · rename_i before rest hlast
    exact (splitLast?_eq_some.1 hlast).2
  · rename_i hnone
    exact splitLast?_eq_none.1 hnone

theorem behindLast_append_semicolon (before after : List Char) :
    behindLast (before ++ ';' :: after) = behindLast after := by
  by_cases hmem : ';' ∈ after
  · obtain ⟨⟨t, rest⟩, hlast⟩ : ∃ r, splitLast? ';' after = some r := by
      rw [← Option.ne_none_iff_exists', ne_eq, splitLast?_eq_none]
      exact not_not_intro hmem
    obtain ⟨rfl, hrest⟩ := splitLast?_eq_some.1 hlast
    have hboth : splitLast? ';' (before ++ ';' :: (t ++ ';' :: rest))
        = some (before ++ ';' :: t, rest) :=
      splitLast?_eq_some.2 ⟨by simp, hrest⟩
    rw [behindLast, behindLast, hlast, hboth]
  · rw [behindLast, behindLast, splitLast?_eq_some.2 ⟨rfl, hmem⟩, splitLast?_eq_none.2 hmem]

end Text

/-! ## Groups -/

section Groups

variable {s pre inner post : List Char} {c : Char}

/-- A statement with a brace outside of square brackets adds no field to those behind it. -/
theorem fieldsOf_brace (hs : ';' ∉ s) (hopen : ¬ LeavesOpen s) (hbrace : IsBrace c)
    (after : List Char) : fieldsOf (s ++ c :: after) = fieldsOf (behindFirst after) := by
  have hc : ';' ≠ c := by
    rintro rfl
    exact absurd hbrace (by decide)
  have hnot {t : List Char} (ht : ';' ∉ t) : ';' ∉ s ++ c :: t := by
    rw [List.mem_append, List.mem_cons, not_or, not_or]
    exact ⟨hs, hc, ht⟩
  by_cases hmem : ';' ∈ after
  · -- The first semicolon ends the statement with the brace.
    obtain ⟨t, rest, rfl, ht⟩ := List.eq_append_cons_of_mem hmem
    have hsplit : s ++ c :: (t ++ ';' :: rest) = (s ++ c :: t) ++ ';' :: rest := by simp
    rw [hsplit, fieldsOf_statement (hnot ht), read_eq_none_of_brace hopen hbrace,
      behindFirst_statement ht, Option.toList_none, List.nil_append]
  · rw [fieldsOf_of_not_mem (hnot hmem), behindFirst_of_not_mem hmem]
    rfl

/-- **The fields of a text with a group** are those in front of it, those behind its first semicolon
and those behind the first semicolon that follows it. -/
theorem fieldsOf_group (hpre : ¬ LeavesOpen (behindLast pre))
    (hinner : ';' ∈ inner → ¬ LeavesOpen (behindLast inner)) :
    fieldsOf (pre ++ '\x7b' :: (inner ++ '\x7d' :: post))
      = fieldsOf pre ++ (fieldsOf (behindFirst inner) ++ fieldsOf (behindFirst post)) := by
  rw [fieldsOf_append, fieldsOf_brace (semicolon_not_mem_behindLast pre) hpre (Or.inl rfl)]
  congr 1
  by_cases hmem : ';' ∈ inner
  · -- The group is cut open: its last statement goes on behind it.
    obtain ⟨t, rest, rfl, ht⟩ := List.eq_append_cons_of_mem hmem
    have hlast := hinner hmem
    rw [behindLast_append_semicolon] at hlast
    rw [List.append_assoc, List.cons_append, behindFirst_statement ht, behindFirst_statement ht,
      fieldsOf_append, fieldsOf_brace (semicolon_not_mem_behindLast rest) hlast (Or.inr rfl)]
  · -- The group belongs to one statement as a whole.
    have hclosed : ';' ∉ inner ++ ['\x7d'] := by
      rw [List.mem_append, not_or]
      exact ⟨hmem, by decide⟩
    have hsplit : inner ++ '\x7d' :: post = (inner ++ ['\x7d']) ++ post := by simp
    rw [hsplit, behindFirst_append_of_not_mem hclosed, behindFirst_of_not_mem hmem]
    rfl

end Groups

/-! ## Places of statements -/

section Places

/-- Statements with the text in front of each, when some text stands before the first one. -/
def placedFrom (before : List Char) : List (List Char) → List (List Char × List Char)
  | [] => []
  | s :: ss => (before, s) :: placedFrom (before ++ (s ++ [';'])) ss

/-- The statements of a body, each with the text in front of it. -/
def placed (body : List Char) : List (List Char × List Char) :=
  placedFrom [] (statements body)

theorem map_placedFrom (before : List Char) (ss : List (List Char)) :
    (placedFrom before ss).map (·.2) = ss := by
  induction ss generalizing before with
  | nil => rfl
  | cons s ss ih => rw [placedFrom, List.map_cons, ih]

/-- The fields of a body are read off its placed statements. -/
theorem ofBody_eq_placed (body : List Char) :
    ofBody body = (placed body).filterMap fun p => read p.2 := by
  have hmap := List.filterMap_map (l := placed body) (f := fun p => p.2) (g := read)
  rw [placed, map_placedFrom] at hmap
  exact hmap

/-- The parts of a text but the last one have separators behind them. -/
theorem exists_behind_parts (sep : Char) (text : List Char) :
    ∃ last, text = (splitOn sep text).dropLast.flatMap (· ++ [sep]) ++ last := by
  obtain ⟨parts, last, hparts⟩ : ∃ parts last, splitOn sep text = parts ++ [last] :=
    ⟨_, _, (List.dropLast_concat_getLast (splitOn_ne_nil sep text)).symm⟩
  have htext := intercalate_splitOn sep text
  rw [hparts] at htext ⊢
  rw [List.dropLast_concat]
  refine ⟨last, htext.symm.trans ?_⟩
  clear htext hparts
  -- The part behind the first one exists, since the last part does.
  induction parts with
  | nil => simp [List.intercalate]
  | cons part parts ih =>
    obtain ⟨q, qs, hq⟩ := List.exists_cons_of_ne_nil (List.append_ne_nil_of_right_ne_nil parts
      (List.cons_ne_nil last []))
    rw [List.cons_append, hq, List.intercalate_cons_cons, ← hq, ih, List.flatMap_cons]
    simp

/-- A placed statement stands where its place says. -/
theorem exists_after_of_placedFrom {before : List Char} {ss : List (List Char)}
    {p : List Char × List Char} (h : p ∈ placedFrom before ss) (rest : List Char) :
    ∃ after, before ++ (ss.flatMap (· ++ [';']) ++ rest) = p.1 ++ (p.2 ++ ';' :: after) := by
  induction ss generalizing before with
  | nil => cases h
  | cons s ss ih =>
    rcases List.mem_cons.1 h with rfl | h
    · exact ⟨ss.flatMap (· ++ [';']) ++ rest, by simp⟩
    · obtain ⟨after, hafter⟩ := ih h
      exact ⟨after, by rw [← hafter]; simp⟩

theorem exists_after_of_placed {body : List Char} {p : List Char × List Char}
    (h : p ∈ placed body) :
    (∃ after, dropDirectives body = p.1 ++ (p.2 ++ ';' :: after)) ∧ ';' ∉ p.2 := by
  constructor
  · obtain ⟨last, hlast⟩ := exists_behind_parts ';' (dropDirectives body)
    obtain ⟨after, hafter⟩ := exists_after_of_placedFrom h last
    rw [List.nil_append] at hafter
    exact ⟨after, hlast.trans hafter⟩
  · have hmem : p.2 ∈ statements body := by
      rw [← map_placedFrom [] (statements body)]
      exact List.mem_map_of_mem h
    intro hsemi
    have hfree := not_mem_of_mem_splitBy ((List.dropLast_sublist _).subset hmem) _ hsemi
    simp at hfree

theorem length_placed (body : List Char) :
    (placed body).length = (dropDirectives body).count ';' := by
  have hlength := congrArg List.length (map_placedFrom [] (statements body))
  rw [List.length_map] at hlength
  rw [placed, hlength, statements, List.length_dropLast, splitOn, length_splitBy]
  rfl

theorem surplus_of_not_isBrace {cs : List Char} (h : ∀ c ∈ cs, ¬ IsBrace c) : surplus cs = 0 := by
  have hopen : '\x7b' ∉ cs := fun hmem => h _ hmem (Or.inl rfl)
  have hclose : '\x7d' ∉ cs := fun hmem => h _ hmem (Or.inr rfl)
  rw [surplus, List.count_eq_zero.2 hopen, List.count_eq_zero.2 hclose]
  rfl

/-- A field without braces in its repetition lies at one depth. -/
theorem surplus_in_field {before s u : List Char} {f : Field} (h : read s = some f)
    (hrepetition : ∀ r ∈ f.repetition, ∀ c ∈ r.toList, ¬ IsBrace c) (hu : u <+: s) :
    surplus (before ++ u) = surplus before := by
  have hnone : ∀ c ∈ u, ¬ IsBrace c := fun c hc =>
    not_isBrace_of_read h hrepetition c (hu.subset hc)
  rw [surplus_append, surplus_of_not_isBrace hnone, Int.add_zero]

end Places

/-- **Fields come from statements of every depth.** Each semicolon of a body ends one statement, and
the fields are those of these statements, in their order. A field without braces in its repetition
lies at one depth, whichever that is. A group with no square bracket left open in front of its
braces adds the fields behind its first semicolon and takes those up to the next semicolon behind
it, so replacing its inside leaves the fields as they are exactly if the new inside has the same
fields behind its first semicolon. -/
theorem fields_come_from_every_depth (body : List Char) :
    ofBody body = (placed body).filterMap (fun p => read p.2)
    ∧ (placed body).length = (dropDirectives body).count ';'
    ∧ (∀ p ∈ placed body,
      (∃ after, dropDirectives body = p.1 ++ (p.2 ++ ';' :: after)) ∧ ';' ∉ p.2
      ∧ ∀ f, read p.2 = some f → (∀ r ∈ f.repetition, ∀ c ∈ r.toList, ¬ IsBrace c) →
        ∀ u, u <+: p.2 → surplus (p.1 ++ u) = surplus p.1)
    ∧ ∀ pre inner post : List Char,
      dropDirectives body = pre ++ '\x7b' :: (inner ++ '\x7d' :: post) →
      ¬ LeavesOpen (behindLast pre) → (';' ∈ inner → ¬ LeavesOpen (behindLast inner)) →
      ofBody body = fieldsOf pre ++ (fieldsOf (behindFirst inner) ++ fieldsOf (behindFirst post))
      ∧ ∀ body' inner' : List Char,
        dropDirectives body' = pre ++ '\x7b' :: (inner' ++ '\x7d' :: post) →
        (';' ∈ inner' → ¬ LeavesOpen (behindLast inner')) →
        (ofBody body' = ofBody body
          ↔ fieldsOf (behindFirst inner') = fieldsOf (behindFirst inner)) := by
  refine ⟨ofBody_eq_placed body, length_placed body, fun p hp => ?_, ?_⟩
  · obtain ⟨hafter, hsemi⟩ := exists_after_of_placed hp
    exact ⟨hafter, hsemi, fun f hread hrepetition u hu => surplus_in_field hread hrepetition hu⟩
  · intro pre inner post hbody hpre hinner
    have hfields : ofBody body
        = fieldsOf pre ++ (fieldsOf (behindFirst inner) ++ fieldsOf (behindFirst post)) := by
      rw [ofBody_eq_fieldsOf, hbody, fieldsOf_group hpre hinner]
    refine ⟨hfields, fun body' inner' hbody' hinner' => ?_⟩
    rw [hfields, ofBody_eq_fieldsOf, hbody', fieldsOf_group hpre hinner',
      List.append_cancel_left_eq, List.append_cancel_right_eq]

/-- A body with a group that has two members. -/
def groupBody : List Char :=
  "struct \x7b int a; int b; \x7d in; int c;".toList

/-- The same body with an empty group. -/
def emptyGroupBody : List Char :=
  "struct \x7b \x7d in; int c;".toList

/-- A body with a group behind closed square brackets. -/
def filledBody : List Char :=
  "int a[3] = \x7b 1; int b; \x7d; int c;".toList

/-- The statements behind the first semicolon of the group are fields, and other texts in the group
give other fields. -/
theorem fields_come_from_group :
    ofBody filledBody = [⟨"b", "int", false, none, false⟩, ⟨"c", "int", false, none, false⟩]
      ∧ ofBody groupBody = [⟨"b", "int", false, none, false⟩, ⟨"c", "int", false, none, false⟩]
      ∧ ofBody emptyGroupBody ≠ ofBody groupBody := by
  have hfilled : dropDirectives filledBody = "int a[3] = ".toList
      ++ '\x7b' :: (" 1; int b; ".toList ++ '\x7d' :: "; int c;".toList) := by
    decide +kernel
  have hbody : dropDirectives groupBody = "struct ".toList
      ++ '\x7b' :: (" int a; int b; ".toList ++ '\x7d' :: " in; int c;".toList) := by
    decide +kernel
  have hempty : dropDirectives emptyGroupBody
      = "struct ".toList ++ '\x7b' :: (" ".toList ++ '\x7d' :: " in; int c;".toList) := by
    decide +kernel
  obtain ⟨hfields, -⟩ := (fields_come_from_every_depth filledBody).2.2.2 _ _ _ hfilled
    (by decide +kernel) (by decide +kernel)
  obtain ⟨hgroup, hreplaced⟩ := (fields_come_from_every_depth groupBody).2.2.2 _ _ _ hbody
    (by decide +kernel) (by decide +kernel)
  refine ⟨hfields.trans (by decide +kernel), hgroup.trans (by decide +kernel), fun hsame => ?_⟩
  have hinside := (hreplaced _ _ hempty (by decide +kernel)).1 hsame
  exact absurd hinside (by decide +kernel)

/-- The braces of the body are balanced, and the statement of its field `b` lies at depth one; the
body with the emptied group has not the same fields. -/
theorem nested_member_is_listed :
    surplus groupBody = 0 ∧ (∀ n ≤ groupBody.length, 0 ≤ surplus (groupBody.take n))
      ∧ dropDirectives groupBody = groupBody
      ∧ (∃ f ∈ ofBody groupBody, f.name = "b"
        ∧ ∀ p ∈ placed groupBody, read p.2 = some f → surplus p.1 = 1)
      ∧ surplus emptyGroupBody = 0 ∧ ofBody emptyGroupBody ≠ ofBody groupBody := by
  refine ⟨by decide +kernel, by decide +kernel, by decide +kernel,
    ⟨⟨"b", "int", false, none, false⟩, by decide +kernel, rfl, by decide +kernel⟩,
    by decide +kernel, by decide +kernel⟩

end Field

end StructAtlas
