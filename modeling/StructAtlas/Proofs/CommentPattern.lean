import StructAtlas.Comment
import StructAtlas.Proofs.Patterns

set_option autoImplicit false

/-!
# Comments as a pattern

What a comment is can be said in three ways: by the scanner that counts its characters
(`Comment.length?`), by a pattern that is matched with backtracking (`Comment.pattern`), and by the
text itself (`Comment.IsComment`): the marks `//` with all that follows on the line, or the mark
`/*` with all that follows through the nearest `*/`. The scanner counts a comment exactly where the
text has one (`length?_of_isComment`, `length?_eq_none_iff`), and the pattern finds it
(`head?_ends_of_isComment`, `ends_of_not_begins`). The pattern has no way to say "the nearest": it
takes stretches that end with stars, and what makes them stop at the first end is that none of them
begins with a slash (`mem_ends_stretches`).

`Comment.Stripped` says what is left of a text without its comments. The scanner leaves that, and so
does the pattern when all of its matches are replaced.
-/

namespace StructAtlas.Comment

open Text

/-! ## The end of a block -/

/-- A text in which no block comment ends. -/
def Unclosed (cs : List Char) : Prop :=
  ¬ ['*', '/'] <:+: cs

/-- A comment in front of a rest. -/
inductive IsComment : List Char → List Char → Prop where
  | line {body rest : List Char} : '\n' ∉ body → (∀ c ∈ rest.head?, c = '\n') →
    IsComment ('/' :: '/' :: body) rest
  | block {inner rest : List Char} : Unclosed (inner ++ ['*']) →
    IsComment ('/' :: '*' :: (inner ++ ['*', '/'])) rest

/-- A text begins with a comment. -/
def Begins (cs : List Char) : Prop :=
  ∃ comment rest, cs = comment ++ rest ∧ IsComment comment rest

instance (cs : List Char) : Decidable (Unclosed cs) :=
  inferInstanceAs (Decidable (¬ ['*', '/'] <:+: cs))

theorem unclosed_nil : Unclosed [] := by
  intro h
  simpa using h.length_le

theorem prefix_cons_iff {c : Char} {cs : List Char} :
    ['*', '/'] <+: c :: cs ↔ c = '*' ∧ cs.head? = some '/' := by
  cases cs with
  | nil => simp
  | cons d cs => simp [List.cons_prefix_cons, eq_comm]

theorem unclosed_cons {c : Char} {cs : List Char} :
    Unclosed (c :: cs) ↔ ¬ (c = '*' ∧ cs.head? = some '/') ∧ Unclosed cs := by
  rw [Unclosed, List.infix_cons_iff, not_or, prefix_cons_iff]
  rfl

/-- Two texts in which no block ends do not end one together, unless a star and a slash meet. -/
theorem unclosed_append {as bs : List Char} :
    Unclosed (as ++ bs) ↔
      Unclosed as ∧ Unclosed bs ∧ ¬ (as.getLast? = some '*' ∧ bs.head? = some '/') := by
  induction as with
  | nil => simp [unclosed_nil]
  | cons c as ih =>
    rw [List.cons_append, unclosed_cons, ih, unclosed_cons]
    cases as with
    | nil => simp [unclosed_nil, and_comm]
    | cons d as =>
      rw [List.getLast?_cons_cons, List.cons_append, List.head?_cons, List.head?_cons, and_assoc]

/-- Without a star no block ends. -/
theorem unclosed_of_star {cs : List Char} (h : '*' ∉ cs) : Unclosed cs := fun hin =>
  h (hin.subset (by decide))

/-- Without a slash no block ends. -/
theorem unclosed_of_slash {cs : List Char} (h : '/' ∉ cs) : Unclosed cs := fun hin =>
  h (hin.subset (by decide))

theorem not_unclosed (before rest : List Char) : ¬ Unclosed (before ++ '*' :: '/' :: rest) := by
  intro h
  exact h ⟨before, rest, by simp⟩

/-- Either no block ends in a text, or there is a first end. -/
theorem unclosed_or_closed (cs : List Char) :
    Unclosed cs ∨ ∃ inner rest, cs = inner ++ '*' :: '/' :: rest ∧ Unclosed (inner ++ ['*']) := by
  induction cs with
  | nil => exact .inl unclosed_nil
  | cons c cs ih =>
    by_cases hmark : c = '*' ∧ cs.head? = some '/'
    · obtain ⟨rfl, hhead⟩ := hmark
      obtain ⟨rest, rfl⟩ := List.head?_eq_some_iff.1 hhead
      exact .inr ⟨[], rest, rfl, unclosed_of_slash (by decide)⟩
    · rcases ih with hopen | ⟨inner, rest, rfl, hopen⟩
      · exact .inl (unclosed_cons.2 ⟨hmark, hopen⟩)
      · refine .inr ⟨c :: inner, rest, rfl, unclosed_cons.2 ⟨?_, hopen⟩⟩
        rintro ⟨rfl, hhead⟩
        apply hmark
        cases inner with
        | nil => cases hhead
        | cons d inner => exact ⟨rfl, hhead⟩

/-! ## The scanner -/

theorem lineLength_append {body rest : List Char} (hbody : '\n' ∉ body)
    (hrest : ∀ c ∈ rest.head?, c = '\n') : lineLength (body ++ rest) = body.length := by
  induction body with
  | nil =>
    cases rest with
    | nil => rfl
    | cons c rest =>
      rw [hrest c rfl]
      rfl
  | cons c body ih =>
    rw [List.mem_cons, not_or] at hbody
    have hc : (c == '\n') = false := beq_eq_false_iff_ne.2 fun e => hbody.1 e.symm
    rw [List.cons_append, lineLength, hc, ih hbody.2]
    rfl

/-- The scanner of blocks goes on behind every character with which no block ends. -/
theorem blockLength?_cons {before : List Char} {c : Char} (cs : List Char)
    (hopen : Unclosed (before ++ [c])) :
    blockLength? (before.getLast? == some '*') (c :: cs) =
      (blockLength? ((before ++ [c]).getLast? == some '*') cs).map (· + 1) := by
  have hgo : (before.getLast? == some '*' && c == '/') = false := by
    simpa using (unclosed_append.1 hopen).2.2
  rw [blockLength?, hgo, List.getLast?_concat, Option.some_beq_some]
  rfl

/-- The scanner of blocks stops behind the first end. -/
theorem blockLength?_of_closed {before run : List Char} (rest : List Char)
    (hlast : (before ++ run).getLast? = some '*') (hopen : Unclosed (before ++ run)) :
    blockLength? (before.getLast? == some '*') (run ++ '/' :: rest) = some (run.length + 1) := by
  induction run generalizing before with
  | nil =>
    rw [List.append_nil] at hlast
    rw [hlast]
    rfl
  | cons c run ih =>
    rw [List.append_cons] at hlast hopen
    rw [List.cons_append, blockLength?_cons _ (unclosed_append.1 hopen).1, ih hlast hopen]
    rfl

/-- The scanner of blocks finds no end where there is none. -/
theorem blockLength?_of_unclosed {before cs : List Char} (hopen : Unclosed (before ++ cs)) :
    blockLength? (before.getLast? == some '*') cs = none := by
  induction cs generalizing before with
  | nil => rfl
  | cons c cs ih =>
    rw [List.append_cons] at hopen
    rw [blockLength?_cons _ (unclosed_append.1 hopen).1, ih hopen]
    rfl

/-- The scanner counts the characters of the comment that a text begins with. -/
theorem length?_of_isComment {comment rest : List Char} (h : IsComment comment rest) :
    length? (comment ++ rest) = some comment.length := by
  cases h with
  | line hbody hrest =>
    rw [List.cons_append, List.cons_append, length?, lineLength_append hbody hrest]
    rfl
  | @block inner _ hopen =>
    have hend : blockLength? false (inner ++ '*' :: '/' :: rest) = some (inner.length + 2) := by
      simpa using @blockLength?_of_closed [] (inner ++ ['*']) rest List.getLast?_concat hopen
    simp [length?, hend]

/-- A text has at most one comment at its beginning. -/
theorem IsComment.unique {comment comment' rest rest' : List Char} (h : IsComment comment rest)
    (h' : IsComment comment' rest') (htext : comment ++ rest = comment' ++ rest') :
    comment = comment' ∧ rest = rest' := by
  apply List.append_inj htext
  rw [← Option.some_inj, ← length?_of_isComment h, ← length?_of_isComment h', htext]

/-- Two slashes begin a comment. -/
theorem begins_line (cs : List Char) : Begins ('/' :: '/' :: cs) := by
  obtain ⟨body, hcs, hrun, hstop⟩ := exists_run (· != '\n') cs
  refine ⟨'/' :: '/' :: body, cs.dropWhile (· != '\n'), ?_, .line ?_ ?_⟩
  · rw [List.cons_append, List.cons_append, ← hcs]
  · intro hmem
    simpa using hrun _ hmem
  · intro c hc
    simpa using hstop c hc

/-- A slash and a star begin a comment unless no block ends behind them. -/
theorem begins_block {cs : List Char} : Begins ('/' :: '*' :: cs) ↔ ¬ Unclosed cs := by
  constructor
  · rintro ⟨comment, rest, htext, hcomment⟩
    cases hcomment with
    | line => simp at htext
    | @block inner _ _ =>
      have hcs : cs = inner ++ '*' :: '/' :: rest := by simpa using htext
      rw [hcs]
      exact not_unclosed inner rest
  · intro hclosed
    obtain ⟨inner, rest, rfl, hopen⟩ := (unclosed_or_closed cs).resolve_left hclosed
    exact ⟨_, rest, by simp, .block hopen⟩

/-- The scanner counts nothing where no comment begins. -/
theorem length?_eq_none_iff {cs : List Char} : length? cs = none ↔ ¬ Begins cs := by
  constructor
  · rintro hnone ⟨comment, rest, rfl, hcomment⟩
    rw [length?_of_isComment hcomment] at hnone
    cases hnone
  · intro hno
    fun_cases length? cs with
    | case1 cs => exact absurd (begins_line cs) hno
    | case2 cs =>
      rw [begins_block, Classical.not_not] at hno
      have hnone : blockLength? false cs = none := @blockLength?_of_unclosed [] cs hno
      rw [hnone]
      rfl
    | case3 => rfl

/-! ## The text without its comments -/

/-- What is left of a comment: its line feeds, or nothing. -/
def kept (keepLines : Bool) (comment : List Char) : List Char :=
  if keepLines then List.replicate (comment.count '\n') '\n' else []

/-- What is left of a text when its comments are removed from left to right. -/
inductive Stripped (keepLines : Bool) : List Char → List Char → Prop where
  | done : Stripped keepLines [] []
  | comment {comment rest out : List Char} : IsComment comment rest → Stripped keepLines rest out →
    Stripped keepLines (comment ++ rest) (kept keepLines comment ++ out)
  | copy {c : Char} {cs out : List Char} : ¬ Begins (c :: cs) → Stripped keepLines cs out →
    Stripped keepLines (c :: cs) (c :: out)

theorem IsComment.exists_cons {comment rest : List Char} (h : IsComment comment rest) :
    ∃ tail, comment = '/' :: tail := by
  cases h with
  | line => exact ⟨_, rfl⟩
  | block => exact ⟨_, rfl⟩

theorem kept_cons {keepLines : Bool} {c : Char} {cs : List Char} :
    kept keepLines (c :: cs) =
      if keepLines && c == '\n' then c :: kept keepLines cs else kept keepLines cs := by
  cases keepLines with
  | false => rfl
  | true =>
    by_cases hc : c = '\n'
    · simp [kept, hc, List.replicate_succ]
    · simp [kept, hc]

theorem stripFrom_append (keepLines : Bool) (comment rest : List Char) :
    stripFrom keepLines comment.length (comment ++ rest) =
      kept keepLines comment ++ strip keepLines rest := by
  induction comment with
  | nil =>
    have hkept : kept keepLines [] = [] := by cases keepLines <;> rfl
    rw [hkept]
    rfl
  | cons c comment ih =>
    rw [List.length_cons, List.cons_append, stripFrom, ih, kept_cons]
    split <;> rfl

theorem strip_of_isComment (keepLines : Bool) {comment rest : List Char}
    (h : IsComment comment rest) :
    strip keepLines (comment ++ rest) = kept keepLines comment ++ strip keepLines rest := by
  have hlength := length?_of_isComment h
  obtain ⟨tail, rfl⟩ := h.exists_cons
  rw [List.cons_append] at hlength
  -- The slash goes when the comment is found, the rest of the comment by counting down.
  have hslash : (keepLines && '/' == '\n') = false := Bool.and_false keepLines
  rw [← stripFrom_append, strip, List.cons_append, stripFrom, hlength, List.length_cons, stripFrom,
    hslash]
  rfl

theorem strip_of_not_begins (keepLines : Bool) {c : Char} {cs : List Char}
    (h : ¬ Begins (c :: cs)) : strip keepLines (c :: cs) = c :: strip keepLines cs := by
  rw [strip, stripFrom, length?_eq_none_iff.2 h]
  rfl

/-- The scanner removes the comments from left to right. -/
theorem stripped_strip (keepLines : Bool) (cs : List Char) :
    Stripped keepLines cs (strip keepLines cs) := by
  induction hn : cs.length using Nat.strongRecOn generalizing cs with
  | ind n ih =>
    subst hn
    by_cases hbegins : Begins cs
    · obtain ⟨comment, rest, rfl, hcomment⟩ := hbegins
      have hshorter : rest.length < (comment ++ rest).length := by
        obtain ⟨tail, rfl⟩ := hcomment.exists_cons
        simp only [List.length_append, List.length_cons]
        omega
      rw [strip_of_isComment keepLines hcomment]
      exact .comment hcomment (ih _ hshorter rest rfl)
    · cases cs with
      | nil => exact .done
      | cons c cs =>
        rw [strip_of_not_begins keepLines hbegins]
        exact .copy hbegins (ih _ (Nat.lt_succ_self _) cs rfl)

theorem Stripped.eq_strip {keepLines : Bool} {cs out : List Char}
    (h : Stripped keepLines cs out) : strip keepLines cs = out := by
  induction h with
  | done => rfl
  | comment hcomment _ ih => rw [strip_of_isComment keepLines hcomment, ih]
  | copy hno _ ih => rw [strip_of_not_begins keepLines hno, ih]

/-- What the scanner returns is what is left without the comments, and nothing else is. -/
theorem strip_eq_iff {keepLines : Bool} {cs out : List Char} :
    strip keepLines cs = out ↔ Stripped keepLines cs out := by
  constructor
  · rintro rfl
    exact stripped_strip keepLines cs
  · exact Stripped.eq_strip

/-! ## The pattern -/

/-- Any characters but stars, and stars behind them. -/
def stretch : Pattern :=
  .seq (.many (.char (· != '*'))) (.oneOrMore (· == '*'))

/-- A stretch behind another one. The character after the stars is no slash. -/
def further : Pattern :=
  .seq (.char fun c => c != '/' && c != '*') stretch

/-- Stretches behind each other. -/
def stretches : Pattern :=
  .seq stretch (.many further)

/-- The marks `//` and the characters behind them on the line. -/
def linePattern : Pattern :=
  .seq (.text ['/', '/']) (.many (.char (· != '\n')))

/-- The mark `/*` and all up to a slash behind a star. -/
def blockPattern : Pattern :=
  .seq (.text ['/', '*']) (.seq stretches (.text ['/']))

/-- The pattern of comments. -/
def pattern : Pattern :=
  .alt linePattern blockPattern

variable {x y : Pattern.Place}

open Pattern

/-- What a stretch takes. -/
structure IsStretch (cs : List Char) : Prop where
  last : cs.getLast? = some '*'
  opened : Unclosed cs

theorem mem_ends_stretch :
    y ∈ stretch.ends x ↔ ∃ as bs, '*' ∉ as ∧ bs ≠ [] ∧ (∀ c ∈ bs, c = '*') ∧
      Passes x (as ++ bs) y := by
  simp only [stretch, mem_ends_seq, mem_ends_run, mem_ends_oneOrMore, passes_append, Run,
    bne_iff_ne, beq_iff_eq]
  constructor
  · rintro ⟨z, ⟨as, has, hz⟩, bs, ⟨hne, hbs⟩, hy⟩
    exact ⟨as, bs, fun hmem => has _ hmem rfl, hne, hbs, z, hz, hy⟩
  · rintro ⟨as, bs, has, hne, hbs, z, hz, hy⟩
    exact ⟨z, ⟨as, fun c hc e => has (e ▸ hc), hz⟩, bs, ⟨hne, hbs⟩, hy⟩

/-- One stretch is a stretch of the text. -/
theorem isStretch_of_parts {as bs : List Char} (has : '*' ∉ as) (hne : bs ≠ [])
    (hbs : ∀ c ∈ bs, c = '*') : IsStretch (as ++ bs) := by
  constructor
  · rw [List.getLast?_append, List.getLast?_eq_some_getLast hne, hbs _ (List.getLast_mem hne)]
    rfl
  · refine unclosed_append.2 ⟨unclosed_of_star has, unclosed_of_slash fun hmem => ?_, ?_⟩
    · cases hbs _ hmem
    · rintro ⟨hlast, -⟩
      exact has (List.mem_of_getLast? hlast)

/-- Two stretches are one when there is a character between them that is neither a star nor a
slash. -/
theorem IsStretch.append {as bs : List Char} {c : Char} (ha : IsStretch as) (hb : IsStretch bs)
    (hslash : c ≠ '/') (hstar : c ≠ '*') : IsStretch (as ++ c :: bs) := by
  constructor
  · rw [List.getLast?_append, List.getLast?_cons, hb.last]
    rfl
  · refine unclosed_append.2 ⟨ha.opened, unclosed_cons.2 ⟨fun h => hstar h.1, hb.opened⟩, ?_⟩
    rintro ⟨-, hhead⟩
    exact hslash (Option.some.inj hhead)

/-- A part at the end that is not empty is a stretch, too. -/
theorem IsStretch.right {as bs : List Char} (h : IsStretch (as ++ bs)) (hne : bs ≠ []) :
    IsStretch bs := by
  constructor
  · have hlast := h.last
    rw [List.getLast?_append, List.getLast?_eq_some_getLast hne, Option.some_or] at hlast
    rw [List.getLast?_eq_some_getLast hne, hlast]
  · exact (unclosed_append.1 h.opened).2.1

/-- The characters up to the first stars, these stars, and what may follow in a stretch. -/
theorem IsStretch.exists_parts {cs : List Char} (h : IsStretch cs) :
    ∃ as bs rest, cs = as ++ (bs ++ rest) ∧ '*' ∉ as ∧ bs ≠ [] ∧ (∀ c ∈ bs, c = '*') ∧
      ∀ c ∈ rest.head?, c ≠ '/' ∧ c ≠ '*' := by
  obtain ⟨as, hcs, has, hstop⟩ := exists_run (· != '*') cs
  generalize cs.dropWhile (· != '*') = tail at hcs hstop
  obtain ⟨bs, htail, hbs, hstop'⟩ := exists_run (· == '*') tail
  generalize tail.dropWhile (· == '*') = rest at htail hstop'
  subst htail hcs
  have hstars : ∀ c ∈ bs, c = '*' := fun c hc => by simpa using hbs c hc
  have hmem : '*' ∉ as := fun hmem => by simpa using has _ hmem
  have hne : bs ≠ [] := by
    -- Without stars the text would end in front of them.
    rintro rfl
    cases rest with
    | nil => exact hmem (List.mem_of_getLast? (by simpa using h.last))
    | cons c rest => simp_all
  refine ⟨as, bs, rest, rfl, hmem, hne, hstars, fun c hc => ⟨?_, by simpa using hstop' c hc⟩⟩
  rintro rfl
  have hopen := (unclosed_append.1 (unclosed_append.1 h.opened).2.1).2.2
  apply hopen
  rw [List.getLast?_eq_some_getLast hne, hstars _ (List.getLast_mem hne)]
  exact ⟨rfl, hc⟩

/-- The repetition leads behind everything that goes on as a stretch does. -/
theorem mem_ends_more {cs : List Char} (hhead : ∀ c ∈ cs.head?, c ≠ '/' ∧ c ≠ '*')
    (hcs : cs ≠ [] → IsStretch cs) (hpass : Passes x cs y) :
    y ∈ (many further).ends x := by
  induction hn : cs.length using Nat.strongRecOn generalizing cs x with
  | ind n ih =>
    subst hn
    cases cs with
    | nil =>
      rw [passes_nil.1 hpass]
      exact mem_ends_many.2 .refl
    | cons c cs =>
      obtain ⟨hslash, hstar⟩ := hhead c rfl
      have hne : cs ≠ [] := by
        rintro rfl
        exact hstar (Option.some.inj (hcs (by simp)).last)
      have htail : IsStretch cs := @IsStretch.right [c] cs (hcs (by simp)) hne
      obtain ⟨as, bs, rest, rfl, has, hbs, hstars, hrest⟩ := htail.exists_parts
      rw [← List.append_assoc, ← List.cons_append] at hpass
      obtain ⟨w, hw, hpass⟩ := passes_append.1 hpass
      obtain ⟨z, hz, hzw⟩ := passes_cons.1 hw
      have honce : w ∈ further.ends x := by
        apply mem_ends_seq.2
        refine ⟨z, mem_ends_char.2 ⟨c, by simp [hslash, hstar], hz⟩, ?_⟩
        exact mem_ends_stretch.2 ⟨as, bs, has, hbs, hstars, hzw⟩
      have hlater : y ∈ (many further).ends w := by
        refine ih _ (by simp; omega) hrest (fun hne => ?_) hpass rfl
        rw [← List.append_assoc] at htail
        exact htail.right hne
      exact mem_ends_many.2 (.head (hw.advances (by simp) honce) (mem_ends_many.1 hlater))

/-- Nothing but stretches is repeated behind a stretch. -/
theorem isStretch_of_more {cs : List Char} (hcs : IsStretch cs)
    {z : Place} (hpass : Passes x cs z)
    (hy : y ∈ (many further).ends z) :
    ∃ run, IsStretch run ∧ Passes x run y := by
  rw [mem_ends_many] at hy
  induction hy with
  | refl => exact ⟨cs, hcs, hpass⟩
  | tail _ hstep ih =>
    obtain ⟨run, hrun, hpass'⟩ := ih
    obtain ⟨w, hw, hstretch⟩ := mem_ends_seq.1 hstep.1
    obtain ⟨c, hc, hcw⟩ := mem_ends_char.1 hw
    obtain ⟨as, bs, has, hbs, hstars, hpass''⟩ := mem_ends_stretch.1 hstretch
    simp only [Bool.and_eq_true, bne_iff_ne] at hc
    refine ⟨run ++ c :: (as ++ bs), ?_, hpass'.trans (passes_cons.2 ⟨w, hcw, hpass''⟩)⟩
    exact hrun.append (isStretch_of_parts has hbs hstars) hc.1 hc.2

theorem mem_ends_stretches :
    y ∈ stretches.ends x ↔ ∃ run, IsStretch run ∧ Passes x run y := by
  rw [stretches, mem_ends_seq]
  constructor
  · rintro ⟨z, hz, hy⟩
    obtain ⟨as, bs, has, hbs, hstars, hpass⟩ := mem_ends_stretch.1 hz
    exact isStretch_of_more (isStretch_of_parts has hbs hstars) hpass hy
  · rintro ⟨run, hrun, hpass⟩
    obtain ⟨as, bs, rest, rfl, has, hbs, hstars, hrest⟩ := hrun.exists_parts
    rw [← List.append_assoc] at hrun hpass
    obtain ⟨z, hz, hpass⟩ := passes_append.1 hpass
    refine ⟨z, mem_ends_stretch.2 ⟨as, bs, has, hbs, hstars, hz⟩, ?_⟩
    exact mem_ends_more hrest hrun.right hpass

/-- The pattern of lines is tried with the whole line first. -/
theorem head?_ends_line {body : List Char} (hbody : '\n' ∉ body)
    (hrest : ∀ c ∈ y.rest.head?, c = '\n') (hpass : Passes x ('/' :: '/' :: body) y) :
    (linePattern.ends x).head? = some y := by
  obtain ⟨z, hz, hzy⟩ := passes_append.1 (show Passes x (['/', '/'] ++ body) y from hpass)
  have hmarks : ((text ['/', '/']).ends x).head? = some z :=
    head?_ends_of_unique (mem_ends_text.2 hz) fun w hw => (mem_ends_text.1 hw).unique hz
  apply head?_ends_seq hmarks
  refine head?_ends_run (fun c hc => ?_) hzy fun c hc => ?_
  · rw [bne_iff_ne]
    exact fun e => hbody (e ▸ hc)
  · rw [hrest c hc]
    rfl

theorem mem_ends_block :
    y ∈ blockPattern.ends x ↔
      ∃ inner, Unclosed (inner ++ ['*']) ∧ Passes x ('/' :: '*' :: (inner ++ ['*', '/'])) y := by
  have hparts : ∀ inner : List Char,
      '/' :: '*' :: (inner ++ ['*', '/']) = ['/', '*'] ++ ((inner ++ ['*']) ++ ['/']) := by simp
  constructor
  · intro hy
    obtain ⟨z, hz, hy⟩ := mem_ends_seq.1 hy
    obtain ⟨w, hw, hy⟩ := mem_ends_seq.1 hy
    obtain ⟨run, hrun, hzw⟩ := mem_ends_stretches.1 hw
    obtain ⟨inner, rfl⟩ := List.getLast?_eq_some_iff.1 hrun.last
    refine ⟨inner, hrun.opened, ?_⟩
    rw [hparts]
    exact (mem_ends_text.1 hz).trans (hzw.trans (mem_ends_text.1 hy))
  · rintro ⟨inner, hopen, hpass⟩
    rw [hparts] at hpass
    obtain ⟨z, hz, hpass⟩ := passes_append.1 hpass
    obtain ⟨w, hw, hpass⟩ := passes_append.1 hpass
    refine mem_ends_seq.2 ⟨z, mem_ends_text.2 hz, mem_ends_seq.2 ⟨w, ?_, mem_ends_text.2 hpass⟩⟩
    exact mem_ends_stretches.2 ⟨_, ⟨List.getLast?_concat, hopen⟩, hw⟩

/-- The match that is found at a comment is the comment. -/
theorem head?_ends_of_isComment {comment : List Char} (h : IsComment comment y.rest)
    (hpass : Passes x comment y) : (pattern.ends x).head? = some y := by
  cases h with
  | line hbody hrest => exact head?_ends_alt (head?_ends_line hbody hrest hpass)
  | block hopen =>
    have hline : linePattern.ends x = [] := by
      apply List.eq_nil_iff_forall_not_mem.2
      intro z hz
      obtain ⟨w, hw, -⟩ := mem_ends_seq.1 hz
      have htext := (mem_ends_text.1 hw).rest.symm.trans hpass.rest
      simp at htext
    rw [pattern, ends, hline, List.nil_append]
    refine head?_ends_of_unique (mem_ends_block.2 ⟨_, hopen, hpass⟩) fun z hz => ?_
    obtain ⟨inner', hopen', hpass'⟩ := mem_ends_block.1 hz
    obtain ⟨hcomment, -⟩ := (IsComment.block hopen').unique (.block hopen)
      (hpass'.rest.symm.trans hpass.rest)
    rw [hcomment] at hpass'
    exact hpass'.unique hpass

/-- The pattern finds nothing where no comment begins. -/
theorem ends_of_not_begins (h : ¬ Begins x.rest) : pattern.ends x = [] := by
  apply List.eq_nil_iff_forall_not_mem.2
  intro y hy
  apply h
  rcases mem_ends_alt.1 hy with hline | hblock
  · obtain ⟨z, hz, -⟩ := mem_ends_seq.1 hline
    rw [(mem_ends_text.1 hz).rest]
    exact begins_line z.rest
  · obtain ⟨inner, hopen, hpass⟩ := mem_ends_block.1 hblock
    exact ⟨_, _, hpass.rest, .block hopen⟩

/-- Replacing the matches of the pattern removes the comments from left to right. -/
theorem Stripped.eq_replaceFrom {keepLines : Bool} {cs out : List Char}
    (h : Stripped keepLines cs out) (before : List Char) :
    pattern.replaceFrom (kept keepLines) before cs = out := by
  induction h generalizing before with
  | done => exact replaceFrom_nil
  | @comment comment rest out hcomment _ ih =>
    have hpass : Passes ⟨before, comment ++ rest, []⟩ comment
        ⟨comment.reverse ++ before, rest, []⟩ := ⟨rfl, rfl, rfl⟩
    have hne : comment ≠ [] := by
      obtain ⟨tail, rfl⟩ := hcomment.exists_cons
      simp
    rw [replaceFrom_of_match (head?_ends_of_isComment hcomment hpass) hpass hne, ih]
  | @copy c cs _ hno _ ih =>
    rw [replaceFrom_of_none (ends_of_not_begins (x := ⟨before, c :: cs, []⟩) hno), ih]

theorem replaceAll_eq_strip (keepLines : Bool) (cs : List Char) :
    pattern.replaceAll (kept keepLines) cs = strip keepLines cs :=
  (stripped_strip keepLines cs).eq_replaceFrom []

/-- An opening mark behind which no block ends is copied, and what follows it is read on. -/
theorem strip_unclosed (keepLines : Bool) {cs : List Char} (hopen : Unclosed cs) :
    strip keepLines ('/' :: '*' :: cs) = '/' :: '*' :: strip keepLines cs := by
  have hslash : ¬ Begins ('/' :: '*' :: cs) := by
    rw [begins_block, Classical.not_not]
    exact hopen
  rw [strip_of_not_begins keepLines hslash, strip_of_not_begins keepLines]
  rintro ⟨comment, rest, htext, hcomment⟩
  obtain ⟨tail, rfl⟩ := hcomment.exists_cons
  cases htext

/-- **Removal of comments.** The scanner returns what is left when comments are removed from left to
right, and so does the pattern with all of its matches replaced. A comment goes from `//` up to the
end of the line or from `/*` through the first `*/` behind it, and its line feeds are kept or not. A
block that does not end is no comment, and comments behind its opening mark are removed. -/
theorem comments_removed_left_to_right (keepLines : Bool) (cs : List Char) :
    (∀ out, strip keepLines cs = out ↔ Stripped keepLines cs out) ∧
      pattern.replaceAll (kept keepLines) cs = strip keepLines cs ∧
      (Unclosed cs → strip keepLines ('/' :: '*' :: cs) = '/' :: '*' :: strip keepLines cs) :=
  ⟨fun _ => strip_eq_iff, replaceAll_eq_strip keepLines cs, strip_unclosed keepLines⟩

theorem comments_removed_behind_open_mark :
    Unclosed " a // b\nc".toList ∧ strip false "/* a // b\nc".toList = "/* a \nc".toList := by
  have hopen : Unclosed " a // b\nc".toList := by decide +kernel
  refine ⟨hopen, ((comments_removed_left_to_right false _).2.2 hopen).trans ?_⟩
  decide +kernel

/-- A star that belongs to the opening mark ends no block. -/
example : strip true "x/*/ a\n*//**/y".toList = "x\ny".toList := by decide +kernel

end StructAtlas.Comment
