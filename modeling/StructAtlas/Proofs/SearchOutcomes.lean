import StructAtlas.Proofs.BodySearch
import StructAtlas.Proofs.Patterns

set_option autoImplicit false

/-!
# What a search for a body returns

A search for a body reads the text from its line on, without what stands before the first keyword of
that line. The keywords are those of a pattern (`declarationStart`), and `fromKeyword_eq_drop` says
that the reader cuts the line at the first match of it. `Body.Ends` says what the search returns by
the first brace or semicolon of the text that is left, without a scan: nothing of it counts depths
or lines on the way. The search returns that and nothing else (`find_eq_iff`).
-/

namespace StructAtlas.Body

open Text Pattern Reading

/-! ## The beginning of a declaration -/

/-- A word with its edges. -/
def wholeWord (k : String) : Pattern :=
  .seq .edge (.seq (.text k.toList) .edge)

/-- The pattern of the keywords that a declaration begins with. -/
def declarationStart : Pattern :=
  .alt (wholeWord "typedef")
    (.alt (wholeWord "struct")
      (.alt (.seq (.text "#pragma".toList) .edge) (.text "__attribute__".toList)))

variable {x y : Place}

theorem startsWithWord_iff {k : String} {cs : List Char} :
    startsWithWord k cs = true ↔ ∃ rest, cs = k.toList ++ rest ∧ wordEnds rest = true := by
  simp only [← keyword_eq_some]
  rw [startsWithWord]
  split
  · rename_i rest hrest
    simp [hrest]
  · rename_i hnone
    simp [hnone]

/-- Behind a word character an edge is where the word ends. -/
theorem isEdge_of_passes {run : List Char} {c : Char} (hlast : run.getLast? = some c)
    (hc : isWord c = true) (h : Passes x run y) : y.isEdge = wordEnds y.rest := by
  rw [Place.isEdge, h.before, List.head?_append, List.head?_reverse, hlast]
  cases y.rest with
  | nil => simp [hc, wordEnds]
  | cons d rest => simp [hc, wordEnds]

/-- Where a keyword with an edge behind it matches. -/
theorem exists_mem_ends_keyword {k : String} {c : Char} (hlast : k.toList.getLast? = some c)
    (hc : isWord c = true) :
    (∃ y, y ∈ (seq (.text k.toList) .edge).ends x) ↔ startsWithWord k x.rest = true := by
  rw [startsWithWord_iff]
  constructor
  · rintro ⟨y, hy⟩
    obtain ⟨z, hz, hy⟩ := mem_ends_seq.1 hy
    have hpass := mem_ends_text.1 hz
    refine ⟨z.rest, hpass.rest, ?_⟩
    rw [← isEdge_of_passes hlast hc hpass]
    exact (mem_ends_edge.1 hy).1
  · rintro ⟨rest, hrest, hends⟩
    obtain ⟨y, hpass, rfl⟩ := exists_passes hrest
    rw [← isEdge_of_passes hlast hc hpass] at hends
    exact ⟨y, mem_ends_seq.2 ⟨y, mem_ends_text.2 hpass, mem_ends_edge.2 ⟨hends, rfl⟩⟩⟩

/-- Where a whole word matches. -/
theorem exists_mem_ends_wholeWord {k : String} {c d : Char} (hfirst : k.toList.head? = some c)
    (hc : isWord c = true) (hlast : k.toList.getLast? = some d) (hd : isWord d = true) :
    (∃ y, y ∈ (wholeWord k).ends x) ↔
      x.before.head?.any isWord = false ∧ startsWithWord k x.rest = true := by
  have hedge : startsWithWord k x.rest = true →
      (x.isEdge = true ↔ x.before.head?.any isWord = false) := by
    intro hstarts
    obtain ⟨rest, hrest, -⟩ := startsWithWord_iff.1 hstarts
    rw [Place.isEdge, hrest, List.head?_append, hfirst]
    simp [hc]
  rw [← exists_mem_ends_keyword hlast hd] at hedge ⊢
  constructor
  · rintro ⟨y, hy⟩
    obtain ⟨z, hz, hword⟩ := mem_ends_seq.1 hy
    obtain ⟨hx, rfl⟩ := mem_ends_edge.1 hz
    exact ⟨(hedge ⟨y, hword⟩).1 hx, y, hword⟩
  · rintro ⟨hbefore, y, hy⟩
    exact ⟨y, mem_ends_seq.2 ⟨x, mem_ends_edge.2 ⟨(hedge ⟨y, hy⟩).2 hbefore, rfl⟩, hy⟩⟩

/-- The reader of keywords and the pattern agree. -/
theorem startsDeclaration_iff :
    startsDeclaration (x.before.head?.any isWord) x.rest = true ↔
      ∃ y, y ∈ declarationStart.ends x := by
  have htypedef := @exists_mem_ends_wholeWord x "typedef" 't' 'f' rfl (by decide) rfl (by decide)
  have hstruct := @exists_mem_ends_wholeWord x "struct" 's' 't' rfl (by decide) rfl (by decide)
  have hpragma := @exists_mem_ends_keyword x "#pragma" 'a' rfl (by decide)
  have hattribute : (∃ y, y ∈ (text "__attribute__".toList).ends x) ↔
      (keyword "__attribute__" x.rest).isSome = true := by
    simp only [mem_ends_text, Option.isSome_iff_exists, keyword_eq_some]
    constructor
    · rintro ⟨y, hpass⟩
      exact ⟨y.rest, hpass.rest⟩
    · rintro ⟨rest, hrest⟩
      obtain ⟨y, hpass, -⟩ := exists_passes hrest
      exact ⟨y, hpass⟩
  simp only [declarationStart, mem_ends_alt, exists_or, htypedef, hstruct, hpragma, hattribute,
    startsDeclaration, Bool.or_eq_true, Bool.and_eq_true, Bool.not_eq_true', and_or_left, or_assoc]

theorem ends_declarationStart_eq_nil
    (h : startsDeclaration (x.before.head?.any isWord) x.rest = false) :
    declarationStart.ends x = [] := by
  apply List.eq_nil_iff_forall_not_mem.2
  intro y hy
  cases h.symm.trans (startsDeclaration_iff.2 ⟨y, hy⟩)

/-- The text from its first keyword on is the text from the first match on. -/
theorem fromKeyword?_eq_drop (before line : List Char) :
    fromKeyword? (before.head?.any isWord) line =
      (declarationStart.searchFrom? before line).map line.drop := by
  induction line generalizing before with
  | nil =>
    have hno : ∀ insideWord, startsDeclaration insideWord [] = false := by decide
    have hnone : declarationStart.ends ⟨before, [], []⟩ = [] := ends_declarationStart_eq_nil (hno _)
    rw [searchFrom?, hnone]
    rfl
  | cons c line ih =>
    have hlater : fromKeyword? (isWord c) line = _ := ih (c :: before)
    rw [fromKeyword?]
    split
    · rename_i hstarts
      obtain ⟨y, hy⟩ := (@startsDeclaration_iff ⟨before, c :: line, []⟩).1 hstarts
      rw [searchFrom?_of_mem hy]
      rfl
    · rename_i hno
      have hnone : declarationStart.ends ⟨before, c :: line, []⟩ = [] :=
        ends_declarationStart_eq_nil (eq_false_of_ne_true hno)
      rw [hlater, searchFrom?_of_none hnone, Option.map_map]
      rfl

/-- A line is cut at the first match of the pattern, or not at all. -/
theorem fromKeyword_eq_drop (line : List Char) :
    fromKeyword line = line.drop ((declarationStart.search? line).getD 0) := by
  have hfirst : fromKeyword? false line = _ := fromKeyword?_eq_drop [] line
  rw [fromKeyword, hfirst, search?]
  cases declarationStart.searchFrom? [] line <;> rfl

/-! ## The end of a search -/

/-- The text that a search from a line on reads: the line from its first keyword on, and the lines
behind it. -/
def searchText (ls : List (List Char)) (line : Int) : List Char :=
  match ls.drop (line.toNat - 1) with
  | first :: others =>
    joinLines (first.drop ((declarationStart.search? first).getD 0) :: others)
  | [] => []

/-- How a search ends in a text whose first character is on a given line. -/
inductive SeekEnds (line : Nat) (cs : List Char) : Except Fault Found → Prop
  | noMark : Run (fun c => !isMark c) cs → SeekEnds line cs (.error .noBody)
  | semicolon {m : Nat} : FirstMark cs 0 m → cs[m]? = some ';' → SeekEnds line cs (.error .forward)
  | closing {m : Nat} : FirstMark cs 0 m → cs[m]? = some '\x7d' →
    SeekEnds line cs (.error (.unmatched (-1) (some (line + countLines (cs.take m)))))
  | body {b e : Nat} : FirstMark cs 0 b → cs[b]? = some '\x7b' → Closes cs b e →
    SeekEnds line cs (.ok ⟨slice cs (b + 1) e, line + countLines (cs.take e)⟩)
  | unclosed {b : Nat} : FirstMark cs 0 b → cs[b]? = some '\x7b' →
    (∀ e, b < e → surplus (slice cs b (e + 1)) ≠ 0) →
    SeekEnds line cs (.error (.unmatched (surplus (cs.drop b)) none))

/-- A search comes to the first mark. -/
theorem seek_of_firstMark {cs : List Char} {m : Nat} {c : Char} (hm : FirstMark cs 0 m)
    (hc : cs[m]? = some c) (line : Nat) :
    seek line cs = seek (line + countLines (cs.take m)) (c :: cs.drop (m + 1)) := by
  obtain ⟨hlt, rfl⟩ := List.getElem?_eq_some_iff.1 hc
  have hrun : Run (fun c => !isMark c) (cs.take m) := hm.passed
  have hseek := seek_append hrun line (cs[m] :: cs.drop (m + 1))
  rwa [List.getElem_cons_drop, List.take_append_drop, ← List.getElem_cons_drop] at hseek

/-- A text in two parts around a character. -/
theorem exists_split {cs : List Char} {m : Nat} {c : Char} (hc : cs[m]? = some c) :
    ∃ before, cs = before ++ c :: cs.drop (m + 1) ∧ before.length = m ∧ cs.take m = before := by
  obtain ⟨hlt, rfl⟩ := List.getElem?_eq_some_iff.1 hc
  refine ⟨cs.take m, ?_, ?_, rfl⟩
  · rw [List.getElem_cons_drop, List.take_append_drop]
  · rw [List.length_take]
    omega

/-- A brace stays open throughout the text behind it, or it is closed. -/
theorem staysOpen_or_closes (before behind : List Char) :
    StaysOpen 1 behind ∨ ∃ e, Closes (before ++ '\x7b' :: behind) before.length e := by
  apply (staysOpen_or_closed behind 1 (by decide)).imp_right
  rintro ⟨text, rest, rfl, hopen, hclose⟩
  exact ⟨_, closes_of_text hopen (by omega)⟩

/-- A brace that no part of the text balances stays open. -/
theorem staysOpen_of_not_balanced {cs : List Char} {b : Nat} (hc : cs[b]? = some '\x7b')
    (hnot : ∀ e, b < e → surplus (slice cs b (e + 1)) ≠ 0) : StaysOpen 1 (cs.drop (b + 1)) := by
  obtain ⟨before, hcs, hlength, -⟩ := exists_split hc
  apply (staysOpen_or_closes before (cs.drop (b + 1))).resolve_right
  rintro ⟨e, he⟩
  rw [← hcs, hlength] at he
  exact hnot e he.lt he.balanced

theorem surplus_drop {cs : List Char} {b : Nat} (hc : cs[b]? = some '\x7b') :
    surplus (cs.drop b) = 1 + surplus (cs.drop (b + 1)) := by
  obtain ⟨hlt, hget⟩ := List.getElem?_eq_some_iff.1 hc
  rw [List.drop_eq_getElem_cons hlt, hget, surplus_open, Int.add_comm]

theorem surplus_pos_of_not_balanced {cs : List Char} {b : Nat} (hc : cs[b]? = some '\x7b')
    (hnot : ∀ e, b < e → surplus (slice cs b (e + 1)) ≠ 0) : 0 < surplus (cs.drop b) := by
  have hpos := staysOpen_of_not_balanced hc hnot cs.length
  rw [List.take_of_length_le (by simp)] at hpos
  rw [surplus_drop hc]
  exact hpos

/-- The search ends in no other way. -/
theorem SeekEnds.seek_eq {line : Nat} {cs : List Char} {r : Except Fault Found}
    (h : SeekEnds line cs r) : seek line cs = r := by
  cases h with
  | noMark hrun =>
    have hseek := seek_append hrun line []
    rwa [List.append_nil] at hseek
  | semicolon hm hc => exact seek_of_firstMark hm hc line
  | closing hm hc => exact seek_of_firstMark hm hc line
  | @body b e hm hc hcloses =>
    rw [seek_of_firstMark hm hc]
    obtain ⟨before, hcs, rfl, htake⟩ := exists_split hc
    rw [htake]
    generalize cs.drop (before.length + 1) = behind at hcs
    subst hcs
    obtain ⟨text, rest, rfl, rfl, hopen, hzero⟩ := hcloses.exists_text
    obtain ⟨htext, hlines⟩ := slice_between before text rest
    have hcollect := @collect_closed (line + countLines before) 1 text rest hopen (by omega)
    rw [htext, hlines, ← Nat.add_assoc]
    exact hcollect
  | @unclosed b hm hc hnot =>
    have hopen : StaysOpen ((1 : Nat) : Int) (cs.drop (b + 1)) := staysOpen_of_not_balanced hc hnot
    rw [seek_of_firstMark hm hc, surplus_drop hc]
    exact collect_unclosed hopen

/-- Every search ends in one of the ways. -/
theorem exists_seekEnds (line : Nat) (cs : List Char) : ∃ r, SeekEnds line cs r := by
  by_cases hrun : Run (fun c => !isMark c) (slice cs 0 cs.length)
  · rw [slice, List.take_length, List.drop_zero] at hrun
    exact ⟨_, .noMark hrun⟩
  · obtain ⟨m, hm, -⟩ := exists_firstMark (Nat.zero_le _) (Nat.le_refl _) hrun
    obtain ⟨c, hc, hmark⟩ := hm.isMark
    have hcase : c = '\x7b' ∨ c = '\x7d' ∨ c = ';' := by simpa [isMark, or_assoc] using hmark
    rcases hcase with rfl | rfl | rfl
    · obtain ⟨before, hcs, hlength, -⟩ := exists_split hc
      have hclosed := staysOpen_or_closes before (cs.drop (m + 1))
      rw [← hcs, hlength] at hclosed
      rcases hclosed with hopen | ⟨e, he⟩
      · refine ⟨_, .unclosed hm hc fun e he => ?_⟩
        obtain ⟨n, rfl⟩ : ∃ n, e = m + n := ⟨e - m, by omega⟩
        have hpos := hopen n
        have hsurplus := surplus_slice_behind before (cs.drop (m + 1)) n
        rw [← hcs, hlength] at hsurplus
        omega
      · exact ⟨_, .body hm hc he⟩
    · exact ⟨_, .closing hm hc⟩
    · exact ⟨_, .semicolon hm hc⟩

theorem seek_eq_iff {line : Nat} {cs : List Char} {r : Except Fault Found} :
    seek line cs = r ↔ SeekEnds line cs r := by
  constructor
  · rintro rfl
    obtain ⟨r, hr⟩ := exists_seekEnds line cs
    rwa [hr.seek_eq]
  · exact SeekEnds.seek_eq

/-- The test whether there is a line. -/
theorem isLine_iff {ls : List (List Char)} {line : Int} :
    (decide (1 ≤ line) && decide (line ≤ ls.length)) = true ↔ 1 ≤ line ∧ line ≤ ls.length := by
  rw [Bool.and_eq_true, decide_eq_true_iff, decide_eq_true_iff]

/-- The search reads from the keyword of its line on. -/
theorem sourceFrom?_of_inRange {ls : List (List Char)} {line : Int}
    (h : 1 ≤ line ∧ line ≤ ls.length) : sourceFrom? ls line = some (searchText ls line) := by
  rw [sourceFrom?, if_pos (isLine_iff.2 h), searchText]
  cases hdrop : ls.drop (line.toNat - 1) with
  | nil =>
    have hlength := congrArg List.length hdrop
    rw [List.length_drop, List.length_nil] at hlength
    omega
  | cons first others =>
    simp only [fromKeyword_eq_drop]

/-- How a search for a body ends that begins at a line. -/
inductive FindEnds (ls : List (List Char)) (line : Int) : Except Fault Found → Prop
  | outOfBounds : ¬ (1 ≤ line ∧ line ≤ ls.length) →
    FindEnds ls line (.error (.outOfBounds ls.length))
  | seek {r : Except Fault Found} : 1 ≤ line ∧ line ≤ ls.length →
    SeekEnds line.toNat (searchText ls line) r → FindEnds ls line r

theorem find_eq_iff {ls : List (List Char)} {line : Int} {r : Except Fault Found} :
    find ls line = r ↔ FindEnds ls line r := by
  by_cases h : 1 ≤ line ∧ line ≤ ls.length
  · rw [find, sourceFrom?_of_inRange h]
    constructor
    · intro hseek
      exact .seek h (seek_eq_iff.1 hseek)
    · intro hends
      cases hends with
      | outOfBounds hout => exact absurd h hout
      | seek _ hr => exact hr.seek_eq
  · rw [find, sourceFrom?, if_neg (mt isLine_iff.1 h)]
    constructor
    · rintro rfl
      exact .outOfBounds h
    · intro hends
      cases hends with
      | outOfBounds => rfl
      | seek hin => exact absurd hin h

/-! ## What follows for the results -/

/-- Between a brace and the one that closes it nothing is closed that is not opened there. -/
theorem Closes.flat_between {cs : List Char} {b e : Nat} (hc : cs[b]? = some '\x7b')
    (h : Closes cs b e) :
    surplus (slice cs (b + 1) e) = 0 ∧ ∀ n, 0 ≤ surplus ((slice cs (b + 1) e).take n) := by
  obtain ⟨before, hcs, rfl, -⟩ := exists_split hc
  generalize cs.drop (before.length + 1) = behind at hcs
  subst hcs
  obtain ⟨text, rest, rfl, rfl, hopen, hzero⟩ := h.exists_text
  rw [(slice_between before text rest).1]
  refine ⟨hzero, fun n => ?_⟩
  have hpos := hopen n
  omega

/-- The text that a search returns is balanced. -/
theorem flat_of_find {ls : List (List Char)} {line : Int} {found : Found}
    (h : find ls line = .ok found) :
    surplus found.text = 0 ∧ ∀ n, 0 ≤ surplus (found.text.take n) := by
  cases find_eq_iff.1 h with
  | seek _ hends =>
    cases hends with
    | body _ hc hcloses => exact hcloses.flat_between hc

/-- One brace too many is closed, or some are left open to the end. -/
theorem depth_of_find {ls : List (List Char)} {line depth : Int} {at? : Option Nat}
    (h : find ls line = .error (.unmatched depth at?)) :
    (depth = -1 ∧ at?.isSome) ∨ (0 < depth ∧ at? = none) := by
  cases find_eq_iff.1 h with
  | seek _ hends =>
    cases hends with
    | closing => exact .inl ⟨rfl, rfl⟩
    | unclosed _ hc hnot => exact .inr ⟨surplus_pos_of_not_balanced hc hnot, rfl⟩

end StructAtlas.Body

namespace StructAtlas.SourceReader

open Body Text

/-- **What a search for a body returns.** A search at a place fails as the reading of the file does,
or ends as the text from the line on says (`FindEnds`), and in no other way. The text of a body is
balanced, and a depth that is reported is `-1`, with a line, or the positive number of braces that
are left open to the end. -/
theorem bodyAt_ends (reader : SourceReader) (s : Session) (l : Location) :
    ((reader.bodyAt l).outcome s =
        (reader.linesOf l.path).outcome s >>= fun ls => (find ls l.line).mapError (.body l)) ∧
      ∀ ls, (∀ r, find ls l.line = r ↔ FindEnds ls l.line r) ∧
        (∀ found, find ls l.line = .ok found →
          surplus found.text = 0 ∧ ∀ n, 0 ≤ surplus (found.text.take n)) ∧
        ∀ depth at?, find ls l.line = .error (.unmatched depth at?) →
          (depth = -1 ∧ at?.isSome) ∨ (0 < depth ∧ at? = none) :=
  ⟨outcome_bodyAt reader s l, fun _ => ⟨fun _ => find_eq_iff, fun _ => flat_of_find,
    fun _ _ => depth_of_find⟩⟩

/-- The body that is found in `nestedSource` from its second line on. -/
theorem bodyAt_ends_nested :
    let ls := lines (Scan.cleanText true nestedSource)
    FindEnds ls 2 (.ok ⟨"struct\x7bint x;\x7dy;\n".toList, 3⟩)
      ∧ surplus "struct\x7bint x;\x7dy;\n".toList = 0
      ∧ (ofSrc.bodyAt ⟨"a.h", 2⟩).outcome (.ofSource nestedSource)
        = .ok ⟨"struct\x7bint x;\x7dy;\n".toList, 3⟩ := by
  intro ls
  have hfind : find ls 2 = .ok ⟨"struct\x7bint x;\x7dy;\n".toList, 3⟩ :=
    eq_ok_of_toOption (by decide +kernel)
  obtain ⟨hbody, hends⟩ := bodyAt_ends ofSrc (.ofSource nestedSource) ⟨"a.h", 2⟩
  obtain ⟨hiff, hflat, -⟩ := hends ls
  have hlines : (ofSrc.linesOf "a.h").outcome (.ofSource nestedSource) = .ok ls :=
    eq_ok_of_toOption (by decide +kernel)
  refine ⟨(hiff _).1 hfind, (hflat _ hfind).1, ?_⟩
  rw [hbody, hlines]
  exact congrArg (Except.mapError (.body ⟨"a.h", 2⟩)) hfind

end StructAtlas.SourceReader
