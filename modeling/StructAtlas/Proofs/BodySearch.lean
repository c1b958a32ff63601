import StructAtlas.Generation
import StructAtlas.Proofs.Braces
import StructAtlas.Proofs.Candidates
import StructAtlas.Proofs.Operations
import StructAtlas.Scan

set_option autoImplicit false

/-!
# Bodies of declarations

The scan knows a declaration by the offset of its first character, the search for bodies only by the
line of that offset. The search begins at the first keyword of the line (`find_of_keyword`) and is
decided by the first brace or semicolon behind it (`FirstMark.find`).

A declaration with a body holds neither before the brace that opens it (`Candidate.exists_brace`).
So the two agree on a declaration that is the first one on its line. For a later one they agree if
nothing that ends or opens anything stands between the first keyword and the declaration, and two
structs on one line show that this cannot be left out.
-/

namespace StructAtlas

open Text

namespace Body

/-! ## The beginning of a search -/

/-- The column of the first declaration keyword of a line. -/
def keywordColumn? (line : List Char) : Option Nat :=
  (fromKeyword? false line).map fun rest => line.length - rest.length

/-- The offset of the first declaration keyword on the line of an offset. -/
def keywordAt? (cs : List Char) (offset : Nat) : Option Nat :=
  ((lines cs)[countLines (cs.take offset)]?.bind keywordColumn?).map fun column =>
    offset - Text.column cs offset + column

theorem exists_of_fromKeyword? {insideWord : Bool} {line rest : List Char}
    (h : fromKeyword? insideWord line = some rest) : ∃ lead, line = lead ++ rest := by
  induction line generalizing insideWord with
  | nil => simp [fromKeyword?] at h
  | cons c line ih =>
    rw [fromKeyword?] at h
    split at h
    · exact ⟨[], by simpa using h⟩
    · obtain ⟨lead, rfl⟩ := ih h
      exact ⟨c :: lead, rfl⟩

theorem joinLines_append (lead first : List Char) (others : List (List Char)) :
    joinLines ((lead ++ first) :: others) = lead ++ joinLines (first :: others) := by
  cases others with
  | nil => simp [joinLines, List.intercalate, List.intersperse]
  | cons l ls => simp [joinLines, List.intercalate, List.intersperse]

/-- The line of an offset is the first of those behind the complete lines before it. -/
theorem exists_lines_of_offset {cs : List Char} {offset : Nat} (h : offset ≤ cs.length) :
    ∃ before line others, (lines cs).drop (countLines before) = line :: others
      ∧ cs = before ++ joinLines (line :: others)
      ∧ countLines (cs.take offset) = countLines before
      ∧ offset - Text.column cs offset = before.length
      ∧ '\n' ∉ line := by
  obtain ⟨before, lead, htake, hbefore, hlead, hcolumn⟩ := exists_line cs offset
  generalize hrest : lead ++ cs.drop offset = rest
  have hcs : cs = before ++ rest := by
    rw [← hrest, ← List.append_assoc, ← htake, List.take_append_drop]
  have hoffset : offset = before.length + lead.length := by
    rw [← List.length_append, ← htake, List.length_take]
    omega
  obtain ⟨line, others, hlines⟩ := List.exists_cons_of_ne_nil (splitBy_ne_nil (· == '\n') rest)
  refine ⟨before, line, others, ?_, ?_, ?_, by omega, ?_⟩
  · rw [hcs, drop_lines hbefore]
    exact hlines
  · rw [← hlines, hcs]
    exact congrArg (before ++ ·) (joinLines_lines rest).symm
  · rw [htake, countLines, List.count_append, List.count_eq_zero.2 hlead]
    rfl
  · intro hm
    have hmem : line ∈ splitBy (· == '\n') rest := by
      rw [hlines]
      exact List.mem_cons_self
    simpa using not_mem_of_mem_splitBy hmem '\n' hm

/-- A search at the line of an offset is a search in the text from the line's first keyword on. -/
theorem find_of_keyword {cs : List Char} {offset k : Nat} (h : offset ≤ cs.length)
    (hk : keywordAt? cs offset = some k) :
    find (lines cs) ((LineIndex.ofLines (lines cs)).lineAt offset : Nat)
      = seek (countLines (cs.take k) + 1) (cs.drop k) := by
  obtain ⟨before, line, others, hdrop, hcs, hcount, hstart, hfeed⟩ := exists_lines_of_offset h
  have hget : (lines cs)[countLines before]? = some line := by
    rw [← List.head?_drop, hdrop]
    rfl
  have hfound : ∃ column, keywordColumn? line = some column ∧ before.length + column = k := by
    rw [keywordAt?, hcount, hget, hstart] at hk
    simpa using hk
  obtain ⟨column, hcolumn, rfl⟩ := hfound
  obtain ⟨tail, htail, rfl⟩ := Option.map_eq_some_iff.1 hcolumn
  obtain ⟨skipped, rfl⟩ := exists_of_fromKeyword? htail
  have hcolumn' : before.length + ((skipped ++ tail).length - tail.length)
      = (before ++ skipped).length := by
    rw [List.length_append, List.length_append]
    omega
  have hsplit : cs = (before ++ skipped) ++ joinLines (tail :: others) := by
    rw [List.append_assoc, ← joinLines_append, ← hcs]
  have hlines : countLines (before ++ skipped) = countLines before := by
    rw [countLines, List.count_append,
      List.count_eq_zero.2 fun hm => hfeed (List.mem_append_left tail hm)]
    rfl
  have hbound : countLines before + 1 ≤ (lines cs).length := by
    have := congrArg List.length hdrop
    rw [List.length_drop, List.length_cons] at this
    omega
  have hsource : sourceFrom? (lines cs) ((countLines before + 1 : Nat) : Int)
      = some (joinLines (tail :: others)) := by
    rw [sourceFrom?, if_pos (by simp; omega), Int.toNat_natCast, Nat.add_sub_cancel, hdrop]
    simp [fromKeyword, htail]
  rw [LineIndex.lineAt_lines h, hcount, find, hsource, Int.toNat_natCast, hcolumn']
  rw [hsplit, List.take_left' rfl, List.drop_left' rfl, hlines]

/-- A search runs to the first mark behind the keyword that it begins with. -/
theorem find_of_mark {cs : List Char} {offset k m : Nat} (h : offset ≤ cs.length)
    (hk : keywordAt? cs offset = some k) (hkm : k ≤ m) (hm : m ≤ cs.length)
    (hrun : Run (fun c => !isMark c) (slice cs k m)) :
    find (lines cs) ((LineIndex.ofLines (lines cs)).lineAt offset : Nat)
      = seek (countLines (cs.take m) + 1) (cs.drop m) := by
  rw [find_of_keyword h hk, ← slice_append_drop hkm hm, seek_append hrun, ← take_append_slice hkm]
  congr 1
  simp only [countLines, List.count_append]
  omega

/-- A search whose first mark is an opening brace ends as that brace does. -/
theorem outcome_seek {cs behind : List Char} {m : Nat} (h : cs.drop m = '\x7b' :: behind) :
    Outcome cs m (seek (countLines (cs.take m) + 1) (cs.drop m)) := by
  have hm : m = (cs.take m).length := by
    have := congrArg List.length h
    rw [List.length_drop, List.length_cons] at this
    rw [List.length_take]
    omega
  have hcs : cs = cs.take m ++ '\x7b' :: behind := by
    rw [← h, List.take_append_drop]
  have houtcome := outcome_collect (cs.take m) behind
  rw [← hcs, ← hm] at houtcome
  rw [h, seek]
  exact houtcome

/-- The first mark of a text from an offset on. -/
structure FirstMark (cs : List Char) (k m : Nat) : Prop where
  le : k ≤ m
  passed : Run (fun c => !isMark c) (slice cs k m)
  isMark : ∃ c, cs[m]? = some c ∧ isMark c = true

/-- A stretch of text without mark is free of them, or it holds a first one. -/
theorem exists_firstMark {cs : List Char} {k stop : Nat} (h : k ≤ stop) (hstop : stop ≤ cs.length)
    (hrun : ¬ Run (fun c => !isMark c) (slice cs k stop)) : ∃ m, FirstMark cs k m ∧ m < stop := by
  obtain ⟨passed, hpassed, hfree, hstops⟩ := exists_run (fun c => !isMark c) (slice cs k stop)
  cases hrest : (slice cs k stop).dropWhile (fun c => !isMark c) with
  | nil =>
    rw [hrest, List.append_nil] at hpassed
    exact absurd (hpassed ▸ hfree) hrun
  | cons c rest =>
    rw [hrest] at hpassed hstops
    have hsplit : cs = cs.take k ++ (passed ++ c :: (rest ++ cs.drop stop)) := by
      rw [← List.cons_append, ← List.append_assoc passed, ← hpassed, slice_append_drop h hstop,
        List.take_append_drop]
    have hk : (cs.take k).length = k := by
      rw [List.length_take]
      omega
    have hlength : passed.length < stop - k := by
      have := congrArg List.length hpassed
      rw [slice, List.length_drop, List.length_take, List.length_append, List.length_cons] at this
      omega
    have hslice : slice cs k (k + passed.length) = passed := by
      rw [slice, List.drop_take, Nat.add_sub_cancel_left, ← slice_append_drop h hstop, hpassed,
        List.append_assoc]
      exact List.take_left' rfl
    refine ⟨k + passed.length, ⟨by omega, by rwa [hslice], c, ?_, by simpa using hstops⟩, by omega⟩
    rw [hsplit, List.getElem?_append_right (by omega), hk, Nat.add_sub_cancel_left,
      List.getElem?_append_right (by omega), Nat.sub_self]
    rfl

/-- A search ends as its first mark says. -/
theorem FirstMark.find {cs : List Char} {offset k m : Nat} (hm : FirstMark cs k m)
    (h : offset ≤ cs.length) (hk : keywordAt? cs offset = some k) :
    let r := find (lines cs) ((LineIndex.ofLines (lines cs)).lineAt offset : Nat)
    (cs[m]? = some '\x7b' → Outcome cs m r)
      ∧ (cs[m]? = some '\x7d' → r = .error (.unmatched (-1) (some (countLines (cs.take m) + 1))))
      ∧ (cs[m]? = some ';' → r = .error .forward) := by
  intro r
  obtain ⟨x, hx, -⟩ := hm.isMark
  obtain ⟨hlt, hget⟩ := List.getElem?_eq_some_iff.1 hx
  have hr : r = seek (countLines (cs.take m) + 1) (cs.drop m) :=
    find_of_mark h hk hm.le (Nat.le_of_lt hlt) hm.passed
  have hdrop : cs.drop m = x :: cs.drop (m + 1) := by
    rw [List.drop_eq_getElem_cons hlt, hget]
  rw [hx]
  refine ⟨?_, ?_, ?_⟩ <;> rintro ⟨rfl⟩
  · rw [hr]
    exact outcome_seek hdrop
  · rw [hr, hdrop]
    rfl
  · rw [hr, hdrop]
    rfl

end Body

/-! ## The brace of a declaration -/

namespace Candidate

/-- The offset of the brace that opens the body of a candidate. -/
def brace (c : Candidate) : Nat :=
  c.start + c.content.idxOf '\x7b'

/-- The text of a candidate between its opening brace and its first closing one. -/
def inner (c : Candidate) : List Char :=
  (c.content.drop (c.content.idxOf '\x7b' + 1)).takeWhile (· != '\x7d')

end Candidate

namespace Body

theorem run_not_isMark {p : Char → Bool} (h₁ : p '\x7b' = false) (h₂ : p '\x7d' = false)
    (h₃ : p ';' = false) {cs : List Char} (h : Run p cs) : Run (fun c => !isMark c) cs := by
  intro c hc
  have hp := h c hc
  have : c ≠ '\x7b' ∧ c ≠ '\x7d' ∧ c ≠ ';' := by
    refine ⟨?_, ?_, ?_⟩ <;> rintro rfl <;> simp_all
  simp [isMark, this]

theorem run_not_isMark_of_blank {cs : List Char} (h : Run isBlank cs) :
    Run (fun c => !isMark c) cs :=
  run_not_isMark (by decide) (by decide) (by decide) h

theorem run_not_isMark_of_word {cs : List Char} (h : Run isWord cs) :
    Run (fun c => !isMark c) cs :=
  run_not_isMark (by decide) (by decide) (by decide) h

theorem run_not_isMark_of_decimal {cs : List Char} (h : Run isDecimal cs) :
    Run (fun c => !isMark c) cs :=
  run_not_isMark (by decide) (by decide) (by decide) h

end Body

open Body

theorem PackingText.run_not_isMark {text : List Char} (h : PackingText text) :
    Run (fun c => !isMark c) text := by
  cases h with
  | pragma hgap hb₁ hb₂ hdigits hb₃ =>
    simp only [run_append, run_cons]
    exact ⟨by decide, run_not_isMark_of_blank hgap.2, by decide, run_not_isMark_of_blank hb₁,
      by decide, run_not_isMark_of_blank hb₂, run_not_isMark_of_decimal hdigits,
      run_not_isMark_of_blank hb₃, by decide⟩
  | packedAttribute hb₁ hb₂ hb₃ =>
    simp only [run_append, run_cons]
    exact ⟨by decide, run_not_isMark_of_blank hb₁, by decide, by decide,
      run_not_isMark_of_blank hb₂, by decide, run_not_isMark_of_blank hb₃, by decide⟩

namespace Shape.Written

variable {s : Shape} {tag typeName text : List Char}

theorem exists_body_of_tagged (h : Written .tagged tag typeName text) :
    ∃ head inner, text = head ++ '\x7b' :: (inner ++ ['\x7d'])
      ∧ Run (fun c => !isMark c) head ∧ '\x7d' ∉ inner := by
  cases h with
  | @tagged gap _ b inner hgap htag hb hinner =>
    refine ⟨"struct".toList ++ (gap ++ (tag ++ b)), inner, by simp only [List.append_assoc], ?_,
      hinner⟩
    simp only [run_append]
    exact ⟨by decide, run_not_isMark_of_blank hgap.2, run_not_isMark_of_word htag.2,
      run_not_isMark_of_blank hb⟩

/-- The first mark of a declaration with a body is the brace that opens it. -/
theorem exists_body (h : Written s tag typeName text) (hs : s.hasBody = true) :
    ∃ head inner tail, text = head ++ '\x7b' :: (inner ++ '\x7d' :: tail)
      ∧ Run (fun c => !isMark c) head ∧ '\x7d' ∉ inner := by
  cases h with
  | @typedef gap b₁ _ b₂ inner b₃ _ b₄ hgap hb₁ htag hb₂ hinner =>
    refine ⟨"typedef".toList ++ (gap ++ ("struct".toList ++ (b₁ ++ (tag ++ b₂)))), inner,
      b₃ ++ (typeName ++ (b₄ ++ [';'])), by simp only [List.append_assoc], ?_, hinner⟩
    simp only [run_append]
    exact ⟨by decide, run_not_isMark_of_blank hgap.2, by decide, run_not_isMark_of_blank hb₁,
      run_not_isMark_of_word htag, run_not_isMark_of_blank hb₂⟩
  | tagged hgap htag hb hinner =>
    obtain ⟨head, inner, htext, hhead, hinner⟩ :=
      exists_body_of_tagged (.tagged hgap htag hb hinner)
    exact ⟨head, inner, [], htext, hhead, hinner⟩
  | @packed packing b _ text hpacking hb hwritten =>
    obtain ⟨head, inner, rfl, hhead, hinner⟩ := exists_body_of_tagged hwritten
    refine ⟨packing ++ (b ++ head), inner, [], by simp only [List.append_assoc], ?_, hinner⟩
    simp only [run_append]
    exact ⟨hpacking.run_not_isMark, run_not_isMark_of_blank hb, hhead⟩
  | forward => simp [hasBody] at hs

/-- The first mark of a forward declaration is the semicolon that ends it. -/
theorem exists_semicolon (h : Written .forward tag typeName text) :
    ∃ head, text = head ++ [';'] ∧ Run (fun c => !isMark c) head := by
  cases h with
  | @forward gap _ b hgap htag hb =>
    refine ⟨"struct".toList ++ (gap ++ (tag ++ b)), by simp only [List.append_assoc], ?_⟩
    simp only [run_append]
    exact ⟨by decide, run_not_isMark_of_blank hgap.2, run_not_isMark_of_word htag.2,
      run_not_isMark_of_blank hb⟩

end Shape.Written

namespace Candidate

variable {cs : List Char} {c : Candidate} {d : Declaration}

theorem idxOf_append_of_run {head rest : List Char} (h : Run (fun c => !isMark c) head) :
    (head ++ '\x7b' :: rest).idxOf '\x7b' = head.length := by
  have hnot : '\x7b' ∉ head := fun hm => by simpa [isMark] using h _ hm
  rw [List.idxOf_append, if_neg hnot, List.idxOf_cons_self, Nat.zero_add]

theorem start_le (hc : c ∈ candidates cs) : c.start ≤ cs.length := by
  obtain ⟨before, after, -, -, -, rfl, hstart, -⟩ := mem_candidates hc
  rw [hstart, List.length_append]
  omega

/-- Where the brace of a declaration with a body stands. -/
theorem exists_brace (hc : c ∈ candidates cs)
    (hd : disambiguate Rule.defaults c.content = .ok (some d)) (hbody : d.shape.hasBody = true) :
    ∃ rest, cs.drop c.brace = '\x7b' :: (c.inner ++ '\x7d' :: rest) ∧ '\x7d' ∉ c.inner
      ∧ c.start ≤ c.brace ∧ c.brace ≤ cs.length
      ∧ Run (fun x => !isMark x) (slice cs c.start c.brace) := by
  obtain ⟨before, after, -, -, -, rfl, hstart, -⟩ := mem_candidates hc
  obtain ⟨tag, typeName, hwritten, -⟩ := disambiguate_defaults_iff.1 hd
  obtain ⟨head, inner, tail, hcontent, hhead, hnot⟩ := hwritten.exists_body hbody
  have hidx : c.content.idxOf '\x7b' = head.length := by
    rw [hcontent, idxOf_append_of_run hhead]
  have hinner : c.inner = inner := by
    have hrun : Run (· != '\x7d') inner := fun x hx => by
      simpa using fun e : x = '\x7d' => hnot (e ▸ hx)
    have hdrop : c.content.drop (head.length + 1) = inner ++ '\x7d' :: tail := by
      rw [hcontent, ← List.drop_drop, List.drop_left]
      rfl
    rw [Candidate.inner, hidx, hdrop, takeWhile_run hrun (stops_cons.2 (by decide))]
  have hbrace : c.brace = (before ++ head).length := by
    rw [Candidate.brace, hidx, hstart, List.length_append]
  have hcs : before ++ (c.content ++ after)
      = (before ++ head) ++ '\x7b' :: (inner ++ '\x7d' :: (tail ++ after)) := by
    rw [hcontent]
    simp only [List.append_assoc, List.cons_append]
  refine ⟨tail ++ after, ?_, hinner ▸ hnot, ?_, ?_, ?_⟩
  · rw [hcs, hbrace, List.drop_left, hinner]
  · rw [hbrace, hstart, List.length_append]
    omega
  · rw [hbrace, hcs]
    exact (List.sublist_append_left _ _).length_le
  · rw [hbrace, hstart, List.length_append, slice_append, hcontent]
    simpa only [List.append_assoc, List.take_left' rfl] using hhead

/-- Where the semicolon of a forward declaration stands. -/
theorem exists_semicolon (hc : c ∈ candidates cs)
    (hd : disambiguate Rule.defaults c.content = .ok (some d)) (hforward : d.shape = .forward) :
    ∃ m rest, cs.drop m = ';' :: rest ∧ c.start ≤ m ∧ m ≤ cs.length
      ∧ Run (fun x => !isMark x) (slice cs c.start m) := by
  obtain ⟨before, after, -, -, -, rfl, hstart, -⟩ := mem_candidates hc
  obtain ⟨tag, typeName, hwritten, -⟩ := disambiguate_defaults_iff.1 hd
  rw [hforward] at hwritten
  obtain ⟨head, hcontent, hhead⟩ := hwritten.exists_semicolon
  have hcs : before ++ (c.content ++ after) = (before ++ head) ++ ';' :: after := by
    rw [hcontent]
    simp only [List.append_assoc, List.cons_append, List.nil_append]
  refine ⟨(before ++ head).length, after, ?_, ?_, ?_, ?_⟩
  · rw [hcs, List.drop_left]
  · rw [hstart, List.length_append]
    omega
  · rw [hcs]
    exact (List.sublist_append_left _ _).length_le
  · rw [hstart, List.length_append, slice_append, hcontent]
    simpa only [List.append_assoc, List.take_left' rfl] using hhead

end Candidate

/-- A search that meets no mark before a declaration ends as the brace of the declaration does. -/
theorem outcome_find {cs : List Char} {c : Candidate} {d : Declaration} {k : Nat}
    (hc : c ∈ candidates cs) (hd : disambiguate Rule.defaults c.content = .ok (some d))
    (hbody : d.shape.hasBody = true) (hk : keywordAt? cs c.start = some k) (hle : k ≤ c.start)
    (hrun : Run (fun x => !isMark x) (slice cs k c.start)) :
    Outcome cs c.brace (find (lines cs) ((LineIndex.ofLines (lines cs)).lineAt c.start : Nat)) := by
  obtain ⟨rest, hbrace, -, hstart, hlength, hhead⟩ := Candidate.exists_brace hc hd hbody
  have hpassed : Run (fun x => !isMark x) (slice cs k c.brace) := by
    rw [← slice_append_slice hle hstart (Candidate.start_le hc)]
    exact run_append.2 ⟨hrun, hhead⟩
  rw [find_of_mark (Candidate.start_le hc) hk (Nat.le_trans hle hstart) hlength hpassed]
  exact outcome_seek hbrace

/-- A body without inner braces ends at its first closing brace. -/
theorem closes_inner {cs : List Char} {c : Candidate} {d : Declaration} (hc : c ∈ candidates cs)
    (hd : disambiguate Rule.defaults c.content = .ok (some d)) (hbody : d.shape.hasBody = true)
    (hflat : '\x7b' ∉ c.inner) :
    Closes cs c.brace (c.brace + 1 + c.inner.length)
      ∧ slice cs (c.brace + 1) (c.brace + 1 + c.inner.length) = c.inner := by
  obtain ⟨rest, hbrace, hnot, -, hlength, -⟩ := Candidate.exists_brace hc hd hbody
  have htake : (cs.take c.brace).length = c.brace := by
    rw [List.length_take]
    omega
  have hcs : cs = cs.take c.brace ++ '\x7b' :: (c.inner ++ '\x7d' :: rest) := by
    rw [← hbrace, List.take_append_drop]
  obtain ⟨hopen, hbalanced⟩ := staysOpen_of_flat hflat hnot
  -- The inner text leaves the brace open, and the brace behind it closes it.
  constructor
  · have hcloses : Closes (cs.take c.brace ++ '\x7b' :: (c.inner ++ '\x7d' :: rest))
        (cs.take c.brace).length ((cs.take c.brace).length + 1 + c.inner.length) :=
      closes_of_text hopen hbalanced
    rwa [← hcs, htake] at hcloses
  · rw [slice, List.drop_take, Nat.add_sub_cancel_left, ← List.drop_drop, hbrace]
    exact List.take_left' rfl

/-! ## Searching from a scanned place -/

namespace Act

/-- What an operation returns or fails with in a session. -/
def outcome {α : Type} (act : Act α) (s : Session) : Except Failure α :=
  match act s with
  | .ok a _ => .ok a
  | .error e _ => .error e

variable {α β : Type} {act : Act α} {s t : Session}

theorem outcome_eq_ok {a : α} : act.outcome s = .ok a ↔ ∃ t, act s = .ok a t := by
  rw [outcome]
  split <;> simp_all

theorem outcome_of_ok {a : α} (h : act s = .ok a t) : act.outcome s = .ok a := by
  rw [outcome, h]

theorem outcome_of_error {e : Failure} (h : act s = .error e t) : act.outcome s = .error e := by
  rw [outcome, h]

theorem outcome_bind_of_ok {a : α} (h : act s = .ok a t) (next : α → Act β) :
    (act >>= next).outcome s = (next a).outcome t := by
  rw [outcome, bind_ok h, outcome]

theorem outcome_bind_of_error {e : Failure} (h : act s = .error e t) (next : α → Act β) :
    (act >>= next).outcome s = .error e := by
  rw [outcome, bind_error h]

theorem outcome_ofExcept {ε : Type} (wrap : ε → Failure) (r : Except ε α) (s : Session) :
    (ofExcept wrap r).outcome s = r.mapError wrap := by
  cases r <;> rfl

/-- An attempt returns the outcome. -/
theorem exists_attempt (act : Act α) (s : Session) :
    ∃ t, act.attempt s = .ok (act.outcome s) t := by
  cases hact : act s with
  | ok a t =>
    rw [outcome_of_ok hact]
    exact ⟨t, attempt_ok hact⟩
  | error e t =>
    rw [outcome_of_error hact]
    exact ⟨t, attempt_error hact⟩

theorem outcome_of_attempt {a : Except Failure α} (h : act.attempt s = .ok a t) :
    act.outcome s = a := by
  obtain ⟨u, hu⟩ := exists_attempt act s
  cases hu.symm.trans h
  rfl

end Act

theorem Source.readBytes_ok {p : Path} {bytes : List UInt8} {s : Session}
    (h : s.files.read p = .ok bytes) : readBytes p s = .ok bytes s :=
  Act.bind_ok (Act.attempt_ok (Act.askFiles_ok h)) _

theorem eq_ok_of_toOption {ε α : Type} {r : Except ε α} {a : α} (h : r.toOption = some a) :
    r = .ok a := by
  cases r with
  | ok b => exact congrArg Except.ok (Option.some.inj h)
  | error e => cases h

/-- A session in which one source file lies in the directory `src`. -/
def Session.ofSource (u : SourceUnit) : Session :=
  .start
    { nodes :=
        [(["src"], .directory),
          (["src", u.path], .file (Charset.Utf8.bytesOf (String.ofList u.text)))] }
    (.empty ⟨"", "", ""⟩)

namespace SourceReader

/-- A reader of the files in the directory `src`. -/
def ofSrc : SourceReader :=
  { root := Path.parse "src" }

section Lines

variable {reader : SourceReader} {s t : Session} {path : WideText} {u : SourceUnit}

theorem linesOf_of_known {known : WideText × List (List Char)}
    (h : s.lines.find? (·.1 == path) = some known) :
    reader.linesOf path s = .ok known.2 s := by
  rw [SourceReader.linesOf, Act.bind_ok (Act.get_ok s)]
  simp only [h]
  rfl

/-- Lines that are not known are read and kept. -/
theorem linesOf_of_read (h : s.lines.find? (·.1 == path) = none)
    (hread : reader.readRelative path s = .ok u t) :
    reader.linesOf path s = .ok (lines (Scan.cleanText true u))
      { t with lines := t.lines ++ [(path, lines (Scan.cleanText true u))] } := by
  rw [SourceReader.linesOf, Act.bind_ok (Act.get_ok s)]
  simp only [h]
  rw [Act.bind_ok hread]
  exact Act.bind_ok (Act.modify_ok _ t) _

end Lines

/-- The lines of a file are those of a source: they are known already, or the file is read and has
the text of the source. -/
def Sees (reader : SourceReader) (s : Session) (path : WideText) (u : SourceUnit) : Prop :=
  match s.lines.find? (·.1 == path) with
  | some known => known.2 = lines (Scan.cleanText true u)
  | none => (reader.readRelative path).outcome s = .ok u

variable {reader : SourceReader} {s : Session} {path : String} {u : SourceUnit}

theorem Sees.linesOf {path : WideText} (h : reader.Sees s path u) :
    ∃ t, reader.linesOf path s = .ok (lines (Scan.cleanText true u)) t := by
  rw [Sees] at h
  split at h
  · rename_i known hknown
    rw [← h]
    exact ⟨s, linesOf_of_known hknown⟩
  · rename_i hknown
    obtain ⟨t, ht⟩ := Act.outcome_eq_ok.1 h
    exact ⟨_, linesOf_of_read hknown ht⟩

/-- A search for a body fails with the reading of the file, or ends as the search in its lines. -/
theorem outcome_bodyAt (reader : SourceReader) (s : Session) (l : Location) :
    (reader.bodyAt l).outcome s
      = (reader.linesOf l.path).outcome s >>= fun ls =>
        (Body.find ls l.line).mapError (.body l) := by
  cases hlines : reader.linesOf l.path s with
  | error e t =>
    rw [Act.outcome_of_error hlines]
    exact Act.outcome_bind_of_error hlines _
  | ok ls t =>
    rw [Act.outcome_of_ok hlines]
    exact (Act.outcome_bind_of_ok hlines _).trans (Act.outcome_ofExcept _ _ _)

/-- The body at a place is what a search in the lines of the source finds. -/
theorem Sees.bodyAt {path : WideText} (h : reader.Sees s path u) (line : Int) :
    (reader.bodyAt ⟨path, line⟩).outcome s
      = (Body.find (lines (Scan.cleanText true u)) line).mapError (.body ⟨path, line⟩) := by
  obtain ⟨t, ht⟩ := h.linesOf
  rw [outcome_bodyAt, Act.outcome_of_ok ht]
  rfl

/-- **Scan and search agree on a declaration that its line begins with.** Let the first keyword on
the line of a candidate be that of the candidate itself. If the candidate has a body, the search at
its place returns the text between its brace and the closing one and the line of the latter, which
is the inner text of the candidate if that holds no brace; if the brace is never closed, the search
fails with the number of braces that are left open. For a forward declaration the search says that
there is no body. -/
theorem bodyAt_of_leading_declaration {c : Candidate} {d : Declaration}
    (hsees : reader.Sees s path u) (hc : c ∈ candidates (Scan.cleanText true u))
    (hd : disambiguate Rule.defaults c.content = .ok (some d))
    (hk : keywordAt? (Scan.cleanText true u) c.start = some c.start) :
    let clean := Scan.cleanText true u
    let l := Scan.place path (Scan.lineIndex true u) c.start
    (d.shape.hasBody = true →
      (∀ e, Closes clean c.brace e →
        (reader.bodyAt l).outcome s
          = .ok ⟨slice clean (c.brace + 1) e, countLines (clean.take e) + 1⟩)
      ∧ ((∀ e, ¬ Closes clean c.brace e) →
        0 < surplus (clean.drop c.brace)
          ∧ (reader.bodyAt l).outcome s
            = .error (.body l (.unmatched (surplus (clean.drop c.brace)) none)))
      ∧ ('\x7b' ∉ c.inner → ∃ line, (reader.bodyAt l).outcome s = .ok ⟨c.inner, line⟩))
    ∧ (d.shape = .forward → (reader.bodyAt l).outcome s = .error (.body l .forward)) := by
  intro clean l
  have hempty : Run (fun x => !isMark x) (slice clean c.start c.start) := by
    rw [slice, List.drop_eq_nil_of_le (List.length_take_le _ _)]
    exact run_nil _
  have hsearch := hsees.bodyAt l.line
  constructor
  · intro hbody
    have houtcome := outcome_find hc hd hbody hk (Nat.le_refl _) hempty
    have hclosed : ∀ e, Closes clean c.brace e → (reader.bodyAt l).outcome s
        = .ok ⟨slice clean (c.brace + 1) e, countLines (clean.take e) + 1⟩ := by
      intro e he
      refine hsearch.trans ?_
      exact congrArg (Except.mapError _) (houtcome.eq_ok he)
    refine ⟨hclosed, ?_, ?_⟩
    · intro hnot
      obtain ⟨hpos, herror⟩ := houtcome.eq_error hnot
      exact ⟨hpos, hsearch.trans (congrArg (Except.mapError _) herror)⟩
    · intro hflat
      obtain ⟨hcloses, hinner⟩ := closes_inner hc hd hbody hflat
      exact ⟨_, by rw [hclosed _ hcloses, hinner]⟩
  · intro hforward
    obtain ⟨m, rest, hm, hstart, hlength, hrun⟩ := Candidate.exists_semicolon hc hd hforward
    have hfind := find_of_mark (Candidate.start_le hc) hk hstart hlength hrun
    rw [hm] at hfind
    exact hsearch.trans (congrArg (Except.mapError _) hfind)

/-- A struct over two lines behind a comment, with a struct inside. -/
def nestedSource : SourceUnit :=
  ⟨"a.h", "/*\n*/struct A\x7bstruct\x7bint x;\x7dy;\n\x7d;".toList⟩

/-- The candidate of `nestedSource`. -/
def nestedCandidate : Candidate :=
  ⟨"struct A\x7bstruct\x7bint x;\x7d".toList, 1⟩

theorem bodyAt_of_nested_declaration :
    ofSrc.Sees (.ofSource nestedSource) "a.h" nestedSource
      ∧ nestedCandidate ∈ candidates (Scan.cleanText true nestedSource)
      ∧ disambiguate Rule.defaults nestedCandidate.content = .ok (some ⟨"A", .tagged⟩)
      ∧ keywordAt? (Scan.cleanText true nestedSource) nestedCandidate.start
        = some nestedCandidate.start
      ∧ (ofSrc.bodyAt ⟨"a.h", 2⟩).outcome (.ofSource nestedSource)
        = .ok ⟨"struct\x7bint x;\x7dy;\n".toList, 3⟩ := by
  have hsees : ofSrc.Sees (.ofSource nestedSource) "a.h" nestedSource :=
    eq_ok_of_toOption (by decide +kernel)
  have hc : nestedCandidate ∈ candidates (Scan.cleanText true nestedSource) := by
    decide +kernel
  have hd : disambiguate Rule.defaults nestedCandidate.content = .ok (some ⟨"A", .tagged⟩) :=
    eq_ok_of_toOption (by decide +kernel)
  have hk : keywordAt? (Scan.cleanText true nestedSource) nestedCandidate.start
      = some nestedCandidate.start := by
    decide +kernel
  have hplace : Scan.place "a.h" (Scan.lineIndex true nestedSource) nestedCandidate.start
      = ⟨"a.h", 2⟩ := by
    decide +kernel
  have hbody := ((bodyAt_of_leading_declaration hsees hc hd hk).1 rfl).1 27 (by decide +kernel)
  rw [hplace] at hbody
  refine ⟨hsees, hc, hd, hk, hbody.trans (congrArg Except.ok ?_)⟩
  decide +kernel

/-- **What decides a search for a declaration that its line does not begin with.** Let the first
keyword on the line of a candidate with a body stand before the candidate. The first mark behind
that keyword decides the search. It is the brace of the candidate if and only if no mark stands
between the keyword and the candidate; otherwise it stands before the candidate, and the search
returns the body that opens there, or says that there is no body, or that a brace is unmatched. -/
theorem bodyAt_of_later_declaration {c : Candidate} {d : Declaration} {k : Nat}
    (hsees : reader.Sees s path u) (hc : c ∈ candidates (Scan.cleanText true u))
    (hd : disambiguate Rule.defaults c.content = .ok (some d)) (hbody : d.shape.hasBody = true)
    (hk : keywordAt? (Scan.cleanText true u) c.start = some k) (hlt : k < c.start) :
    let clean := Scan.cleanText true u
    let l := Scan.place path (Scan.lineIndex true u) c.start
    ∃ m, FirstMark clean k m
      ∧ (m = c.brace ↔ Run (fun x => !isMark x) (slice clean k c.start))
      ∧ (m = c.brace ∨ m < c.start)
      ∧ (clean[m]? = some '\x7b' →
        ∃ r, Outcome clean m r ∧ (reader.bodyAt l).outcome s = r.mapError (.body l))
      ∧ (clean[m]? = some '\x7d' → (reader.bodyAt l).outcome s
          = .error (.body l (.unmatched (-1) (some (countLines (clean.take m) + 1)))))
      ∧ (clean[m]? = some ';' → (reader.bodyAt l).outcome s = .error (.body l .forward)) := by
  intro clean l
  obtain ⟨rest, hbrace, -, hstart, hlength, hhead⟩ := Candidate.exists_brace hc hd hbody
  have hsearch := hsees.bodyAt l.line
  have hmark : ∀ m, FirstMark clean k m →
      (clean[m]? = some '\x7b' →
        ∃ r, Outcome clean m r ∧ (reader.bodyAt l).outcome s = r.mapError (.body l))
      ∧ (clean[m]? = some '\x7d' → (reader.bodyAt l).outcome s
          = .error (.body l (.unmatched (-1) (some (countLines (clean.take m) + 1)))))
      ∧ (clean[m]? = some ';' → (reader.bodyAt l).outcome s = .error (.body l .forward)) := by
    intro m hm
    obtain ⟨hopen, hclose, hend⟩ := hm.find (Candidate.start_le hc) hk
    exact ⟨fun h => ⟨_, hopen h, hsearch⟩,
      fun h => hsearch.trans (congrArg (Except.mapError _) (hclose h)),
      fun h => hsearch.trans (congrArg (Except.mapError _) (hend h))⟩
  by_cases hrun : Run (fun x => !isMark x) (slice clean k c.start)
  · have hfirst : FirstMark clean k c.brace := by
      refine ⟨by omega, ?_, '\x7b', ?_, rfl⟩
      · rw [← slice_append_slice (Nat.le_of_lt hlt) hstart (Candidate.start_le hc)]
        exact run_append.2 ⟨hrun, hhead⟩
      · rw [← List.head?_drop, hbrace]
        rfl
    exact ⟨c.brace, hfirst, ⟨fun _ => hrun, fun _ => rfl⟩, Or.inl rfl, hmark _ hfirst⟩
  · obtain ⟨m, hfirst, hm⟩ := exists_firstMark (Nat.le_of_lt hlt) (Candidate.start_le hc) hrun
    exact ⟨m, hfirst, ⟨fun e => by omega, fun h => absurd h hrun⟩, Or.inr hm, hmark m hfirst⟩

/-- A struct behind an attribute that does not pack it. -/
def alignedSource : SourceUnit :=
  ⟨"a.h", "__attribute__((aligned))struct B\x7bint b;\x7d;".toList⟩

/-- The candidate of `alignedSource`. -/
def alignedCandidate : Candidate :=
  ⟨"struct B\x7bint b;\x7d".toList, 24⟩

theorem bodyAt_of_aligned_declaration :
    ofSrc.Sees (.ofSource alignedSource) "a.h" alignedSource
      ∧ alignedCandidate ∈ candidates (Scan.cleanText true alignedSource)
      ∧ disambiguate Rule.defaults alignedCandidate.content = .ok (some ⟨"B", .tagged⟩)
      ∧ keywordAt? (Scan.cleanText true alignedSource) alignedCandidate.start = some 0
      ∧ 0 < alignedCandidate.start
      ∧ (ofSrc.bodyAt ⟨"a.h", 1⟩).outcome (.ofSource alignedSource)
        = .ok ⟨"int b;".toList, 1⟩ := by
  have hsees : ofSrc.Sees (.ofSource alignedSource) "a.h" alignedSource :=
    eq_ok_of_toOption (by decide +kernel)
  have hc : alignedCandidate ∈ candidates (Scan.cleanText true alignedSource) := by
    decide +kernel
  have hd : disambiguate Rule.defaults alignedCandidate.content = .ok (some ⟨"B", .tagged⟩) :=
    eq_ok_of_toOption (by decide +kernel)
  have hk : keywordAt? (Scan.cleanText true alignedSource) alignedCandidate.start = some 0 := by
    decide +kernel
  have hplace : Scan.place "a.h" (Scan.lineIndex true alignedSource) alignedCandidate.start
      = ⟨"a.h", 1⟩ := by
    decide +kernel
  refine ⟨hsees, hc, hd, hk, by decide, ?_⟩
  obtain ⟨m, -, hown, -, hopen, -⟩ :=
    bodyAt_of_later_declaration hsees hc hd rfl hk (by decide)
  -- The attribute holds no mark, so the brace of the struct is the one that decides.
  obtain rfl := hown.2 (by decide +kernel)
  obtain ⟨r, houtcome, hr⟩ := hopen (by decide +kernel)
  rw [hplace, houtcome.eq_ok (show Closes _ _ 39 by decide +kernel)] at hr
  refine hr.trans (congrArg Except.ok ?_)
  decide +kernel

/-- Two structs on one line. -/
def sharedLine : SourceUnit :=
  ⟨"a.h", "struct A\x7bint a;\x7d;struct B\x7bint b;\x7d;".toList⟩

/-- The second candidate of `sharedLine`. -/
def secondCandidate : Candidate :=
  ⟨"struct B\x7bint b;\x7d".toList, 17⟩

/-- A struct behind a variable of another struct type. -/
def variableLine : SourceUnit :=
  ⟨"a.h", "struct A*p;struct B\x7bint b;\x7d;".toList⟩

/-- The second struct on a line is recorded there, but a search at its place returns the body of the
first one, and behind a variable of a struct type the search says that there is no body. -/
theorem later_declaration_loses_body :
    secondCandidate ∈ candidates (Scan.cleanText true sharedLine)
      ∧ disambiguate Rule.defaults secondCandidate.content = .ok (some ⟨"B", .tagged⟩)
      ∧ keywordAt? (Scan.cleanText true sharedLine) secondCandidate.start = some 0
      ∧ Closes (Scan.cleanText true sharedLine) secondCandidate.brace 32
      ∧ slice (Scan.cleanText true sharedLine) (secondCandidate.brace + 1) 32
        = "int b;".toList
      ∧ (ofSrc.bodyAt ⟨"a.h", 1⟩).outcome (.ofSource sharedLine) = .ok ⟨"int a;".toList, 1⟩
      ∧ ⟨"struct B\x7bint b;\x7d".toList, 11⟩ ∈ candidates (Scan.cleanText true variableLine)
      ∧ (ofSrc.bodyAt ⟨"a.h", 1⟩).outcome (.ofSource variableLine)
        = .error (.body ⟨"a.h", 1⟩ .forward) := by
  have hsees : ofSrc.Sees (.ofSource variableLine) "a.h" variableLine :=
    eq_ok_of_toOption (by decide +kernel)
  have hfind : Body.find (lines (Scan.cleanText true variableLine)) 1 = .error .forward := by
    rfl
  refine ⟨by decide +kernel, eq_ok_of_toOption (by decide +kernel), by decide +kernel,
    by decide +kernel, by decide +kernel, eq_ok_of_toOption (by decide +kernel),
    by decide +kernel, ?_⟩
  rw [hsees.bodyAt, hfind]
  rfl

end SourceReader

end StructAtlas
