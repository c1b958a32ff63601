import Mathlib.Order.WellFounded
import StructAtlas.Proofs.Braces
import StructAtlas.Proofs.CommentPattern
import StructAtlas.Proofs.SourceLines

set_option autoImplicit false

/-!
# Lines that drift behind removed comments

A source can be searched in a text that lost its comments together with their line feeds. A match is
then looked up in the lines of the source itself, at an offset of the shorter text. `Comment.spans`
says where the comments of a text stand, and `Comment.retained` lists the offsets outside of them:
they increase, and at them stand the characters of the shorter text in their order
(`map_retained`). An offset of the shorter text is therefore never behind the character it belongs
to (`exists_getElem?_retained`), and it is the character's own offset as long as no comment was
removed before it (`eq_of_getElem?_retained`). So lines can only be too small (`Scan.Lags`).

The main statement adds that nothing else depends on the mode if no block comment goes over several
lines, because then both modes search the same text (`strip_eq_of_blocks`).
-/

namespace StructAtlas

open Text

namespace Comment

/-! ## The places of comments -/

/-- The place of a comment in a text. -/
structure Span where
  start : ℕ
  stop : ℕ
deriving Repr, DecidableEq

/-- An offset lies in a comment. -/
def Span.holds (s : Span) (offset : ℕ) : Bool :=
  decide (s.start ≤ offset) && decide (offset < s.stop)

/-- The comments of a text that begins at offset `pos`; the first number counts the characters of
the last comment that are still ahead. -/
def spansFrom : ℕ → ℕ → List Char → List Span
  | _, _, [] => []
  | pending + 1, pos, _ :: cs => spansFrom pending (pos + 1) cs
  | 0, pos, c :: cs =>
    match length? (c :: cs) with
    | some n => ⟨pos, pos + n⟩ :: spansFrom (n - 1) (pos + 1) cs
    | none => spansFrom 0 (pos + 1) cs

/-- The comments of a text, from left to right. -/
def spans (cs : List Char) : List Span :=
  spansFrom 0 0 cs

/-- An offset lies in none of some comments. -/
def isOutside (ss : List Span) (offset : ℕ) : Bool :=
  ss.all fun s => !s.holds offset

/-- The offsets of a text that lie in no comment. -/
def retained (cs : List Char) : List ℕ :=
  (List.range cs.length).filter (isOutside (spans cs))

theorem spansFrom_append (pos : ℕ) (comment rest : List Char) :
    spansFrom comment.length pos (comment ++ rest) = spansFrom 0 (pos + comment.length) rest := by
  induction comment generalizing pos with
  | nil => rfl
  | cons c comment ih =>
    rw [List.length_cons, List.cons_append, spansFrom, ih, Nat.add_assoc, Nat.add_comm 1]

theorem spansFrom_of_isComment (pos : ℕ) {comment rest : List Char} (h : IsComment comment rest) :
    spansFrom 0 pos (comment ++ rest)
      = ⟨pos, pos + comment.length⟩ :: spansFrom 0 (pos + comment.length) rest := by
  have hlength := length?_of_isComment h
  obtain ⟨tail, rfl⟩ := h.exists_cons
  rw [List.cons_append] at hlength
  rw [List.cons_append, spansFrom, hlength, List.length_cons]
  simp only [Nat.add_sub_cancel]
  rw [spansFrom_append, Nat.add_assoc pos 1, Nat.add_comm 1]

theorem spansFrom_of_not_begins (pos : ℕ) {c : Char} {cs : List Char} (h : ¬ Begins (c :: cs)) :
    spansFrom 0 pos (c :: cs) = spansFrom 0 (pos + 1) cs := by
  rw [spansFrom, length?_eq_none_iff.2 h]

/-- The comments of a text stand in the text. -/
theorem exists_of_mem_spansFrom {before cs : List Char} {s : Span}
    (h : s ∈ spansFrom 0 before.length cs) :
    ∃ lead comment rest, before ++ cs = lead ++ (comment ++ rest) ∧ IsComment comment rest
      ∧ before.length ≤ lead.length ∧ s = ⟨lead.length, lead.length + comment.length⟩ := by
  -- The induction is on what is left to be stripped, with all that was read in front.
  generalize hout : strip false cs = out
  have hstripped := strip_eq_iff.1 hout
  clear hout
  induction hstripped generalizing before with
  | done => cases h
  | @comment comment rest _ hcomment _ ih =>
    rw [spansFrom_of_isComment _ hcomment] at h
    rcases List.mem_cons.1 h with rfl | h
    · exact ⟨before, comment, rest, rfl, hcomment, Nat.le_refl _, rfl⟩
    · rw [← List.length_append] at h
      obtain ⟨lead, later, rest', htext, hlater, hle, rfl⟩ := ih h
      rw [List.append_assoc] at htext
      rw [List.length_append] at hle
      exact ⟨lead, later, rest', htext, hlater, by omega, rfl⟩
  | @copy c cs _ hno _ ih =>
    rw [spansFrom_of_not_begins _ hno] at h
    have hlength : before.length + 1 = (before ++ [c]).length := by simp
    rw [hlength] at h
    obtain ⟨lead, later, rest', htext, hlater, hle, rfl⟩ := ih h
    rw [List.append_assoc] at htext
    exact ⟨lead, later, rest', htext, hlater, by omega, rfl⟩

/-! ## The characters outside of comments -/

/-- The offsets from `pos` on that lie in no comment of a text beginning there. -/
def retainedFrom (pos : ℕ) (cs : List Char) : List ℕ :=
  (List.range' pos cs.length).filter (isOutside (spansFrom 0 pos cs))

theorem retainedFrom_of_isComment (pos : ℕ) {comment rest : List Char}
    (h : IsComment comment rest) :
    retainedFrom pos (comment ++ rest) = retainedFrom (pos + comment.length) rest := by
  have hinside : (List.range' pos comment.length).filter
      (isOutside (spansFrom 0 pos (comment ++ rest))) = [] := by
    rw [List.filter_eq_nil_iff]
    intro o ho
    rw [List.mem_range'_1] at ho
    rw [spansFrom_of_isComment pos h]
    simp [isOutside, Span.holds, ho]
  rw [retainedFrom, List.length_append, ← List.range'_append_1, List.filter_append, hinside,
    List.nil_append, retainedFrom]
  apply List.filter_congr
  intro o ho
  rw [List.mem_range'_1] at ho
  rw [spansFrom_of_isComment pos h]
  simp [isOutside, Span.holds, ho.1]

theorem retainedFrom_of_not_begins (pos : ℕ) {c : Char} {cs : List Char}
    (h : ¬ Begins (c :: cs)) :
    retainedFrom pos (c :: cs) = pos :: retainedFrom (pos + 1) cs := by
  have hfirst : isOutside (spansFrom 0 (pos + 1) cs) pos = true := by
    rw [isOutside, List.all_eq_true]
    intro s hs
    have hbehind : s ∈ spansFrom 0 (List.replicate (pos + 1) c).length cs := by simpa using hs
    obtain ⟨lead, later, _, _, _, hle, rfl⟩ := exists_of_mem_spansFrom hbehind
    rw [List.length_replicate] at hle
    simp [Span.holds]
    omega
  rw [retainedFrom, spansFrom_of_not_begins pos h, List.length_cons, List.range'_succ,
    List.filter_cons_of_pos hfirst, retainedFrom]

/-- At the offsets outside of comments stand the characters that are left without them. -/
theorem map_retainedFrom (before cs : List Char) :
    (retainedFrom before.length cs).map ((before ++ cs)[·]?) = (strip false cs).map some := by
  generalize hout : strip false cs = out
  have hstripped := strip_eq_iff.1 hout
  clear hout
  induction hstripped generalizing before with
  | done => rfl
  | @comment comment rest out hcomment _ ih =>
    have hrest := ih (before ++ comment)
    rw [List.length_append, List.append_assoc] at hrest
    rw [retainedFrom_of_isComment _ hcomment, hrest]
    rfl
  | @copy c cs out hno _ ih =>
    have hrest := ih (before ++ [c])
    rw [List.length_append, List.append_assoc] at hrest
    rw [retainedFrom_of_not_begins _ hno, List.map_cons, List.map_cons]
    congr 1
    simp

theorem map_retained (cs : List Char) :
    (retained cs).map (cs[·]?) = (strip false cs).map some := by
  have hfrom : retainedFrom 0 cs = retained cs := by
    rw [retainedFrom, ← List.range_eq_range', retained, spans]
  rw [← hfrom]
  exact map_retainedFrom [] cs

theorem pairwise_retained (cs : List Char) : (retained cs).Pairwise (· < ·) :=
  List.pairwise_lt_range.filter _

/-- The character at an offset of the text without comments stands in the text, and not before that
offset. -/
theorem exists_getElem?_retained {cs : List Char} {i : ℕ} (h : i < (strip false cs).length) :
    ∃ o, (retained cs)[i]? = some o ∧ i ≤ o := by
  have hlength : (retained cs).length = (strip false cs).length := by
    simpa using congrArg List.length (map_retained cs)
  rw [← hlength] at h
  refine ⟨(retained cs)[i], List.getElem?_eq_getElem h, ?_⟩
  have hpairwise := List.pairwise_iff_getElem.1 (pairwise_retained cs)
  induction i with
  | zero => exact Nat.zero_le _
  | succ i ih =>
    have hlt := hpairwise i (i + 1) (by omega) h (Nat.lt_succ_self i)
    have hle := ih (by omega)
    omega

/-- Before the first comment nothing has moved. -/
theorem eq_of_getElem?_retained {cs : List Char} {i o : ℕ} (h : (retained cs)[i]? = some o)
    (hfirst : ∀ s ∈ spans cs, o ≤ s.start) : i = o := by
  obtain ⟨hmem, hout⟩ := List.mem_filter.1 (List.mem_of_getElem? h)
  have ho : o < cs.length := List.mem_range.1 hmem
  have hfront : retained cs = List.range (o + 1)
      ++ (List.range' (o + 1) (cs.length - (o + 1))).filter (isOutside (spans cs)) := by
    have hsplit : List.range cs.length
        = List.range (o + 1) ++ List.range' (o + 1) (cs.length - (o + 1)) := by
      have hrange := @List.range'_append_1 0 (o + 1) (cs.length - (o + 1))
      rw [Nat.zero_add, Nat.add_sub_cancel' ho, ← List.range_eq_range',
        ← List.range_eq_range'] at hrange
      exact hrange.symm
    have hall : (List.range (o + 1)).filter (isOutside (spans cs)) = List.range (o + 1) := by
      rw [List.filter_eq_self]
      intro j hj
      rcases Nat.lt_or_eq_of_le (Nat.lt_succ_iff.1 (List.mem_range.1 hj)) with hlt | rfl
      · rw [isOutside, List.all_eq_true]
        intro s hs
        have hle := hfirst s hs
        simp [Span.holds]
        omega
      · exact hout
    rw [retained, hsplit, List.filter_append, hall]
  have hat : (retained cs)[o]? = some o := by
    rw [hfront, List.getElem?_append_left (by simp)]
    simp
  have hnodup : (retained cs).Nodup := (pairwise_retained cs).imp Nat.ne_of_lt
  exact (List.getElem?_inj (List.getElem?_eq_some_iff.1 h).1 hnodup).1 (h.trans hat.symm)

/-! ## Comments on one line -/

/-- No block comment of a text goes over several lines. -/
def BlocksAreFlat (cs : List Char) : Prop :=
  ∀ s ∈ spans cs, ['/', '*'] <+: slice cs s.start s.stop → '\n' ∉ slice cs s.start s.stop

instance (cs : List Char) : Decidable (BlocksAreFlat cs) :=
  inferInstanceAs (Decidable (∀ s ∈ spans cs, _ → _))

theorem kept_of_not_mem {comment : List Char} (h : '\n' ∉ comment) (keepLines : Bool) :
    kept keepLines comment = [] := by
  cases keepLines with
  | false => rfl
  | true => rw [kept, if_pos rfl, List.count_eq_zero.2 h, List.replicate_zero]

theorem strip_eq_of_flat {before cs : List Char}
    (h : ∀ s ∈ spansFrom 0 before.length cs, ['/', '*'] <+: slice (before ++ cs) s.start s.stop →
      '\n' ∉ slice (before ++ cs) s.start s.stop) : strip false cs = strip true cs := by
  generalize hout : strip false cs = out
  have hstripped := strip_eq_iff.1 hout
  clear hout
  induction hstripped generalizing before with
  | done => rfl
  | @comment comment rest out hcomment _ ih =>
    rw [spansFrom_of_isComment _ hcomment] at h
    have hflat : '\n' ∉ comment := by
      have hfirst := h _ List.mem_cons_self
      rw [slice_append, List.take_left] at hfirst
      cases hcomment with
      | line hbody => simpa using hbody
      | block => exact hfirst ⟨_, rfl⟩
    have hrest := @ih (before ++ comment) fun s hs => by
      rw [List.length_append] at hs
      rw [List.append_assoc]
      exact h s (List.mem_cons_of_mem _ hs)
    rw [strip_of_isComment true hcomment, kept_of_not_mem hflat, kept_of_not_mem hflat, hrest]
  | @copy c cs out hno _ ih =>
    have hrest := @ih (before ++ [c]) fun s hs => by
      rw [List.length_append] at hs
      rw [List.append_assoc]
      exact h s (by rwa [spansFrom_of_not_begins _ hno])
    rw [strip_of_not_begins true hno, hrest]

/-- If no block comment goes over several lines, no line feed is lost with the comments. -/
theorem strip_eq_of_blocks {cs : List Char} (h : BlocksAreFlat cs) :
    strip false cs = strip true cs :=
  @strip_eq_of_flat [] cs h

end Comment

/-! ## Matches in their order -/

theorem Candidate.pairwise_collect (pending pos : ℕ) (cs : List Char) :
    (collect pending pos cs).Pairwise (·.start < ·.start)
      ∧ ∀ c ∈ collect pending pos cs, pos ≤ c.start := by
  fun_induction collect pending pos cs with
  | case1 => exact ⟨List.Pairwise.nil, fun c hc => absurd hc List.not_mem_nil⟩
  | case2 pos pending _ cs ih => exact ⟨ih.1, fun c hc => Nat.le_of_succ_le (ih.2 c hc)⟩
  | case3 pos c cs n hlength ih =>
    refine ⟨List.Pairwise.cons (fun d hd => ih.2 d hd) ih.1, fun d hd => ?_⟩
    rcases List.mem_cons.1 hd with rfl | hd
    · exact Nat.le_refl _
    · exact Nat.le_of_succ_le (ih.2 d hd)
  | case4 pos c cs hnone ih => exact ⟨ih.1, fun c hc => Nat.le_of_succ_le (ih.2 c hc)⟩

theorem Usage.pairwise_collect (pending pos : ℕ) (cs : List Char) :
    (collect pending pos cs).Pairwise (·.2 < ·.2) := by
  fun_induction collect pending pos cs with
  | case1 => exact List.Pairwise.nil
  | case2 _ _ _ _ ih => exact ih
  | case3 pos c cs name rest hread ih =>
    exact List.Pairwise.cons (fun p hp => Nat.lt_of_succ_le (bounds_of_mem_collect hp).1) ih
  | case4 _ _ _ _ ih => exact ih

/-- The declaration that a finding is. -/
def Finding.declaration? : Finding → Option Declaration
  | .declared d _ => some d
  | _ => none

namespace Scan

/-! ## Places counted in the source -/

/-- The line of the source that holds an offset, whatever text the offset belongs to. -/
def sourceLine (u : SourceUnit) (offset : ℕ) : Int :=
  1 + countLines (u.text.take offset)

/-- A match at an offset of the text without comments belongs to a character of the source. The line
is at most the one of the character, and it is that line if no comment begins before it. -/
def Lags (u : SourceUnit) (offset : ℕ) (line : Int) : Prop :=
  ∃ o, (Comment.retained u.text)[offset]? = some o
    ∧ line ≤ sourceLine u o
    ∧ ((∀ s ∈ Comment.spans u.text, o ≤ s.start) → line = sourceLine u o)

theorem sourceLine_mono (u : SourceUnit) {i j : ℕ} (h : i ≤ j) :
    sourceLine u i ≤ sourceLine u j := by
  have hle : countLines (u.text.take i) ≤ countLines (u.text.take j) :=
    (List.take_sublist_take_left h).count_le _
  rw [sourceLine, sourceLine]
  omega

/-- Without the lines kept, an offset of the shorter text is looked up in the source. -/
theorem place_of_sourceLines {u : SourceUnit} {offset : ℕ}
    (h : offset < (cleanText false u).length) :
    place u.path (lineIndex false u) offset = ⟨u.path, sourceLine u offset⟩ := by
  have hle : offset ≤ u.text.length :=
    Nat.le_of_lt (Nat.lt_of_lt_of_le h (Comment.strip_sublist false u.text).length_le)
  have hindex : lineIndex false u = LineIndex.ofLines (lines u.text) := rfl
  rw [place, hindex, LineIndex.lineAt_lines hle, Nat.add_comm]
  rfl

theorem lags_sourceLine {u : SourceUnit} {offset : ℕ} (h : offset < (cleanText false u).length) :
    Lags u offset (sourceLine u offset) := by
  obtain ⟨o, ho, hle⟩ := Comment.exists_getElem?_retained h
  refine ⟨o, ho, sourceLine_mono u hle, fun hfirst => ?_⟩
  rw [Comment.eq_of_getElem?_retained ho hfirst]

/-- With the lines kept, a match is at least on the line of the source at the same offset. -/
theorem sourceLine_le_of_keepLines {u : SourceUnit} {offset : ℕ}
    (h : offset < (cleanText true u).length) :
    sourceLine u offset ≤ (place u.path (lineIndex true u) offset).line := by
  obtain ⟨f, -, hlines⟩ := Comment.exists_embedding u.text
  -- The embedding of offsets moves none of them to the left.
  have hle := sourceLine_mono u (f.strictMono.le_apply (x := offset))
  rw [sourceLine, sourceLine, ← hlines] at hle
  rw [place_of_keepLines h, sourceLine, cleanText]
  simp only
  omega

/-- A name at a place, and the same name at a place that is not before it. -/
def IsEarlier (p q : String × Location) : Prop :=
  p.1 = q.1 ∧ p.2.line ≤ q.2.line

theorem line_le_line {u : SourceUnit} (hsame : cleanText false u = cleanText true u) {offset : ℕ}
    (h : offset < (cleanText true u).length) :
    (place u.path (lineIndex false u) offset).line
      ≤ (place u.path (lineIndex true u) offset).line := by
  rw [place_of_sourceLines (hsame ▸ h)]
  exact sourceLine_le_of_keepLines h

theorem isEarlier_declaredAt {locate locate' : ℕ → Location} {cs : List Candidate}
    (h : ∀ c ∈ cs, (locate c.start).line ≤ (locate' c.start).line) :
    List.Forall₂ IsEarlier (cs.filterMap (declaredAt locate))
      (cs.filterMap (declaredAt locate')) := by
  induction cs with
  | nil => exact List.Forall₂.nil
  | cons c cs ih =>
    have hrest := ih fun d hd => h d (List.mem_cons_of_mem _ hd)
    rw [List.filterMap_cons, List.filterMap_cons, declaredAt, declaredAt]
    cases disambiguate Rule.defaults c.content with
    | error _ => exact hrest
    | ok found =>
      cases found with
      | none => exact hrest
      | some d => exact List.Forall₂.cons ⟨rfl, h c List.mem_cons_self⟩ hrest

/-! ## What the scan comes across -/

/-- The declaration that the default rules make of a candidate. -/
def declarationOf? (c : Candidate) : Option Declaration :=
  match disambiguate Rule.defaults c.content with
  | .ok d => d
  | .error _ => none

theorem declarations_declare (locate : ℕ → Location) {cs : List Candidate}
    (h : ∀ c ∈ cs, ∃ d, disambiguate Rule.defaults c.content = .ok (some d)) (r : Registry) :
    (declare Rule.defaults locate cs r).findings.filterMap Finding.declaration?
      = cs.filterMap declarationOf? := by
  induction cs generalizing r with
  | nil => rfl
  | cons c cs ih =>
    obtain ⟨d, hd⟩ := h c List.mem_cons_self
    have hrest := ih (fun c hc => h c (List.mem_cons_of_mem _ hc))
      (r.addDefinition d.name (locate c.start)).1
    have hof : declarationOf? c = some d := by rw [declarationOf?, hd]
    rw [declare, hd, List.filterMap_cons_some hof, ← hrest]
    rfl

theorem declarations_use (locate : ℕ → Location) (us : List (String × ℕ)) (r : Registry) :
    (use locate us r).findings.filterMap Finding.declaration? = [] := by
  rw [List.filterMap_eq_nil_iff]
  intro f hf
  have hused := findings_use locate us r f hf
  cases f with
  | used => rfl
  | declared => cases hused
  | malformed => rfl

/-- The declarations that a scan comes across are those of the candidates, in their order. -/
theorem declarations_unit (keepLines : Bool) (u : SourceUnit) (r : Registry) :
    (unit Rule.defaults keepLines u r).findings.filterMap Finding.declaration?
      = (candidates (cleanText keepLines u)).filterMap declarationOf? := by
  have hall : ∀ c ∈ candidates (cleanText keepLines u),
      ∃ d, disambiguate Rule.defaults c.content = .ok (some d) :=
    fun c hc => exists_declaration hc
  obtain ⟨-, hfault, -⟩ := declare_defaults (place u.path (lineIndex keepLines u)) hall r
  rw [unit]
  simp only [hfault]
  rw [List.filterMap_append, declarations_declare _ hall, declarations_use, List.append_nil]

/-- The place on the line of the source that holds an offset. -/
def sourcePlace (u : SourceUnit) (offset : ℕ) : Location :=
  ⟨u.path, sourceLine u offset⟩

theorem declaredIn_of_sourceLines (u : SourceUnit) :
    declaredIn false u
      = (candidates (cleanText false u)).filterMap (declaredAt (sourcePlace u)) := by
  rw [declaredIn]
  apply List.filterMap_congr
  intro c hc
  rw [declaredAt, declaredAt, place_of_sourceLines (start_lt_of_mem_candidates hc), sourcePlace]

theorem usedIn_of_sourceLines (u : SourceUnit) :
    usedIn false u = (Usage.find (cleanText false u)).map fun p => (p.1, sourcePlace u p.2) := by
  rw [usedIn]
  apply List.map_congr_left
  intro p hp
  rw [place_of_sourceLines (Usage.start_lt_of_mem_find hp), sourcePlace]

/-- **Lines drift in one direction only.** Let a source be scanned without keeping its lines. The
clean text consists of the characters at the retained offsets, and the places that the scan enters
are the lines of the source at the offsets where the matches begin in the clean text. The line of a
match is at most that of the character with which it begins, and it is that line if no comment
begins before the character; the lines do not decrease from match to match. If no block comment
goes over several lines, then a scan that keeps the lines comes across the same declarations and
finds the same used names in the same order, on the same lines or on later ones. -/
theorem lines_drift_one_way (u : SourceUnit) (r : Registry) :
    (Comment.retained u.text).map (u.text[·]?) = (cleanText false u).map some
      ∧ (∀ n, (unit Rule.defaults false u r).registry.definitionsOf n
          = extend (r.definitionsOf n) (placesOf n
            ((candidates (cleanText false u)).filterMap (declaredAt (sourcePlace u)))))
      ∧ (∀ n, (unit Rule.defaults false u r).registry.usagesOf n
          = extend (r.usagesOf n) (if (r.contains n || declares false n u) = true then placesOf n
            ((Usage.find (cleanText false u)).map fun p => (p.1, sourcePlace u p.2)) else []))
      ∧ (∀ c ∈ candidates (cleanText false u), Lags u c.start (sourceLine u c.start))
      ∧ (∀ p ∈ Usage.find (cleanText false u), Lags u p.2 (sourceLine u p.2))
      ∧ ((candidates (cleanText false u)).map fun c => sourceLine u c.start).Pairwise (· ≤ ·)
      ∧ ((Usage.find (cleanText false u)).map fun p => sourceLine u p.2).Pairwise (· ≤ ·)
      ∧ (Comment.BlocksAreFlat u.text →
          (unit Rule.defaults false u r).findings.filterMap Finding.declaration?
              = (unit Rule.defaults true u r).findings.filterMap Finding.declaration?
            ∧ (Usage.find (cleanText false u)).map (·.1)
              = (Usage.find (cleanText true u)).map (·.1)
            ∧ List.Forall₂ IsEarlier (declaredIn false u) (declaredIn true u)
            ∧ List.Forall₂ IsEarlier (usedIn false u) (usedIn true u)) := by
  refine ⟨Comment.map_retained u.text, ?_, ?_, ?_, ?_, ?_, ?_, ?_⟩
  · intro n
    rw [definitionsOf_unit, declaredIn_of_sourceLines]
  · intro n
    rw [usagesOf_unit, usedIn_of_sourceLines]
  · exact fun c hc => lags_sourceLine (start_lt_of_mem_candidates hc)
  · exact fun p hp => lags_sourceLine (Usage.start_lt_of_mem_find hp)
  · rw [List.pairwise_map]
    exact (Candidate.pairwise_collect 0 0 _).1.imp fun h => sourceLine_mono u (Nat.le_of_lt h)
  · rw [List.pairwise_map]
    exact (Usage.pairwise_collect 0 0 _).imp fun h => sourceLine_mono u (Nat.le_of_lt h)
  · intro hflat
    have hsame : cleanText false u = cleanText true u := Comment.strip_eq_of_blocks hflat
    refine ⟨by rw [declarations_unit, declarations_unit, hsame], by rw [hsame], ?_, ?_⟩
    · rw [declaredIn, declaredIn, hsame]
      exact isEarlier_declaredAt fun c hc => line_le_line hsame (start_lt_of_mem_candidates hc)
    · rw [usedIn, usedIn, hsame, List.forall₂_map_left_iff, List.forall₂_map_right_iff,
        List.forall₂_same]
      exact fun p hp => ⟨rfl, line_le_line hsame (Usage.start_lt_of_mem_find hp)⟩

/-- A declaration and a use behind a comment of one line. -/
def markedUnit : SourceUnit :=
  ⟨"a.h", "/* -------- */\nstruct A;\nA x;\n".toList⟩

theorem drift_behind_flat_comment :
    Comment.BlocksAreFlat markedUnit.text
      ∧ declaredIn false markedUnit = [("A", ⟨"a.h", 1⟩)]
      ∧ declaredIn true markedUnit = [("A", ⟨"a.h", 2⟩)]
      ∧ List.Forall₂ IsEarlier (declaredIn false markedUnit) (declaredIn true markedUnit) := by
  have hflat : Comment.BlocksAreFlat markedUnit.text := by decide +kernel
  refine ⟨hflat, ?_, ?_, ((lines_drift_one_way markedUnit .empty).2.2.2.2.2.2.2 hflat).2.2.1⟩
  · decide +kernel
  · decide +kernel

end Scan

end StructAtlas
