import StructAtlas.Proofs.Candidates

set_option autoImplicit false

/-!
# Every declaration is found

A text can be written as declarations with separators around them, where a separator is a text that
none of the words `typedef`, `struct`, `#pragma` and `__attribute__` occurs in. A `Segment` is a
declaration with the separator behind it.

The search takes from the front of a text exactly the declarations, so it remains to see where it
begins: not inside a separator. A word that begins there and goes on into the next declaration, as
`struct` does in front of `typedef` behind the letters `struc`, does not end where it has to
(`isWord_of_overlap`). So the candidates of such a text are its declarations, each at its place
(`candidates_of_segments`).
-/

namespace StructAtlas

open Text

namespace Shape

/-- The words that declarations begin with. -/
def openers : List (List Char) :=
  ["typedef".toList, "struct".toList, "#pragma".toList, "__attribute__".toList]

/-- A blank or another character that is not of a word stands behind blanks. -/
theorem exists_cons_of_blanks {blanks behind : List Char} {c : Char} (h : Run isBlank blanks)
    (hc : isWord c = false) : ∃ d rest, blanks ++ c :: behind = d :: rest ∧ isWord d = false := by
  cases blanks with
  | nil => exact ⟨c, behind, rfl, hc⟩
  | cons d blanks => exact ⟨d, _, rfl, isWord_of_isBlank d (run_cons.1 h).1⟩

theorem exists_cons_of_gap {gap : List Char} (h : IsGap gap) (behind : List Char) :
    ∃ d rest, gap ++ behind = d :: rest ∧ isWord d = false := by
  obtain ⟨d, gap, rfl⟩ := List.exists_cons_of_ne_nil h.1
  exact ⟨d, _, rfl, isWord_of_isBlank d (run_cons.1 h.2).1⟩

/-- A text begins with a word of declarations, and the word ends there. -/
def Opens (w cs : List Char) : Prop :=
  ∃ c behind, cs = w ++ c :: behind ∧ isWord c = false

theorem Opens.append {w cs : List Char} (h : Opens w cs) (rest : List Char) :
    Opens w (cs ++ rest) := by
  obtain ⟨c, behind, rfl, hc⟩ := h
  exact ⟨c, behind ++ rest, by simp, hc⟩

variable {s : Shape} {tag typeName text : List Char}

/-- Every declaration begins with one of the words. -/
theorem Written.exists_opens (h : Written s tag typeName text) : ∃ w ∈ openers, Opens w text := by
  cases h with
  | typedef hgap =>
    obtain ⟨c, behind, hbehind, hc⟩ := exists_cons_of_gap hgap _
    exact ⟨"typedef".toList, by decide, c, behind, by rw [← hbehind], hc⟩
  | tagged hgap =>
    obtain ⟨c, behind, hbehind, hc⟩ := exists_cons_of_gap hgap _
    exact ⟨"struct".toList, by decide, c, behind, by rw [← hbehind], hc⟩
  | packed hpacking =>
    cases hpacking with
    | pragma hgap =>
      obtain ⟨c, behind, hbehind, hc⟩ := exists_cons_of_gap hgap _
      have hopens : Opens "#pragma".toList _ := ⟨c, behind, by rw [← hbehind], hc⟩
      exact ⟨"#pragma".toList, by decide, hopens.append _⟩
    | packedAttribute hb₁ =>
      have hopen : isWord '(' = false := by decide
      obtain ⟨c, behind, hbehind, hc⟩ := exists_cons_of_blanks hb₁ hopen
      have hopens : Opens "__attribute__".toList _ := ⟨c, behind, by rw [← hbehind], hc⟩
      exact ⟨"__attribute__".toList, by decide, hopens.append _⟩
  | forward hgap =>
    obtain ⟨c, behind, hbehind, hc⟩ := exists_cons_of_gap hgap _
    exact ⟨"struct".toList, by decide, c, behind, by rw [← hbehind], hc⟩

/-- What a reader accepts as a whole is a declaration. -/
theorem written_of_readWhole (h : s.readWhole text = some ⟨tag, typeName, []⟩) :
    Written s tag typeName text :=
  (readWhole_iff.1 h).2

/-- No word stands inside another one, and where the end of one is the beginning of another one, the
other one goes on with a word character. -/
theorem openers_apart : ∀ w ∈ openers, ∀ v ∈ openers, ∀ n < w.length, 0 < n →
    ¬ v <+: w.drop n ∧
      (w.drop n <+: v → (v.drop (w.drop n).length).head?.all isWord = true) := by
  decide +kernel

/-- A word that goes on into another one does not end there. -/
theorem isWord_of_overlap {u late v : List Char} (hw : u ++ late ∈ openers) (hv : v ∈ openers)
    (hu : u ≠ []) (hlate : late ≠ []) {c d : Char} {behind after : List Char}
    (h : late ++ c :: behind = v ++ d :: after) : isWord c = true := by
  have hlength : u.length < (u ++ late).length := by
    rw [List.length_append]
    have hpos := List.length_pos_iff.2 hlate
    omega
  obtain ⟨hinside, hend⟩ := openers_apart _ hw v hv u.length hlength (List.length_pos_iff.2 hu)
  rw [List.drop_left] at hinside hend
  rcases List.append_eq_append_iff.1 h with ⟨more, hmore, hbehind⟩ | ⟨more, hmore, -⟩
  · cases more with
    | nil =>
      rw [List.append_nil] at hmore
      exact absurd ⟨[], by rw [List.append_nil, hmore]⟩ hinside
    | cons e more =>
      -- The first word ends inside the second one, where a word character follows.
      rw [List.cons_append, List.cons.injEq] at hbehind
      have hword := hend ⟨e :: more, hmore.symm⟩
      rw [hmore, List.drop_left, List.head?_cons, Option.all_some] at hword
      rw [hbehind.1, hword]
  · exact absurd ⟨more, hmore.symm⟩ hinside

/-- A word that begins in front of another one, or in front of the end, stands before it. -/
theorem prefix_of_opens {w u rest : List Char} (hw : w ∈ openers) (hu : u ≠ [])
    (hrest : rest = [] ∨ ∃ v ∈ openers, Opens v rest) (h : Opens w (u ++ rest)) : w <+: u := by
  obtain ⟨c, behind, htext, hc⟩ := h
  rcases List.append_eq_append_iff.1 htext with ⟨late, rfl, hbehind⟩ | ⟨more, rfl, -⟩
  · rcases List.eq_nil_or_concat late with rfl | ⟨front, e, hlate⟩
    · exact ⟨[], by simp⟩
    · have hne : late ≠ [] := by simp [hlate]
      rcases hrest with rfl | ⟨v, hv, d, after, rfl, -⟩
      · simp [hlate] at hbehind
      · rw [isWord_of_overlap hw hv hu hne hbehind.symm] at hc
        cases hc
  · exact List.prefix_append w more

end Shape

/-- A text that no declaration begins in. -/
def IsSeparator (cs : List Char) : Prop :=
  ∀ w ∈ Shape.openers, ¬ w <:+: cs

instance (cs : List Char) : Decidable (IsSeparator cs) :=
  inferInstanceAs (Decidable (∀ w ∈ Shape.openers, ¬ w <:+: cs))

/-- A declaration and the text behind it, up to the next declaration. -/
structure Segment where
  shape : Shape
  tag : List Char
  typeName : List Char
  text : List Char
  behind : List Char
  written : shape.Written tag typeName text
  isSeparator : IsSeparator behind

namespace Segment

/-- The text of a segment. -/
def print (d : Segment) : List Char :=
  d.text ++ d.behind

/-- The text of segments, one after the other. -/
def printAll (ds : List Segment) : List Char :=
  ds.flatMap print

/-- The declaration of a segment: a typedef has the name of its alias, every other declaration that
of its tag. -/
def declaration (d : Segment) : Declaration :=
  ⟨String.ofList (d.shape.nameIn d.tag d.typeName), d.shape⟩

theorem printAll_cons (d : Segment) (ds : List Segment) :
    printAll (d :: ds) = d.text ++ (d.behind ++ printAll ds) := by
  rw [printAll, List.flatMap_cons, print, List.append_assoc]
  rfl

/-- Behind a separator stands a declaration, or nothing. -/
theorem opens_printAll (ds : List Segment) :
    printAll ds = [] ∨ ∃ w ∈ Shape.openers, Shape.Opens w (printAll ds) := by
  cases ds with
  | nil => exact .inl rfl
  | cons d ds =>
    obtain ⟨w, hw, hopens⟩ := d.written.exists_opens
    refine .inr ⟨w, hw, ?_⟩
    rw [printAll_cons]
    exact hopens.append _

end Segment

namespace Candidate

open Shape

/-- At a place in a separator no candidate begins. -/
theorem length?_of_separator {c : Char} {cs : List Char} (h : IsSeparator (c :: cs))
    (ds : List Segment) : length? (c :: (cs ++ Segment.printAll ds)) = none := by
  rw [Option.eq_none_iff_forall_ne_some]
  intro n hn
  obtain ⟨s, tag, typeName, text, rest, htext, -, hwritten⟩ := length?_iff.1 hn
  obtain ⟨w, hw, hopens⟩ := hwritten.exists_opens
  have hfront : Opens w ((c :: cs) ++ Segment.printAll ds) := by
    rw [List.cons_append, htext]
    exact hopens.append rest
  exact h w hw (prefix_of_opens hw (by simp) (Segment.opens_printAll ds) hfront).isInfix

/-- The search passes over a separator. -/
theorem collect_separator {cs : List Char} (h : IsSeparator cs) (pos : Nat) (ds : List Segment) :
    collect 0 pos (cs ++ Segment.printAll ds) =
      collect 0 (pos + cs.length) (Segment.printAll ds) := by
  induction cs generalizing pos with
  | nil => rfl
  | cons c cs ih =>
    have hcs : IsSeparator cs := fun w hw hm => h w hw (hm.trans (List.suffix_cons c cs).isInfix)
    rw [List.cons_append, collect, length?_of_separator h]
    simp only
    rw [ih hcs, List.length_cons, Nat.add_assoc, Nat.add_comm 1]

/-- The search finds the declarations of segments at their places. -/
theorem collect_printAll (ds : List Segment) (pos : Nat) :
    collect 0 pos (Segment.printAll ds) =
      ds.mapIdx fun i d => ⟨d.text, pos + (Segment.printAll (ds.take i)).length⟩ := by
  induction ds generalizing pos with
  | nil => rfl
  | cons d ds ih =>
    rw [Segment.printAll_cons, collect_of_written d.written, collect_separator d.isSeparator, ih,
      List.mapIdx_cons]
    have hplaces : (fun i (e : Segment) => (⟨e.text, pos + d.text.length + d.behind.length +
          (Segment.printAll (ds.take i)).length⟩ : Candidate)) =
        fun i e => ⟨e.text, pos + (Segment.printAll ((d :: ds).take (i + 1))).length⟩ := by
      funext i e
      rw [List.take_succ_cons, Segment.printAll_cons, List.length_append, List.length_append]
      congr 1
      omega
    rw [hplaces]
    rfl

end Candidate

/-- **Declarations are found completely.** A text that is written as declarations with separators
before, between and behind them has these declarations as its candidates, each at the place it is
written at, and no others. The default rules give each of them its shape and its name. -/
theorem candidates_of_segments (lead : List Char) (ds : List Segment) (h : IsSeparator lead) :
    candidates (lead ++ Segment.printAll ds) =
        (ds.mapIdx fun i d => ⟨d.text, (lead ++ Segment.printAll (ds.take i)).length⟩)
      ∧ ∀ d ∈ ds, disambiguate Rule.defaults d.text = .ok (some d.declaration) := by
  constructor
  · rw [candidates, Candidate.collect_separator h, Candidate.collect_printAll, Nat.zero_add]
    simp only [List.length_append]
  · intro d _
    exact disambiguate_defaults_iff.2 ⟨d.tag, d.typeName, d.written, rfl⟩

/-- Declarations of all shapes. The text before each of the first two ends like the beginning of a
word that goes on with the beginning of the declaration. -/
def crowdedSegments : List Segment :=
  [⟨.typedef, [], ['A'], "typedef struct \x7bint a;\x7d A;".toList, " __attribute".toList,
      Shape.written_of_readWhole rfl, by decide +kernel⟩,
    ⟨.packed, ['P'], [], "__attribute__((packed)) struct P\x7b\x7d".toList, [],
      Shape.written_of_readWhole rfl, by decide +kernel⟩,
    ⟨.forward, ['F'], [], "struct F ;".toList, ['\n'], Shape.written_of_readWhole rfl,
      by decide +kernel⟩,
    ⟨.typedef, ['T'], ['U'], "typedef struct T\n\x7b\x7b\x7dU;".toList, [],
      Shape.written_of_readWhole rfl, by decide +kernel⟩]

theorem candidates_of_crowded :
    IsSeparator "struc".toList
      ∧ candidates ("struc".toList ++ Segment.printAll crowdedSegments) =
        [⟨"typedef struct \x7bint a;\x7d A;".toList, 5⟩,
          ⟨"__attribute__((packed)) struct P\x7b\x7d".toList, 43⟩,
          ⟨"struct F ;".toList, 77⟩, ⟨"typedef struct T\n\x7b\x7b\x7dU;".toList, 88⟩]
      ∧ ∀ d ∈ crowdedSegments, disambiguate Rule.defaults d.text = .ok (some d.declaration) := by
  have hlead : IsSeparator "struc".toList := by decide +kernel
  obtain ⟨hcandidates, hnames⟩ := candidates_of_segments "struc".toList crowdedSegments hlead
  exact ⟨hlead, hcandidates.trans (by decide +kernel), hnames⟩

end StructAtlas
