import StructAtlas.Proofs.BodySearch
import StructAtlas.Proofs.FieldText
import StructAtlas.Proofs.ScanRun

set_option autoImplicit false

/-!
# Printed structs

A `StructSpec` is a named struct with at least one field. `printAll` prints structs one after the
other, each over several lines. Every step of the analysis finds in such a text what was printed:
its candidates are the printed declarations (`collect_printAll`), the scan enters every struct at
the line it begins on (`views_printAll`), and the search at that line finds the printed body
(`find_printAll`, `begins_printAll`).
-/

namespace StructAtlas

open Text Body

/-- A struct as it is written. -/
structure StructSpec where
  name : List Char
  fields : List FieldSpec
  isName_name : IsName name
  fields_ne : fields ≠ []

namespace StructSpec

/-- The keyword of a struct. -/
def keyword : List Char :=
  ['s', 't', 'r', 'u', 'c', 't']

/-- The text in front of the opening brace. -/
def head (s : StructSpec) : List Char :=
  keyword ++ ' ' :: (s.name ++ [' '])

/-- The declaration through its closing brace. -/
def declaration (indent : List Char) (s : StructSpec) : List Char :=
  s.head ++ '\x7b' :: (FieldSpec.inner indent s.fields ++ ['\x7d'])

/-- The lines of a struct. -/
def print (indent : List Char) (s : StructSpec) : List Char :=
  s.declaration indent ++ [';', '\n']

/-- The lines of structs, one after the other. -/
def printAll (indent : List Char) (ss : List StructSpec) : List Char :=
  ss.flatMap (print indent)

/-- The name as a text. -/
def nameText (s : StructSpec) : String :=
  String.ofList s.name

/-- Structs with the lines they begin on. -/
def located (indent : List Char) (path : String) : Nat → List StructSpec →
    List (StructSpec × Location)
  | _, [] => []
  | line, s :: ss =>
    (s, ⟨path, line⟩) :: located indent path (line + countLines (s.print indent)) ss

theorem map_fst_located (indent : List Char) (path : String) (line : Nat) (ss : List StructSpec) :
    (located indent path line ss).map (·.1) = ss := by
  induction ss generalizing line with
  | nil => rfl
  | cons s ss ih => rw [located, List.map_cons, ih]

/-! ## Characters of printed structs -/

theorem run_head (s : StructSpec) : Run FieldSpec.isPlain s.head := by
  have hname : Run FieldSpec.isPlain s.name := fun c hc =>
    FieldSpec.isPlain_of_isWord (s.isName_name.2 c hc)
  exact run_append.2 ⟨by decide, run_cons.2 ⟨by decide, run_append.2 ⟨hname, by decide⟩⟩⟩

theorem run_head_isMark (s : StructSpec) : Run (fun c => !isMark c) s.head := by
  intro c hc
  have hplain := s.run_head c hc
  simp only [FieldSpec.isPlain_iff, List.mem_cons, not_or] at hplain
  simp [isMark, hplain]

section

variable {indent : List Char} (hindent : FieldSpec.IsIndent indent)

include hindent

theorem not_mem_print (s : StructSpec) : ∀ c ∈ s.print indent, c ∉ ['/', '\r'] := by
  intro c hc
  rw [print, declaration] at hc
  simp only [List.mem_append, List.mem_cons, List.not_mem_nil, or_false] at hc
  rcases hc with (hc | rfl | hc | rfl) | rfl | rfl
  · have hplain := s.run_head c hc
    simp only [FieldSpec.isPlain_iff, List.mem_cons, not_or] at hplain
    simp [hplain]
  · decide
  · have hinner := FieldSpec.run_inner hindent s.fields c hc
    simp only [List.mem_cons, not_or] at hinner
    simp [hinner]
  · decide
  · decide
  · decide

theorem not_mem_printAll (ss : List StructSpec) : ∀ c ∈ printAll indent ss, c ∉ ['/', '\r'] := by
  intro c hc
  obtain ⟨s, -, hcs⟩ := List.mem_flatMap.1 hc
  exact s.not_mem_print hindent c hcs

end

end StructSpec

/-- A text without slashes has no comments. -/
theorem Comment.strip_of_not_mem {keepLines : Bool} {cs : List Char} (h : '/' ∉ cs) :
    Comment.strip keepLines cs = cs := by
  rw [strip]
  induction cs with
  | nil => rfl
  | cons c cs ih =>
    have hc : c ≠ '/' := fun e => h (e ▸ List.mem_cons_self)
    have hlength : length? (c :: cs) = none := by
      rw [length?.eq_def]
      -- Both kinds of comment begin with a slash.
      split
      · rename_i e
        exact absurd (List.cons.inj e).1 hc
      · rename_i e
        exact absurd (List.cons.inj e).1 hc
      · rfl
    rw [stripFrom, hlength, ih fun hm => h (List.mem_cons_of_mem _ hm)]

namespace StructSpec

/-! ## The scan of printed structs -/

theorem written_declaration (indent : List Char) (hindent : FieldSpec.IsIndent indent)
    (s : StructSpec) : Shape.Written .tagged s.name [] (s.declaration indent) := by
  have hgap : IsGap [' '] := by decide
  have hblank : Run isBlank [' '] := by decide
  have hinner : '\x7d' ∉ FieldSpec.inner indent s.fields := fun hm =>
    FieldSpec.run_inner hindent s.fields _ hm (by decide)
  have hwritten := Shape.Written.tagged hgap s.isName_name hblank hinner
  have hkeyword : keyword = "struct".toList := by decide
  have htext : s.declaration indent = "struct".toList ++ ([' '] ++ (s.name
      ++ ([' '] ++ '\x7b' :: (FieldSpec.inner indent s.fields ++ ['\x7d'])))) := by
    rw [← hkeyword, declaration, head]
    simp only [List.append_assoc, List.cons_append, List.nil_append]
  rw [htext]
  exact hwritten

/-- No candidate begins with the end of a declaration. -/
theorem collect_end (pos : Nat) (cs : List Char) :
    Candidate.collect 0 pos (';' :: '\n' :: cs) = Candidate.collect 0 (pos + 2) cs := by
  have hnone : ∀ (c : Char) (cs : List Char), c = ';' ∨ c = '\n' →
      Candidate.length? (c :: cs) = none := by
    intro c cs hc
    cases hlength : Candidate.length? (c :: cs) with
    | none => rfl
    | some n =>
      obtain ⟨s, tag, typeName, text, rest, hcs, -, hwritten⟩ := Candidate.length?_iff.1 hlength
      have hends := hwritten.ends_mem
      have hhead : text.head? = some c := by
        cases text with
        | nil => exact absurd rfl hwritten.ne_nil
        | cons d text =>
          rw [List.cons_append, List.cons.injEq] at hcs
          rw [hcs.1]
          rfl
      rw [hhead] at hends
      rcases hc with rfl | rfl <;> cases s <;> simp [Shape.ends] at hends
  rw [Candidate.collect, hnone _ _ (Or.inl rfl)]
  simp only
  rw [Candidate.collect, hnone _ _ (Or.inr rfl)]

/-- The declarations of printed structs, with their offsets. -/
def marks (indent : List Char) : Nat → List StructSpec → List Candidate
  | _, [] => []
  | pos, s :: ss => ⟨s.declaration indent, pos⟩ :: marks indent (pos + (s.print indent).length) ss

/-- The candidates of printed structs are their declarations. -/
theorem collect_printAll {indent : List Char} (hindent : FieldSpec.IsIndent indent) (pos : Nat)
    (ss : List StructSpec) :
    Candidate.collect 0 pos (printAll indent ss) = marks indent pos ss := by
  induction ss generalizing pos with
  | nil => rfl
  | cons s ss ih =>
    have hsplit : printAll indent (s :: ss)
        = s.declaration indent ++ (';' :: '\n' :: printAll indent ss) := by
      simp [printAll, print]
    have hlength : (s.print indent).length = (s.declaration indent).length + 2 := by
      simp [print]
    rw [hsplit, Candidate.collect_of_written (s.written_declaration indent hindent), collect_end,
      ih, marks, hlength, Nat.add_assoc]

/-- Every struct is declared on the line it begins on. -/
theorem declaredAt_marks {indent : List Char} (hindent : FieldSpec.IsIndent indent) (path : String)
    (before : List Char) (ss : List StructSpec) :
    (marks indent before.length ss).filterMap
        (Scan.declaredAt (Scan.place path
          (LineIndex.ofLines (lines (before ++ printAll indent ss)))))
      = (located indent path (countLines before + 1) ss).map fun x => (x.1.nameText, x.2) := by
  induction ss generalizing before with
  | nil => rfl
  | cons s ss ih =>
    have hplace : Scan.place path (LineIndex.ofLines (lines (before ++ printAll indent (s :: ss))))
        before.length = ⟨path, (countLines before + 1 : Nat)⟩ := by
      rw [Scan.place, LineIndex.lineAt_lines (by simp), List.take_left' rfl]
    have hdeclared : disambiguate Rule.defaults (s.declaration indent)
        = .ok (some ⟨s.nameText, .tagged⟩) :=
      disambiguate_defaults_iff.2 ⟨s.name, [], s.written_declaration indent hindent, rfl⟩
    have hat : Scan.declaredAt (Scan.place path
          (LineIndex.ofLines (lines (before ++ printAll indent (s :: ss)))))
        ⟨s.declaration indent, before.length⟩
        = some (s.nameText, ⟨path, (countLines before + 1 : Nat)⟩) := by
      simp only [Scan.declaredAt, hdeclared, hplace]
    have hsplit : before ++ printAll indent (s :: ss)
        = (before ++ s.print indent) ++ printAll indent ss := by
      simp [printAll]
    have hcount : countLines (before ++ s.print indent) + 1
        = countLines before + 1 + countLines (s.print indent) := by
      simp only [countLines, List.count_append]
      omega
    have hrest := ih (before ++ s.print indent)
    rw [hcount, ← hsplit, List.length_append] at hrest
    rw [marks, List.filterMap_cons_some hat, located, List.map_cons, hrest]

theorem declaredIn_printAll {indent : List Char} (hindent : FieldSpec.IsIndent indent)
    (path : String) (ss : List StructSpec) :
    Scan.declaredIn true ⟨path, printAll indent ss⟩
      = (located indent path 1 ss).map fun x => (x.1.nameText, x.2) := by
  have hclean : Scan.cleanText true ⟨path, printAll indent ss⟩ = printAll indent ss :=
    Comment.strip_of_not_mem fun hm => not_mem_printAll hindent ss _ hm (by decide)
  have hall := declaredAt_marks hindent path [] ss
  rw [List.nil_append] at hall
  rw [Scan.declaredIn, Scan.lineIndex, if_pos rfl, hclean, candidates, collect_printAll hindent]
  exact hall

theorem nodup_nameText {ss : List StructSpec} (h : (ss.map (·.name)).Nodup) :
    (ss.map nameText).Nodup :=
  List.pairwise_map.2 ((List.pairwise_map.1 h).imp fun hne e => hne (String.ofList_injective e))

/-- The registry of printed structs with different names: every struct has one definition. -/
theorem views_printAll {indent : List Char} (hindent : FieldSpec.IsIndent indent) (path : String)
    {ss : List StructSpec} (hnodup : (ss.map (·.name)).Nodup) :
    (Scan.unit Rule.defaults true ⟨path, printAll indent ss⟩ Registry.empty).registry.entries.map
        (fun e => (e.name, e.definitions))
      = (located indent path 1 ss).map fun x => (.text x.1.nameText, [x.2]) := by
  generalize hr : (Scan.unit Rule.defaults true ⟨path, printAll indent ss⟩
    Registry.empty).registry = r
  generalize hds : Scan.declaredIn true ⟨path, printAll indent ss⟩ = ds
  have hdeclared : ds = (located indent path 1 ss).map fun x => (x.1.nameText, x.2) := by
    rw [← hds, declaredIn_printAll hindent path ss]
  have hkeys : (ds.map (·.1)).Nodup := by
    have hmap : ds.map (·.1) = ((located indent path 1 ss).map (·.1)).map nameText := by
      rw [hdeclared, List.map_map, List.map_map]
      rfl
    rw [hmap, map_fst_located]
    exact nodup_nameText hnodup
  have hnew : (ds.map fun p => Name.text p.1).Nodup :=
    List.pairwise_map.2 ((List.pairwise_map.1 hkeys).imp fun hne e => hne (Name.text.inj e))
  have hnames : r.names = ds.map fun p => Name.text p.1 := by
    have hempty : Registry.empty.names = [] := rfl
    rw [← hr, Scan.names_unit, hds, hempty, extend_of_nodup (fun _ _ => List.not_mem_nil) hnew,
      List.nil_append]
  -- A struct is declared once, so its first definition is its only one.
  have hdefinitions : ∀ p ∈ ds, r.definitionsOf (.text p.1) = [p.2] := by
    intro p hp
    have hempty : Registry.empty.definitionsOf (.text p.1) = [] := rfl
    have hnot : ∀ l ∈ [p.2], l ∉ ([] : List Location) := fun _ _ => List.not_mem_nil
    rw [← hr, Scan.definitionsOf_unit, hds, placesOf_of_nodup hkeys hp, hempty,
      extend_of_nodup hnot (by simp), List.nil_append]
  have htext : ∀ n ∈ r.names, n.isText = true := by
    intro n hn
    rw [hnames] at hn
    obtain ⟨p, -, rfl⟩ := List.mem_map.1 hn
    rfl
  calc r.entries.map (fun e => (e.name, e.definitions))
      = r.names.map fun n => (n, r.definitionsOf n) := by
        rw [Registry.IsTextual.entries_eq ⟨hnames ▸ hnew, htext⟩, List.map_map]
        rfl
    _ = ds.map fun p => (Name.text p.1, r.definitionsOf (.text p.1)) := by
        rw [hnames, List.map_map]
        rfl
    _ = ds.map fun p => (Name.text p.1, [p.2]) := by
        apply List.map_congr_left
        intro p hp
        rw [hdefinitions p hp]
    _ = (located indent path 1 ss).map fun x => (.text x.1.nameText, [x.2]) := by
        rw [hdeclared, List.map_map]
        rfl

/-! ## The bodies of printed structs -/

/-- The first line of a struct begins with its keyword. -/
theorem fromKeyword_head (s : StructSpec) (rest : List Char) :
    fromKeyword (s.head ++ rest) = s.head ++ rest := by
  have hkeyword :
      Reading.keyword "struct" (s.head ++ rest) = some (' ' :: (s.name ++ ' ' :: rest)) := by
    have htext : s.head ++ rest = "struct".toList ++ ' ' :: (s.name ++ ' ' :: rest) := by
      have hkeyword : keyword = "struct".toList := by decide
      rw [← hkeyword, head]
      simp only [List.append_assoc, List.cons_append, List.nil_append]
    exact Reading.keyword_eq_some.2 htext
  have hstarts : startsDeclaration false (s.head ++ rest) = true := by
    have hword : startsWithWord "struct" (s.head ++ rest) = true := by
      rw [startsWithWord, hkeyword]
      exact show (!isWord ' ') = true by decide
    simp [startsDeclaration, hword]
  have hfound : fromKeyword? false (s.head ++ rest) = some (s.head ++ rest) := by
    rw [head, keyword] at hstarts ⊢
    simp only [List.cons_append] at hstarts ⊢
    rw [fromKeyword?, if_pos hstarts]
  rw [fromKeyword, hfound]
  rfl

/-- The lines from the first line of a struct on. -/
theorem drop_lines_print (indent : List Char) {before : List Char} (hbefore : EndsLine before)
    (s : StructSpec) (rest : List Char) :
    ∃ others, (lines (before ++ (s.print indent ++ rest))).drop (countLines before)
        = (s.head ++ ['\x7b']) :: others
      ∧ joinLines ((s.head ++ ['\x7b']) :: others) = s.print indent ++ rest := by
  have hfeed : '\n' ∉ s.head ++ ['\x7b'] := by
    intro hm
    rcases List.mem_append.1 hm with hm | hm
    · exact absurd (s.run_head _ hm) (by decide)
    · exact absurd hm (by decide)
  have htext : s.print indent ++ rest
      = (s.head ++ ['\x7b']) ++ '\n' :: (s.fields.flatMap (FieldSpec.line indent)
        ++ '\x7d' :: ';' :: '\n' :: rest) := by
    simp [print, declaration, FieldSpec.inner]
  have hlines : lines (s.print indent ++ rest)
      = (s.head ++ ['\x7b']) :: lines (s.fields.flatMap (FieldSpec.line indent)
        ++ '\x7d' :: ';' :: '\n' :: rest) := by
    have hfirst : lines (s.head ++ ['\x7b']) = [s.head ++ ['\x7b']] := by
      have hrun := lines_append_of_not_mem hfeed (show lines [] = [] :: [] from rfl)
      rwa [List.append_nil] at hrun
    rw [htext, lines_append_lineFeed, hfirst]
    rfl
  refine ⟨_, (drop_lines hbefore _).trans hlines, ?_⟩
  rw [← hlines, joinLines_lines]

theorem line_le (before rest : List Char) :
    countLines before + 1 ≤ (lines (before ++ rest)).length := by
  rw [length_lines]
  simp only [countLines, List.count_append]
  omega

/-- A search at the first line of a struct finds its body. -/
theorem find_print {indent before : List Char} (hindent : FieldSpec.IsIndent indent)
    (hbefore : EndsLine before) (s : StructSpec) (rest : List Char) :
    ∃ endLine, Body.find (lines (before ++ (s.print indent ++ rest))) (countLines before + 1 : Nat)
      = .ok ⟨FieldSpec.inner indent s.fields, endLine⟩ := by
  obtain ⟨others, hdrop, hjoin⟩ := drop_lines_print indent hbefore s rest
  have hsource : sourceFrom? (lines (before ++ (s.print indent ++ rest)))
      (countLines before + 1 : Nat) = some (s.print indent ++ rest) := by
    have hle := line_le before (s.print indent ++ rest)
    rw [sourceFrom?, if_pos (by simp; omega), Int.toNat_natCast, Nat.add_sub_cancel, hdrop]
    simp only
    rw [fromKeyword_head, hjoin]
  have htext : s.print indent ++ rest
      = s.head ++ '\x7b' :: (FieldSpec.inner indent s.fields ++ '\x7d' :: ';' :: '\n' :: rest) := by
    simp [print, declaration]
  -- The printed fields hold no braces, so the body ends at the brace behind them.
  have hflat := staysOpen_of_flat
    (fun hm => FieldSpec.run_inner hindent s.fields '\x7b' hm (by decide))
    (fun hm => FieldSpec.run_inner hindent s.fields '\x7d' hm (by decide))
  have hdepth : ((1 : Nat) : Int) + surplus (FieldSpec.inner indent s.fields) = 1 := by
    rw [hflat.2]
    rfl
  rw [Body.find, hsource]
  simp only [Int.toNat_natCast]
  rw [htext, seek_append s.run_head_isMark, seek, if_pos (by decide)]
  exact ⟨_, collect_closed hflat.1 hdepth⟩

theorem braceFirst_append {lead : List Char} (h : Run (fun c => !isMark c) lead) (cs : List Char) :
    braceFirst (lead ++ cs) = braceFirst cs := by
  induction lead with
  | nil => rfl
  | cons c lead ih =>
    obtain ⟨hc, hlead⟩ := run_cons.1 h
    simp only [isMark, Bool.not_eq_true', Bool.or_eq_false_iff, beq_eq_false_iff_ne] at hc
    rw [List.cons_append, braceFirst]
    simp only [beq_iff_eq, hc.1.1, hc.1.2, hc.2, ↓reduceIte, Bool.or_eq_true, or_self]
    exact ih hlead

/-- A body begins at the first line of a struct. -/
theorem begins_print (indent : List Char) {before : List Char} (hbefore : EndsLine before)
    (s : StructSpec) (rest : List Char) :
    Body.begins (lines (before ++ (s.print indent ++ rest))) (countLines before + 1 : Nat)
      = true := by
  obtain ⟨others, hdrop, -⟩ := drop_lines_print indent hbefore s rest
  have hle := line_le before (s.print indent ++ rest)
  rw [Body.begins, if_pos (by simp; omega), Int.toNat_natCast, Nat.add_sub_cancel, hdrop]
  simp only
  rw [fromKeyword_head, List.flatten_cons, List.append_assoc, braceFirst_append s.run_head_isMark]
  rfl

/-- What holds of a struct in the middle of a text holds of all printed structs at their places. -/
theorem forall_located {indent : List Char} (path : String)
    {P : List Char → StructSpec → Location → Prop}
    (h : ∀ before s rest, EndsLine before →
      P (before ++ (s.print indent ++ rest)) s ⟨path, (countLines before + 1 : Nat)⟩)
    (ss : List StructSpec) :
    ∀ x ∈ located indent path 1 ss, P (printAll indent ss) x.1 x.2 := by
  have hgeneral : ∀ before, EndsLine before → ∀ x ∈ located indent path (countLines before + 1) ss,
      P (before ++ printAll indent ss) x.1 x.2 := by
    induction ss with
    | nil =>
      intro before _ x hx
      cases hx
    | cons s ss ih =>
      intro before hbefore x hx
      have hsplit : before ++ printAll indent (s :: ss)
          = before ++ (s.print indent ++ printAll indent ss) := by
        simp [printAll]
      rcases List.mem_cons.1 hx with rfl | hx
      · rw [hsplit]
        exact h before s _ hbefore
      · have hcount : countLines (before ++ s.print indent) + 1
            = countLines before + 1 + countLines (s.print indent) := by
          simp only [countLines, List.count_append]
          omega
        have hends : EndsLine (before ++ s.print indent) := by
          refine Or.inr ⟨before ++ (s.declaration indent ++ [';']), ?_⟩
          simp [print]
        have hrest := ih (before ++ s.print indent) hends x (hcount ▸ hx)
        rw [List.append_assoc] at hrest
        rw [hsplit]
        exact hrest
  exact hgeneral [] (Or.inl rfl)

theorem find_printAll {indent : List Char} (hindent : FieldSpec.IsIndent indent) (path : String)
    (ss : List StructSpec) :
    ∀ x ∈ located indent path 1 ss, ∃ endLine, Body.find (lines (printAll indent ss)) x.2.line
      = .ok ⟨FieldSpec.inner indent x.1.fields, endLine⟩ :=
  forall_located path (P := fun text s l => ∃ endLine, Body.find (lines text) l.line
      = .ok ⟨FieldSpec.inner indent s.fields, endLine⟩)
    (fun _ s rest hbefore => find_print hindent hbefore s rest) ss

theorem begins_printAll (indent : List Char) (path : String) (ss : List StructSpec) :
    ∀ x ∈ located indent path 1 ss, Body.begins (lines (printAll indent ss)) x.2.line = true :=
  forall_located path (P := fun text _ l => Body.begins (lines text) l.line = true)
    (fun _ s rest hbefore => begins_print indent hbefore s rest) ss

theorem path_located (indent : List Char) (path : String) (ss : List StructSpec) :
    ∀ x ∈ located indent path 1 ss, x.2.path = path :=
  forall_located path (P := fun _ _ l => l.path = path) (fun _ _ _ _ => rfl) ss

end StructSpec

end StructAtlas
