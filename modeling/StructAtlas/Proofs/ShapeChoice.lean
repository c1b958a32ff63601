import Mathlib.Logic.ExistsUnique
import StructAtlas.Proofs.ScanRun

set_option autoImplicit false

/-!
# One shape for every candidate

The search for candidates and the four readers of shapes are written independently of each other.
They agree: a text is a candidate as a whole if and only if one of the readers accepts it as a
whole, and no two readers accept the same text. So it does not matter in which order the rules are
asked (`disambiguate_of_perm`, `unit_of_perm`), every candidate becomes a declaration, and a scan
notes no problem.
-/

namespace StructAtlas

namespace Shape

theorem isSome_readWhole_iff {s : Shape} {text : List Char} :
    (s.readWhole text).isSome = true ↔ ∃ tag typeName, Written s tag typeName text := by
  rw [Option.isSome_iff_exists]
  constructor
  · rintro ⟨parts, hparts⟩
    exact ⟨parts.tag, parts.typeName, (readWhole_iff.1 hparts).2⟩
  · rintro ⟨tag, typeName, hwritten⟩
    exact ⟨⟨tag, typeName, []⟩, readWhole_iff.2 ⟨rfl, hwritten⟩⟩

/-- No text is accepted as a whole by two readers. -/
theorem eq_of_readWhole {s s' : Shape} {text : List Char} (h : (s.readWhole text).isSome = true)
    (h' : (s'.readWhole text).isSome = true) : s = s' := by
  obtain ⟨tag, typeName, hwritten⟩ := isSome_readWhole_iff.1 h
  obtain ⟨tag', typeName', hwritten'⟩ := isSome_readWhole_iff.1 h'
  exact hwritten.shape_unique hwritten'

end Shape

/-- A text is a candidate as a whole if and only if a reader accepts it as a whole. -/
theorem Candidate.rest?_eq_nil_iff {text : List Char} :
    rest? text = some [] ↔ ∃ s : Shape, (s.readWhole text).isSome = true := by
  simp only [rest?_iff, List.append_nil, Shape.isSome_readWhole_iff]
  constructor
  · rintro ⟨s, tag, typeName, text, rfl, hwritten⟩
    exact ⟨s, tag, typeName, hwritten⟩
  · rintro ⟨s, tag, typeName, hwritten⟩
    exact ⟨s, tag, typeName, text, rfl, hwritten⟩

theorem isSome_readWhole_of_mem {cs : List Char} {c : Candidate} (h : c ∈ candidates cs) :
    ∃ s : Shape, (s.readWhole c.content).isSome = true := by
  obtain ⟨-, -, s, tag, typeName, -, -, hwritten⟩ := mem_candidates h
  exact ⟨s, Shape.isSome_readWhole_iff.2 ⟨tag, typeName, hwritten⟩⟩

/-! ## The order of the rules -/

/-- The default rules in any order are the rules of all shapes. -/
theorem Rule.exists_shapes_of_perm {rules : List Rule} (h : rules.Perm Rule.defaults) :
    ∃ shapes : List Shape, rules = shapes.map ofShape ∧ ∀ s, s ∈ shapes := by
  refine ⟨rules.map (·.shape), ?_, ?_⟩
  · have hown : ∀ r ∈ Rule.defaults, ofShape r.shape = r := by decide
    have hsame : rules.map (ofShape ∘ (·.shape)) = rules.map id :=
      List.map_congr_left fun r hr => hown r (h.mem_iff.1 hr)
    rw [List.map_map, hsame, List.map_id]
  · intro s
    have hs : ofShape s ∈ Rule.defaults ∧ (ofShape s).shape = s := by cases s <;> decide
    exact List.mem_map.2 ⟨ofShape s, h.mem_iff.2 hs.1, hs.2⟩

theorem disambiguate_of_perm {rules : List Rule} (h : rules.Perm Rule.defaults) {s : Shape}
    {tag typeName content : List Char} (hwritten : Shape.Written s tag typeName content) :
    disambiguate rules content = .ok (some ⟨String.ofList (s.nameIn tag typeName), s⟩) := by
  obtain ⟨shapes, rfl, hall⟩ := Rule.exists_shapes_of_perm h
  exact Rule.disambiguate_of_written (hall s) hwritten

namespace Scan

theorem declare_congr {rules rules' : List Rule} (locate : Nat → Location) {cs : List Candidate}
    (h : ∀ c ∈ cs, disambiguate rules c.content = disambiguate rules' c.content) (r : Registry) :
    declare rules locate cs r = declare rules' locate cs r := by
  induction cs generalizing r with
  | nil => rfl
  | cons c cs ih =>
    have hrest := ih fun c hc => h c (List.mem_cons_of_mem _ hc)
    rw [declare, declare, h c List.mem_cons_self]
    simp only [hrest]

/-- A scan does not depend on the order of the rules. -/
theorem unit_of_perm {rules : List Rule} (h : rules.Perm Rule.defaults) (keepLines : Bool)
    (u : SourceUnit) (r : Registry) :
    unit rules keepLines u r = unit Rule.defaults keepLines u r := by
  have hsame : ∀ c ∈ candidates (cleanText keepLines u),
      disambiguate rules c.content = disambiguate Rule.defaults c.content := by
    intro c hc
    obtain ⟨-, -, s, tag, typeName, -, -, hwritten⟩ := mem_candidates hc
    rw [disambiguate_of_perm h hwritten, disambiguate_of_perm (List.Perm.refl _) hwritten]
  rw [unit, unit, declare_congr _ hsame]

theorem lasting_problems (ps : ProblemList) : Act.Lasting fun s => s.problems = ps :=
  fun _ _ h => h

end Scan

/-- **Search and rules agree.** Every candidate of a text is accepted as a whole by exactly one of
the four readers. The rules of the four shapes, in whatever order they are asked, make the same
declaration of it, which has the shape of that reader. A scan with the rules in any order notes no
malformed declaration: it comes to its end and leaves the list of problems as it was. More
generally, no text at all is accepted as a whole by two readers, and the search takes a text as a
whole if and only if some reader does. -/
theorem one_shape_for_every_candidate :
    (∀ cs, ∀ c ∈ candidates cs, ∃! s : Shape, (s.readWhole c.content).isSome = true)
    ∧ (∀ cs, ∀ c ∈ candidates cs, ∃ d : Declaration,
        (d.shape.readWhole c.content).isSome = true
        ∧ ∀ rules : List Rule, rules.Perm Rule.defaults →
          disambiguate rules c.content = .ok (some d))
    ∧ (∀ rules : List Rule, rules.Perm Rule.defaults →
        ∀ (keepLines : Bool) (u : SourceUnit) (r : Registry) (s : Session),
          (∀ content, .malformed content ∉ (Scan.unit rules keepLines u r).findings)
          ∧ ∃ t, Scan.logScanned u (Scan.unit rules keepLines u r) s = .ok () t
            ∧ t.problems = s.problems)
    ∧ (∀ (text : List Char) (s s' : Shape), (s.readWhole text).isSome = true →
        (s'.readWhole text).isSome = true → s = s')
    ∧ ∀ text, Candidate.rest? text = some [] ↔
        ∃ s : Shape, (s.readWhole text).isSome = true := by
  refine ⟨?_, ?_, ?_, fun text s s' h h' => Shape.eq_of_readWhole h h',
    fun text => Candidate.rest?_eq_nil_iff⟩
  · intro cs c hc
    obtain ⟨s, hs⟩ := isSome_readWhole_of_mem hc
    exact ⟨s, hs, fun s' hs' => Shape.eq_of_readWhole hs' hs⟩
  · intro cs c hc
    obtain ⟨s, hs⟩ := isSome_readWhole_of_mem hc
    obtain ⟨tag, typeName, hwritten⟩ := Shape.isSome_readWhole_iff.1 hs
    exact ⟨⟨String.ofList (s.nameIn tag typeName), s⟩, hs,
      fun rules h => disambiguate_of_perm h hwritten⟩
  · intro rules h keepLines u r s
    rw [Scan.unit_of_perm h]
    constructor
    · intro content hmem
      rcases Scan.findings_unit keepLines u r _ hmem with hfound | hfound <;> cases hfound
    · exact Scan.returns_logScanned (Scan.lasting_problems s.problems) keepLines u r s rfl

/-- A typedef that holds the text of a tagged struct, with a name of its own. -/
def namedTypedef : Candidate :=
  ⟨"typedef struct A\x7b\x7dB;".toList, 1⟩

theorem reversed_rules_name_typedef :
    namedTypedef ∈ candidates (' ' :: namedTypedef.content)
      ∧ Rule.defaults.reverse.Perm Rule.defaults
      ∧ disambiguate Rule.defaults.reverse namedTypedef.content
        = .ok (some ⟨"B", .typedef⟩) := by
  have hmem : namedTypedef ∈ candidates (' ' :: namedTypedef.content) := by decide +kernel
  have hperm : Rule.defaults.reverse.Perm Rule.defaults := List.reverse_perm _
  obtain ⟨d, -, hsame⟩ := one_shape_for_every_candidate.2.1 _ _ hmem
  -- The order of the rules does not matter, so the default order tells the declaration.
  refine ⟨hmem, hperm, (hsame _ hperm).trans ((hsame _ (List.Perm.refl _)).symm.trans ?_)⟩
  rfl

end StructAtlas
