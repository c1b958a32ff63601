import Mathlib.Logic.Relation
import StructAtlas.Proofs.Runs

set_option autoImplicit false

/-!
# Patterns

The readers of this library take the longest run of a class at each step and never step back. What
they read can also be described by a pattern that is matched with backtracking: `Pattern.ends` lists
the places to which a match can lead, in the order in which they are tried, so the first one is the
match that is found. A repetition is as long or as short as possible at first and gives characters
back or takes more of them on request.

Every kind of pattern has one lemma that says which places it leads to (`mem_ends_seq`,
`mem_ends_many`, and so on). For classes of characters these are the places behind a run of the
class (`mem_ends_run`, `mem_ends_oneOrMore`). Where it matters what is kept of a text, a `Language`
says which texts are taken and what is kept of each, and `Describes` ties a pattern to it. Such
descriptions are put together as the patterns are (`Describes.seq`, `Describes.alt`,
`Describes.named`).
-/

namespace StructAtlas

open Text

/-- A description of texts. -/
inductive Pattern where
  | empty
  | char (p : Char → Bool)
  | edge
  | seq (a b : Pattern)
  | alt (a b : Pattern)
  | many (a : Pattern)
  | few (a : Pattern)
  | named (name : String) (a : Pattern)

namespace Pattern

/-- A place in a text, with what was kept on the way to it. -/
@[ext]
structure Place where
  before : List Char
  rest : List Char
  kept : List (String × List Char)

namespace Place

/-- The beginning of a text. -/
def start (cs : List Char) : Place :=
  ⟨[], cs, []⟩

/-- The place behind one character of a class. -/
def step (p : Char → Bool) (x : Place) : List Place :=
  match x.rest with
  | [] => []
  | c :: cs => if p c then [⟨c :: x.before, cs, x.kept⟩] else []

/-- A word begins or ends here. -/
def isEdge (x : Place) : Bool :=
  x.before.head?.any isWord != x.rest.head?.any isWord

/-- The text between two places of which the second one is further on. -/
def textTo (x y : Place) : List Char :=
  x.rest.take (x.rest.length - y.rest.length)

/-- The place with one more text kept. -/
def keep (x : Place) (name : String) (text : List Char) : Place :=
  { x with kept := (name, text) :: x.kept }

/-- The text that was kept under a name last. -/
def get? (x : Place) (name : String) : Option (List Char) :=
  x.kept.lookup name

end Place

/-- One step to a place that is further on. -/
def Advances (next : Place → List Place) (x y : Place) : Prop :=
  y ∈ next x ∧ y.rest.length < x.rest.length

/-- The places that repeated steps lead to, those behind more steps first. A step that takes nothing
is not repeated. -/
def longest (next : Place → List Place) : Nat → Place → List Place
  | 0, x => [x]
  | n + 1, x =>
    ((next x).filter (·.rest.length < x.rest.length)).flatMap (longest next n) ++ [x]

/-- The places that repeated steps lead to, those behind fewer steps first. -/
def shortest (next : Place → List Place) : Nat → Place → List Place
  | 0, x => [x]
  | n + 1, x =>
    x :: ((next x).filter (·.rest.length < x.rest.length)).flatMap (shortest next n)

/-- The places to which a match from a place can lead, in the order in which they are tried. -/
def ends : Pattern → Place → List Place
  | empty, x => [x]
  | char p, x => x.step p
  | edge, x => if x.isEdge then [x] else []
  | seq a b, x => (a.ends x).flatMap b.ends
  | alt a b, x => a.ends x ++ b.ends x
  | many a, x => longest a.ends x.rest.length x
  | few a, x => shortest a.ends x.rest.length x
  | named name a, x => (a.ends x).map fun y => y.keep name (x.textTo y)

/-- Fixed characters. -/
def text : List Char → Pattern
  | [] => empty
  | c :: cs => seq (char (· == c)) (text cs)

/-- One or more characters of a class. -/
def oneOrMore (p : Char → Bool) : Pattern :=
  seq (char p) (many (char p))

/-- A pattern that may be left out. -/
def maybe (a : Pattern) : Pattern :=
  alt a empty

/-- The match of a whole text. -/
def whole? (a : Pattern) (cs : List Char) : Option Place :=
  (a.ends (.start cs)).find? (·.rest.isEmpty)

/-- The offset of the first match behind a text. -/
def searchFrom? (a : Pattern) : List Char → List Char → Option Nat
  | before, [] => if (a.ends ⟨before, [], []⟩).isEmpty then none else some 0
  | before, c :: cs =>
    if (a.ends ⟨before, c :: cs, []⟩).isEmpty then (a.searchFrom? (c :: before) cs).map (· + 1)
    else some 0

/-- The offset of the first match in a text. -/
def search? (a : Pattern) (cs : List Char) : Option Nat :=
  a.searchFrom? [] cs

/-- The text with every match replaced, from left to right. A match that takes nothing is passed
over. -/
def replaceFrom (a : Pattern) (f : List Char → List Char) (before : List Char) :
    List Char → List Char
  | [] => []
  | c :: cs =>
    match (a.ends ⟨before, c :: cs, []⟩).head? with
    | some y =>
      if y.rest.length < (c :: cs).length then
        f (Place.textTo ⟨before, c :: cs, []⟩ y) ++ replaceFrom a f y.before y.rest
      else c :: replaceFrom a f (c :: before) cs
    | none => c :: replaceFrom a f (c :: before) cs
termination_by cs => cs.length
decreasing_by
  · assumption
  · exact Nat.lt_succ_self _
  · exact Nat.lt_succ_self _

/-- The text with every match replaced. -/
def replaceAll (a : Pattern) (f : List Char → List Char) (cs : List Char) : List Char :=
  a.replaceFrom f [] cs

/-- The matches in a text, from left to right, each with its offset. A match that takes nothing is
passed over. -/
def allFrom (a : Pattern) (before : List Char) : List Char → List (Nat × Place)
  | [] => []
  | c :: cs =>
    match (a.ends ⟨before, c :: cs, []⟩).head? with
    | some y =>
      if y.rest.length < (c :: cs).length then
        (before.length, y) :: allFrom a y.before y.rest
      else allFrom a (c :: before) cs
    | none => allFrom a (c :: before) cs
termination_by cs => cs.length
decreasing_by
  · assumption
  · exact Nat.lt_succ_self _
  · exact Nat.lt_succ_self _

/-! ## Places behind each other -/

/-- A text leads from one place to another, and nothing is kept on the way. -/
structure Passes (x : Place) (run : List Char) (y : Place) : Prop where
  rest : x.rest = run ++ y.rest
  before : y.before = run.reverse ++ x.before
  kept : y.kept = x.kept

variable {a b : Pattern} {x y z : Place} {p : Char → Bool} {run run' : List Char}

theorem Passes.refl (x : Place) : Passes x [] x := ⟨rfl, rfl, rfl⟩

theorem Passes.trans (h : Passes x run y) (h' : Passes y run' z) : Passes x (run ++ run') z := by
  refine ⟨?_, ?_, h'.kept.trans h.kept⟩
  · rw [h.rest, h'.rest, List.append_assoc]
  · rw [h'.before, h.before, List.reverse_append, List.append_assoc]

theorem Passes.textTo (h : Passes x run y) : x.textTo y = run := by
  have hlength : (run ++ y.rest).length - y.rest.length = run.length := by
    rw [List.length_append]
    omega
  rw [Place.textTo, h.rest, hlength, List.take_left' rfl]

/-- There is one place behind a text. -/
theorem Passes.unique (h : Passes x run y) (h' : Passes x run z) : y = z := by
  apply Place.ext
  · exact h.before.trans h'.before.symm
  · exact List.append_cancel_left (h.rest.symm.trans h'.rest)
  · exact h.kept.trans h'.kept.symm

theorem passes_nil : Passes x [] y ↔ y = x := by
  constructor
  · intro h
    exact h.unique (.refl x)
  · rintro rfl
    exact .refl y

theorem exists_passes {rest : List Char} (h : x.rest = run ++ rest) :
    ∃ y, Passes x run y ∧ y.rest = rest :=
  ⟨⟨run.reverse ++ x.before, rest, x.kept⟩, ⟨h, rfl, rfl⟩, rfl⟩

/-- A text in two parts leads through a place between them. -/
theorem passes_append : Passes x (run ++ run') z ↔ ∃ y, Passes x run y ∧ Passes y run' z := by
  constructor
  · intro h
    obtain ⟨y, hy, hrest⟩ := exists_passes (h.rest.trans (List.append_assoc ..))
    refine ⟨y, hy, hrest, ?_, h.kept.trans hy.kept.symm⟩
    rw [h.before, hy.before, List.reverse_append, List.append_assoc]
  · rintro ⟨y, hy, hz⟩
    exact hy.trans hz

theorem passes_cons {c : Char} :
    Passes x (c :: run) z ↔ ∃ y, Passes x [c] y ∧ Passes y run z := by
  rw [← List.singleton_append, passes_append]

/-! ## Where patterns lead -/

theorem mem_step : y ∈ x.step p ↔ ∃ c, p c = true ∧ Passes x [c] y := by
  rw [Place.step]
  split
  · rename_i hrest
    constructor
    · intro h
      cases h
    · rintro ⟨c, -, h⟩
      cases hrest.symm.trans h.rest
  · rename_i c cs hrest
    rw [List.mem_ite_nil_right, List.mem_singleton]
    constructor
    · rintro ⟨hc, rfl⟩
      exact ⟨c, hc, hrest, rfl, rfl⟩
    · rintro ⟨d, hd, h⟩
      obtain ⟨rfl, hcs⟩ := List.cons.inj (hrest.symm.trans h.rest)
      exact ⟨hd, h.unique ⟨hrest, rfl, rfl⟩⟩

theorem mem_ends_empty : y ∈ empty.ends x ↔ y = x := List.mem_singleton

theorem mem_ends_char : y ∈ (char p).ends x ↔ ∃ c, p c = true ∧ Passes x [c] y := mem_step

theorem mem_ends_edge : y ∈ edge.ends x ↔ x.isEdge = true ∧ y = x := by
  rw [ends, List.mem_ite_nil_right, List.mem_singleton]

theorem mem_ends_seq : z ∈ (seq a b).ends x ↔ ∃ y ∈ a.ends x, z ∈ b.ends y := List.mem_flatMap

theorem mem_ends_alt : y ∈ (alt a b).ends x ↔ y ∈ a.ends x ∨ y ∈ b.ends x := List.mem_append

theorem mem_ends_named {name : String} :
    y ∈ (named name a).ends x ↔ ∃ z ∈ a.ends x, z.keep name (x.textTo z) = y := List.mem_map

/-- Both repetitions lead to the places that can be reached by single steps. -/
theorem reaches_iff {next : Place → List Place} :
    Relation.ReflTransGen (Advances next) x y ↔
      y = x ∨ ∃ z ∈ (next x).filter (·.rest.length < x.rest.length),
        Relation.ReflTransGen (Advances next) z y := by
  rw [Relation.ReflTransGen.cases_head_iff, eq_comm (a := x)]
  simp only [List.mem_filter, decide_eq_true_eq, Advances]

theorem mem_longest {next : Place → List Place} {n : Nat} (h : x.rest.length ≤ n) :
    y ∈ longest next n x ↔ Relation.ReflTransGen (Advances next) x y := by
  rw [reaches_iff]
  induction n generalizing x with
  | zero =>
    rw [longest, List.mem_singleton]
    refine ⟨Or.inl, ?_⟩
    -- Nothing is left that a step could take.
    rintro (rfl | ⟨z, hz, -⟩)
    · rfl
    · have hlt := (List.mem_filter.1 hz).2
      rw [decide_eq_true_eq] at hlt
      omega
  | succ n ih =>
    rw [longest, List.mem_append, List.mem_singleton, List.mem_flatMap, or_comm]
    apply or_congr_right
    apply exists_congr
    intro z
    apply and_congr_right
    intro hz
    have hlt := (List.mem_filter.1 hz).2
    rw [decide_eq_true_eq] at hlt
    rw [ih (by omega), ← reaches_iff]

theorem mem_shortest {next : Place → List Place} {n : Nat} (h : x.rest.length ≤ n) :
    y ∈ shortest next n x ↔ Relation.ReflTransGen (Advances next) x y := by
  rw [← mem_longest h]
  induction n generalizing x with
  | zero => rfl
  | succ n ih =>
    rw [longest, shortest, List.mem_append, List.mem_singleton, List.mem_cons, List.mem_flatMap,
      List.mem_flatMap, or_comm]
    apply or_congr_left
    apply exists_congr
    intro z
    apply and_congr_right
    intro hz
    have hlt := (List.mem_filter.1 hz).2
    rw [decide_eq_true_eq] at hlt
    exact ih (by omega)

theorem mem_ends_many :
    y ∈ (many a).ends x ↔ Relation.ReflTransGen (Advances a.ends) x y :=
  mem_longest (Nat.le_refl _)

theorem mem_ends_few : y ∈ (few a).ends x ↔ y ∈ (many a).ends x :=
  (mem_shortest (Nat.le_refl _)).trans mem_ends_many.symm

/-! ## Classes of characters -/

theorem mem_ends_text {cs : List Char} : y ∈ (text cs).ends x ↔ Passes x cs y := by
  induction cs generalizing x with
  | nil => rw [text, mem_ends_empty, passes_nil]
  | cons c cs ih =>
    rw [text, mem_ends_seq, passes_cons]
    simp only [mem_ends_char, ih, beq_iff_eq, exists_eq_left]

/-- A step that takes something leads on. -/
theorem Passes.advances {next : Place → List Place} (hpass : Passes x run y) (hne : run ≠ [])
    (h : y ∈ next x) : Advances next x y := by
  refine ⟨h, ?_⟩
  rw [hpass.rest, List.length_append]
  have hpos := List.length_pos_iff.2 hne
  omega

theorem advances_char : Advances (char p).ends x y ↔ ∃ c, p c = true ∧ Passes x [c] y := by
  constructor
  · rintro ⟨h, -⟩
    exact mem_ends_char.1 h
  · rintro ⟨c, hc, hpass⟩
    exact hpass.advances (by simp) (mem_ends_char.2 ⟨c, hc, hpass⟩)

/-- A repeated class leads to the places behind a run of it. -/
theorem mem_ends_run : y ∈ (many (char p)).ends x ↔ ∃ run, Run p run ∧ Passes x run y := by
  rw [mem_ends_many]
  constructor
  · intro h
    induction h with
    | refl => exact ⟨[], run_nil p, .refl x⟩
    | tail _ hstep ih =>
      obtain ⟨run, hrun, hpass⟩ := ih
      obtain ⟨c, hc, hpass'⟩ := advances_char.1 hstep
      exact ⟨run ++ [c], run_append.2 ⟨hrun, run_cons.2 ⟨hc, run_nil p⟩⟩, hpass.trans hpass'⟩
  · rintro ⟨run, hrun, hpass⟩
    induction run generalizing x with
    | nil => rw [passes_nil.1 hpass]
    | cons c run ih =>
      obtain ⟨hc, hrun⟩ := run_cons.1 hrun
      obtain ⟨z, hz, hpass⟩ := passes_cons.1 hpass
      exact .head (advances_char.2 ⟨c, hc, hz⟩) (ih hrun hpass)

/-- One or more characters of a class lead behind a run that is not empty. -/
theorem mem_ends_oneOrMore :
    y ∈ (oneOrMore p).ends x ↔ ∃ run, (run ≠ [] ∧ Run p run) ∧ Passes x run y := by
  rw [oneOrMore, mem_ends_seq]
  simp only [mem_ends_char, mem_ends_run]
  constructor
  · rintro ⟨z, ⟨c, hc, hz⟩, run, hrun, hpass⟩
    exact ⟨c :: run, ⟨by simp, run_cons.2 ⟨hc, hrun⟩⟩, hz.trans hpass⟩
  · rintro ⟨run, ⟨hne, hrun⟩, hpass⟩
    obtain ⟨c, run, rfl⟩ := List.exists_cons_of_ne_nil hne
    obtain ⟨hc, hrun⟩ := run_cons.1 hrun
    obtain ⟨z, hz, hpass⟩ := passes_cons.1 hpass
    exact ⟨z, ⟨c, hc, hz⟩, run, hrun, hpass⟩

/-! ## Texts and what is kept of them -/

/-- A text leads from one place to another, and some texts are kept on the way, the latest one
first. -/
structure Takes (x : Place) (run : List Char) (kept : List (String × List Char)) (y : Place) :
    Prop where
  rest : x.rest = run ++ y.rest
  before : y.before = run.reverse ++ x.before
  kept : y.kept = kept ++ x.kept

/-- A language: texts, each with the texts that are kept of it. -/
abbrev Language : Type :=
  List Char → List (String × List Char) → Prop

namespace Language

/-- Texts of which nothing is kept. -/
inductive Plain (texts : List Char → Prop) : Language where
  | intro {run : List Char} : texts run → Plain texts run []

/-- A text of one language and one of another language behind it. -/
inductive Seq (l l' : Language) : Language where
  | intro {run run' : List Char} {kept kept' : List (String × List Char)} :
    l run kept → l' run' kept' → Seq l l' (run ++ run') (kept' ++ kept)

/-- A text of one of two languages. -/
inductive Alt (l l' : Language) : Language where
  | left {run : List Char} {kept : List (String × List Char)} : l run kept → Alt l l' run kept
  | right {run : List Char} {kept : List (String × List Char)} : l' run kept → Alt l l' run kept

/-- A text that is kept under a name. -/
inductive Named (name : String) (l : Language) : Language where
  | intro {run : List Char} {kept : List (String × List Char)} :
    l run kept → Named name l run ((name, run) :: kept)

/-- Two texts and what is kept of them. -/
theorem Seq.of_eq {l l' : Language} {run run' cs : List Char}
    {kept kept' all : List (String × List Char)} (h : l run kept) (h' : l' run' kept')
    (hcs : run ++ run' = cs) (hall : kept' ++ kept = all) : Seq l l' cs all := by
  subst hcs hall
  exact .intro h h'

end Language

/-- A pattern takes the texts of a language, wherever it is tried. -/
def Describes (a : Pattern) (l : Language) : Prop :=
  ∀ x y, y ∈ a.ends x ↔ ∃ run kept, l run kept ∧ Takes x run kept y

variable {kept kept' : List (String × List Char)} {l l' : Language}

theorem takes_nil : Takes x run [] y ↔ Passes x run y := by
  constructor
  · rintro ⟨hrest, hbefore, hkept⟩
    exact ⟨hrest, hbefore, hkept⟩
  · rintro ⟨hrest, hbefore, hkept⟩
    exact ⟨hrest, hbefore, hkept⟩

theorem takes_append :
    Takes x (run ++ run') (kept' ++ kept) z ↔ ∃ y, Takes x run kept y ∧ Takes y run' kept' z := by
  constructor
  · rintro ⟨hrest, hbefore, hkept⟩
    refine ⟨⟨run.reverse ++ x.before, run' ++ z.rest, kept ++ x.kept⟩, ⟨?_, rfl, rfl⟩, ?_⟩
    · rw [hrest, List.append_assoc]
    · refine ⟨rfl, ?_, ?_⟩
      · rw [hbefore, List.reverse_append, List.append_assoc]
      · rw [hkept, List.append_assoc]
  · rintro ⟨y, ⟨hrest, hbefore, hkept⟩, hrest', hbefore', hkept'⟩
    refine ⟨?_, ?_, ?_⟩
    · rw [hrest, hrest', List.append_assoc]
    · rw [hbefore', hbefore, List.reverse_append, List.append_assoc]
    · rw [hkept', hkept, List.append_assoc]

theorem Describes.congr (h : Describes a l) (hiff : ∀ run kept, l run kept ↔ l' run kept) :
    Describes a l' := by
  intro x y
  simp only [h x y, hiff]

/-- A pattern that keeps nothing. -/
theorem describes_plain {texts : List Char → Prop}
    (h : ∀ x y, y ∈ a.ends x ↔ ∃ run, texts run ∧ Passes x run y) :
    Describes a (.Plain texts) := by
  intro x y
  rw [h x y]
  constructor
  · rintro ⟨run, hrun, hpass⟩
    exact ⟨run, [], ⟨hrun⟩, takes_nil.2 hpass⟩
  · rintro ⟨_, _, ⟨hrun⟩, htakes⟩
    exact ⟨_, hrun, takes_nil.1 htakes⟩

theorem Describes.seq (ha : Describes a l) (hb : Describes b l') :
    Describes (.seq a b) (l.Seq l') := by
  intro x z
  rw [mem_ends_seq]
  constructor
  · rintro ⟨y, hy, hz⟩
    obtain ⟨run, kept, hrun, htakes⟩ := (ha x y).1 hy
    obtain ⟨run', kept', hrun', htakes'⟩ := (hb y z).1 hz
    exact ⟨_, _, ⟨hrun, hrun'⟩, takes_append.2 ⟨y, htakes, htakes'⟩⟩
  · rintro ⟨_, _, ⟨hrun, hrun'⟩, htakes⟩
    obtain ⟨y, hy, hz⟩ := takes_append.1 htakes
    exact ⟨y, (ha x y).2 ⟨_, _, hrun, hy⟩, (hb y z).2 ⟨_, _, hrun', hz⟩⟩

theorem Describes.alt (ha : Describes a l) (hb : Describes b l') :
    Describes (.alt a b) (l.Alt l') := by
  intro x y
  rw [mem_ends_alt, ha x y, hb x y]
  constructor
  · rintro (⟨run, kept, hrun, htakes⟩ | ⟨run, kept, hrun, htakes⟩)
    · exact ⟨run, kept, .left hrun, htakes⟩
    · exact ⟨run, kept, .right hrun, htakes⟩
  · rintro ⟨run, kept, hrun | hrun, htakes⟩
    · exact .inl ⟨run, kept, hrun, htakes⟩
    · exact .inr ⟨run, kept, hrun, htakes⟩

theorem describes_empty : Describes empty (.Plain (· = [])) := by
  apply describes_plain
  intro x y
  rw [mem_ends_empty, exists_eq_left, passes_nil]

theorem Describes.maybe (ha : Describes a l) : Describes (.maybe a) (l.Alt (.Plain (· = []))) :=
  ha.alt describes_empty

/-- A text of one kind and a text of another kind behind it. -/
def Cat (texts texts' : List Char → Prop) (run : List Char) : Prop :=
  ∃ u v, run = u ++ v ∧ texts u ∧ texts' v

section Plain

variable {texts texts' : List Char → Prop}

/-- Two patterns that keep nothing, one behind the other. -/
theorem Describes.cat (ha : Describes a (.Plain texts)) (hb : Describes b (.Plain texts')) :
    Describes (.seq a b) (.Plain (Cat texts texts')) := by
  refine (ha.seq hb).congr fun run kept => ⟨?_, ?_⟩
  · rintro ⟨⟨hu⟩, ⟨hv⟩⟩
    exact .intro ⟨_, _, rfl, hu, hv⟩
  · rintro ⟨_, _, rfl, hu, hv⟩
    exact .of_eq (.intro hu) (.intro hv) rfl rfl

/-- One of two patterns that keep nothing. -/
theorem Describes.either (ha : Describes a (.Plain texts)) (hb : Describes b (.Plain texts')) :
    Describes (.alt a b) (.Plain fun run => texts run ∨ texts' run) := by
  refine (ha.alt hb).congr fun run kept => ⟨?_, ?_⟩
  · rintro (⟨⟨hrun⟩⟩ | ⟨⟨hrun⟩⟩)
    · exact .intro (.inl hrun)
    · exact .intro (.inr hrun)
  · rintro ⟨hrun | hrun⟩
    · exact .left (.intro hrun)
    · exact .right (.intro hrun)

theorem Describes.of_iff (ha : Describes a (.Plain texts)) (h : ∀ run, texts run ↔ texts' run) :
    Describes a (.Plain texts') := by
  refine ha.congr fun run kept => ⟨?_, ?_⟩
  · rintro ⟨hrun⟩
    exact .intro ((h _).1 hrun)
  · rintro ⟨hrun⟩
    exact .intro ((h _).2 hrun)

end Plain

/-- What a named pattern takes is kept last. -/
theorem Describes.named (ha : Describes a l) (name : String) :
    Describes (.named name a) (l.Named name) := by
  intro x y
  rw [mem_ends_named]
  have htext : ∀ {run kept z}, Takes x run kept z → x.textTo z = run := by
    intro run kept z hz
    have hpass : Passes x run { z with kept := x.kept } := ⟨hz.rest, hz.before, rfl⟩
    exact hpass.textTo
  constructor
  · rintro ⟨z, hz, rfl⟩
    obtain ⟨run, kept, hrun, htakes⟩ := (ha x z).1 hz
    refine ⟨run, _, ⟨hrun⟩, htakes.rest, htakes.before, ?_⟩
    rw [Place.keep, htext htakes, htakes.kept]
    rfl
  · rintro ⟨run, _, @⟨_, kept, hrun⟩, htakes⟩
    have hz : Takes x run kept { y with kept := kept ++ x.kept } :=
      ⟨htakes.rest, htakes.before, rfl⟩
    refine ⟨_, (ha x _).2 ⟨run, kept, hrun, hz⟩, ?_⟩
    rw [htext hz]
    exact Place.ext rfl rfl htakes.kept.symm

/-- A match of a whole text is one of a text of the language. -/
theorem Describes.of_whole? {cs : List Char} (ha : Describes a l) (h : a.whole? cs = some y) :
    l cs y.kept := by
  rw [whole?] at h
  obtain ⟨run, kept, hl, htakes⟩ := (ha _ y).1 (List.mem_of_find?_eq_some h)
  have hempty := List.find?_some h
  have hrest : y.rest = [] := List.isEmpty_iff.1 hempty
  have hrun : cs = run := by simpa [Place.start, hrest] using htakes.rest
  have hkept : y.kept = kept := by simpa [Place.start] using htakes.kept
  rwa [hrun, hkept]

/-- Every text of the language is matched. -/
theorem Describes.exists_whole? {cs : List Char} (ha : Describes a l) (h : l cs kept) :
    ∃ y, a.whole? cs = some y := by
  have hend : (⟨cs.reverse, [], kept⟩ : Place) ∈ a.ends (.start cs) :=
    (ha _ _).2 ⟨cs, kept, h, by simp [Place.start], by simp [Place.start], by simp [Place.start]⟩
  exact Option.isSome_iff_exists.1 (List.find?_isSome.2 ⟨_, hend, rfl⟩)

/-! ## The match that is found -/

/-- The first way through two patterns is the first way through the second one behind the first way
through the first one, if there is one. -/
theorem head?_ends_seq (hy : (a.ends x).head? = some y) (hz : (b.ends y).head? = some z) :
    ((seq a b).ends x).head? = some z := by
  obtain ⟨ys, hys⟩ := List.head?_eq_some_iff.1 hy
  rw [ends, hys, List.flatMap_cons, List.head?_append, hz]
  rfl

/-- If the second pattern matches behind one of the ways through the first one only, the match found
is the first one behind that. -/
theorem head?_ends_seq_of_only (hy : y ∈ a.ends x) (honly : ∀ z ∈ a.ends x, z ≠ y → b.ends z = []) :
    ((seq a b).ends x).head? = (b.ends y).head? := by
  rw [ends]
  generalize a.ends x = ys at hy honly
  induction ys with
  | nil => cases hy
  | cons z ys ih =>
    rw [List.flatMap_cons, List.head?_append]
    by_cases hz : z = y
    · -- Behind it stand further copies of the same place, or places that lead nowhere.
      subst hz
      cases hfirst : b.ends z with
      | cons w ws => rfl
      | nil =>
        have hnone : ys.flatMap b.ends = [] := by
          rw [List.flatMap_eq_nil_iff]
          intro w hw
          by_cases hwz : w = z
          · rw [hwz, hfirst]
          · exact honly w (List.mem_cons_of_mem z hw) hwz
        rw [hnone]
        rfl
    · rw [honly z List.mem_cons_self hz, List.head?_nil, Option.none_or]
      have hys : y ∈ ys := (List.mem_cons.1 hy).resolve_left fun h => hz h.symm
      exact ih hys fun w hw => honly w (List.mem_cons_of_mem z hw)

theorem head?_ends_alt (hy : (a.ends x).head? = some y) :
    ((alt a b).ends x).head? = some y := by
  rw [ends, List.head?_append, hy]
  rfl

/-- The first match is the only one when there are no others. -/
theorem head?_ends_of_unique (hy : y ∈ a.ends x) (hunique : ∀ z ∈ a.ends x, z = y) :
    (a.ends x).head? = some y := by
  obtain ⟨z, zs, hzs⟩ := List.exists_cons_of_ne_nil (List.ne_nil_of_mem hy)
  rw [hzs, List.head?_cons, hunique z (hzs ▸ List.mem_cons_self)]

theorem ends_char_of_passes {c : Char} (hc : p c = true) (h : Passes x [c] y) :
    (char p).ends x = [y] := by
  have hy : y = ⟨c :: x.before, y.rest, x.kept⟩ := Place.ext h.before rfl h.kept
  rw [ends, Place.step, h.rest, hy]
  exact if_pos hc

/-- A repeated class stays where no character of the class follows. -/
theorem ends_run_of_stops (hstop : Stops p x.rest) : (many (char p)).ends x = [x] := by
  have hnone : (char p).ends x = [] := by
    rw [List.eq_nil_iff_forall_not_mem]
    intro y hy
    obtain ⟨c, hc, hpass⟩ := mem_ends_char.1 hy
    rw [hpass.rest, List.cons_append, stops_cons, hc] at hstop
    cases hstop
  rw [ends]
  cases x.rest.length with
  | zero => rfl
  | succ n =>
    rw [longest, hnone]
    rfl

/-- Where a character of the class follows, the places behind it are tried before the own one. -/
theorem ends_run_of_passes {c : Char} (hc : p c = true) (h : Passes x [c] z) :
    (many (char p)).ends x = (many (char p)).ends z ++ [x] := by
  have hrest : x.rest.length = z.rest.length + 1 := by
    rw [h.rest]
    rfl
  have hfirst : ((char p).ends x).filter (·.rest.length < x.rest.length) = [z] := by
    simp [ends_char_of_passes hc h, hrest]
  rw [ends, hrest, longest, hfirst, List.flatMap_cons, List.flatMap_nil, List.append_nil]
  rfl

/-- A repeated class is tried with the longest run of it first. -/
theorem head?_ends_run (hrun : Run p run) (h : Passes x run y) (hstop : Stops p y.rest) :
    ((many (char p)).ends x).head? = some y := by
  induction run generalizing x with
  | nil =>
    obtain rfl := passes_nil.1 h
    rw [ends_run_of_stops hstop, List.head?_cons]
  | cons c run ih =>
    obtain ⟨hc, hrun⟩ := run_cons.1 hrun
    obtain ⟨z, hz, hpass⟩ := passes_cons.1 h
    rw [ends_run_of_passes hc hz, List.head?_append, ih hrun hpass]
    rfl

/-- It gives back one character next. -/
theorem ends_run_concat {c : Char} (hrun : Run p run) (hc : p c = true) (h : Passes x run y)
    (h' : Passes y [c] z) (hstop : Stops p z.rest) :
    ∃ others, (many (char p)).ends x = z :: y :: others := by
  induction run generalizing x with
  | nil =>
    obtain rfl := passes_nil.1 h
    exact ⟨[], by rw [ends_run_of_passes hc h', ends_run_of_stops hstop, List.singleton_append]⟩
  | cons d run ih =>
    obtain ⟨hd, hrun⟩ := run_cons.1 hrun
    obtain ⟨u, hu, hpass⟩ := passes_cons.1 h
    obtain ⟨others, hothers⟩ := ih hrun hpass
    refine ⟨others ++ [x], ?_⟩
    rw [ends_run_of_passes hd hu, hothers, List.cons_append, List.cons_append]

/-! ## Searches and replacement -/

variable {f : List Char → List Char} {before cs : List Char}

/-- A search stops where something matches. -/
theorem searchFrom?_of_mem (hy : y ∈ a.ends ⟨before, cs, []⟩) :
    a.searchFrom? before cs = some 0 := by
  have hsome : (a.ends ⟨before, cs, []⟩).isEmpty = false :=
    List.isEmpty_eq_false_iff_exists_mem.2 ⟨y, hy⟩
  cases cs with
  | nil => rw [searchFrom?, hsome, if_neg Bool.false_ne_true]
  | cons c cs => rw [searchFrom?, hsome, if_neg Bool.false_ne_true]

/-- A search goes on behind a character at which nothing matches. -/
theorem searchFrom?_of_none {c : Char} (h : a.ends ⟨before, c :: cs, []⟩ = []) :
    a.searchFrom? before (c :: cs) = (a.searchFrom? (c :: before) cs).map (· + 1) := by
  rw [searchFrom?, h]
  rfl

theorem replaceFrom_nil : a.replaceFrom f before [] = [] := by
  rw [replaceFrom]

/-- A match that takes something is replaced, and the text behind it is read on from there. -/
theorem replaceFrom_of_match (hy : (a.ends ⟨before, cs, []⟩).head? = some y)
    (hpass : Passes ⟨before, cs, []⟩ run y) (hne : run ≠ []) :
    a.replaceFrom f before cs = f run ++ a.replaceFrom f y.before y.rest := by
  have hlt := (hpass.advances hne (List.mem_of_mem_head? hy)).2
  cases cs with
  | nil => simp at hlt
  | cons c cs =>
    rw [replaceFrom, hy]
    simp only [hpass.textTo]
    exact if_pos hlt

/-- A character at which nothing matches is left as it is. -/
theorem replaceFrom_of_none {c : Char} (h : a.ends ⟨before, c :: cs, []⟩ = []) :
    a.replaceFrom f before (c :: cs) = c :: a.replaceFrom f (c :: before) cs := by
  rw [replaceFrom, h]
  rfl

theorem allFrom_nil : a.allFrom before [] = [] := by
  rw [allFrom]

/-- Behind a match that takes something the search goes on. -/
theorem allFrom_of_match (hy : (a.ends ⟨before, cs, []⟩).head? = some y)
    (hpass : cs = run ++ y.rest) (hne : run ≠ []) :
    a.allFrom before cs = (before.length, y) :: a.allFrom y.before y.rest := by
  have hlt : y.rest.length < cs.length := by
    have hpos := List.length_pos_iff.2 hne
    rw [hpass, List.length_append]
    omega
  cases cs with
  | nil => simp at hlt
  | cons c cs =>
    rw [allFrom, hy]
    exact if_pos hlt

/-- A character at which nothing matches is passed over. -/
theorem allFrom_of_none {c : Char} (h : (a.ends ⟨before, c :: cs, []⟩).head? = none) :
    a.allFrom before (c :: cs) = a.allFrom (c :: before) cs := by
  rw [allFrom, h]

/-- A search that passes over a character where nothing matches, and goes on behind a match where
something does, finds what is made of the matches. -/
theorem eq_flatMap_allFrom {β : Type} {search : Nat → List Char → List β}
    {made : Nat × Place → List β} (hend : ∀ pos, search pos [] = [])
    (hskip : ∀ before c cs, (a.ends ⟨before, c :: cs, []⟩).head? = none →
      search before.length (c :: cs) = search (before.length + 1) cs)
    (htake : ∀ before cs y, (a.ends ⟨before, cs, []⟩).head? = some y →
      ∃ run, run ≠ [] ∧ cs = run ++ y.rest ∧ y.before = run.reverse ++ before ∧
        search before.length cs =
          made (before.length, y) ++ search (before.length + run.length) y.rest)
    (before cs : List Char) :
    search before.length cs = (a.allFrom before cs).flatMap made := by
  -- Each step leaves less text, whether it passes one character or a match.
  induction hn : cs.length using Nat.strongRecOn generalizing before cs with
  | ind n ih =>
    cases cs with
    | nil => rw [allFrom_nil, hend, List.flatMap_nil]
    | cons c cs =>
      cases hfirst : (a.ends ⟨before, c :: cs, []⟩).head? with
      | none =>
        rw [allFrom_of_none hfirst, hskip before c cs hfirst]
        exact ih cs.length (by simp [← hn]) (c :: before) cs rfl
      | some y =>
        obtain ⟨run, hne, htext, hbefore, hmade⟩ := htake before (c :: cs) y hfirst
        have hlt : y.rest.length < n := by
          have hpos := List.length_pos_iff.2 hne
          rw [← hn, htext, List.length_append]
          omega
        have hlength : y.before.length = before.length + run.length := by
          rw [hbefore, List.length_append, List.length_reverse, Nat.add_comm]
        rw [allFrom_of_match hfirst htext hne, List.flatMap_cons, hmade, ← hlength,
          ih y.rest.length hlt y.before y.rest rfl]

end Pattern

end StructAtlas
