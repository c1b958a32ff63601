import StructAtlas.Declaration.Candidate
import StructAtlas.Declaration.Rule
import StructAtlas.Proofs.DeclarationGrammar

set_option autoImplicit false

/-!
# Candidates are declarations

The search for candidates looks at the beginning of a text only as far as it needs to and does not
ask for names. `Candidate.rest?_iff` says that it nevertheless takes exactly the declarations of the
four shapes from the front of a text. A text has at most one shape and one set of names
(`Shape.Written.unique`), so the order of the default rules does not matter for it and every
candidate becomes a declaration (`disambiguate_defaults_iff`, `exists_declaration`).
-/

namespace StructAtlas

open Text

namespace Shape

/-- The name under which a declaration with these names is registered. -/
def nameIn : Shape → List Char → List Char → List Char
  | .typedef, _, typeName => typeName
  | _, tag, _ => tag

/-- The characters that declarations of a shape begin and end with. -/
def ends : Shape → List (Option Char × Option Char)
  | .typedef => [(some 't', some ';')]
  | .tagged => [(some 's', some '\x7d')]
  | .packed => [(some '#', some '\x7d'), (some '_', some '\x7d')]
  | .forward => [(some 's', some ';')]

/-- No two shapes begin and end alike. -/
theorem eq_of_mem_ends {s s' : Shape} {e : Option Char × Option Char} (h : e ∈ s.ends)
    (h' : e ∈ s'.ends) : s = s' := by
  cases s <;> cases s' <;> grind [ends]

namespace Written

variable {s s' : Shape} {tag tag' typeName typeName' text : List Char}

theorem ne_nil (h : Written s tag typeName text) : text ≠ [] := by
  cases h with
  | typedef => simp
  | tagged => simp
  | packed hpacking hb hwritten =>
    cases hpacking with
    | pragma => simp
    | packedAttribute => simp
  | forward => simp

/-- A declaration is registered under a name. -/
theorem isName_nameIn (h : Written s tag typeName text) : IsName (s.nameIn tag typeName) := by
  cases h with
  | typedef hgap hb₁ htag hb₂ hinner hb₃ hname hb₄ => exact hname
  | tagged hgap htag hb hinner => exact htag
  | packed hpacking hb hwritten =>
    cases hwritten with
    | tagged hgap htag => exact htag
  | forward hgap htag hb => exact htag

/-- A declaration begins and ends with characters of its shape. -/
theorem ends_mem (h : Written s tag typeName text) :
    (text.head?, text.getLast?) ∈ s.ends := by
  cases h with
  | typedef => simp [ends, List.getLast?_append, List.getLast?_cons]
  | tagged => simp [ends, List.getLast?_append, List.getLast?_cons]
  | packed hpacking hb hwritten =>
    cases hwritten with
    | tagged =>
      cases hpacking with
      | pragma => simp [ends, List.getLast?_append, List.getLast?_cons]
      | packedAttribute => simp [ends, List.getLast?_append, List.getLast?_cons]
  | forward => simp [ends, List.getLast?_append, List.getLast?_cons]

/-- A text has one shape. -/
theorem shape_unique (h : Written s tag typeName text) (h' : Written s' tag' typeName' text) :
    s = s' :=
  eq_of_mem_ends h.ends_mem h'.ends_mem

/-- A text has one shape and one set of names. -/
theorem unique (h : Written s tag typeName text) (h' : Written s' tag' typeName' text) :
    s = s' ∧ tag = tag' ∧ typeName = typeName' := by
  obtain rfl := h.shape_unique h'
  have e : s.readWhole text = some ⟨tag, typeName, []⟩ := readWhole_iff.2 ⟨rfl, h⟩
  have e' : s.readWhole text = some ⟨tag', typeName', []⟩ := readWhole_iff.2 ⟨rfl, h'⟩
  rw [e, Option.some.injEq, NamedParts.mk.injEq] at e'
  exact ⟨rfl, e'.1, e'.2.1⟩

end Written

end Shape

namespace Candidate

open Reading Shape

/-! ## One candidate at the front of a text -/

theorem keyword_typedef_of_head? {c : Char} {cs : List Char} (h : c ≠ 't') :
    keyword "typedef" (c :: cs) = none := by
  have h' : ('t' == c) = false := by simpa using fun e => h e.symm
  simp [keyword, dropStart?, h']

theorem packing_of_head? {c : Char} {cs : List Char} (h : c ≠ '#') (h' : c ≠ '_') :
    packing (c :: cs) = none := by
  have e : ('#' == c) = false := by simpa using fun e => h e.symm
  have e' : ('_' == c) = false := by simpa using fun e => h' e.symm
  simp [packing, packDirective, packAttribute, keyword, dropStart?, e, e']

/-- The rest that a reader leaves is that of its last part. -/
theorem map_rest_bind {α : Type} (x : Option α) (read : α → Option NamedParts) :
    (x.bind read).map (·.rest) = x.bind fun a => (read a).map (·.rest) := by
  cases x <;> rfl

/-- Behind the keyword of an alias the search reads what the reader of aliases reads. -/
theorem rest?_of_typedef {cs behind : List Char} (h : keyword "typedef" cs = some behind) :
    rest? cs = (readTypedef cs).map (·.rest) := by
  simp [rest?, readTypedef, pastTypedefTail, h, map_rest_bind, -Option.map_bind]

theorem rest?_of_packing {cs behind : List Char} (h : keyword "typedef" cs = none)
    (hpacking : packing cs = some behind) : rest? cs = (readPacked cs).map (·.rest) := by
  simp [rest?, readPacked, readTagged, h, hpacking, map_rest_bind, -Option.map_bind]

theorem rest?_of_struct {cs : List Char} (h : keyword "typedef" cs = none)
    (hpacking : packing cs = none) :
    rest? cs = ((readTagged cs).map (·.rest)).or ((readForward cs).map (·.rest)) := by
  cases hs : structHead cs with
  | none => simp [rest?, readTagged, readForward, h, hpacking, hs]
  | some head =>
    simp [rest?, readTagged, readForward, h, hpacking, hs, map_rest_bind, -Option.map_bind]

theorem rest?_struct (cs : List Char) :
    rest? ("struct".toList ++ cs) = ((readTagged ("struct".toList ++ cs)).map (·.rest)).or
      ((readForward ("struct".toList ++ cs)).map (·.rest)) :=
  rest?_of_struct (keyword_typedef_of_head? (by decide)) (packing_of_head? (by decide) (by decide))

/-- The search takes from the front of a text what some reader takes. -/
theorem exists_read_of_rest? {cs rest : List Char} (h : rest? cs = some rest) :
    ∃ (s : Shape) (parts : NamedParts), s.read cs = some parts ∧ parts.rest = rest := by
  -- The search asks for the keyword of an alias first, then for packing, then for a plain struct.
  cases ht : keyword "typedef" cs with
  | some behind =>
    rw [rest?_of_typedef ht, Option.map_eq_some_iff] at h
    exact ⟨.typedef, h⟩
  | none =>
    cases hp : packing cs with
    | some behind =>
      rw [rest?_of_packing ht hp, Option.map_eq_some_iff] at h
      exact ⟨.packed, h⟩
    | none =>
      rw [rest?_of_struct ht hp, Option.or_eq_some_iff, Option.map_eq_some_iff,
        Option.map_eq_some_iff] at h
      rcases h with h | ⟨-, h⟩
      · exact ⟨.tagged, h⟩
      · exact ⟨.forward, h⟩

/-- What some reader takes, the search takes too. The first character of the text decides which
reader the search agrees with, so no other reader can come before it. -/
theorem rest?_of_read {s : Shape} {cs : List Char} {parts : NamedParts}
    (h : s.read cs = some parts) : rest? cs = some parts.rest := by
  obtain ⟨text, hcs, hwritten⟩ := read_iff.1 h
  obtain ⟨tag, typeName, rest⟩ := parts
  subst hcs
  cases hwritten with
  | typedef =>
    rw [rest?_of_typedef (keyword_eq_some.2 (List.append_assoc ..)), Option.map_eq_some_iff]
    exact ⟨_, h, rfl⟩
  | tagged =>
    rw [List.append_assoc] at h ⊢
    rw [rest?_struct, Option.or_eq_some_iff, Option.map_eq_some_iff]
    exact Or.inl ⟨_, h, rfl⟩
  | @packed before b _ text hbefore =>
    have hp : packing (before ++ (b ++ text) ++ rest) = some (b ++ text ++ rest) :=
      packing_iff.2 ⟨before, by simp only [List.append_assoc], hbefore⟩
    have ht : keyword "typedef" (before ++ (b ++ text) ++ rest) = none := by
      cases hbefore with
      | pragma => exact keyword_typedef_of_head? (by decide)
      | packedAttribute => exact keyword_typedef_of_head? (by decide)
    rw [rest?_of_packing ht hp, Option.map_eq_some_iff]
    exact ⟨_, h, rfl⟩
  | @forward gap _ b hgap htag hb =>
    -- A tagged struct is tried first; it fails at the semicolon.
    rw [List.append_assoc] at h ⊢
    have hhead : structHead ("struct".toList ++ ((gap ++ (tag ++ (b ++ [';']))) ++ rest))
        = some (tag, ';' :: rest) :=
      structHead_iff.2 ⟨gap, b, by simp [List.append_assoc], hgap, htag, hb,
        stops_cons.2 (by decide),
        hb.stops_append isWord_of_isBlank (stops_cons.2 (by decide))⟩
    have htagged : readTagged ("struct".toList ++ ((gap ++ (tag ++ (b ++ [';']))) ++ rest))
        = none := by
      rw [readTagged, hhead]
      rfl
    rw [rest?_struct, htagged, Option.map_none, Option.none_or, Option.map_eq_some_iff]
    exact ⟨_, h, rfl⟩

/-- A candidate begins a text if and only if a declaration does, and it is that declaration. -/
theorem rest?_iff {cs rest : List Char} :
    rest? cs = some rest ↔
      ∃ s tag typeName text, cs = text ++ rest ∧ Written s tag typeName text := by
  constructor
  · intro h
    obtain ⟨s, parts, hread, rfl⟩ := exists_read_of_rest? h
    obtain ⟨text, hcs, hwritten⟩ := read_iff.1 hread
    exact ⟨s, parts.tag, parts.typeName, text, hcs, hwritten⟩
  · rintro ⟨s, tag, typeName, text, rfl, hwritten⟩
    have hread : s.read (text ++ rest) = some ⟨tag, typeName, rest⟩ :=
      read_iff.2 ⟨text, rfl, hwritten⟩
    exact rest?_of_read hread

theorem length?_iff {cs : List Char} {n : Nat} :
    length? cs = some n ↔
      ∃ s tag typeName text rest, cs = text ++ rest ∧ n = text.length
        ∧ Written s tag typeName text := by
  simp only [length?, Option.map_eq_some_iff, rest?_iff]
  constructor
  · rintro ⟨rest, ⟨s, tag, typeName, text, rfl, hwritten⟩, rfl⟩
    exact ⟨s, tag, typeName, text, rest, rfl, by simp, hwritten⟩
  · rintro ⟨s, tag, typeName, text, rest, rfl, rfl, hwritten⟩
    exact ⟨rest, ⟨s, tag, typeName, text, rfl, hwritten⟩, by simp⟩

/-! ## All candidates of a text -/

/-- What is still ahead of the last candidate is passed over. -/
theorem collect_pending (pending pos : Nat) (cs : List Char) :
    collect pending pos cs = collect 0 (pos + pending) (cs.drop pending) := by
  induction pending generalizing pos cs with
  | zero => simp
  | succ pending ih =>
    cases cs with
    | nil => simp [collect]
    | cons c cs =>
      rw [collect, ih, List.drop_succ_cons, Nat.add_assoc, Nat.add_comm 1 pending]

/-- A declaration at the front of a text is its first candidate; the search goes on behind it. -/
theorem collect_of_written {s : Shape} {tag typeName text : List Char}
    (h : Written s tag typeName text) (pos : Nat) (rest : List Char) :
    collect 0 pos (text ++ rest) = ⟨text, pos⟩ :: collect 0 (pos + text.length) rest := by
  have hlength : length? (text ++ rest) = some text.length :=
    length?_iff.2 ⟨s, tag, typeName, text, rest, rfl, rfl, h⟩
  cases text with
  | nil => exact absurd rfl h.ne_nil
  | cons c text =>
    rw [List.cons_append] at hlength ⊢
    rw [collect, hlength]
    simp only [List.length_cons, Nat.add_one_sub_one]
    rw [collect_pending, ← List.cons_append, List.take_left' (by simp), List.drop_left' rfl,
      Nat.add_assoc, Nat.add_comm 1]

/-- A candidate stands in a text that begins at a position: it is a declaration, and the text holds
it at its offset. -/
def StandsIn (c : Candidate) (pos : Nat) (cs : List Char) : Prop :=
  ∃ before after s tag typeName, cs = before ++ (c.content ++ after)
    ∧ c.start = pos + before.length ∧ Written s tag typeName c.content

theorem StandsIn.cons {c : Candidate} {pos : Nat} {cs : List Char} (h : c.StandsIn (pos + 1) cs)
    (d : Char) : c.StandsIn pos (d :: cs) := by
  obtain ⟨before, after, s, tag, typeName, rfl, hstart, hwritten⟩ := h
  refine ⟨d :: before, after, s, tag, typeName, rfl, ?_, hwritten⟩
  rw [hstart, List.length_cons]
  omega

/-- Every candidate stands in the text that was searched. -/
theorem standsIn_of_mem_collect {pending pos : Nat} {cs : List Char} {c : Candidate}
    (h : c ∈ collect pending pos cs) : c.StandsIn pos cs := by
  fun_induction collect pending pos cs with
  | case1 => simp at h
  | case2 pos pending d cs ih => exact (ih h).cons d
  | case3 pos d cs n hn ih =>
    obtain ⟨s, tag, typeName, text, rest, hcs, rfl, hwritten⟩ := length?_iff.1 hn
    rcases List.mem_cons.1 h with rfl | h
    · refine ⟨[], rest, s, tag, typeName, ?_, rfl, ?_⟩
      · rw [hcs, List.take_left' rfl, List.nil_append]
      · rw [hcs, List.take_left' rfl]
        exact hwritten
    · exact (ih h).cons d
  | case4 pos d cs hn ih => exact (ih h).cons d

end Candidate

theorem mem_candidates {cs : List Char} {c : Candidate} (h : c ∈ candidates cs) :
    ∃ before after s tag typeName, cs = before ++ (c.content ++ after)
      ∧ c.start = before.length ∧ Shape.Written s tag typeName c.content := by
  obtain ⟨before, after, s, tag, typeName, hcs, hstart, hwritten⟩ :=
    Candidate.standsIn_of_mem_collect h
  exact ⟨before, after, s, tag, typeName, hcs, by omega, hwritten⟩

/-! ## From candidate to declaration -/

namespace Rule

open Shape

theorem nameOf_of_written {s : Shape} {tag typeName content : List Char}
    (h : Written s tag typeName content) :
    (ofShape s).nameOf content = .ok (some (String.ofList (s.nameIn tag typeName))) := by
  have hwhole : s.readWhole content = some ⟨tag, typeName, []⟩ := readWhole_iff.2 ⟨rfl, h⟩
  have hne := h.isName_nameIn.1
  cases s <;>
    simp_all [nameOf, ofShape, firstName, slot, nameIn, bind, Except.bind, pure, Except.pure]

theorem nameOf_of_not_written {s : Shape} {content : List Char}
    (h : ∀ tag typeName, ¬ Written s tag typeName content) :
    (ofShape s).nameOf content = .ok none := by
  have hshape : (ofShape s).shape = s := by cases s <;> rfl
  have hwhole : s.readWhole content = none := by
    cases hread : s.readWhole content with
    | none => rfl
    | some parts => exact absurd (readWhole_iff.1 hread).2 (h _ _)
  simp [nameOf, hshape, hwhole]

/-- Rules for some shapes, in any order, name a declaration of one of these shapes. -/
theorem disambiguate_of_written {shapes : List Shape} {s : Shape} (hs : s ∈ shapes)
    {tag typeName content : List Char} (h : Written s tag typeName content) :
    disambiguate (shapes.map ofShape) content
      = .ok (some ⟨String.ofList (s.nameIn tag typeName), s⟩) := by
  induction shapes with
  | nil => simp at hs
  | cons s' shapes ih =>
    rw [List.map_cons, disambiguate]
    -- Rules of other shapes say nothing about the text, so their order does not matter.
    by_cases e : s' = s
    · subst e
      have hshape : (ofShape s').shape = s' := by cases s' <;> rfl
      rw [nameOf_of_written h, hshape]
      rfl
    · have hnot : ∀ tag typeName, ¬ Written s' tag typeName content := fun _ _ h' =>
        e (h'.shape_unique h)
      rw [nameOf_of_not_written hnot]
      exact ih ((List.mem_cons.1 hs).resolve_left fun h => e h.symm)

theorem disambiguate_of_not_written {shapes : List Shape} {content : List Char}
    (h : ∀ s tag typeName, ¬ Written s tag typeName content) :
    disambiguate (shapes.map ofShape) content = .ok none := by
  induction shapes with
  | nil => rfl
  | cons s shapes ih =>
    rw [List.map_cons, disambiguate, nameOf_of_not_written (h s)]
    exact ih

theorem defaults_eq : defaults = [Shape.typedef, .tagged, .packed, .forward].map ofShape :=
  rfl

end Rule

/-- The default rules make of a text the declaration that it is, and nothing of any other text. -/
theorem disambiguate_defaults_iff {content : List Char} {d : Declaration} :
    disambiguate Rule.defaults content = .ok (some d) ↔
      ∃ tag typeName, Shape.Written d.shape tag typeName content
        ∧ d.name = String.ofList (d.shape.nameIn tag typeName) := by
  rw [Rule.defaults_eq]
  constructor
  · intro h
    -- The rules are asked in an order, but a text is a declaration of one shape only.
    by_cases hw : ∃ s tag typeName, Shape.Written s tag typeName content
    · obtain ⟨s, tag, typeName, hw⟩ := hw
      have hs : s ∈ [Shape.typedef, .tagged, .packed, .forward] := by cases s <;> simp
      rw [Rule.disambiguate_of_written hs hw, Except.ok.injEq, Option.some.injEq] at h
      subst h
      exact ⟨tag, typeName, hw, rfl⟩
    · rw [Rule.disambiguate_of_not_written fun s tag typeName h' => hw ⟨s, tag, typeName, h'⟩] at h
      simp at h
  · rintro ⟨tag, typeName, hw, hname⟩
    have hs : d.shape ∈ [Shape.typedef, .tagged, .packed, .forward] := by cases d.shape <;> simp
    rw [Rule.disambiguate_of_written hs hw, ← hname]

/-- Every candidate becomes a declaration. -/
theorem exists_declaration {cs : List Char} {c : Candidate} (h : c ∈ candidates cs) :
    ∃ d, disambiguate Rule.defaults c.content = .ok (some d) := by
  obtain ⟨-, -, s, tag, typeName, -, -, hwritten⟩ := mem_candidates h
  exact ⟨⟨String.ofList (s.nameIn tag typeName), s⟩,
    disambiguate_defaults_iff.2 ⟨tag, typeName, hwritten, rfl⟩⟩

end StructAtlas
