import Mathlib.Data.List.NodupEquivFin
import StructAtlas.Proofs.Lines
import StructAtlas.Proofs.ScanRun

set_option autoImplicit false

/-!
# Lines of the unstripped source

A source is searched without its comments, but places are meant to be lines of the source as it
stands in its file. What is left of a text is a part of it in the same order, so its offsets are
embedded into those of the text. Only comments are taken out, and their line feeds stay. An
embedding of offsets that loses no line feed at all loses none before any offset either
(`countLines_take_of_embedding`): neither the part before the offset nor the part behind it can have
more of them than the text.

The main statement says that the places which a scan records are lines of the unstripped source.
-/

namespace StructAtlas

open Text

/-! ## Embeddings of offsets -/

section Embedding

variable {part whole : List Char} {f : ℕ ↪o ℕ}

theorem take_sublist_of_embedding (h : ∀ i, part[i]? = whole[f i]?) (i : ℕ) :
    (part.take i).Sublist (whole.take (f i)) := by
  apply List.sublist_of_orderEmbedding_getElem?_eq f
  intro j
  rw [List.getElem?_take, List.getElem?_take, h j]
  by_cases hj : j < i
  · rw [if_pos hj, if_pos (f.lt_iff_lt.2 hj)]
  · rw [if_neg hj, if_neg fun hlt => hj (f.lt_iff_lt.1 hlt)]

theorem drop_sublist_of_embedding (h : ∀ i, part[i]? = whole[f i]?) (i : ℕ) :
    (part.drop i).Sublist (whole.drop (f i)) := by
  have hle : ∀ j, f i ≤ f (i + j) := fun j => f.monotone (Nat.le_add_right i j)
  -- Behind the offset the embedding counts from the image of the offset.
  let g : ℕ ↪o ℕ := OrderEmbedding.ofStrictMono (fun j => f (i + j) - f i) <| by
    intro j k hjk
    have hlt : f (i + j) < f (i + k) := f.lt_iff_lt.2 (Nat.add_lt_add_left hjk i)
    have hj := hle j
    show f (i + j) - f i < f (i + k) - f i
    omega
  apply List.sublist_of_orderEmbedding_getElem?_eq g
  intro j
  rw [List.getElem?_drop, List.getElem?_drop, h (i + j)]
  congr 1
  exact (Nat.add_sub_cancel' (hle j)).symm

/-- If no line feed is lost on the whole, none is lost before an offset. -/
theorem countLines_take_of_embedding (h : ∀ i, part[i]? = whole[f i]?)
    (hcount : countLines part = countLines whole) (i : ℕ) :
    countLines (part.take i) = countLines (whole.take (f i)) := by
  have hbefore : countLines (part.take i) ≤ countLines (whole.take (f i)) :=
    (take_sublist_of_embedding h i).count_le _
  have hbehind : countLines (part.drop i) ≤ countLines (whole.drop (f i)) :=
    (drop_sublist_of_embedding h i).count_le _
  have hpart : countLines (part.take i) + countLines (part.drop i) = countLines part := by
    rw [countLines, countLines, ← List.count_append, List.take_append_drop, countLines]
  have hwhole : countLines (whole.take (f i)) + countLines (whole.drop (f i))
      = countLines whole := by
    rw [countLines, countLines, ← List.count_append, List.take_append_drop, countLines]
  omega

end Embedding

/-- The offsets of a text without its comments are embedded into those of the text, with the
characters and the line feeds before them. -/
theorem Comment.exists_embedding (cs : List Char) :
    ∃ f : ℕ ↪o ℕ, (∀ i, (strip true cs)[i]? = cs[f i]?)
      ∧ ∀ i, countLines ((strip true cs).take i) = countLines (cs.take (f i)) := by
  obtain ⟨f, hf⟩ :=
    List.sublist_iff_exists_orderEmbedding_getElem?_eq.1 (strip_sublist true cs)
  exact ⟨f, hf, countLines_take_of_embedding hf (count_strip cs)⟩

/-! ## Offsets of matches -/

theorem start_lt_of_mem_candidates {cs : List Char} {c : Candidate} (h : c ∈ candidates cs) :
    c.start < cs.length := by
  obtain ⟨before, after, s, tag, typeName, rfl, hstart, hwritten⟩ := mem_candidates h
  have hpos : 0 < c.content.length := List.length_pos_iff.2 hwritten.ne_nil
  simp only [List.length_append]
  omega

theorem Usage.bounds_of_mem_collect {pending pos : ℕ} {cs : List Char} {p : String × ℕ}
    (h : p ∈ collect pending pos cs) : pos ≤ p.2 ∧ p.2 < pos + cs.length := by
  fun_induction collect pending pos cs with
  | case1 => cases h
  | case2 pos pending c cs ih =>
    have hrest := ih h
    rw [List.length_cons]
    omega
  | case3 pos c cs name rest hread ih =>
    rw [List.length_cons]
    rcases List.mem_cons.1 h with rfl | h
    · exact ⟨Nat.le_refl _, by omega⟩
    · have hrest := ih h
      omega
  | case4 pos c cs hread ih =>
    have hrest := ih h
    rw [List.length_cons]
    omega

theorem Usage.start_lt_of_mem_find {cs : List Char} {p : String × ℕ} (h : p ∈ find cs) :
    p.2 < cs.length := by
  have hbounds := bounds_of_mem_collect h
  omega

namespace Scan

/-! ## Places of matches -/

/-- With the lines kept, a place is given by the line feeds of the clean text before it. -/
theorem place_of_keepLines {u : SourceUnit} {offset : ℕ}
    (h : offset < (cleanText true u).length) :
    place u.path (lineIndex true u) offset
      = ⟨u.path, countLines ((cleanText true u).take offset) + 1⟩ := by
  rw [place, lineIndex, if_pos rfl, LineIndex.lineAt_lines (Nat.le_of_lt h)]
  rfl

theorem mem_declaredIn {u : SourceUnit} {p : String × Location} :
    p ∈ declaredIn true u ↔
      ∃ c ∈ candidates (cleanText true u), ∃ d,
        disambiguate Rule.defaults c.content = .ok (some d)
        ∧ p = (d.name, ⟨u.path, countLines ((cleanText true u).take c.start) + 1⟩) := by
  rw [declaredIn, List.mem_filterMap]
  constructor
  · rintro ⟨c, hc, hat⟩
    rw [declaredAt] at hat
    split at hat
    · rename_i d hd
      rw [Option.some.injEq, place_of_keepLines (start_lt_of_mem_candidates hc)] at hat
      exact ⟨c, hc, d, hd, hat.symm⟩
    · cases hat
  · rintro ⟨c, hc, d, hd, rfl⟩
    refine ⟨c, hc, ?_⟩
    simp only [declaredAt, hd, place_of_keepLines (start_lt_of_mem_candidates hc)]

theorem mem_usedIn {u : SourceUnit} {p : String × Location} :
    p ∈ usedIn true u ↔
      ∃ use ∈ Usage.find (cleanText true u),
        p = (use.1, ⟨u.path, countLines ((cleanText true u).take use.2) + 1⟩) := by
  rw [usedIn, List.mem_map]
  constructor
  · rintro ⟨use, huse, rfl⟩
    exact ⟨use, huse, by rw [place_of_keepLines (Usage.start_lt_of_mem_find huse)]⟩
  · rintro ⟨use, huse, rfl⟩
    exact ⟨use, huse, by rw [place_of_keepLines (Usage.start_lt_of_mem_find huse)]⟩

/-- **Places are lines of the unstripped source.** Let a source be scanned with its lines kept. The
offsets of the clean text are embedded into the offsets of the source, in their order, such that the
characters at an offset and its image are the same and equally many line feeds stand before both.
The definitions of a name after the scan are those before it and the lines of its declarations in
the source; its uses are those before it and, if the name is registered or declared in the source,
the lines of its uses in the source. The line of a match is counted in the unstripped source, at the
image of the offset where the match begins. -/
theorem places_are_source_lines (u : SourceUnit) (r : Registry) :
    ∃ f : ℕ ↪o ℕ,
      (∀ i, (cleanText true u)[i]? = u.text[f i]?)
      ∧ (∀ i, countLines ((cleanText true u).take i) = countLines (u.text.take (f i)))
      ∧ (∀ n l, l ∈ (unit Rule.defaults true u r).registry.definitionsOf n ↔
          l ∈ r.definitionsOf n
          ∨ ∃ c ∈ candidates (cleanText true u), ∃ d,
            disambiguate Rule.defaults c.content = .ok (some d) ∧ n = .text d.name
            ∧ l = ⟨u.path, 1 + countLines (u.text.take (f c.start))⟩)
      ∧ ∀ n l, l ∈ (unit Rule.defaults true u r).registry.usagesOf n ↔
          l ∈ r.usagesOf n
          ∨ (r.contains n || declares true n u) = true
            ∧ ∃ use ∈ Usage.find (cleanText true u), n = .text use.1
              ∧ l = ⟨u.path, 1 + countLines (u.text.take (f use.2))⟩ := by
  obtain ⟨f, hchar, hlines⟩ := Comment.exists_embedding u.text
  have hplace : ∀ i, (⟨u.path, countLines ((cleanText true u).take i) + 1⟩ : Location)
      = ⟨u.path, 1 + countLines (u.text.take (f i))⟩ := by
    intro i
    rw [Int.add_comm, ← hlines]
    rfl
  refine ⟨f, hchar, hlines, ?_, ?_⟩
  · intro n l
    rw [definitionsOf_unit, mem_extend, mem_placesOf]
    apply or_congr_right
    constructor
    · rintro ⟨p, hp, hn, rfl⟩
      obtain ⟨c, hc, d, hd, rfl⟩ := mem_declaredIn.1 hp
      exact ⟨c, hc, d, hd, hn, hplace c.start⟩
    · rintro ⟨c, hc, d, hd, hn, rfl⟩
      exact ⟨_, mem_declaredIn.2 ⟨c, hc, d, hd, rfl⟩, hn, hplace c.start⟩
  · intro n l
    rw [usagesOf_unit, mem_extend]
    apply or_congr_right
    -- Uses of a name that is neither registered nor declared are not entered.
    by_cases hknown : (r.contains n || declares true n u) = true
    · rw [if_pos hknown, mem_placesOf]
      simp only [hknown, true_and]
      constructor
      · rintro ⟨p, hp, hn, rfl⟩
        obtain ⟨use, huse, rfl⟩ := mem_usedIn.1 hp
        exact ⟨use, huse, hn, hplace use.2⟩
      · rintro ⟨use, huse, hn, rfl⟩
        exact ⟨_, mem_usedIn.2 ⟨use, huse, rfl⟩, hn, hplace use.2⟩
    · rw [if_neg hknown]
      simp [hknown]

end Scan

end StructAtlas
