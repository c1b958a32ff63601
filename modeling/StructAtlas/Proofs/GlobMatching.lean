import StructAtlas.Path.Glob

set_option autoImplicit false

/-!
# What glob patterns match

A text fits pattern elements if it can be cut into pieces, one for each element in their order: any
run of characters for a star, and one character that the element accepts for any other element
(`Glob.Fits`). The program decides all suffixes of a text at once, from the last element of a
pattern to the first, and its table of truth values is right in every place (`Glob.marks_suffixes`).
So it matches the texts that fit the elements of the pattern (`Glob.covers_iff`).
-/

namespace StructAtlas.Glob

variable {t : Token} {ts : List Token} {c : Nat} {cs : List Nat}

/-- A text is cut into pieces for pattern elements. -/
inductive Fits : List Token → List Nat → Prop where
  | done : Fits [] []
  | star (run : List Nat) {ts : List Token} {cs : List Nat} (rest : Fits ts cs) :
    Fits (.star :: ts) (run ++ cs)
  | one {t : Token} {c : Nat} {ts : List Token} {cs : List Nat} (accepts : t.accepts c = true)
    (rest : Fits ts cs) : Fits (t :: ts) (c :: cs)

/-- A text fits a pattern. -/
def Matches (pattern text : WideText) : Prop :=
  Fits (parse pattern.codes) text.codes

theorem fits_nil : Fits [] cs ↔ cs = [] := by
  constructor
  · rintro ⟨⟩
    rfl
  · rintro rfl
    exact .done

theorem fits_star : Fits (.star :: ts) cs ↔ ∃ run rest, cs = run ++ rest ∧ Fits ts rest := by
  constructor
  · intro h
    cases h with
    | star run rest => exact ⟨run, _, rfl, rest⟩
    | one accepts => cases accepts
  · rintro ⟨run, rest, rfl, h⟩
    exact .star run h

/-- In front of a character the run of a star is empty or takes the character. -/
theorem fits_star_cons :
    Fits (.star :: ts) (c :: cs) ↔ Fits ts (c :: cs) ∨ Fits (.star :: ts) cs := by
  rw [fits_star, fits_star]
  constructor
  · rintro ⟨run, rest, hsplit, h⟩
    cases run with
    | nil => exact Or.inl (hsplit ▸ h)
    | cons d run =>
      obtain ⟨rfl, rfl⟩ := List.cons.inj hsplit
      exact Or.inr ⟨run, rest, rfl, h⟩
  · rintro (h | ⟨run, rest, rfl, h⟩)
    · exact ⟨[], c :: cs, rfl, h⟩
    · exact ⟨c :: run, rest, rfl, h⟩

theorem fits_star_nil : Fits (.star :: ts) [] ↔ Fits ts [] := by
  rw [fits_star]
  constructor
  · rintro ⟨run, rest, hsplit, h⟩
    rwa [(List.append_eq_nil_iff.1 hsplit.symm).2] at h
  · exact fun h => ⟨[], [], rfl, h⟩

theorem fits_one (ht : t ≠ .star) :
    Fits (t :: ts) cs ↔ ∃ c rest, cs = c :: rest ∧ t.accepts c = true ∧ Fits ts rest := by
  constructor
  · intro h
    cases h with
    | star => exact absurd rfl ht
    | one accepts rest => exact ⟨_, _, rfl, accepts, rest⟩
  · rintro ⟨c, rest, rfl, accepts, h⟩
    exact .one accepts h

theorem fits_one_cons (ht : t ≠ .star) :
    Fits (t :: ts) (c :: cs) ↔ t.accepts c = true ∧ Fits ts cs := by
  rw [fits_one ht]
  constructor
  · rintro ⟨d, rest, hsplit, h⟩
    obtain ⟨rfl, rfl⟩ := List.cons.inj hsplit
    exact h
  · exact fun h => ⟨c, cs, rfl, h⟩

theorem not_fits_one_nil (ht : t ≠ .star) : ¬ Fits (t :: ts) [] := by
  rw [fits_one ht]
  rintro ⟨c, rest, hsplit, -⟩
  cases hsplit

/-! ## The table of suffixes -/

/-- The truth values say of every suffix of a text whether it has a property. -/
inductive Marks (P : List Nat → Prop) : List Bool → List Nat → Prop where
  | last {b : Bool} (mark : b = true ↔ P []) : Marks P [b] []
  | cons {b : Bool} {bs : List Bool} {c : Nat} {cs : List Nat} (mark : b = true ↔ P (c :: cs))
    (rest : Marks P bs cs) : Marks P (b :: bs) (c :: cs)

variable {P : List Nat → Prop} {bs : List Bool}

theorem Marks.headD (h : Marks P bs cs) : bs.headD false = true ↔ P cs := by
  cases h with
  | last mark => exact mark
  | cons mark => exact mark

theorem marks_nothing : Marks (Fits []) (cs.map (fun _ => false) ++ [true]) cs := by
  induction cs with
  | nil => exact .last (iff_of_true rfl .done)
  | cons c cs ih => exact .cons (by simp [fits_nil]) ih

/-- A star is marked wherever the elements behind it are marked in this place or a later one. -/
theorem Marks.star (h : Marks (Fits ts) bs cs) : Marks (Fits (.star :: ts)) (orLater bs) cs := by
  induction h with
  | last mark => exact .last (by simpa [orLater, fits_star_nil] using mark)
  | cons mark rest ih =>
    refine .cons ?_ ih
    rw [Bool.or_eq_true, fits_star_cons, mark, ih.headD]

/-- Another element is marked where it accepts the character and the next place is marked. -/
theorem Marks.one (ht : t ≠ .star) (h : Marks (Fits ts) bs cs) :
    Marks (Fits (t :: ts))
      (List.zipWith (fun c matched => t.accepts c && matched) cs bs.tail ++ [false]) cs := by
  -- The value of a place is made from the value of the next one, which is the first of the tail.
  induction h with
  | last mark => exact .last (by simp [not_fits_one_nil ht])
  | @cons b bs c cs mark rest ih =>
    cases rest with
    | last mark' =>
      refine .cons ?_ ih
      rw [Bool.and_eq_true, fits_one_cons ht, mark']
    | cons mark' rest' =>
      refine .cons ?_ ih
      rw [Bool.and_eq_true, fits_one_cons ht, mark']

/-- The table is right in every place. -/
theorem marks_suffixes (ts : List Token) (cs : List Nat) :
    Marks (Fits ts) (suffixes ts cs) cs := by
  induction ts with
  | nil => exact marks_nothing
  | cons t ts ih =>
    cases t with
    | star => exact ih.star
    | any => exact ih.one Token.noConfusion
    | char k => exact ih.one Token.noConfusion
    | set negated ranges => exact ih.one Token.noConfusion

/-- A pattern matches the texts that fit its elements. -/
theorem covers_iff {pattern text : WideText} : covers pattern text = true ↔ Matches pattern text :=
  (marks_suffixes _ _).headD

instance (pattern text : WideText) : Decidable (Matches pattern text) :=
  decidable_of_iff _ covers_iff

theorem matchesAny_iff {text : WideText} {patterns : List WideText} :
    matchesAny text patterns = true ↔ ∃ p ∈ patterns, Matches p text := by
  rw [matchesAny, List.any_eq_true]
  exact exists_congr fun p => and_congr_right fun _ => covers_iff

/-- Slashes are characters like others, and a set may begin with its closing bracket. -/
example : Matches "*/[]x]?[!a-c].h" "a/b/]-d.h" := by decide

end StructAtlas.Glob
