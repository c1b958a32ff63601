import StructAtlas.JavaClass
import StructAtlas.Proofs.TypeSpelling

set_option autoImplicit false

/-!
# Tokens of the generated code

Java code is read as tokens: some signs stand alone, and the runs between signs and blanks are words
(`Java.tokens`). A word comes out as it is in front of anything that does not go on with a word
(`Java.tokens_word`), so a line whose words stand between signs and blanks is read piece by piece
(`Java.tokensOf_piece`).

Names are words, and so are the Java types of fields (`Java.isToken_render`) and the names of
accessors: upper case makes no sign and no blank of a word character, in any script
(`Java.isSeparator_upperChar`).
-/

namespace StructAtlas.Java

open Text

/-! ## Tokens -/

section Tokens

variable {w as bs cs : List Char}

/-- Characters that are tokens by themselves. -/
def signs : List Char := ['\n', '(', ')', '\x7b', '\x7d', ',', ';', '.', '=']

/-- Whether a character is a token. -/
def isSign (c : Char) : Bool :=
  signs.contains c

/-- Characters that end a word. -/
def isSeparator (c : Char) : Bool :=
  c == ' ' || isSign c

/-- The tokens of a text. -/
def tokens : List Char → List (List Char)
  | [] => []
  | c :: cs =>
    if c == ' ' then tokens cs
    else if isSign c || cs.head?.all isSeparator then [c] :: tokens cs
    else
      match tokens cs with
      | [] => [[c]]
      | t :: ts => (c :: t) :: ts

/-- A word of the generated code. -/
def IsToken (w : List Char) : Prop :=
  w ≠ [] ∧ ∀ c ∈ w, isSeparator c = false

/-- A text that neither goes on with the word before it nor begins the word behind it. -/
def IsBreak (cs : List Char) : Prop :=
  cs.head?.any isSeparator = true ∧ cs.getLast?.any isSeparator = true

instance (w : List Char) : Decidable (IsToken w) :=
  decidable_of_iff (w ≠ [] ∧ Run (fun c => !isSeparator c) w) (by simp [IsToken, Run])

instance (cs : List Char) : Decidable (IsBreak cs) :=
  inferInstanceAs (Decidable
    (cs.head?.any isSeparator = true ∧ cs.getLast?.any isSeparator = true))

theorem tokens_ne_nil {c : Char} (hc : (c == ' ') = false) (cs : List Char) :
    tokens (c :: cs) ≠ [] := by
  rw [tokens, if_neg (by simp [hc])]
  split
  · exact List.cons_ne_nil _ _
  · split <;> exact List.cons_ne_nil _ _

/-- Where a separator stands, the tokens in front of it and behind it are found alone. -/
theorem tokens_append (h : as.getLast?.all isSeparator = true) (bs : List Char) :
    tokens (as ++ bs) = tokens as ++ tokens bs := by
  induction as with
  | nil => rfl
  | cons c as ih =>
    have hrest : tokens (as ++ bs) = tokens as ++ tokens bs := by
      apply ih
      cases as with
      | nil => rfl
      | cons a as => rwa [List.getLast?_cons_cons] at h
    rw [List.cons_append, tokens, tokens, hrest]
    split
    · rfl
    · rename_i hgap
      cases as with
      | nil =>
        -- The character is the last one, so it is a sign.
        have hsign : isSign c = true := by
          rw [List.getLast?_singleton, Option.all_some, isSeparator] at h
          simpa [hgap] using h
        rw [hsign]
        rfl
      | cons a as =>
        rw [List.cons_append, List.head?_cons, List.head?_cons]
        split
        · rfl
        · rename_i hword
          have hword : (a == ' ') = false := by
            simp only [Option.all_some, isSeparator, Bool.or_eq_true, not_or,
              Bool.not_eq_true] at hword
            exact hword.2.1
          obtain ⟨t, ts, ht⟩ := List.exists_cons_of_ne_nil (tokens_ne_nil hword as)
          rw [ht]
          rfl

/-- A word comes out in front of a text that does not go on with it. -/
theorem tokens_word (hw : IsToken w) (hcs : cs.head?.all isSeparator = true) :
    tokens (w ++ cs) = w :: tokens cs := by
  obtain ⟨hne, hrun⟩ := hw
  induction w with
  | nil => exact absurd rfl hne
  | cons c w ih =>
    have hc := hrun c List.mem_cons_self
    obtain ⟨hgap, hsign⟩ := Bool.or_eq_false_iff.1 hc
    rw [List.cons_append, tokens, if_neg (by simp [hgap])]
    cases w with
    | nil => rw [List.nil_append, hcs, Bool.or_true, if_pos rfl]
    | cons d w =>
      have hd := hrun d (List.mem_cons_of_mem _ List.mem_cons_self)
      have hrest := ih (List.cons_ne_nil d w) fun x hx => hrun x (List.mem_cons_of_mem _ hx)
      rw [hrest, if_neg]
      rw [hsign, List.cons_append, List.head?_cons, Option.all_some, hd]
      exact Bool.false_ne_true

/-- A word, a text that breaks off on both sides, and the rest are read one by one. -/
theorem tokens_piece (hw : IsToken w) (has : IsBreak as) (bs : List Char) :
    tokens (w ++ (as ++ bs)) = w :: (tokens as ++ tokens bs) := by
  obtain ⟨hfirst, hlast⟩ := has
  obtain ⟨c, rest, rfl⟩ : ∃ c rest, as = c :: rest := by
    cases as with
    | nil => cases hfirst
    | cons c rest => exact ⟨c, rest, rfl⟩
  have hhead : ((c :: rest) ++ bs).head?.all isSeparator = true := by simpa using hfirst
  have hend : (c :: rest).getLast?.all isSeparator = true := by
    rw [List.getLast?_eq_some_getLast (List.cons_ne_nil c rest)] at hlast ⊢
    exact hlast
  rw [tokens_word hw hhead, tokens_append hend]

theorem IsToken.append (has : IsToken as) (hbs : IsToken bs) : IsToken (as ++ bs) := by
  refine ⟨fun e => has.1 (List.append_eq_nil_iff.1 e).1, fun c hc => ?_⟩
  rcases List.mem_append.1 hc with hc | hc
  · exact has.2 c hc
  · exact hbs.2 c hc

end Tokens

/-! ## Lines -/

section Lines

variable {w a b : String}

/-- The tokens of a line. -/
def tokensOf (line : String) : List String :=
  (tokens line.toList).map String.ofList

theorem tokensOf_lead (ha : a.toList.getLast?.all isSeparator = true) (b : String) :
    tokensOf (a ++ b) = tokensOf a ++ tokensOf b := by
  rw [tokensOf, String.toList_append, tokens_append ha, List.map_append]
  rfl

theorem tokensOf_piece (hw : IsToken w.toList) (ha : IsBreak a.toList) (b : String) :
    tokensOf (w ++ (a ++ b)) = w :: (tokensOf a ++ tokensOf b) := by
  rw [tokensOf, String.toList_append, String.toList_append, tokens_piece hw ha, List.map_cons,
    List.map_append, String.ofList_toList]
  rfl

theorem tokensOf_last (hw : IsToken w.toList) (ha : IsBreak a.toList) :
    tokensOf (w ++ a) = w :: tokensOf a := by
  have hpiece := tokensOf_piece hw ha ""
  rwa [String.append_empty, show tokensOf "" = [] from rfl, List.append_nil] at hpiece

end Lines

/-! ## Words of the generated code -/

theorem isSeparator_eq_false_of_isWord {c : Char} (h : isWord c = true) :
    isSeparator c = false := by
  have hall : (' ' :: signs).all (fun d => !isWord d) = true := by decide
  rw [isSeparator, isSign, ← List.contains_cons, List.contains_eq_mem, decide_eq_false_iff_not]
  intro hmem
  have hsign := List.all_eq_true.1 hall c hmem
  rw [h] at hsign
  cases hsign

theorem isToken_of_isName {w : List Char} (h : IsName w) : IsToken w :=
  ⟨h.1, fun c hc => isSeparator_eq_false_of_isWord (h.2 c hc)⟩

/-- Separators are ASCII characters. -/
theorem isSeparator_eq_false_of_le {c : Char} (h : 128 ≤ c.toNat) : isSeparator c = false := by
  have hall : (' ' :: signs).all (fun d => decide (d.toNat < 128)) = true := by decide
  rw [isSeparator, isSign, ← List.contains_cons, List.contains_eq_mem, decide_eq_false_iff_not]
  intro hmem
  have := of_decide_eq_true (List.all_eq_true.1 hall c hmem)
  omega

theorem isSeparator_ofNat {n : Nat} (h : 128 ≤ n) : isSeparator (Char.ofNat n) = false := by
  by_cases hvalid : n.isValidChar
  · apply isSeparator_eq_false_of_le
    rw [Char.ofNat, dif_pos hvalid]
    exact h
  -- A number without a character stands for the null character.
  · rw [Char.ofNat, dif_neg hvalid]
    decide

/-- Upper case makes no separator of a word character. -/
theorem isSeparator_upperChar {c : Char} (hc : isWord c = true) :
    ∀ d ∈ upperChar c, isSeparator d = false := by
  intro d hd
  rw [upperChar] at hd
  split at hd
  · rename_i hascii
    have hall : ∀ n < 128, isWord (Char.ofNat n) = true
        → isSeparator (Char.ofNat n).toUpper = false := by decide
    rw [List.mem_singleton.1 hd, ← Char.ofNat_toNat c]
    exact hall _ hascii (by rwa [Char.ofNat_toNat])
  · rename_i hascii
    split at hd
    · rename_i e he
      have hall : ∀ e ∈ caseExpansions, ∀ k ∈ e.2, isSeparator (Char.ofNat k) = false := by
        decide +kernel
      obtain ⟨k, hk, rfl⟩ := List.mem_map.1 hd
      exact hall e (List.mem_of_find?_eq_some he) k hk
    · split at hd
      · rename_i r hr
        -- A run stays beyond ASCII, or it is one letter and its upper case is a letter.
        have hall : ∀ r ∈ caseRuns, 128 ≤ r.first + r.offset ∨ r.first = r.last
            ∧ isSeparator (Char.ofNat (Int.toNat (r.first + r.offset))) = false := by
          decide +kernel
        have hholds := List.find?_some hr
        simp only [CaseRun.holds, Bool.and_eq_true, decide_eq_true_eq, beq_iff_eq] at hholds
        obtain ⟨⟨hfirst, hlast⟩, -⟩ := hholds
        rw [List.mem_singleton.1 hd]
        rcases hall r (List.mem_of_find?_eq_some hr) with hfar | ⟨hone, hletter⟩
        · exact isSeparator_ofNat (by omega)
        · have hcode : c.toNat = r.first := by omega
          rwa [hcode]
      · rw [List.mem_singleton.1 hd]
        exact isSeparator_eq_false_of_le (by omega)

theorem isToken_capitalize {lead : List Char} (hp : IsToken lead) {name : String}
    (h : IsName name.toList) : IsToken (lead ++ (Naming.capitalize name).toList) := by
  rw [Naming.capitalize, String.toList_ofList]
  refine ⟨fun e => hp.1 (List.append_eq_nil_iff.1 e).1, fun c hc => ?_⟩
  rcases List.mem_append.1 hc with hc | hc
  · exact hp.2 c hc
  · cases hname : name.toList with
    | nil =>
      rw [hname] at hc
      cases hc
    | cons d ds =>
      rw [hname] at h hc
      obtain ⟨hd, hds⟩ := run_cons.1 h.2
      rcases List.mem_append.1 hc with hc | hc
      · exact isSeparator_upperChar hd c hc
      · exact isSeparator_eq_false_of_isWord (hds c hc)

theorem isToken_getter {name : String} (h : IsName name.toList) :
    IsToken (Naming.getter name).toList := by
  rw [Naming.getter, String.toList_append]
  exact isToken_capitalize (by decide) h

theorem isToken_setter {name : String} (h : IsName name.toList) :
    IsToken (Naming.setter name).toList := by
  rw [Naming.setter, String.toList_append]
  exact isToken_capitalize (by decide) h

theorem isToken_render_of_hasPart {t : JavaType}
    (h : ∀ name, t.HasPart (.reference name) → IsName name.toList) :
    IsToken t.render.toList := by
  induction t with
  | primitive kind => cases kind <;> decide
  | reference name => exact isToken_of_isName (h name (.self _))
  | repeated element ih =>
    rw [JavaType.render, String.toList_append, String.toList_append]
    have helement := ih fun name hname => h name (.element hname)
    exact (IsToken.append (by decide) helement).append (by decide)
  | unknown => decide

/-- The Java type of a field is a word if the known names are names. -/
theorem isToken_render {known : List String} (h : ∀ k ∈ known, IsName k.toList) (f : Field) :
    IsToken (JavaType.ofField known f).render.toList := by
  apply isToken_render_of_hasPart
  intro name hname
  have hplain := (JavaType.hasPart_ofField_iff rfl).1 hname
  exact h name (JavaType.plainOf_eq_reference hplain.symm).1

end StructAtlas.Java
