import StructAtlas.Text.Blank

set_option autoImplicit false

/-!
# Splitting and joining text

`splitBy p` cuts a text at every character that satisfies `p` and drops those characters, so a text
with `n` such characters has `n + 1` parts. Lines and words are the two uses that matter here.

Nothing is lost (`intercalate_splitOn`, `joinLines_lines`), no part holds a separator
(`not_mem_of_mem_splitBy`), and `splitFirst?`, `splitLast?` and `dropStart?` are pinned down by the
decompositions of the text that they find.
-/

namespace StructAtlas.Text

variable {α : Type}

/-- The parts of a text between the characters that satisfy `p`. -/
def splitBy (p : α → Bool) : List α → List (List α)
  | [] => [[]]
  | c :: cs =>
    if p c then [] :: splitBy p cs
    else
      match splitBy p cs with
      | [] => [[c]]
      | part :: parts => (c :: part) :: parts

/-- The parts of a text between the occurrences of one character. -/
def splitOn [DecidableEq α] (sep : α) : List α → List (List α) :=
  splitBy (· == sep)

/-- The lines of a text: the parts between its line feeds. -/
def lines : List Char → List (List Char) :=
  splitOn '\n'

/-- The maximal runs of characters that are not blank. -/
def words (cs : List Char) : List (List Char) :=
  (splitBy isBlank cs).filter fun w => !w.isEmpty

/-- The lines of a text, put together again with line feeds between them. -/
def joinLines (ls : List (List Char)) : List Char :=
  ['\n'].intercalate ls

/-- The text before and after the first occurrence of a character. -/
def splitFirst? [DecidableEq α] (sep : α) : List α → Option (List α × List α)
  | [] => none
  | c :: cs =>
    if c == sep then some ([], cs)
    else (splitFirst? sep cs).map fun r => (c :: r.1, r.2)

/-- The text before and after the last occurrence of a character. -/
def splitLast? [DecidableEq α] (sep : α) : List α → Option (List α × List α)
  | [] => none
  | c :: cs =>
    match splitLast? sep cs with
    | some r => some (c :: r.1, r.2)
    | none => if c == sep then some ([], cs) else none

/-- The text after a given beginning. -/
def dropStart? : List Char → List Char → Option (List Char)
  | [], cs => some cs
  | _ :: _, [] => none
  | k :: ks, c :: cs => if k == c then dropStart? ks cs else none

/-- The text begins with the given characters. -/
def startsWith (start cs : List Char) : Bool :=
  (dropStart? start cs).isSome

/-- How many line feeds a text holds. -/
def countLines (cs : List Char) : Nat :=
  cs.count '\n'

theorem splitBy_ne_nil (p : α → Bool) (cs : List α) : splitBy p cs ≠ [] := by
  cases cs with
  | nil => simp [splitBy]
  | cons c cs =>
    rw [splitBy]
    split
    · simp
    · split <;> simp

theorem dropStart?_eq_some {start cs rest : List Char} :
    dropStart? start cs = some rest ↔ cs = start ++ rest := by
  induction start generalizing cs with
  | nil => simp [dropStart?, eq_comm]
  | cons k ks ih =>
    cases cs with
    | nil => simp [dropStart?]
    | cons c cs =>
      by_cases h : k = c
      · subst h; simp [dropStart?, ih]
      · have h' : ¬ c = k := fun e => h e.symm
        simp [dropStart?, h, h']

theorem splitBy_cons_of_pos {p : α → Bool} {c : α} (h : p c = true) (cs : List α) :
    splitBy p (c :: cs) = [] :: splitBy p cs := by
  simp [splitBy, h]

theorem splitBy_cons_of_neg {p : α → Bool} {c : α} (h : p c = false) (cs : List α) :
    ∃ part parts, splitBy p cs = part :: parts ∧ splitBy p (c :: cs) = (c :: part) :: parts := by
  cases hs : splitBy p cs with
  | nil => exact absurd hs (splitBy_ne_nil p cs)
  | cons part parts => exact ⟨part, parts, rfl, by simp [splitBy, h, hs]⟩

/-- A text has one part more than it has separators. -/
theorem length_splitBy (p : α → Bool) (cs : List α) :
    (splitBy p cs).length = cs.countP p + 1 := by
  induction cs with
  | nil => simp [splitBy]
  | cons c cs ih =>
    by_cases h : p c = true
    · simp [splitBy_cons_of_pos h, ih, h]
    · obtain ⟨part, parts, hs, hc⟩ := splitBy_cons_of_neg (by simpa using h) cs
      rw [hs] at ih
      simp only [hc, List.length_cons] at ih ⊢
      simpa [h] using ih

/-- A text has one line more than it has line feeds. -/
theorem length_lines (cs : List Char) : (lines cs).length = countLines cs + 1 := by
  rw [lines, splitOn, length_splitBy, countLines, List.count]

/-- No part holds a separator. -/
theorem not_mem_of_mem_splitBy {p : α → Bool} {cs part : List α}
    (h : part ∈ splitBy p cs) : ∀ c ∈ part, p c = false := by
  induction cs generalizing part with
  | nil => simp [splitBy] at h; simp [h]
  | cons c cs ih =>
    by_cases hp : p c = true
    · rw [splitBy_cons_of_pos hp] at h
      rcases List.mem_cons.1 h with rfl | h
      · simp
      · exact ih h
    · have hp : p c = false := by simpa using hp
      obtain ⟨first, parts, hs, hc⟩ := splitBy_cons_of_neg hp cs
      rw [hc] at h
      rw [hs] at ih
      rcases List.mem_cons.1 h with rfl | h
      · intro d hd
        rcases List.mem_cons.1 hd with rfl | hd
        · exact hp
        · exact ih (by simp) d hd
      · exact ih (by simp [h])

/-- The parts between the separators make up the text again. -/
theorem intercalate_splitOn [DecidableEq α] (sep : α) (cs : List α) :
    [sep].intercalate (splitOn sep cs) = cs := by
  induction cs with
  | nil => simp [splitOn, splitBy]
  | cons c cs ih =>
    rw [splitOn] at ih ⊢
    cases hs : splitBy (· == sep) cs with
    | nil => exact absurd hs (splitBy_ne_nil _ cs)
    | cons part parts =>
      rw [hs] at ih
      by_cases h : c = sep
      · subst h
        simpa [splitBy, hs, List.intercalate, List.intersperse] using ih
      · cases parts with
        | nil => simpa [splitBy, hs, h, List.intercalate, List.intersperse] using ih
        | cons q qs => simpa [splitBy, hs, h, List.intercalate, List.intersperse] using ih

/-- Splitting into lines loses nothing. -/
theorem joinLines_lines (cs : List Char) : joinLines (lines cs) = cs :=
  intercalate_splitOn '\n' cs

/-- The first occurrence of a character divides a text. -/
theorem splitFirst?_eq_some [DecidableEq α] {sep : α} {cs before after : List α} :
    splitFirst? sep cs = some (before, after) ↔ cs = before ++ sep :: after ∧ sep ∉ before := by
  induction cs generalizing before with
  | nil => simp [splitFirst?]
  | cons c cs ih =>
    by_cases h : c = sep
    · subst h
      cases before with
      | nil => simp [splitFirst?]
      | cons b bs => simp [splitFirst?]; intro e _ n; exact absurd e n
    · cases before with
      | nil => simp [splitFirst?, h]
      | cons b bs =>
        simp only [splitFirst?, beq_iff_eq, h, ↓reduceIte, Option.map_eq_some_iff, Prod.mk.injEq,
          Prod.exists, List.cons.injEq, List.cons_append, List.mem_cons, not_or]
        constructor
        · rintro ⟨a, b', hs, ⟨rfl, rfl⟩, rfl⟩
          exact ⟨⟨rfl, (ih.1 hs).1⟩, fun e => h e.symm, (ih.1 hs).2⟩
        · rintro ⟨⟨rfl, e⟩, _, hn⟩
          exact ⟨bs, after, ih.2 ⟨e, hn⟩, ⟨rfl, rfl⟩, rfl⟩

theorem splitLast?_eq_none [DecidableEq α] {sep : α} {cs : List α} :
    splitLast? sep cs = none ↔ sep ∉ cs := by
  induction cs with
  | nil => simp [splitLast?]
  | cons c cs ih =>
    rw [splitLast?]
    split
    · rename_i r hr
      have : sep ∈ cs := Classical.byContradiction fun hn => by simp [ih.2 hn] at hr
      simp [this]
    · rename_i hr
      have hn := ih.1 hr
      by_cases h : c = sep
      · simp [h]
      · simp [h, hn]; exact fun e => h e.symm

/-- The last occurrence of a character divides a text. -/
theorem splitLast?_eq_some [DecidableEq α] {sep : α} {cs before after : List α} :
    splitLast? sep cs = some (before, after) ↔ cs = before ++ sep :: after ∧ sep ∉ after := by
  induction cs generalizing before after with
  | nil => simp [splitLast?]
  | cons c cs ih =>
    cases hs : splitLast? sep cs with
    | some r =>
      obtain ⟨first, last⟩ := r
      obtain ⟨e, hl⟩ := ih.1 hs
      cases before with
      | nil =>
        simp only [splitLast?, hs, Option.some.injEq, Prod.mk.injEq, reduceCtorEq, false_and,
          List.nil_append, List.cons.injEq, false_iff, not_and]
        rintro ⟨_, rfl⟩
        simp [e]
      | cons b bs =>
        simp only [splitLast?, hs, Option.some.injEq, Prod.mk.injEq, List.cons.injEq,
          List.cons_append]
        rw [hs] at ih
        simp only [Option.some.injEq, Prod.mk.injEq] at ih
        rw [and_assoc, ih, and_assoc]
    | none =>
      have hn := splitLast?_eq_none.1 hs
      cases before with
      | nil =>
        by_cases h : c = sep
        · subst h
          simp only [splitLast?, hs, beq_self_eq_true, ↓reduceIte, Option.some.injEq,
            Prod.mk.injEq, true_and, List.nil_append, List.cons.injEq]
          exact ⟨fun e => ⟨e, e ▸ hn⟩, fun e => e.1⟩
        · simp [splitLast?, hs, h]
      | cons b bs =>
        simp only [splitLast?, hs, List.cons_append, List.cons.injEq]
        constructor
        · intro h; split at h <;> simp at h
        · rintro ⟨⟨_, e⟩, _⟩
          exact absurd (by rw [e]; simp) hn

end StructAtlas.Text
