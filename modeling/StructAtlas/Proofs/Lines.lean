import StructAtlas.LineIndex
import StructAtlas.Text.Split

set_option autoImplicit false

/-!
# Offsets, lines and columns

The line number of an offset is the number of lines that end at or before it, plus one
(`lineAt_ofLines`), and for the lines of a text that is the number of line feeds before the offset,
plus one (`lineAt_lines`). A text before an offset is made of complete lines and of a beginning of
the offset's line (`exists_line`); the lines from that line on are the lines of the text behind the
complete ones (`drop_lines`).

A line ends behind the lines up to it, so the line number of any offset counts the lines whose sum
of lengths is at most the offset (`lineAt_counts_line_ends`).
-/

namespace StructAtlas

namespace LineIndex

/-! ## Bisection -/

/-- The ends before `lo` are at or before the offset and those from `hi` on are behind it. -/
structure Between (ends : Array Nat) (offset : Int) (lo hi : Nat) : Prop where
  le : lo ≤ hi
  size : hi ≤ ends.size
  before : ∀ i, i < lo → ((ends.getD i 0 : Nat) : Int) ≤ offset
  behind : ∀ i, hi ≤ i → i < ends.size → offset < ((ends.getD i 0 : Nat) : Int)

/-- Bisection of increasing ends closes in on one place. -/
theorem between_bisect {ends : Array Nat} {offset : Int} {lo hi : Nat}
    (sorted : ∀ i j, i ≤ j → j < ends.size → ends.getD i 0 ≤ ends.getD j 0)
    (h : Between ends offset lo hi) :
    Between ends offset (bisect ends offset lo hi) (bisect ends offset lo hi) := by
  fun_induction bisect ends offset lo hi with
  | case1 lo hi hlt mid hmid ih =>
    refine ih ⟨by omega, ?_, h.before, ?_⟩
    · have := h.size
      omega
    · intro i hi hsize
      have := sorted mid i hi hsize
      omega
  | case2 lo hi hlt mid hmid ih =>
    have hsize := h.size
    refine ih ⟨by omega, hsize, ?_, h.behind⟩
    intro i hi
    have := sorted i mid (by omega) (by omega)
    omega
  | case3 lo hi hlt =>
    obtain rfl : lo = hi := Nat.le_antisymm h.le (by omega)
    exact h

theorem countP_eq_of_split {p : Nat → Bool} {l : List Nat} {n : Nat} (hn : n ≤ l.length)
    (hbefore : ∀ (i : Nat) (h : i < l.length), i < n → p l[i] = true)
    (hbehind : ∀ (i : Nat) (h : i < l.length), n ≤ i → p l[i] = false) : l.countP p = n := by
  have htake : (l.take n).countP p = n := by
    have hall : ∀ a ∈ l.take n, p a = true := by
      intro a ha
      obtain ⟨i, hi, rfl⟩ := List.mem_take_iff_getElem.1 ha
      exact hbefore i (by omega) (by omega)
    rw [List.countP_eq_length.2 hall, List.length_take]
    omega
  have hdrop : (l.drop n).countP p = 0 := by
    rw [List.countP_eq_zero]
    intro a ha
    obtain ⟨i, hi, rfl⟩ := List.mem_drop_iff_getElem.1 ha
    simp [hbehind (n + i) (by omega) (by omega)]
  rw [← List.take_append_drop n l, List.countP_append, htake, hdrop, Nat.add_zero]

/-- The line of an offset is found by counting the lines that end at or before it. -/
theorem lineAt_ofLines (ls : List (List Char)) (offset : Int) :
    (ofLines ls).lineAt offset
      = (endsFrom 0 ls).countP (fun e : Nat => decide ((e : Int) ≤ offset)) + 1 := by
  have hget : ∀ (i : Nat) (h : i < (endsFrom 0 ls).length),
      ((endsFrom 0 ls).toArray).getD i 0 = (endsFrom 0 ls)[i] := by
    intro i h
    simp [Array.getD_eq_getD_getElem?, h]
  have hsorted : ∀ i j, i ≤ j → j < (endsFrom 0 ls).toArray.size →
      ((endsFrom 0 ls).toArray).getD i 0 ≤ ((endsFrom 0 ls).toArray).getD j 0 := by
    intro i j hij hj
    have hj' : j < (endsFrom 0 ls).length := by simpa using hj
    rw [hget j hj', hget i (by omega)]
    rcases Nat.lt_or_eq_of_le hij with hlt | rfl
    · have := List.pairwise_iff_getElem.1 (pairwise_endsFrom 0 ls) i j (by omega) hj' hlt
      omega
    · omega
  have hstart : Between (endsFrom 0 ls).toArray offset 0 (endsFrom 0 ls).toArray.size :=
    ⟨Nat.zero_le _, Nat.le_refl _, fun i hi => absurd hi (Nat.not_lt_zero i),
      fun i hi hsize => absurd hsize (by omega)⟩
  have hfound := between_bisect hsorted hstart
  have hsize := hfound.size
  -- The bisection splits the ends, so its place is the number of ends in front of it.
  rw [lineAt, ofLines, Nat.add_right_cancel_iff, eq_comm]
  apply countP_eq_of_split (by simpa using hsize)
  · intro i h hi
    have hle := hfound.before i hi
    rw [hget i h] at hle
    simpa using hle
  · intro i h hi
    have hlt := hfound.behind i hi (by simpa using h)
    rw [hget i h] at hlt
    simpa using hlt

end LineIndex

namespace Text

/-! ## Lines of a text -/

theorem lines_lineFeed (cs : List Char) : lines ('\n' :: cs) = [] :: lines cs := by
  simp [lines, splitOn, splitBy]

theorem lines_cons_of_ne {c : Char} (h : c ≠ '\n') (cs : List Char) :
    ∃ first others, lines cs = first :: others ∧ lines (c :: cs) = (c :: first) :: others :=
  splitBy_cons_of_neg (by simpa using h) cs

/-- A line feed ends a line. -/
theorem lines_append_lineFeed (cs rest : List Char) :
    lines (cs ++ '\n' :: rest) = lines cs ++ lines rest := by
  induction cs with
  | nil => exact lines_lineFeed rest
  | cons c cs ih =>
    by_cases h : c = '\n'
    · subst h
      rw [List.cons_append, lines_lineFeed, ih, lines_lineFeed, List.cons_append]
    · obtain ⟨first, others, hcs, hc⟩ := lines_cons_of_ne h cs
      obtain ⟨first', others', hcs', hc'⟩ := lines_cons_of_ne h (cs ++ '\n' :: rest)
      rw [ih, hcs, List.cons_append, List.cons.injEq] at hcs'
      rw [List.cons_append, hc', hc, ← hcs'.1, ← hcs'.2, List.cons_append]

/-- Text without line feeds belongs to the first line of what follows. -/
theorem lines_append_of_not_mem {lead : List Char} (h : '\n' ∉ lead) {cs first : List Char}
    {others : List (List Char)} (hcs : lines cs = first :: others) :
    lines (lead ++ cs) = (lead ++ first) :: others := by
  induction lead with
  | nil => exact hcs
  | cons c lead ih =>
    have hc : c ≠ '\n' := fun e => h (e ▸ List.mem_cons_self)
    have hlead := ih fun hm => h (List.mem_cons_of_mem _ hm)
    obtain ⟨first', others', hcs', hc'⟩ := lines_cons_of_ne hc (lead ++ cs)
    rw [hlead, List.cons.injEq] at hcs'
    rw [List.cons_append, hc', ← hcs'.1, ← hcs'.2, List.cons_append]

/-- A text that is empty or ends with a line feed. -/
def EndsLine (cs : List Char) : Prop :=
  cs = [] ∨ ∃ before, cs = before ++ ['\n']

/-- Behind complete lines the lines of the rest begin. -/
theorem drop_lines {before : List Char} (h : EndsLine before) (cs : List Char) :
    (lines (before ++ cs)).drop (countLines before) = lines cs := by
  rcases h with rfl | ⟨before, rfl⟩
  · rfl
  · have hcount : countLines (before ++ ['\n']) = (lines before).length := by
      rw [length_lines]
      simp [countLines]
    rw [hcount, List.append_assoc, List.singleton_append, lines_append_lineFeed, List.drop_left]

/-- The number of characters between the beginning of an offset's line and the offset. -/
def column (cs : List Char) (offset : Nat) : Nat :=
  ((cs.take offset).reverse.takeWhile (· != '\n')).length

/-- The text before an offset is made of complete lines and of the beginning of a line. -/
theorem exists_line (cs : List Char) (offset : Nat) :
    ∃ before lead, cs.take offset = before ++ lead ∧ EndsLine before ∧ '\n' ∉ lead
      ∧ lead.length = column cs offset := by
  generalize hrev : (cs.take offset).reverse = rev
  have hlead : '\n' ∉ (rev.takeWhile (· != '\n')).reverse := by
    intro hm
    have := List.all_eq_true.1 List.all_takeWhile _ (List.mem_reverse.1 hm)
    simp at this
  -- Seen from the end, the beginning of the line is what comes before the first line feed.
  refine ⟨(rev.dropWhile (· != '\n')).reverse, (rev.takeWhile (· != '\n')).reverse, ?_, ?_, hlead,
    ?_⟩
  · rw [← List.reverse_append, List.takeWhile_append_dropWhile, ← hrev, List.reverse_reverse]
  · cases hd : rev.dropWhile (· != '\n') with
    | nil => exact Or.inl rfl
    | cons c more =>
      have hc := List.head?_dropWhile_not (· != '\n') rev
      rw [hd] at hc
      have hc : c = '\n' := by simpa using hc
      exact Or.inr ⟨more.reverse, by rw [hc, List.reverse_cons]⟩
  · rw [List.length_reverse, column, hrev]

end Text

namespace LineIndex

open Text

/-- The lines of a text end where its line feeds are. -/
theorem countP_endsFrom_lines (start : Nat) (cs : List Char) {offset : Nat}
    (h : offset ≤ cs.length) :
    (endsFrom start (lines cs)).countP (fun e => decide (e ≤ start + offset))
      = countLines (cs.take offset) := by
  induction cs generalizing start offset with
  | nil =>
    have : offset = 0 := by simpa using h
    subst this
    simp [lines, splitOn, splitBy, endsFrom, countLines]
  | cons c cs ih =>
    cases offset with
    | zero =>
      rw [List.take_zero, countLines, List.count_nil, List.countP_eq_zero]
      intro e he
      have := lt_of_mem_endsFrom he
      simpa using this
    | succ offset =>
      have hoffset : offset ≤ cs.length := by simpa using h
      have hshift : ∀ e, decide (e ≤ start + (offset + 1)) = decide (e ≤ start + 1 + offset) := by
        intro e
        congr 2
        omega
      by_cases hc : c = '\n'
      · subst hc
        rw [lines_lineFeed, endsFrom, List.countP_cons, List.length_nil, Nat.add_zero]
        simp only [hshift]
        rw [ih (start + 1) hoffset, List.take_succ_cons]
        simp [countLines]
      · obtain ⟨first, others, hcs, hlines⟩ := lines_cons_of_ne hc cs
        have hends : endsFrom start (lines (c :: cs)) = endsFrom (start + 1) (lines cs) := by
          rw [hlines, hcs, endsFrom, endsFrom, List.length_cons]
          have : start + (first.length + 1) + 1 = start + 1 + first.length + 1 := by omega
          rw [this]
        rw [hends]
        simp only [hshift]
        rw [ih (start + 1) hoffset, List.take_succ_cons]
        simp [countLines, hc]

/-- The line of an offset of a text is one more than the number of line feeds before it. -/
theorem lineAt_lines {cs : List Char} {offset : Nat} (h : offset ≤ cs.length) :
    (ofLines (lines cs)).lineAt offset = countLines (cs.take offset) + 1 := by
  rw [lineAt_ofLines, ← countP_endsFrom_lines 0 cs h, Nat.zero_add]
  congr 2
  funext e
  simp

/-! ## Sums of lengths -/

/-- The number of characters of some lines, each with its line feed. -/
def extent : List (List Char) → Nat
  | [] => 0
  | l :: ls => l.length + 1 + extent ls

/-- A line ends behind the lines up to it. -/
theorem endsFrom_eq_map (start : Nat) (ls : List (List Char)) :
    endsFrom start ls = (List.range ls.length).map fun k => start + extent (ls.take (k + 1)) := by
  induction ls generalizing start with
  | nil => rfl
  | cons l ls ih =>
    rw [endsFrom, ih, List.length_cons, List.range_succ_eq_map, List.map_cons, List.map_map]
    congr 1
    apply List.map_congr_left
    intro k _
    rw [Function.comp_apply, List.take_succ_cons, extent]
    omega

theorem extent_take_le (ls : List (List Char)) (k : Nat) : extent (ls.take k) ≤ extent ls := by
  induction ls generalizing k with
  | nil => exact Nat.le_of_eq (congrArg extent List.take_nil)
  | cons l ls ih =>
    cases k with
    | zero => exact Nat.zero_le _
    | succ k =>
      rw [List.take_succ_cons, extent, extent]
      exact Nat.add_le_add_left (ih k) _

/-- The lines of a text have its characters and one line feed more. -/
theorem extent_lines (cs : List Char) : extent (lines cs) = cs.length + 1 := by
  induction cs with
  | nil => rfl
  | cons c cs ih =>
    by_cases hc : c = '\n'
    · rw [hc, lines_lineFeed, extent, ih, List.length_nil, List.length_cons]
      omega
    · obtain ⟨first, others, hcs, hlines⟩ := lines_cons_of_ne hc cs
      rw [hcs, extent] at ih
      rw [hlines, extent, List.length_cons, List.length_cons]
      omega

/-- The line of an offset is one more than the number of lines whose extent, with all lines before
them, is at most the offset. -/
theorem lineAt_eq_countP_extent (ls : List (List Char)) (offset : Int) :
    (ofLines ls).lineAt offset
      = 1 + (List.range ls.length).countP fun k =>
          decide ((extent (ls.take (k + 1)) : Int) ≤ offset) := by
  rw [lineAt_ofLines, endsFrom_eq_map, List.countP_map, Nat.add_comm]
  simp only [Nat.zero_add]
  rfl

/-- A line that has ended at an offset has ended at all later ones. -/
theorem lineAt_mono (ls : List (List Char)) {offset offset' : Int} (h : offset ≤ offset') :
    (ofLines ls).lineAt offset ≤ (ofLines ls).lineAt offset' := by
  rw [lineAt_ofLines, lineAt_ofLines]
  refine Nat.add_le_add_right (List.countP_mono_left fun e _ he => ?_) 1
  exact decide_eq_true (Int.le_trans (of_decide_eq_true he) h)

/-- Behind the whole extent of the lines all of them have ended. -/
theorem lineAt_of_extent_le {ls : List (List Char)} {offset : Int}
    (h : (extent ls : Int) ≤ offset) :
    (ofLines ls).lineAt offset = ls.length + 1 := by
  have hall : (List.range ls.length).countP
      (fun k => decide ((extent (ls.take (k + 1)) : Int) ≤ offset)) = ls.length := by
    refine (List.countP_eq_length.2 fun k _ => ?_).trans List.length_range
    have hle := extent_take_le ls (k + 1)
    exact decide_eq_true (by omega)
  rw [lineAt_eq_countP_extent, hall, Nat.add_comm]

/-- **Line numbers count line ends.** With the lines of a text, the line of an offset is one more
than the number of line feeds before it, and behind the text it is the line after the last one. With
any lines, the line of any offset is one more than the number of lines that end at or before it,
each line with its line feed being added to those before it, and the lines of increasing offsets do
not decrease. -/
theorem lineAt_counts_line_ends :
    (∀ (cs : List Char) (offset : Nat), offset ≤ cs.length →
        (ofLines (lines cs)).lineAt offset = 1 + countLines (cs.take offset))
      ∧ (∀ (cs : List Char) (offset : Int), cs.length < offset →
        (ofLines (lines cs)).lineAt offset = (lines cs).length + 1)
      ∧ (∀ (ls : List (List Char)) (offset : Int),
        (ofLines ls).lineAt offset
          = 1 + (List.range ls.length).countP fun k =>
              decide ((extent (ls.take (k + 1)) : Int) ≤ offset))
      ∧ ∀ (ls : List (List Char)) (offset offset' : Int), offset ≤ offset' →
        (ofLines ls).lineAt offset ≤ (ofLines ls).lineAt offset' := by
  refine ⟨fun cs offset h => ?_, fun cs offset h => ?_, lineAt_eq_countP_extent,
    fun ls _ _ => lineAt_mono ls⟩
  · rw [lineAt_lines h, Nat.add_comm]
  · apply lineAt_of_extent_le
    rw [extent_lines]
    omega

/-- The offsets of an empty line, behind the end and before the beginning. -/
theorem lineAt_of_empty_line :
    3 ≤ "ab\n\nc".toList.length ∧ (ofLines (lines "ab\n\nc".toList)).lineAt 3 = 2
      ∧ ("ab\n\nc".toList.length : Int) < 6 ∧ (ofLines (lines "ab\n\nc".toList)).lineAt 6 = 4
      ∧ (-1 : Int) ≤ 3
      ∧ (ofLines (lines "ab\n\nc".toList)).lineAt (-1)
        ≤ (ofLines (lines "ab\n\nc".toList)).lineAt 3 := by
  obtain ⟨hfeeds, hbehind, -, hmono⟩ := lineAt_counts_line_ends
  refine ⟨by decide, ?_, by decide, ?_, by decide, hmono _ (-1) 3 (by decide)⟩
  · exact hfeeds _ 3 (by decide)
  · exact hbehind _ 6 (by decide)

end LineIndex

end StructAtlas
