import StructAtlas.Body
import StructAtlas.Proofs.Lines
import StructAtlas.Proofs.Runs

set_option autoImplicit false

/-!
# Matching braces

A text opens more braces than it closes by its `surplus`. The brace at an offset is closed where the
surplus of the text from there on is zero for the first time (`Closes`), which says what a body is
without a scan. The scan with a depth counter stops there (`collect_closed`), or runs to the end of
the text and reports the surplus that is left (`collect_unclosed`). `Outcome` puts the two cases
together as what a search has to return that begins a body at a given brace, and `outcome_collect`
says that the scan returns it.
-/

namespace StructAtlas

namespace Text

/-- The part of a text from one offset up to another. -/
def slice (cs : List Char) (start stop : Nat) : List Char :=
  (cs.take stop).drop start

theorem slice_append {before : List Char} (cs : List Char) (n : Nat) :
    slice (before ++ cs) before.length (before.length + n) = cs.take n := by
  rw [slice, List.take_length_add_append, List.drop_left]

theorem take_append_slice {cs : List Char} {start stop : Nat} (h : start ≤ stop) :
    cs.take start ++ slice cs start stop = cs.take stop := by
  have htake : cs.take start = (cs.take stop).take start := by
    rw [List.take_take, Nat.min_eq_left h]
  rw [slice, htake, List.take_append_drop]

theorem slice_append_drop {cs : List Char} {start stop : Nat} (h : start ≤ stop)
    (hstop : stop ≤ cs.length) : slice cs start stop ++ cs.drop stop = cs.drop start := by
  have hlength : start ≤ (cs.take stop).length := by
    rw [List.length_take]
    omega
  rw [slice, ← List.drop_append_of_le_length hlength, List.take_append_drop]

theorem slice_append_slice {cs : List Char} {start mid stop : Nat} (h : start ≤ mid)
    (h' : mid ≤ stop) (hmid : mid ≤ cs.length) :
    slice cs start mid ++ slice cs mid stop = slice cs start stop := by
  have hlength : start ≤ (cs.take mid).length := by
    rw [List.length_take]
    omega
  rw [slice, ← List.drop_append_of_le_length hlength, take_append_slice h']
  rfl

end Text

namespace Body

open Text

/-! ## Surplus and matching -/

/-- How many more braces a text opens than it closes. -/
def surplus (cs : List Char) : Int :=
  (cs.count '\x7b' : Int) - (cs.count '\x7d' : Int)

/-- The brace at offset `b` is closed by the one at offset `e`: from `b` through `e` as many braces
are opened as closed, and up to any offset between them more are opened. -/
structure Closes (cs : List Char) (b e : Nat) : Prop where
  lt : b < e
  isOpen : ∀ i, b ≤ i → i < e → 0 < surplus (slice cs b (i + 1))
  balanced : surplus (slice cs b (e + 1)) = 0

instance (cs : List Char) (b e : Nat) : Decidable (Closes cs b e) :=
  decidable_of_iff (b < e ∧ (∀ i, i < e → b ≤ i → 0 < surplus (slice cs b (i + 1)))
      ∧ surplus (slice cs b (e + 1)) = 0)
    ⟨fun h => ⟨h.1, fun i hb he => h.2.1 i he hb, h.2.2⟩,
      fun h => ⟨h.lt, fun i he hb => h.isOpen i hb he, h.balanced⟩⟩

/-- With a number of braces open in front of a text, some brace stays open throughout it. -/
def StaysOpen (depth : Int) (cs : List Char) : Prop :=
  ∀ n, 0 < depth + surplus (cs.take n)

@[simp]
theorem surplus_nil : surplus [] = 0 := by
  simp [surplus]

theorem surplus_append (as bs : List Char) : surplus (as ++ bs) = surplus as + surplus bs := by
  simp only [surplus, List.count_append]
  omega

@[simp]
theorem surplus_open (cs : List Char) : surplus ('\x7b' :: cs) = surplus cs + 1 := by
  simp only [surplus, List.count_cons_self]
  rw [List.count_cons_of_ne (by decide)]
  omega

@[simp]
theorem surplus_close (cs : List Char) : surplus ('\x7d' :: cs) = surplus cs - 1 := by
  simp only [surplus, List.count_cons_self]
  rw [List.count_cons_of_ne (by decide)]
  omega

theorem surplus_cons_of_ne {c : Char} (ho : c ≠ '\x7b') (hc : c ≠ '\x7d') (cs : List Char) :
    surplus (c :: cs) = surplus cs := by
  rw [surplus, surplus, List.count_cons_of_ne ho, List.count_cons_of_ne hc]

theorem StaysOpen.of_cons {depth : Int} {c : Char} {cs : List Char}
    (h : StaysOpen depth (c :: cs)) : StaysOpen (depth + surplus [c]) cs := by
  intro n
  have hn := h (n + 1)
  rw [List.take_succ_cons, ← List.singleton_append, surplus_append] at hn
  omega

theorem StaysOpen.cons {depth : Int} {c : Char} {cs : List Char} (hd : 0 < depth)
    (h : StaysOpen (depth + surplus [c]) cs) : StaysOpen depth (c :: cs) := by
  intro n
  cases n with
  | zero => simpa using hd
  | succ n =>
    rw [List.take_succ_cons, ← List.singleton_append, surplus_append]
    have hn := h n
    omega

/-- A text stays open throughout, or there is a first brace that closes it. -/
theorem staysOpen_or_closed (cs : List Char) (depth : Int) (hd : 0 < depth) :
    StaysOpen depth cs ∨
      ∃ text rest, cs = text ++ '\x7d' :: rest ∧ StaysOpen depth text
        ∧ depth + surplus text = 1 := by
  induction cs generalizing depth with
  | nil => exact Or.inl fun n => by simpa using hd
  | cons c cs ih =>
    by_cases hlast : c = '\x7d' ∧ depth = 1
    · obtain ⟨rfl, rfl⟩ := hlast
      exact Or.inr ⟨[], cs, rfl, fun n => by simp, by simp⟩
    · have hpos : 0 < depth + surplus [c] := by
        by_cases hc : c = '\x7d'
        · subst hc
          have hne : depth ≠ 1 := fun e => hlast ⟨rfl, e⟩
          rw [surplus_close, surplus_nil]
          omega
        · by_cases ho : c = '\x7b'
          · subst ho
            rw [surplus_open, surplus_nil]
            omega
          · rw [surplus_cons_of_ne ho hc, surplus_nil]
            omega
      rcases ih (depth + surplus [c]) hpos with hopen | ⟨text, rest, rfl, hopen, hclose⟩
      · exact Or.inl (hopen.cons hd)
      · refine Or.inr ⟨c :: text, rest, rfl, hopen.cons hd, ?_⟩
        rw [← List.singleton_append, surplus_append]
        omega

theorem surplus_take_succ {cs : List Char} {n : Nat} (h : n < cs.length) :
    surplus (cs.take (n + 1)) = surplus (cs.take n) + surplus [cs[n]] := by
  rw [← List.take_append_getElem h, surplus_append]

/-- Where the surplus falls, a brace is closed. -/
theorem getElem_of_surplus_lt {cs : List Char} {n : Nat}
    (h : surplus (cs.take (n + 1)) < surplus (cs.take n)) : cs[n]? = some '\x7d' := by
  by_cases hlt : n < cs.length
  · rw [surplus_take_succ hlt] at h
    rw [List.getElem?_eq_getElem hlt]
    by_cases hc : cs[n] = '\x7d'
    · rw [hc]
    · by_cases ho : cs[n] = '\x7b'
      · rw [ho, surplus_open, surplus_nil] at h
        omega
      · rw [surplus_cons_of_ne ho hc, surplus_nil] at h
        omega
  · rw [List.take_of_length_le (by omega), List.take_of_length_le (by omega)] at h
    omega

theorem surplus_slice_behind (before behind : List Char) (n : Nat) :
    surplus (slice (before ++ '\x7b' :: behind) before.length (before.length + n + 1))
      = surplus (behind.take n) + 1 := by
  rw [Nat.add_assoc, slice_append, List.take_succ_cons, surplus_open]

/-- The text between a brace and the one that closes it. -/
theorem Closes.exists_text {before behind : List Char} {e : Nat}
    (h : Closes (before ++ '\x7b' :: behind) before.length e) :
    ∃ text rest, behind = text ++ '\x7d' :: rest ∧ e = before.length + 1 + text.length
      ∧ StaysOpen 1 text ∧ surplus text = 0 := by
  obtain ⟨n, rfl⟩ : ∃ n, e = before.length + (n + 1) := ⟨e - before.length - 1, by
    have := h.lt
    omega⟩
  have hopen : ∀ k, k ≤ n → 0 < surplus (behind.take k) + 1 := by
    intro k hk
    have hpos := h.isOpen (before.length + k) (by omega) (by omega)
    rwa [surplus_slice_behind] at hpos
  have hclose : surplus (behind.take (n + 1)) + 1 = 0 := by
    have hzero := h.balanced
    rwa [surplus_slice_behind] at hzero
  -- The surplus falls from one to zero at the last character, which is the closing brace.
  have hn := hopen n (Nat.le_refl n)
  have hbrace : behind[n]? = some '\x7d' := getElem_of_surplus_lt (by omega)
  obtain ⟨hlt, hget⟩ := List.getElem?_eq_some_iff.1 hbrace
  have hstep := surplus_take_succ hlt
  rw [hget, surplus_close, surplus_nil] at hstep
  refine ⟨behind.take n, behind.drop (n + 1), ?_, ?_, ?_, by omega⟩
  · rw [← hget, List.getElem_cons_drop, List.take_append_drop]
  · rw [List.length_take]
    omega
  · intro k
    rw [List.take_take]
    have := hopen (min k n) (Nat.min_le_right k n)
    omega

theorem closes_of_text {before text rest : List Char} (hopen : StaysOpen 1 text)
    (hclose : surplus text = 0) :
    Closes (before ++ '\x7b' :: (text ++ '\x7d' :: rest)) before.length
      (before.length + 1 + text.length) := by
  refine ⟨by omega, ?_, ?_⟩
  · intro i hlow hhigh
    obtain ⟨k, rfl⟩ : ∃ k, i = before.length + k := ⟨i - before.length, by omega⟩
    have hk := hopen k
    rw [surplus_slice_behind, List.take_append_of_le_length (by omega)]
    omega
  · rw [Nat.add_assoc before.length 1, Nat.add_comm 1, surplus_slice_behind,
      List.take_length_add_append, List.take_succ_cons, List.take_zero, surplus_append, hclose,
      surplus_close, surplus_nil]
    decide

/-- A text without braces neither opens nor closes anything. -/
theorem staysOpen_of_flat {cs : List Char} (ho : '\x7b' ∉ cs) (hc : '\x7d' ∉ cs) :
    StaysOpen 1 cs ∧ surplus cs = 0 := by
  have hzero : ∀ n, surplus (cs.take n) = 0 := by
    intro n
    rw [surplus, List.count_eq_zero.2 fun h => ho (List.mem_of_mem_take h),
      List.count_eq_zero.2 fun h => hc (List.mem_of_mem_take h)]
    rfl
  refine ⟨fun n => by rw [hzero]; decide, ?_⟩
  have hall := hzero cs.length
  rwa [List.take_length] at hall

/-! ## The scan for the end of a body -/

/-- One step of the scan inside a body. -/
theorem collect_cons {depth : Nat} {c : Char} (h : 0 < (depth : Int) + surplus [c]) (line : Nat)
    (cs : List Char) :
    ∃ depth' : Nat, (depth' : Int) = depth + surplus [c] ∧
      collect line depth (c :: cs)
        = (collect (line + countLines [c]) depth' cs).map
            fun b => { b with text := c :: b.text } := by
  have hline : (if c == '\n' then line + 1 else line) = line + countLines [c] := by
    by_cases hc : c = '\n' <;> simp [countLines, hc]
  by_cases hc : c = '\x7d'
  · subst hc
    rw [surplus_close, surplus_nil] at h
    -- A closing brace is not the last one here, because something stays open behind it.
    refine ⟨depth - 1, by rw [surplus_close, surplus_nil]; omega, ?_⟩
    have hdepth : ¬ depth ≤ 1 := by omega
    rw [collect, hline]
    simp [hdepth]
  · by_cases ho : c = '\x7b'
    · subst ho
      refine ⟨depth + 1, by rw [surplus_open, surplus_nil]; omega, ?_⟩
      rw [collect, hline]
      simp
    · refine ⟨depth, by rw [surplus_cons_of_ne ho hc, surplus_nil]; omega, ?_⟩
      rw [collect, hline]
      simp [ho, hc]

theorem StaysOpen.first {depth : Int} {c : Char} {cs : List Char}
    (h : StaysOpen depth (c :: cs)) : 0 < depth + surplus [c] := by
  have := h 1
  rwa [List.take_succ_cons, List.take_zero] at this

theorem countLines_cons (c : Char) (cs : List Char) :
    countLines (c :: cs) = countLines [c] + countLines cs := by
  rw [← List.singleton_append, countLines, List.count_append]
  rfl

/-- The scan stops at the brace that closes the body. -/
theorem collect_closed {line depth : Nat} {text rest : List Char} (hopen : StaysOpen depth text)
    (hclose : (depth : Int) + surplus text = 1) :
    collect line depth (text ++ '\x7d' :: rest) = .ok ⟨text, line + countLines text⟩ := by
  induction text generalizing line depth with
  | nil =>
    have hd : depth = 1 := by
      rw [surplus_nil] at hclose
      omega
    simp [collect, hd, countLines]
  | cons c text ih =>
    obtain ⟨depth', hd, hstep⟩ := collect_cons hopen.first line (text ++ '\x7d' :: rest)
    -- The step keeps the invariant: what is open plus what the rest opens is one.
    have hopen' : StaysOpen depth' text := by
      rw [hd]
      exact hopen.of_cons
    have hclose' : (depth' : Int) + surplus text = 1 := by
      rw [← List.singleton_append, surplus_append] at hclose
      omega
    rw [List.cons_append, hstep, ih hopen' hclose', countLines_cons c text, Nat.add_assoc]
    rfl

/-- Without such a brace the scan fails with what is left open. -/
theorem collect_unclosed {line depth : Nat} {cs : List Char} (hopen : StaysOpen depth cs) :
    collect line depth cs = .error (.unmatched (depth + surplus cs) none) := by
  induction cs generalizing line depth with
  | nil => simp [collect]
  | cons c cs ih =>
    obtain ⟨depth', hd, hstep⟩ := collect_cons hopen.first line cs
    have hopen' : StaysOpen depth' cs := by
      rw [hd]
      exact hopen.of_cons
    have hsum : (depth' : Int) + surplus cs = depth + surplus (c :: cs) := by
      rw [← List.singleton_append, surplus_append]
      omega
    rw [hstep, ih hopen', hsum]
    rfl

/-! ## The search for the beginning of a body -/

/-- Characters that decide a search: braces and the semicolon. -/
def isMark (c : Char) : Bool :=
  c == '\x7b' || c == '\x7d' || c == ';'

/-- A text without braces and semicolons is passed over. -/
theorem seek_append {lead : List Char} (h : Run (fun c => !isMark c) lead) (line : Nat)
    (cs : List Char) : seek line (lead ++ cs) = seek (line + countLines lead) cs := by
  induction lead generalizing line with
  | nil => simp [countLines]
  | cons c lead ih =>
    obtain ⟨hc, hlead⟩ := run_cons.1 h
    simp only [isMark, Bool.not_eq_true', Bool.or_eq_false_iff, beq_eq_false_iff_ne] at hc
    have hline : (if c == '\n' then line + 1 else line) = line + countLines [c] := by
      by_cases hn : c = '\n' <;> simp [countLines, hn]
    rw [List.cons_append, seek, hline]
    simp only [hc.1.1, hc.1.2, hc.2, beq_iff_eq, ↓reduceIte]
    rw [ih hlead, countLines_cons c lead, Nat.add_assoc]

/-- What a search finds whose first mark is the opening brace at the given offset. -/
inductive Outcome (cs : List Char) (b : Nat) : Except Fault Found → Prop
  | closed {e : Nat} : Closes cs b e →
      Outcome cs b (.ok ⟨slice cs (b + 1) e, countLines (cs.take e) + 1⟩)
  | unclosed : (∀ e, ¬ Closes cs b e) → 0 < surplus (cs.drop b) →
      Outcome cs b (.error (.unmatched (surplus (cs.drop b)) none))

theorem outcome_of_unclosed {before behind : List Char} (hopen : StaysOpen 1 behind) :
    Outcome (before ++ '\x7b' :: behind) before.length
      (.error (.unmatched (1 + surplus behind) none)) := by
  have hnot : ∀ e, ¬ Closes (before ++ '\x7b' :: behind) before.length e := by
    intro e he
    obtain ⟨text, rest, rfl, -, -, hzero⟩ := he.exists_text
    have hpos := hopen (text.length + 1)
    rw [List.take_length_add_append, List.take_succ_cons, List.take_zero, surplus_append, hzero,
      surplus_close, surplus_nil] at hpos
    omega
  have hleft : surplus ((before ++ '\x7b' :: behind).drop before.length) = 1 + surplus behind := by
    rw [List.drop_left, surplus_open, Int.add_comm]
  have hpos := hopen behind.length
  rw [List.take_length] at hpos
  have houtcome := Outcome.unclosed hnot (by rw [hleft]; exact hpos)
  rwa [hleft] at houtcome

/-- The text up to a closing brace is cut at the opening one. -/
theorem slice_between (before text rest : List Char) :
    let cs := before ++ '\x7b' :: (text ++ '\x7d' :: rest)
    let e := before.length + 1 + text.length
    slice cs (before.length + 1) e = text
      ∧ countLines (cs.take e) = countLines before + countLines text := by
  intro cs e
  have htake : cs.take e = (before ++ ['\x7b']) ++ text := by
    have hcs : cs = ((before ++ ['\x7b']) ++ text) ++ '\x7d' :: rest := by simp [cs]
    rw [hcs, List.take_left' (by simp [e]; omega)]
  constructor
  · rw [slice, htake, List.drop_left' (by simp)]
  · rw [htake]
    simp [countLines, List.count_append]

theorem outcome_of_closed {before text rest : List Char} (hopen : StaysOpen 1 text)
    (hclose : surplus text = 0) :
    Outcome (before ++ '\x7b' :: (text ++ '\x7d' :: rest)) before.length
      (.ok ⟨text, countLines before + 1 + countLines text⟩) := by
  have hcloses : Closes (before ++ '\x7b' :: (text ++ '\x7d' :: rest)) before.length
      (before.length + 1 + text.length) := closes_of_text hopen hclose
  have houtcome := Outcome.closed hcloses
  obtain ⟨htext, hlines⟩ := slice_between before text rest
  rwa [htext, hlines, Nat.add_right_comm] at houtcome

/-- A search that comes to an opening brace ends as the brace does. -/
theorem outcome_collect (before behind : List Char) :
    Outcome (before ++ '\x7b' :: behind) before.length
      (collect (countLines before + 1) 1 behind) := by
  rcases staysOpen_or_closed behind 1 (by decide) with hopen | ⟨text, rest, rfl, hopen, hclose⟩
  · rw [collect_unclosed hopen]
    exact outcome_of_unclosed hopen
  · rw [collect_closed hopen hclose]
    exact outcome_of_closed hopen (by omega)

/-- A brace is closed by one brace only. -/
theorem Closes.unique {cs : List Char} {b e e' : Nat} (h : Closes cs b e) (h' : Closes cs b e') :
    e = e' := by
  rcases Nat.lt_trichotomy e e' with hlt | heq | hlt
  · have := h'.isOpen e (Nat.le_of_lt h.lt) hlt
    rw [h.balanced] at this
    omega
  · exact heq
  · have := h.isOpen e' (Nat.le_of_lt h'.lt) hlt
    rw [h'.balanced] at this
    omega

theorem Outcome.eq_ok {cs : List Char} {b e : Nat} {r : Except Fault Found} (h : Outcome cs b r)
    (hclose : Closes cs b e) : r = .ok ⟨slice cs (b + 1) e, countLines (cs.take e) + 1⟩ := by
  cases h with
  | closed hclose' => rw [hclose.unique hclose']
  | unclosed hnot => exact absurd hclose (hnot e)

theorem Outcome.eq_error {cs : List Char} {b : Nat} {r : Except Fault Found} (h : Outcome cs b r)
    (hnot : ∀ e, ¬ Closes cs b e) :
    0 < surplus (cs.drop b) ∧ r = .error (.unmatched (surplus (cs.drop b)) none) := by
  cases h with
  | closed hclose => exact absurd hclose (hnot _)
  | unclosed _ hpos => exact ⟨hpos, rfl⟩

end Body

end StructAtlas
