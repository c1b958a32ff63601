import Mathlib.Data.List.Induction
import StructAtlas.Proofs.UsageGrammar

set_option autoImplicit false

/-!
# The search for uses

The search goes through a text from left to right, reads at every place it comes to, and goes on
behind what it read (`Usage.Visits`). What it passes without reading begins inside a use that was
read further left (`visits_or_passed`).

A word that such a use goes past is its type name behind the keyword, its variable or its length
(`WordIn.in_use`, `InUse`). Behind a variable and behind a length there stands something else than
behind a type name, so no use is hidden by an earlier one (`exists_use_of_named`). The names that
are reported are those of whole words (`IsWhole`), and the fronts of words that stand alone before
an initialiser (`IsCut`).
-/

namespace StructAtlas.Usage

open Text Reading

/-! ## The places at which the search reads -/

/-- In the text that the two parts make up, the search reads at the second part. -/
inductive Visits : List Char → List Char → Prop where
  | start {cs : List Char} : Visits [] cs
  | skip {before behind : List Char} {c : Char} : Visits before (c :: behind) →
    read (c :: behind) = none → Visits (before ++ [c]) behind
  | take {before use behind name : List Char} : Visits before (use ++ behind) →
    read (use ++ behind) = some (name, behind) → Visits (before ++ use) behind

variable {before behind mid name rest tail b w after : List Char} {c : Char}

/-- A use ends with a mark. -/
theorem EndsUse.getLast?_eq (h : EndsUse tail) :
    ∃ d ∈ [';', ',', '\x7b'], tail.getLast? = some d := by
  have hmarks : ∀ d, d = ';' ∨ d = ',' → d ∈ [';', ',', '\x7b'] := by
    rintro d (rfl | rfl) <;> decide
  rcases h with hplain | hinit
  · cases hplain with
    | unsized _ hc => exact ⟨_, hmarks _ hc, by simp⟩
    | sized _ _ _ hc => exact ⟨_, hmarks _ hc, by simp [List.getLast?_cons]⟩
  · cases hinit with
    | marks => exact ⟨'\x7b', by decide, by simp [List.getLast?_cons]⟩

/-- So does what completes a name. -/
theorem Completes.getLast?_eq (h : Completes b) :
    ∃ d ∈ [';', ',', '\x7b'], b.getLast? = some d := by
  rcases h with hnames | hsplits
  · obtain ⟨sep, var, tail, rfl, -, -, htail⟩ := hnames.exists_parts
    have hend : EndsUse tail := htail.imp_right And.right
    obtain ⟨d, hd, hlast⟩ := hend.getLast?_eq
    exact ⟨d, hd, by simp [hlast]⟩
  · obtain @⟨c, tail, -, htail⟩ := hsplits
    obtain ⟨d, hd, hlast⟩ := EndsUse.getLast?_eq (.inr htail)
    exact ⟨d, hd, by simp [List.getLast?_cons, hlast]⟩

/-- The text that the reader takes ends with a mark, too. -/
theorem getLast?_of_read {use : List Char} (h : read (use ++ rest) = some (name, rest)) :
    ∃ d ∈ [';', ',', '\x7b'], use.getLast? = some d := by
  obtain ⟨lead, b, htext, -, -, hb⟩ := exists_parts_of_read h
  obtain ⟨d, hd, hlast⟩ := hb.getLast?_eq
  have huse : use = lead ++ (name ++ b) := by
    have hwhole : use ++ rest = (lead ++ (name ++ b)) ++ rest := by simpa using htext
    exact List.append_cancel_right hwhole
  exact ⟨d, hd, by simp [huse, hlast]⟩

/-- The reader takes the front of the text. -/
theorem exists_use_of_read {cs : List Char} (h : read cs = some (name, rest)) :
    ∃ use, use ≠ [] ∧ cs = use ++ rest := by
  obtain ⟨lead, b, rfl, -, hname, -⟩ := exists_parts_of_read h
  exact ⟨lead ++ (name ++ b), by simp [hname.1], by simp⟩

theorem collect_pending (run cs : List Char) (pos : Nat) :
    collect run.length pos (run ++ cs) = collect 0 (pos + run.length) cs := by
  induction run generalizing pos with
  | nil => rfl
  | cons c run ih =>
    rw [List.length_cons, List.cons_append, collect, ih]
    congr 1
    omega

theorem collect_take {use : List Char} (h : read (use ++ rest) = some (name, rest)) (pos : Nat) :
    collect 0 pos (use ++ rest) =
      (String.ofList name, pos) :: collect 0 (pos + use.length) rest := by
  obtain ⟨use', hne, htext⟩ := exists_use_of_read h
  obtain rfl := List.append_cancel_right htext
  obtain ⟨c, use, rfl⟩ := List.exists_cons_of_ne_nil hne
  rw [List.cons_append] at h ⊢
  rw [collect, h]
  have hlength : (use ++ rest).length - rest.length = use.length := by simp
  simp only [hlength, collect_pending, List.length_cons]
  congr 2
  omega

theorem collect_skip (h : read (c :: rest) = none) (pos : Nat) :
    collect 0 pos (c :: rest) = collect 0 (pos + 1) rest := by
  rw [collect, h]

/-- What is found behind a place at which the search reads is found in the whole text. -/
theorem Visits.mem_find (h : Visits before behind) {p : String × Nat}
    (hp : p ∈ collect 0 before.length behind) : p ∈ find (before ++ behind) := by
  induction h with
  | start => exact hp
  | @skip before behind c _ hread ih =>
    rw [List.append_assoc]
    apply ih
    rw [collect_skip hread]
    simpa using hp
  | @take before use behind name _ hread ih =>
    rw [List.append_assoc]
    apply ih
    rw [collect_take hread]
    apply List.mem_cons_of_mem
    simpa using hp

/-- What is found behind a place at which the search reads is read at such a place. -/
theorem Visits.of_mem_collect (h : Visits before behind) {p : String × Nat}
    (hp : p ∈ collect 0 before.length behind) :
    ∃ before' behind' name rest, before ++ behind = before' ++ behind' ∧ Visits before' behind'
      ∧ read behind' = some (name, rest) ∧ p = (String.ofList name, before'.length) := by
  -- Each step leaves less text, whether it passes one character or a use.
  induction hn : behind.length using Nat.strongRecOn generalizing before behind with
  | ind n ih =>
    cases behind with
    | nil => simp [collect] at hp
    | cons c cs =>
      cases hread : read (c :: cs) with
      | none =>
        rw [collect_skip hread] at hp
        obtain ⟨before', behind', name, rest, htext, hfound⟩ :=
          ih cs.length (by simp [← hn]) (h.skip hread) (by simpa using hp) rfl
        exact ⟨before', behind', name, rest, by simpa using htext, hfound⟩
      | some found =>
        obtain ⟨name, rest⟩ := found
        obtain ⟨use, hne, htext⟩ := exists_use_of_read hread
        rw [htext] at h hp hread hn ⊢
        rw [collect_take hread, List.mem_cons] at hp
        rcases hp with hp | hp
        · exact ⟨before, use ++ rest, name, rest, rfl, h, hread, hp⟩
        · have hpos := List.length_pos_iff.2 hne
          obtain ⟨before', behind', name, rest, htext, hfound⟩ :=
            ih rest.length (by rw [← hn, List.length_append]; omega) (h.take hread)
              (by simpa using hp) rfl
          exact ⟨before', behind', name, rest, by rw [← htext, List.append_assoc], hfound⟩

/-- **The uses that are found** are those that are read where the search reads. -/
theorem mem_find_iff {cs : List Char} {p : String × Nat} :
    p ∈ find cs ↔ ∃ before behind name rest, cs = before ++ behind ∧ Visits before behind
      ∧ read behind = some (name, rest) ∧ p = (String.ofList name, before.length) := by
  constructor
  · exact fun h => Visits.start.of_mem_collect h
  · rintro ⟨before, behind, name, rest, rfl, hvisits, hread, rfl⟩
    obtain ⟨use, -, rfl⟩ := exists_use_of_read hread
    apply hvisits.mem_find
    rw [collect_take hread]
    exact List.mem_cons_self

/-- The search reads behind a use, or the use goes past the place. -/
theorem Visits.take_or_lt {front : List Char} (h : Visits front (mid ++ behind))
    (hread : read (mid ++ behind) = some (name, rest)) (hlength : rest.length ≤ behind.length) :
    Visits (front ++ mid) behind ∨ rest.length < behind.length := by
  rcases Nat.lt_or_eq_of_le hlength with hlt | heq
  · exact .inr hlt
  · obtain ⟨use, -, htext⟩ := exists_use_of_read hread
    obtain ⟨-, rfl⟩ := List.append_inj' htext heq.symm
    exact .inl (h.take hread)

/-- Where the search does not read, a use that begins further left goes past the place. -/
theorem visits_or_passed (before behind : List Char) :
    Visits before behind ∨
      ∃ front mid name rest, before = front ++ mid ∧ mid ≠ [] ∧ Visits front (mid ++ behind)
        ∧ read (mid ++ behind) = some (name, rest) ∧ rest.length < behind.length := by
  induction before using List.reverseRecOn generalizing behind with
  | nil => exact .inl .start
  | append_singleton before c ih =>
    rcases ih (c :: behind) with hvisits | ⟨front, mid, name, rest, rfl, hne, hvisits, hread, hlt⟩
    · cases hread : read (c :: behind) with
      | none => exact .inl (hvisits.skip hread)
      | some found =>
        obtain ⟨name, rest⟩ := found
        obtain ⟨use, hne, htext⟩ := exists_use_of_read hread
        have hpos := List.length_pos_iff.2 hne
        have hlength := congrArg List.length htext
        rw [List.length_cons, List.length_append] at hlength
        have hfront : Visits before ([c] ++ behind) := hvisits
        rcases hfront.take_or_lt hread (by omega) with hvisits' | hlt
        · exact .inl hvisits'
        · exact .inr ⟨before, [c], name, rest, rfl, by simp, hvisits, hread, hlt⟩
    · have htext : mid ++ c :: behind = (mid ++ [c]) ++ behind := by simp
      rw [htext] at hvisits hread
      rw [List.length_cons] at hlt
      rw [List.append_assoc]
      rcases hvisits.take_or_lt hread (by omega) with hvisits' | hlt
      · exact .inl hvisits'
      · exact .inr ⟨front, mid ++ [c], name, rest, rfl, by simp, hvisits, hread, hlt⟩

/-- The search reads at every place from which words and blanks lead to one at which it reads, and
nothing can be read there. -/
theorem Visits.back (hmid : ∀ c ∈ mid, isWord c = true ∨ isBlank c = true)
    (h : Visits (before ++ mid) behind) :
    Visits before (mid ++ behind) ∧ (mid ≠ [] → read (mid ++ behind) = none) := by
  induction mid using List.reverseRecOn generalizing behind with
  | nil => exact ⟨by simpa using h, fun hne => absurd rfl hne⟩
  | append_singleton mid c ih =>
    have hc := hmid c (by simp)
    have hlast : (before ++ (mid ++ [c])).getLast? = some c := by simp
    generalize hfront : before ++ (mid ++ [c]) = front at h hlast
    cases h with
    | start => cases hlast
    | @skip before' _ c' hvisits hread =>
      rw [← List.append_assoc] at hfront
      obtain ⟨rfl, hc'⟩ := List.append_inj' hfront rfl
      obtain rfl : c = c' := by simpa using hc'
      obtain ⟨hvisits', hnone⟩ := ih (fun d hd => hmid d (by simp [hd])) hvisits
      rw [List.append_assoc, List.singleton_append]
      refine ⟨hvisits', fun _ => ?_⟩
      by_cases hmid' : mid = []
      · rw [hmid']
        exact hread
      · exact hnone hmid'
    | @take before' use _ name hvisits hread =>
      obtain ⟨d, hd, huse⟩ := getLast?_of_read hread
      have hmarks : ∀ d ∈ [';', ',', '\x7b'], ¬ (isWord d = true ∨ isBlank d = true) := by
        simp only [List.mem_cons, List.not_mem_nil, or_false, forall_eq_or_imp, forall_eq]
        decide
      rw [List.getLast?_append, huse, Option.some_or, Option.some.injEq] at hlast
      rw [hlast] at hd
      exact absurd hc (hmarks c hd)

/-! ## Words that a use goes past -/

/-- A word that is not part of a longer one, with the text before it and the text behind it. -/
structure WordIn (text before w after : List Char) : Prop where
  text_eq : text = before ++ (w ++ after)
  isName : IsName w
  starts : Stops isWord before.reverse
  ends : Stops isWord after

/-- It stands behind a piece of the text without word characters. -/
theorem WordIn.behind_marks {piece more : List Char} (h : WordIn (piece ++ more) mid w after)
    (hpiece : ∀ c ∈ piece, isWord c = false) :
    ∃ mid', mid = piece ++ mid' ∧ WordIn more mid' w after := by
  obtain ⟨htext, hname, hstarts, hends⟩ := h
  rcases List.append_eq_append_iff.1 htext with ⟨mid', rfl, hmore⟩ | ⟨late, rfl, hbehind⟩
  · rw [List.reverse_append] at hstarts
    exact ⟨mid', rfl, hmore, hname, stops_of_append hstarts, hends⟩
  · obtain ⟨d, w, rfl⟩ := List.exists_cons_of_ne_nil hname.1
    have hd := (run_cons.1 hname.2).1
    cases late with
    | nil => exact ⟨[], by simp, by simpa using hbehind.symm, hname, stops_nil isWord, hends⟩
    | cons e late =>
      rw [List.cons_append, List.cons_append, List.cons.injEq] at hbehind
      rw [hbehind.1, hpiece e (by simp)] at hd
      cases hd

/-- It is a word at the front of the text, or it stands behind that word. -/
theorem WordIn.behind_word {run more : List Char} (h : WordIn (run ++ more) mid w after)
    (hrun : Run isWord run) (hmore : Stops isWord more) :
    (mid = [] ∧ w = run ∧ after = more) ∨
      ∃ mid', mid = run ++ mid' ∧ WordIn more mid' w after := by
  obtain ⟨htext, hname, hstarts, hends⟩ := h
  rcases List.eq_nil_or_concat mid with rfl | ⟨front, d, rfl⟩
  · obtain ⟨rfl, rfl⟩ := run_append_inj hrun hname.2 hmore hends htext
    exact .inl ⟨rfl, rfl, rfl⟩
  · right
    rcases List.append_eq_append_iff.1 htext with ⟨mid', hmid, hmore⟩ | ⟨late, rfl, -⟩
    · rw [hmid, List.reverse_append] at hstarts
      exact ⟨mid', hmid, hmore, hname, stops_of_append hstarts, hends⟩
    · have hd : isWord d = true := hrun d (by simp)
      rw [List.concat_eq_append, List.reverse_append, List.reverse_singleton,
        List.singleton_append, stops_cons] at hstarts
      rw [hstarts] at hd
      cases hd

/-- Where a word stands in a use that it is not the type name of. -/
inductive InUse (before after : List Char) : Prop where
  | second {front name sep tail rest : List Char} : IsName name → Separates sep →
    PlainEnd tail ∨ IsGap sep ∧ InitEnd tail → before = front ++ (name ++ sep) →
    after = tail ++ rest → InUse before after
  | length {rest : List Char} : after = ']' :: rest → InUse before after

theorem InUse.append (h : InUse before after) (front : List Char) :
    InUse (front ++ before) after := by
  cases h with
  | @second front' name sep _ _ hname hsep htail hbefore hafter =>
    have htext : front ++ before = (front ++ front') ++ (name ++ sep) := by simp [hbefore]
    exact .second hname hsep htail htext hafter
  | length hafter => exact .length hafter

/-- A word in or behind the end of a use is a length, or it stands behind the use. -/
theorem WordIn.behind_end (h : WordIn (tail ++ rest) mid w after)
    (htail : EndsUse tail) :
    (∃ behind, after = ']' :: behind) ∨ ∃ mid', WordIn rest mid' w after := by
  have hclass : ∀ d, d = ';' ∨ d = ',' → isWord d = false := by rintro d (rfl | rfl) <;> decide
  have hmarks : ∀ {blanks : List Char} {d : Char}, Run isBlank blanks → isWord d = false →
      ∀ c ∈ blanks ++ [d], isWord c = false := by
    intro blanks d hblanks hd c hc
    rcases List.mem_append.1 hc with hc | hc
    · exact isWord_of_isBlank c (hblanks c hc)
    · rwa [List.mem_singleton.1 hc]
  rcases htail with hplain | hinit
  · cases hplain with
    | unsized hb hd =>
      obtain ⟨mid', -, hin⟩ := h.behind_marks (hmarks hb (hclass _ hd))
      exact .inr ⟨mid', hin⟩
    | @sized b₁ digits b₂ d hb₁ hdigits hb₂ hd =>
      have htext : b₁ ++ '[' :: (digits ++ ']' :: (b₂ ++ [d])) ++ rest =
          (b₁ ++ ['[']) ++ (digits ++ ([']'] ++ ((b₂ ++ [d]) ++ rest))) := by simp
      rw [htext] at h
      obtain ⟨mid₁, -, hin₁⟩ := h.behind_marks (hmarks hb₁ (by decide))
      have hrun : Run isWord digits := fun c hc => isWord_of_isDecimal c (hdigits c hc)
      rcases hin₁.behind_word hrun (stops_cons.2 (by decide)) with
        ⟨-, -, hafter⟩ | ⟨mid₂, -, hin₂⟩
      · exact .inl ⟨_, hafter⟩
      · obtain ⟨mid₃, -, hin₃⟩ := hin₂.behind_marks (hmarks (run_nil isBlank) (by decide))
        obtain ⟨mid₄, -, hin₄⟩ := hin₃.behind_marks (hmarks hb₂ (hclass _ hd))
        exact .inr ⟨mid₄, hin₄⟩
  · cases hinit with
    | @marks b₁ b₂ hb₁ hb₂ =>
      have htext : b₁ ++ '=' :: (b₂ ++ ['\x7b']) ++ rest =
          (b₁ ++ ['=']) ++ ((b₂ ++ ['\x7b']) ++ rest) := by simp
      rw [htext] at h
      obtain ⟨mid₁, -, hin₁⟩ := h.behind_marks (hmarks hb₁ (by decide))
      obtain ⟨mid₂, -, hin₂⟩ := hin₁.behind_marks (hmarks hb₂ (by decide))
      exact .inr ⟨mid₂, hin₂⟩

theorem Separates.not_isWord {sep : List Char} (h : Separates sep) :
    ∀ c ∈ sep, isWord c = false := by
  cases h with
  | blanks hgap => exact fun c hc => isWord_of_isBlank c (hgap.2 c hc)
  | star hb =>
    intro c hc
    rcases List.mem_append.1 hc with hc | hc
    · exact isWord_of_isBlank c (hb c hc)
    · rw [List.mem_singleton.1 hc]
      decide

/-- A word in or behind a use without the keyword. -/
theorem WordIn.behind_name (h : WordIn (name ++ (b ++ rest)) mid w after) (hname : IsName name)
    (hb : Completes b) :
    mid = [] ∨ InUse mid after ∨ ∃ mid', WordIn rest mid' w after := by
  rcases hb with hnames | hsplits
  · rcases h.behind_word hname.2 (hnames.stops rest) with ⟨hmid, -⟩ | ⟨mid₁, rfl, hin₁⟩
    · exact .inl hmid
    · right
      obtain ⟨sep, var, tail, rfl, hsep, hvar, htail⟩ := hnames.exists_parts
      have hend : EndsUse tail := htail.imp_right And.right
      rw [List.append_assoc] at hin₁
      obtain ⟨mid₂, rfl, hin₂⟩ := hin₁.behind_marks hsep.not_isWord
      rw [List.append_assoc] at hin₂
      rcases hin₂.behind_word hvar.2 (hend.stops rest) with ⟨rfl, -, hafter⟩ | ⟨mid₃, -, hin₃⟩
      · have hmid : name ++ (sep ++ []) = [] ++ (name ++ sep) := by simp
        exact .inl (.second hname hsep htail hmid hafter)
      · rcases hin₃.behind_end hend with ⟨behind, hafter⟩ | hbehind
        · exact .inl (.length hafter)
        · exact .inr hbehind
  · obtain @⟨c, tail, hc, htail⟩ := hsplits
    have htext : name ++ (c :: tail ++ rest) = (name ++ [c]) ++ (tail ++ rest) := by simp
    rw [htext] at h
    rcases h.behind_word (hname.concat hc).2 (htail.stops rest) with ⟨hmid, -⟩ | ⟨mid₁, -, hin₁⟩
    · exact .inl hmid
    · rcases hin₁.behind_end (.inr htail) with ⟨behind, hafter⟩ | hbehind
      · exact .inr (.inl (.length hafter))
      · exact .inr (.inr hbehind)

/-- A word that a use goes past is its keyword, its type name, or another word in it. -/
theorem WordIn.in_use {lead : List Char} (h : WordIn (lead ++ (name ++ (b ++ rest))) mid w after)
    (hlead : Lead lead) (hname : IsName name) (hb : Completes b)
    (hlt : rest.length < (w ++ after).length) :
    mid = [] ∨ (∃ gap, IsGap gap ∧ mid = "struct".toList ++ gap) ∨ InUse mid after := by
  -- A word behind the use would be a part of `rest`.
  have hpast : ¬ ∃ mid', WordIn rest mid' w after := by
    rintro ⟨mid', hin⟩
    have hlength := congrArg List.length hin.text_eq
    rw [List.length_append] at hlength
    omega
  cases hlead with
  | none =>
    rw [List.nil_append] at h
    rcases h.behind_name hname hb with hmid | huse | hbehind
    · exact .inl hmid
    · exact .inr (.inr huse)
    · exact absurd hbehind hpast
  | @keyword gap hgap =>
    rw [List.append_assoc] at h
    rcases h.behind_word (by decide) ((Separates.blanks hgap).stops _) with
      ⟨hmid, -⟩ | ⟨mid₁, rfl, hin₁⟩
    · exact .inl hmid
    · right
      obtain ⟨mid₂, rfl, hin₂⟩ := hin₁.behind_marks (Separates.blanks hgap).not_isWord
      rcases hin₂.behind_name hname hb with rfl | huse | hbehind
      · exact .inl ⟨gap, hgap, by simp⟩
      · exact .inr ((huse.append gap).append _)
      · exact absurd hbehind hpast

/-- The search reads at a word or at the keyword before it, or the word stands in a use that it is
not the type name of. -/
theorem visits_or_in_use {text : List Char} (h : WordIn text before w after) :
    Visits before (w ++ after) ∨
      (∃ front gap, before = front ++ ("struct".toList ++ gap) ∧ IsGap gap
        ∧ Visits front ("struct".toList ++ (gap ++ (w ++ after)))) ∨ InUse before after := by
  rcases visits_or_passed before (w ++ after) with
    hvisits | ⟨front, mid, name, rest, rfl, hne, hvisits, hread, hlt⟩
  · exact .inl hvisits
  · obtain ⟨lead, b, htext, hlead, hname, hb⟩ := exists_parts_of_read hread
    have hstarts := h.starts
    rw [List.reverse_append] at hstarts
    have hin : WordIn (lead ++ (name ++ (b ++ rest))) mid w after :=
      ⟨htext.symm, h.isName, stops_of_append hstarts, h.ends⟩
    rcases hin.in_use hlead hname hb hlt with hmid | ⟨gap, hgap, rfl⟩ | huse
    · exact absurd hmid hne
    · rw [List.append_assoc] at hvisits
      exact .inr (.inl ⟨front, gap, rfl, hgap, hvisits⟩)
    · exact .inr (.inr (huse.append front))

/-- A word that is followed by a word or a star is the type name of the use it stands in. -/
theorem InUse.false_of_next (h : InUse before after) (hnext : next after = some c)
    (hc : isWord c = true ∨ c = '*') : False := by
  cases h with
  | second _ _ htail _ hafter =>
    exact ne_end_of_next hnext hc (htail.imp_right And.right) hafter
  | length hafter =>
    rw [hafter, next_cons (by decide), Option.some.injEq] at hnext
    rw [← hnext] at hc
    exact absurd hc (by decide)

/-- **Uses are found completely.** Wherever a word other than `struct` stands before a variable, the
word is found, at its own place or at that of the keyword in front of it. The text around it is of
any kind: no earlier use hides it. -/
theorem exists_use_of_named (before name form after : List Char)
    (hbefore : Stops isWord before.reverse) (hname : IsName name)
    (hkeyword : name ≠ "struct".toList) (hform : NamesVariable form) :
    ∃ start, (String.ofList name, start) ∈ find (before ++ (name ++ (form ++ after))) ∧
      (start = before.length ∨ start < before.length ∧
        ∃ gap, IsGap gap ∧ before.drop start = "struct".toList ++ gap) := by
  have hin : WordIn (before ++ (name ++ (form ++ after))) before name (form ++ after) :=
    ⟨rfl, hname, hbefore, hform.stops after⟩
  rcases visits_or_in_use hin with hvisits | ⟨front, gap, rfl, hgap, hvisits⟩ | huse
  · obtain ⟨rest, hread⟩ := read_named hname hkeyword hform after
    exact ⟨before.length, mem_find_iff.2 ⟨_, _, _, _, rfl, hvisits, hread, rfl⟩, .inl rfl⟩
  · obtain ⟨rest, hread⟩ := read_struct_named hgap hname hform after
    have hfound := mem_find_iff.2 ⟨front, _, name, rest, rfl, hvisits, hread, rfl⟩
    have htext : front ++ ("struct".toList ++ gap) ++ (name ++ (form ++ after)) =
        front ++ ("struct".toList ++ (gap ++ (name ++ (form ++ after)))) := by simp
    rw [htext]
    exact ⟨front.length, hfound, .inr ⟨by simp, gap, hgap, List.drop_left⟩⟩
  · obtain ⟨d, hd, hnext⟩ := hform.exists_next
    exact (huse.false_of_next (hnext after) hd).elim

theorem exists_use_behind_keyword :
    Stops isWord "Foo q[4], struct ".toList.reverse ∧ IsName "Node".toList
      ∧ "Node".toList ≠ "struct".toList ∧ NamesVariable " *n ,".toList
      ∧ ∃ start, ("Node", start) ∈ find "Foo q[4], struct Node *n , m;".toList ∧
        (start = 17 ∨ start < 17 ∧ ∃ gap, IsGap gap
          ∧ "Foo q[4], struct ".toList.drop start = "struct".toList ++ gap) := by
  have hbefore : Stops isWord "Foo q[4], struct ".toList.reverse := by
    apply stops_cons.2
    decide
  have hform : NamesVariable (([' '] ++ ['*']) ++ (['n'] ++ ([' '] ++ [',']))) :=
    .plain (.star (by decide)) (by decide) (.unsized (by decide) (.inr rfl))
  have hname : IsName "Node".toList := by decide
  have hne : "Node".toList ≠ "struct".toList := by decide
  have hfound := exists_use_of_named _ _ _ " m;".toList hbefore hname hne hform
  have htext : "Foo q[4], struct ".toList ++ ("Node".toList
      ++ (([' '] ++ ['*']) ++ (['n'] ++ ([' '] ++ [','])) ++ " m;".toList)) =
        "Foo q[4], struct Node *n , m;".toList := by decide
  have hlength : "Foo q[4], struct ".toList.length = 17 := by decide
  rw [htext, hlength, String.ofList_toList] at hfound
  exact ⟨hbefore, hname, hne, hform, hfound⟩

/-! ## Whole words and cut words -/

/-- A word and blanks stand at the end of a text. -/
def FollowsWord (before : List Char) : Prop :=
  ∃ front w gap, before = front ++ (w ++ gap) ∧ IsName w ∧ IsGap gap

/-- The keyword and blanks stand at the end of a text. -/
def FollowsKeyword (before : List Char) : Prop :=
  ∃ front gap, before = front ++ ("struct".toList ++ gap) ∧ IsGap gap

/-- A name that is reported for a word of the text: a variable stands behind the word, apart from
it, and the use begins with the word or with the keyword in front of it. -/
def IsWhole (cs : List Char) (p : String × Nat) : Prop :=
  ∃ before lead name behind rest, WordIn cs (before ++ lead) name (behind ++ rest) ∧ Lead lead
    ∧ NamesVariable behind ∧ p = (String.ofList name, before.length)

/-- A name that is reported for a part of a word: the word stands directly before an initialiser,
and the name is all of it but the last character. -/
inductive IsCut (cs : List Char) : String × Nat → Prop where
  | alone {before name tail rest : List Char} {c : Char} :
    WordIn cs before (name ++ [c]) (tail ++ rest) → IsName name → InitEnd tail →
    ¬ FollowsWord before → IsCut cs (String.ofList name, before.length)
  | behindKeyword {before gap name tail rest : List Char} {c : Char} :
    WordIn cs (before ++ ("struct".toList ++ gap)) (name ++ [c]) (tail ++ rest) →
    Stops isWord before.reverse → IsGap gap → IsName name → InitEnd tail →
    ¬ FollowsKeyword before → IsCut cs (String.ofList name, before.length)

/-- No use begins with words and blanks in front of a place at which the search reads. -/
theorem Visits.not_isSome (h : Visits (before ++ mid) behind)
    (hmid : ∀ c ∈ mid, isWord c = true ∨ isBlank c = true) (hne : mid ≠ []) :
    ¬ (read (mid ++ behind)).isSome = true := by
  rw [(h.back hmid).2 hne]
  simp

theorem isWord_or_isBlank {w gap : List Char} (hw : IsName w) (hgap : IsGap gap) :
    ∀ c ∈ w ++ gap, isWord c = true ∨ isBlank c = true := by
  intro c hc
  rcases List.mem_append.1 hc with hc | hc
  · exact .inl (hw.2 c hc)
  · exact .inr (hgap.2 c hc)

/-- A use begins at the beginning of a word. -/
theorem Visits.starts (h : Visits before (name ++ (b ++ rest))) (hname : IsName name)
    (hb : Completes b) : Stops isWord before.reverse := by
  rcases List.eq_nil_or_concat before with rfl | ⟨front, d, rfl⟩
  · exact stops_nil isWord
  · rw [List.concat_eq_append] at h ⊢
    rw [List.reverse_append, List.reverse_singleton, List.singleton_append, stops_cons]
    cases hd : isWord d with
    | false => rfl
    | true =>
      -- With the character in front of it the name would have been read.
      have hlonger : IsName (d :: name) := ⟨by simp, run_cons.2 ⟨hd, hname.2⟩⟩
      exact absurd (isSome_read .none hlonger hb rest) (h.not_isSome (by simp [hd]) (by simp))

/-- A word before an initialiser. -/
theorem NamesVariable.of_cut {gap : List Char} (hgap : IsGap gap) (hname : IsName name)
    (hc : isWord c = true) (htail : InitEnd tail) :
    NamesVariable (gap ++ ((name ++ [c]) ++ tail)) :=
  .initialised hgap (hname.concat hc) htail

/-- What is cut is not the variable of a use that begins further left. -/
theorem Visits.not_followsWord (h : Visits before (name ++ (c :: tail ++ rest)))
    (hname : IsName name) (hc : isWord c = true) (htail : InitEnd tail) : ¬ FollowsWord before := by
  rintro ⟨front, w, gap, rfl, hw, hgap⟩
  have hread := isSome_read .none hw (.inl (.of_cut hgap hname hc htail)) rest
  apply h.not_isSome (isWord_or_isBlank hw hgap) (by simp [hw.1])
  simpa using hread

theorem Visits.not_followsKeyword {gap : List Char}
    (h : Visits before ("struct".toList ++ (gap ++ (name ++ (c :: tail ++ rest)))))
    (hgap : IsGap gap) (hname : IsName name) (hc : isWord c = true) (htail : InitEnd tail) :
    ¬ FollowsKeyword before := by
  rintro ⟨front, gap', rfl, hgap'⟩
  have hkeyword : IsName "struct".toList := by decide
  have hread := isSome_read (.keyword hgap') hkeyword (.inl (.of_cut hgap hname hc htail)) rest
  apply h.not_isSome (isWord_or_isBlank hkeyword hgap') (by simp)
  simpa using hread

/-- No word character stands in front of a text behind a gap. -/
theorem stops_reverse_gap {gap : List Char} (hgap : IsGap gap) (front : List Char) :
    Stops isWord (front ++ gap).reverse := by
  have hrun : Run isBlank gap.reverse := fun c hc => hgap.2 c (List.mem_reverse.1 hc)
  rw [List.reverse_append]
  exact hrun.stops_append_of_ne_nil isWord_of_isBlank (by simp [hgap.1]) _

/-- A use of a whole word is reported for it. -/
theorem isWhole_of_visits {lead : List Char} (h : Visits before (lead ++ (name ++ (b ++ rest))))
    (hlead : Lead lead) (hname : IsName name) (hb : NamesVariable b) :
    IsWhole (before ++ (lead ++ (name ++ (b ++ rest)))) (String.ofList name, before.length) := by
  refine ⟨before, lead, name, b, rest, ⟨by simp, hname, ?_, hb.stops rest⟩, hlead, hb, rfl⟩
  cases hlead with
  | none =>
    have hvisits : Visits before (name ++ (b ++ rest)) := h
    rw [List.append_nil]
    exact hvisits.starts hname (.inl hb)
  | keyword hgap =>
    rw [← List.append_assoc]
    exact stops_reverse_gap hgap _

/-- A use of the front of a word is reported for it, and the word is not part of another use. -/
theorem isCut_of_visits {lead : List Char}
    (h : Visits before (lead ++ (name ++ (c :: tail ++ rest)))) (hlead : Lead lead)
    (hname : IsName name) (hc : isWord c = true) (htail : InitEnd tail) :
    IsCut (before ++ (lead ++ (name ++ (c :: tail ++ rest))))
      (String.ofList name, before.length) := by
  have hw := hname.concat hc
  have hends := htail.stops rest
  cases hlead with
  | none =>
    have hvisits : Visits before (name ++ (c :: tail ++ rest)) := h
    have hstarts := hvisits.starts hname (.inr (.word hc htail))
    exact .alone ⟨by simp, hw, hstarts, hends⟩ hname htail
      (hvisits.not_followsWord hname hc htail)
  | @keyword gap hgap =>
    rw [List.append_assoc] at h
    have hkeyword : IsName "struct".toList := by decide
    -- The keyword would be a type name if a word character stood in front of it.
    have hstarts : Stops isWord before.reverse := by
      have htext : gap ++ (name ++ (c :: tail ++ rest)) =
          gap ++ ((name ++ [c]) ++ tail) ++ rest := by simp
      have hvisits := h
      rw [htext] at hvisits
      exact hvisits.starts hkeyword (.inl (.of_cut hgap hname hc htail))
    have hin : WordIn (before ++ ("struct".toList ++ gap ++ (name ++ (c :: tail ++ rest))))
        (before ++ ("struct".toList ++ gap)) (name ++ [c]) (tail ++ rest) := by
      refine ⟨by simp, hw, ?_, hends⟩
      rw [← List.append_assoc]
      exact stops_reverse_gap hgap _
    exact .behindKeyword hin hstarts hgap hname htail (h.not_followsKeyword hgap hname hc htail)

/-- A reported name is a whole word, or it is a cut one. -/
theorem isWhole_or_isCut {cs : List Char} {p : String × Nat} (h : p ∈ find cs) :
    IsWhole cs p ∨ IsCut cs p := by
  obtain ⟨before, behind, name, rest, rfl, hvisits, hread, rfl⟩ := mem_find_iff.1 h
  obtain ⟨lead, b, rfl, hlead, hname, hb⟩ := exists_parts_of_read hread
  rcases hb with hnames | hsplits
  · exact .inl (isWhole_of_visits hvisits hlead hname hnames)
  · obtain @⟨c, tail, hc, htail⟩ := hsplits
    exact .inr (isCut_of_visits hvisits hlead hname hc htail)

/-- Every cut name is reported. -/
theorem IsCut.mem_find {cs : List Char} {p : String × Nat} (h : IsCut cs p) : p ∈ find cs := by
  have hlast : ∀ {name : List Char} {c : Char}, IsName (name ++ [c]) → isWord c = true :=
    fun hw => (run_append.1 hw.2).2 _ (List.mem_singleton_self _)
  cases h with
  | @alone before name tail rest c hin hname htail hfollows =>
    have hc := hlast hin.isName
    rcases visits_or_in_use hin with hvisits | ⟨front, gap, rfl, hgap, -⟩ | huse
    · obtain ⟨behind, hread⟩ := read_cut hname hc htail rest
      have htext : name ++ c :: (tail ++ rest) = (name ++ [c]) ++ (tail ++ rest) := by simp
      rw [htext] at hread
      exact mem_find_iff.2 ⟨before, _, name, behind, hin.text_eq, hvisits, hread, rfl⟩
    · exact absurd ⟨front, _, gap, rfl, by decide, hgap⟩ hfollows
    · -- Behind the word stands an equals sign, so it would be the variable of an initialiser.
      have hequals := htail.next_eq rest
      cases huse with
      | @second front w sep tail' rest' hw _ htail' hbefore hafter =>
        rcases htail' with hplain | ⟨hgap, -⟩
        · obtain ⟨d, hd, hnext⟩ := hplain.exists_next
          rw [hafter, hnext, Option.some.injEq] at hequals
          rw [hequals] at hd
          exact absurd hd (by decide)
        · exact absurd ⟨front, w, sep, hbefore, hw, hgap⟩ hfollows
      | length hafter =>
        rw [hafter, next_cons (by decide)] at hequals
        exact absurd hequals (by decide)
  | @behindKeyword before gap name tail rest c hin hstarts hgap hname htail hfollows =>
    have hc := hlast hin.isName
    have htext : cs = before ++ ("struct".toList ++ (gap ++ (name ++ c :: (tail ++ rest)))) := by
      rw [hin.text_eq]
      simp
    obtain ⟨d, hd, hnext⟩ := (Separates.blanks hgap).exists_next hname
    have hkeyword : WordIn cs before "struct".toList (gap ++ (name ++ c :: (tail ++ rest))) :=
      ⟨htext, by decide, hstarts, (Separates.blanks hgap).stops _⟩
    rcases visits_or_in_use hkeyword with hvisits | ⟨front, gap', rfl, hgap', -⟩ | huse
    · exact mem_find_iff.2 ⟨before, _, name, rest, htext, hvisits,
        read_struct_cut hgap hname hc htail rest, rfl⟩
    · exact absurd ⟨front, gap', rfl, hgap'⟩ hfollows
    · exact (huse.false_of_next (hnext _) hd).elim

end StructAtlas.Usage
