import StructAtlas.Proofs.Runs

set_option autoImplicit false

/-!
# The grammar of declarations

`Shape.Written s tag typeName text` says that `text` is a declaration of shape `s` with these names,
written with any number of blanks wherever the shape allows them. The relation does not mention the
readers. `read_iff` says that the reader of a shape takes exactly such a text from the front of its
input, and `readWhole_iff` that it accepts exactly such a text as a whole.

Nothing that a declaration needs stands behind it, so it is read in the same way whatever follows.
-/

namespace StructAtlas

open Text

/-- The text of a packing directive or of a packing attribute. -/
inductive PackingText : List Char → Prop
  | pragma {gap b₁ b₂ digits b₃ : List Char} :
      IsGap gap → Run isBlank b₁ → Run isBlank b₂ → Run isDecimal digits → Run isBlank b₃ →
      PackingText ("#pragma".toList ++ (gap ++ ("pack".toList
        ++ (b₁ ++ '(' :: (b₂ ++ (digits ++ (b₃ ++ [')'])))))))
  | packedAttribute {b₁ b₂ b₃ : List Char} :
      Run isBlank b₁ → Run isBlank b₂ → Run isBlank b₃ →
      PackingText ("__attribute__".toList
        ++ (b₁ ++ '(' :: '(' :: (b₂ ++ ("packed".toList ++ (b₃ ++ [')', ')'])))))

/-- A declaration of a shape, with its tag and its alias. A name that the shape does not have is
empty, and so is a tag that is left out. -/
inductive Shape.Written : Shape → List Char → List Char → List Char → Prop
  | typedef {gap b₁ tag b₂ inner b₃ typeName b₄ : List Char} :
      IsGap gap → Run isBlank b₁ → Run isWord tag → Run isBlank b₂ → '\x7d' ∉ inner →
      Run isBlank b₃ → IsName typeName → Run isBlank b₄ →
      Written .typedef tag typeName ("typedef".toList ++ (gap ++ ("struct".toList ++ (b₁ ++ (tag
        ++ (b₂ ++ '\x7b' :: (inner ++ '\x7d' :: (b₃ ++ (typeName ++ (b₄ ++ [';']))))))))))
  | tagged {gap tag b inner : List Char} :
      IsGap gap → IsName tag → Run isBlank b → '\x7d' ∉ inner →
      Written .tagged tag [] ("struct".toList ++ (gap ++ (tag
        ++ (b ++ '\x7b' :: (inner ++ ['\x7d'])))))
  | packed {packing b tag text : List Char} :
      PackingText packing → Run isBlank b → Written .tagged tag [] text →
      Written .packed tag [] (packing ++ (b ++ text))
  | forward {gap tag b : List Char} :
      IsGap gap → IsName tag → Run isBlank b →
      Written .forward tag [] ("struct".toList ++ (gap ++ (tag ++ (b ++ [';']))))

namespace Reading

theorem structHead_iff {cs tag rest : List Char} :
    structHead cs = some (tag, rest) ↔
      ∃ gap b, cs = "struct".toList ++ (gap ++ (tag ++ (b ++ rest))) ∧ IsGap gap ∧ IsName tag
        ∧ Run isBlank b ∧ Stops isBlank rest ∧ Stops isWord (b ++ rest) := by
  simp only [structHead, Option.bind_eq_bind, Option.bind_eq_some_iff, Prod.exists, keyword_eq_some,
    gap_iff, word_iff, Option.pure_def, Option.some.injEq, Prod.mk.injEq]
  constructor
  · rintro ⟨_, rfl, _, ⟨gap, rfl, hgap, -⟩, tag, behind, ⟨rfl, htag, hstop⟩, rfl, rfl⟩
    obtain ⟨b, hb, hrun, hblank⟩ := exists_skipBlanks behind
    exact ⟨gap, b, by rw [← hb], hgap, htag, hrun, hblank, by rwa [← hb]⟩
  · rintro ⟨gap, b, rfl, hgap, htag, hb, hblank, hword⟩
    exact ⟨_, rfl, _, ⟨gap, rfl, hgap, htag.stops_blank _⟩, tag, _, ⟨rfl, htag, hword⟩, rfl,
      skipBlanks_append hb hblank⟩

theorem packDirective_iff {cs rest : List Char} :
    packDirective cs = some rest ↔
      ∃ gap b₁ b₂ digits b₃, cs = "#pragma".toList ++ (gap ++ ("pack".toList
          ++ (b₁ ++ '(' :: (b₂ ++ (digits ++ (b₃ ++ ')' :: rest)))))) ∧ IsGap gap
        ∧ Run isBlank b₁ ∧ Run isBlank b₂ ∧ Run isDecimal digits ∧ Run isBlank b₃ := by
  simp only [packDirective, Option.bind_eq_bind, Option.bind_eq_some_iff, keyword_eq_some, gap_iff,
    mark_eq_some]
  constructor
  · rintro ⟨_, rfl, _, ⟨gap, rfl, hgap, -⟩, behind, rfl, inside, hopen, hclose⟩
    obtain ⟨b₁, hb₁, hrun₁, -⟩ := exists_skipBlanks behind
    obtain ⟨b₂, hb₂, hrun₂, -⟩ := exists_skipBlanks inside
    obtain ⟨digits, hdigits, hrun, -⟩ := exists_run isDecimal (skipBlanks inside)
    obtain ⟨b₃, hb₃, hrun₃, -⟩ := exists_skipBlanks ((skipBlanks inside).dropWhile isDecimal)
    refine ⟨gap, b₁, b₂, digits, b₃, ?_, hgap, hrun₁, hrun₂, hrun, hrun₃⟩
    rw [← hclose, ← hb₃, ← hdigits, ← hb₂, ← hopen, ← hb₁]
  · rintro ⟨gap, b₁, b₂, digits, b₃, rfl, hgap, hb₁, hb₂, hdigits, hb₃⟩
    refine ⟨_, rfl, _, ⟨gap, rfl, hgap, IsName.stops_blank (by decide) _⟩, _, rfl, _,
      skipBlanks_append hb₁ (stops_cons.2 (by decide)), ?_⟩
    have hclose : Stops isBlank (')' :: rest) := stops_cons.2 (by decide)
    cases digits with
    | nil =>
      rw [List.nil_append, ← List.append_assoc,
        skipBlanks_append (run_append.2 ⟨hb₂, hb₃⟩) hclose,
        dropWhile_of_stops (stops_cons.2 (by decide)), skipBlanks_of_stops hclose]
    | cons d digits =>
      have hd : Stops isBlank (d :: digits ++ (b₃ ++ ')' :: rest)) :=
        stops_cons.2 (isBlank_of_isDecimal d (run_cons.1 hdigits).1)
      have hrest : Stops isDecimal (b₃ ++ ')' :: rest) :=
        hb₃.stops_append (fun c hc => by
          cases hdec : isDecimal c with
          | false => rfl
          | true => exact absurd hc (by simp [isBlank_of_isDecimal c hdec]))
          (stops_cons.2 (by decide))
      rw [skipBlanks_append hb₂ hd, dropWhile_run hdigits hrest, skipBlanks_append hb₃ hclose]

theorem packAttribute_iff {cs rest : List Char} :
    packAttribute cs = some rest ↔
      ∃ b₁ b₂ b₃, cs = "__attribute__".toList
          ++ (b₁ ++ '(' :: '(' :: (b₂ ++ ("packed".toList ++ (b₃ ++ ')' :: ')' :: rest))))
        ∧ Run isBlank b₁ ∧ Run isBlank b₂ ∧ Run isBlank b₃ := by
  simp only [packAttribute, Option.bind_eq_bind, Option.bind_eq_some_iff, keyword_eq_some,
    mark_eq_some]
  constructor
  · rintro ⟨behind, rfl, _, hopen, inside, rfl, last, hword, _, hclose, rfl⟩
    obtain ⟨b₁, hb₁, hrun₁, -⟩ := exists_skipBlanks behind
    obtain ⟨b₂, hb₂, hrun₂, -⟩ := exists_skipBlanks inside
    obtain ⟨b₃, hb₃, hrun₃, -⟩ := exists_skipBlanks last
    refine ⟨b₁, b₂, b₃, ?_, hrun₁, hrun₂, hrun₃⟩
    rw [← hclose, ← hb₃, ← hword, ← hb₂, ← hopen, ← hb₁]
  · rintro ⟨b₁, b₂, b₃, rfl, hb₁, hb₂, hb₃⟩
    -- Behind each run stands a character that is no blank, so the skip takes the run only.
    exact ⟨_, rfl, _, skipBlanks_append hb₁ (stops_cons.2 (by decide)), _, rfl, _,
      skipBlanks_append hb₂ (IsName.stops_blank (by decide) _), _,
      skipBlanks_append hb₃ (stops_cons.2 (by decide)), rfl⟩

theorem packing_iff {cs rest : List Char} :
    packing cs = some rest ↔ ∃ text, cs = text ++ rest ∧ PackingText text := by
  constructor
  · intro h
    rw [packing, Option.orElse_eq_orElse, Option.orElse_eq_or, Option.or_eq_some_iff] at h
    rcases h with h | ⟨-, h⟩
    · obtain ⟨gap, b₁, b₂, digits, b₃, rfl, hgap, h₁, h₂, hd, h₃⟩ := packDirective_iff.1 h
      exact ⟨_, by simp [List.append_assoc], .pragma hgap h₁ h₂ hd h₃⟩
    · obtain ⟨b₁, b₂, b₃, rfl, h₁, h₂, h₃⟩ := packAttribute_iff.1 h
      exact ⟨_, by simp [List.append_assoc], .packedAttribute h₁ h₂ h₃⟩
  · rintro ⟨text, rfl, htext⟩
    rw [packing, Option.orElse_eq_orElse, Option.orElse_eq_or, Option.or_eq_some_iff]
    cases htext with
    | pragma hgap h₁ h₂ hd h₃ =>
      left
      exact packDirective_iff.2 ⟨_, _, _, _, _, by simp [List.append_assoc], hgap, h₁, h₂, hd, h₃⟩
    | packedAttribute h₁ h₂ h₃ =>
      right
      -- The directive is tried first, and it does not begin with an underscore.
      refine ⟨?_, packAttribute_iff.2 ⟨_, _, _, by simp [List.append_assoc], h₁, h₂, h₃⟩⟩
      simp [packDirective, keyword, dropStart?]

end Reading

namespace Shape

open Reading

/-- A tag that may be missing, with the blanks around it. -/
theorem optionalTag {b₁ tag b₂ rest : List Char} (hb₁ : Run isBlank b₁) (htag : Run isWord tag)
    (hb₂ : Run isBlank b₂) (hblank : Stops isBlank rest) (hword : Stops isWord rest) :
    (skipBlanks (b₁ ++ (tag ++ (b₂ ++ rest)))).takeWhile isWord = tag
      ∧ skipBlanks ((skipBlanks (b₁ ++ (tag ++ (b₂ ++ rest)))).dropWhile isWord) = rest := by
  by_cases hne : tag = []
  · subst hne
    have hskip : skipBlanks (b₁ ++ ([] ++ (b₂ ++ rest))) = rest := by
      rw [List.nil_append, ← List.append_assoc, skipBlanks_append (run_append.2 ⟨hb₁, hb₂⟩) hblank]
    rw [hskip, takeWhile_of_stops hword, dropWhile_of_stops hword, skipBlanks_of_stops hblank]
    exact ⟨rfl, rfl⟩
  · have hstop : Stops isWord (b₂ ++ rest) := hb₂.stops_append isWord_of_isBlank hword
    rw [skipBlanks_append hb₁ (IsName.stops_blank ⟨hne, htag⟩ _), takeWhile_run htag hstop,
      dropWhile_run htag hstop, skipBlanks_append hb₂ hblank]
    exact ⟨rfl, rfl⟩

theorem readTypedef_iff {cs : List Char} {parts : NamedParts} :
    readTypedef cs = some parts ↔
      ∃ text, cs = text ++ parts.rest ∧ Written .typedef parts.tag parts.typeName text := by
  simp only [readTypedef, Option.bind_eq_bind, Option.bind_eq_some_iff, Prod.exists,
    keyword_eq_some, gap_iff, word_iff, mark_eq_some, body_iff, Option.pure_def,
    Option.some.injEq]
  constructor
  · rintro ⟨_, rfl, _, ⟨gap, rfl, hgap, -⟩, head, rfl, tail, ⟨inner, hbody, hinner⟩, typeName, last,
      ⟨halias, hname, -⟩, rest, hend, rfl⟩
    obtain ⟨b₁, hb₁, hrun₁, -⟩ := exists_skipBlanks head
    obtain ⟨tag, htag, hword, -⟩ := exists_run isWord (skipBlanks head)
    have htag' : (skipBlanks head).takeWhile isWord = tag := by
      have hsplit : (skipBlanks head).takeWhile isWord ++ (skipBlanks head).dropWhile isWord
          = tag ++ (skipBlanks head).dropWhile isWord :=
        List.takeWhile_append_dropWhile.trans htag
      exact List.append_cancel_right hsplit
    obtain ⟨b₂, hb₂, hrun₂, -⟩ := exists_skipBlanks ((skipBlanks head).dropWhile isWord)
    obtain ⟨b₃, hb₃, hrun₃, -⟩ := exists_skipBlanks tail
    obtain ⟨b₄, hb₄, hrun₄, -⟩ := exists_skipBlanks last
    rw [htag']
    refine ⟨_, ?_, .typedef hgap hrun₁ hword hrun₂ hinner hrun₃ hname hrun₄⟩
    rw [hb₁, htag, hb₂, hbody, hb₃, halias, hb₄, hend]
    simp [List.append_assoc]
  · rintro ⟨text, rfl, htext⟩
    obtain ⟨tag, typeName, rest⟩ := parts
    cases htext with
    | @typedef gap b₁ _ b₂ inner b₃ _ b₄ hgap hb₁ htag hb₂ hinner hb₃ hname hb₄ =>
      have hbrace : ∀ cs, Stops isBlank ('\x7b' :: cs) ∧ Stops isWord ('\x7b' :: cs) := fun cs =>
        ⟨stops_cons.2 (by decide), stops_cons.2 (by decide)⟩
      have hrest := hbrace (inner ++ '\x7d' :: (b₃ ++ (typeName ++ (b₄ ++ ';' :: rest))))
      obtain ⟨htake, hdrop⟩ := optionalTag hb₁ htag hb₂ hrest.1 hrest.2
      have hend : Stops isBlank (';' :: rest) := stops_cons.2 (by decide)
      have hend' : Stops isWord (b₄ ++ ';' :: rest) :=
        hb₄.stops_append isWord_of_isBlank (stops_cons.2 (by decide))
      refine ⟨_, by simp only [List.append_assoc, List.cons_append, List.nil_append], _,
        ⟨gap, rfl, hgap, ?_⟩, _, rfl, _,
        ⟨inner, hdrop, hinner⟩, typeName, _, ⟨?_, hname, hend'⟩, rest, ?_, by rw [htake]⟩
      · exact IsName.stops_blank (by decide) _
      · rw [skipBlanks_append hb₃ (hname.stops_blank _)]
      · rw [skipBlanks_append hb₄ hend]

theorem readTagged_iff {cs : List Char} {parts : NamedParts} :
    readTagged cs = some parts ↔
      ∃ text, cs = text ++ parts.rest ∧ Written .tagged parts.tag parts.typeName text := by
  simp only [readTagged, Option.bind_eq_bind, Option.bind_eq_some_iff, Prod.exists, structHead_iff,
    body_iff, Option.pure_def, Option.some.injEq]
  constructor
  · rintro ⟨tag, _, ⟨gap, b, rfl, hgap, htag, hb, -, -⟩, rest, ⟨inner, rfl, hinner⟩, rfl⟩
    exact ⟨_, by simp [List.append_assoc], .tagged hgap htag hb hinner⟩
  · rintro ⟨text, rfl, htext⟩
    obtain ⟨tag, typeName, rest⟩ := parts
    cases htext with
    | @tagged gap _ b inner hgap htag hb hinner =>
      refine ⟨tag, _, ⟨gap, b, by simp only [List.append_assoc, List.cons_append,
        List.nil_append], hgap, htag, hb, stops_cons.2 (by decide), ?_⟩, rest,
        ⟨inner, rfl, hinner⟩, rfl⟩
      exact hb.stops_append isWord_of_isBlank (stops_cons.2 (by decide))

theorem readForward_iff {cs : List Char} {parts : NamedParts} :
    readForward cs = some parts ↔
      ∃ text, cs = text ++ parts.rest ∧ Written .forward parts.tag parts.typeName text := by
  simp only [readForward, Option.bind_eq_bind, Option.bind_eq_some_iff, Prod.exists, structHead_iff,
    mark_eq_some, Option.pure_def, Option.some.injEq]
  constructor
  · rintro ⟨tag, _, ⟨gap, b, rfl, hgap, htag, hb, -, -⟩, rest, rfl, rfl⟩
    exact ⟨_, by simp [List.append_assoc], .forward hgap htag hb⟩
  · rintro ⟨text, rfl, htext⟩
    obtain ⟨tag, typeName, rest⟩ := parts
    cases htext with
    | @forward gap _ b hgap htag hb =>
      refine ⟨tag, _, ⟨gap, b, by simp only [List.append_assoc, List.cons_append,
        List.nil_append], hgap, htag, hb, stops_cons.2 (by decide), ?_⟩, rest, rfl, rfl⟩
      exact hb.stops_append isWord_of_isBlank (stops_cons.2 (by decide))

/-- A tagged declaration begins with no blank. -/
theorem Written.stops_blank {tag typeName text : List Char}
    (h : Written .tagged tag typeName text) (rest : List Char) : Stops isBlank (text ++ rest) := by
  cases h with
  | tagged => exact stops_cons.2 (by decide)

theorem readPacked_iff {cs : List Char} {parts : NamedParts} :
    readPacked cs = some parts ↔
      ∃ text, cs = text ++ parts.rest ∧ Written .packed parts.tag parts.typeName text := by
  simp only [readPacked, Option.bind_eq_bind, Option.bind_eq_some_iff, packing_iff, readTagged_iff]
  constructor
  · rintro ⟨behind, ⟨packing, rfl, hpacking⟩, text, htext, hwritten⟩
    obtain ⟨b, hb, hrun, -⟩ := exists_skipBlanks behind
    obtain ⟨tag, typeName, rest⟩ := parts
    cases hwritten with
    | tagged hgap htag hblanks hinner =>
      refine ⟨_, ?_, .packed hpacking hrun (.tagged hgap htag hblanks hinner)⟩
      rw [hb, htext]
      simp only [List.append_assoc]
  · rintro ⟨text, rfl, htext⟩
    obtain ⟨tag, typeName, rest⟩ := parts
    cases htext with
    | @packed packing b _ text hpacking hb hwritten =>
      -- The struct begins with its keyword, so the skip behind the packing stops there.
      refine ⟨b ++ (text ++ rest), ⟨packing, by simp only [List.append_assoc], hpacking⟩, text,
        skipBlanks_append hb (hwritten.stops_blank rest), hwritten⟩

/-- The reader of a shape takes a declaration of that shape from the front of a text, and takes
whatever is one. -/
theorem read_iff {s : Shape} {cs : List Char} {parts : NamedParts} :
    s.read cs = some parts ↔
      ∃ text, cs = text ++ parts.rest ∧ Written s parts.tag parts.typeName text := by
  cases s with
  | typedef => exact readTypedef_iff
  | tagged => exact readTagged_iff
  | packed => exact readPacked_iff
  | forward => exact readForward_iff

/-- A text is accepted as a whole if and only if it is a declaration of the shape. -/
theorem readWhole_iff {s : Shape} {cs : List Char} {parts : NamedParts} :
    s.readWhole cs = some parts ↔
      parts.rest = [] ∧ Written s parts.tag parts.typeName cs := by
  rw [readWhole]
  constructor
  · intro h
    split at h
    · rename_i found hread
      rw [Option.ite_none_right_eq_some, Option.some.injEq] at h
      obtain ⟨hrest, rfl⟩ := h
      obtain ⟨text, htext, hwritten⟩ := read_iff.1 hread
      have hnil : found.rest = [] := List.isEmpty_iff.1 hrest
      rw [hnil, List.append_nil] at htext
      exact ⟨hnil, htext ▸ hwritten⟩
    · simp at h
  · rintro ⟨hrest, hwritten⟩
    have hread : s.read cs = some parts :=
      read_iff.2 ⟨cs, by rw [hrest, List.append_nil], hwritten⟩
    simp [hread, hrest]

end Shape

end StructAtlas
