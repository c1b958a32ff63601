import Mathlib.Data.List.Lex
import Mathlib.Data.List.Sort
import Mathlib.Data.Prod.Lex
import StructAtlas.Generation
import StructAtlas.Proofs.BuiltRegistry
import StructAtlas.Proofs.JsonText
import StructAtlas.Proofs.Ranking

set_option autoImplicit false

/-!
# Selection of the most referenced structs

The ranking puts the entries in the order of a key: the number of places, most first, and then the
code points of the name (`Entry.rankKey`). Different entries have different keys if those with
equally many places have texts as names (`IsRankable`), so the order of the ranking is strict and
the entries alone determine it, in whatever order they came in (`ranked_eq_of_perm`).

`top_takes_least_keys` says what is selected: the entries with the least keys, in the order of their
keys, and all entries if there are no more.
-/

namespace StructAtlas

/-! ## Code points -/

namespace Name

variable {a b : Name}

/-- The code points of a name that is a text. -/
def codes (n : Name) : List Nat :=
  n.toValue.codes?.getD []

/-- A name is a text: it is given by its code points. -/
def IsString (n : Name) : Prop :=
  ∃ codes, n.toValue = Value.ofCodes codes

theorem isString_text (s : String) : (text s).IsString :=
  ⟨Text.codes s.toList, by rw [Json.ofCodes_codes, String.ofList_toList, toValue]⟩

theorem IsString.codes_eq (h : a.IsString) : a.toValue = Value.ofCodes a.codes := by
  obtain ⟨cs, hcs⟩ := h
  rw [codes, hcs, Value.codes?_ofCodes, Option.getD_some]

theorem IsString.isText (h : a.IsString) : a.isText = true := by
  rw [Name.isText, h.codes_eq, Value.codes?_ofCodes, Option.isSome_some]

/-- Texts with the same code points are the same name. -/
theorem IsString.eq_of_codes (ha : a.IsString) (hb : b.IsString) (h : a.codes = b.codes) :
    a = b := by
  have hvalues : a.toValue = b.toValue := by rw [ha.codes_eq, hb.codes_eq, h]
  have hnames := congrArg ofValue? hvalues
  rwa [ofValue?_toValue, ofValue?_toValue, Option.some.injEq] at hnames

/-- Nothing is less than itself, also the number that is none. -/
theorem less_self (n : Name) : n.less n = false := by
  have hnumber : n.lessNumber n = false := by
    rw [lessNumber]
    split
    · rename_i side m scale side' m' scale' hsize hsize'
      obtain ⟨rfl, rfl, rfl⟩ : side = side' ∧ m = m' ∧ scale = scale' := by
        simpa using hsize.symm.trans hsize'
      simp
    · rfl
  cases n with
  | text s => simp [less]
  | brokenText codes => simp [less, toValue, Value.codes?]
  | _ => exact hnumber

end Name

/-- Texts are in the order of their code points. -/
theorem Text.lt_iff_codes {cs ds : List Char} : cs < ds ↔ Text.codes cs < Text.codes ds := by
  induction cs generalizing ds with
  | nil => cases ds <;> simp [Text.codes]
  | cons c cs ih =>
    cases ds with
    | nil => simp [Text.codes]
    | cons d ds =>
      have hlt : c < d ↔ c.toNat < d.toNat := Iff.rfl
      have heq : c = d ↔ c.toNat = d.toNat := ⟨congrArg _, fun h => Char.toNat_inj.1 h⟩
      rw [List.cons_lt_cons_iff, ih, hlt, heq]
      simp only [Text.codes, List.map_cons, List.cons_lt_cons_iff]

namespace Name

variable {a b : Name}

/-- Texts are ordered by their code points. -/
theorem less_iff_codes (ha : a.isText = true) (hb : b.isText = true) :
    a.less b = true ↔ a.codes < b.codes := by
  cases a with
  | text s =>
    cases b with
    | text t =>
      rw [less, decide_eq_true_eq]
      exact Text.lt_iff_codes
    | brokenText codes => exact decide_eq_true_iff
    | _ => cases hb
  | brokenText codes =>
    cases b with
    | text t => exact decide_eq_true_iff
    | brokenText codes => exact decide_eq_true_iff
    | _ => cases hb
  | _ => cases ha

end Name

/-! ## The key of the ranking -/

/-- What the ranking goes by: the number of places, most first, and the code points of the name. -/
def Entry.rankKey (e : Entry) : Int ×ₗ List Nat :=
  toLex (-(e.total : Int), e.name.codes)

namespace Registry

variable {r r' : Registry} {e e' : Entry}

/-- The names of a registry are different, and where several entries have equally many places, their
names are texts. -/
structure IsRankable (r : Registry) : Prop where
  nodup : r.names.Nodup
  isString : ∀ e ∈ r.entries, ∀ e' ∈ r.entries, e ≠ e' → e.total = e'.total → e.name.IsString

/-- Different names that come from texts can be ranked. -/
theorem isRankable_of_text (hnodup : r.names.Nodup) (h : ∀ e ∈ r.entries, ∃ s, e.name = .text s) :
    r.IsRankable := by
  refine ⟨hnodup, fun e he _ _ _ _ => ?_⟩
  obtain ⟨s, hs⟩ := h e he
  rw [hs]
  exact Name.isString_text s

/-- Every registry that was built can be ranked. -/
theorem isRankable_build {additions : List Addition} (h : ∀ a ∈ additions, a.IsWritable) :
    (build additions).IsRankable := by
  have hsound := isSound_build h
  refine isRankable_of_text hsound.names fun e he => ?_
  obtain ⟨s, -, hs⟩ := (hsound.entries e he).name
  exact ⟨s, hs⟩

namespace IsRankable

theorem of_perm (h : r.IsRankable) (hperm : r'.entries.Perm r.entries) : r'.IsRankable where
  nodup := (hperm.map _).nodup_iff.2 h.nodup
  isString e he e' he' := h.isString e (hperm.mem_iff.1 he) e' (hperm.mem_iff.1 he')

variable (h : r.IsRankable)
include h

theorem eq_of_name (he : e ∈ r.entries) (he' : e' ∈ r.entries) (hname : e.name = e'.name) :
    e = e' :=
  List.inj_on_of_nodup_map h.nodup he he' hname

/-- Different entries have different keys. -/
theorem eq_of_rankKey (he : e ∈ r.entries) (he' : e' ∈ r.entries) (hkey : e.rankKey = e'.rankKey) :
    e = e' := by
  have hparts := Prod.mk.inj (toLex.injective hkey)
  have htotal : e.total = e'.total := by
    have := hparts.1
    omega
  by_contra hne
  have hstring := h.isString e he e' he' hne htotal
  have hstring' := h.isString e' he' e he (fun heq => hne heq.symm) htotal.symm
  exact hne (h.eq_of_name he he' (hstring.eq_of_codes hstring' hparts.2))

/-- The ranking goes by the key. -/
theorem rankedBefore_eq (he : e ∈ r.entries) (he' : e' ∈ r.entries) :
    e.rankedBefore e' = decide (e.rankKey ≤ e'.rankKey) := by
  rw [Bool.eq_iff_iff, decide_eq_true_eq, Entry.rankKey, Entry.rankKey, Prod.Lex.toLex_le_toLex,
    Entry.rankedBefore, Bool.or_eq_true, Bool.and_eq_true, decide_eq_true_eq, beq_iff_eq,
    Bool.not_eq_true']
  refine or_congr (by omega) ?_
  by_cases htotal : e.total = e'.total
  · have hnames : e'.name.less e.name = false ↔ e.name.codes ≤ e'.name.codes := by
      by_cases hne : e = e'
      · rw [hne]
        simp [Name.less_self]
      · have htext := (h.isString e he e' he' hne htotal).isText
        have htext' := (h.isString e' he' e he (fun heq => hne heq.symm) htotal.symm).isText
        rw [← Bool.not_eq_true, Name.less_iff_codes htext' htext, not_lt]
    simp [htotal, hnames]
  · have hint : (e.total : Int) ≠ e'.total := by omega
    simp [htotal, hint]

/-- The search for the first two entries that have no order finds none. -/
theorem clash?_eq_none : r.clash? = none := by
  have hcomparable : Comparable (· ∈ r.entries) := by
    intro e e' he he'
    rw [comesBefore]
    split
    · exact ⟨_, rfl⟩
    · rename_i htotal
      have htotal : e.total = e'.total := by simpa using htotal
      split
      · exact ⟨_, rfl⟩
      · rename_i hsame
        -- The names are not the same, so the entries are different and their names are texts.
        have hareComparable : e.name.areComparable e'.name = true := by
          by_cases hne : e = e'
          · rw [hne, Name.areComparable, beq_self_eq_true]
          · have htext := (h.isString e he e' he' hne htotal).isText
            have htext' := (h.isString e' he' e he (fun heq => hne heq.symm) htotal.symm).isText
            rw [Name.areComparable, htext, htext', beq_self_eq_true]
        rw [if_pos hareComparable]
        exact ⟨_, rfl⟩
  exact clash?_of_comparable hcomparable fun e he => he

end IsRankable

/-! ## The ranking -/

theorem perm_ranked (r : Registry) : r.ranked.Perm r.entries :=
  List.mergeSort_perm _ _

/-- The keys increase strictly along the ranking. -/
theorem IsRankable.pairwise_ranked (h : r.IsRankable) :
    r.ranked.Pairwise fun e e' => e.rankKey < e'.rankKey := by
  -- On the entries of the registry the sort goes by the key, which orders all entries.
  have hsort : r.ranked = r.entries.mergeSort fun e e' => decide (e.rankKey ≤ e'.rankKey) := by
    have hmap := List.map_mergeSort (f := id) (r := Entry.rankedBefore)
      (s := fun e e' : Entry => decide (e.rankKey ≤ e'.rankKey))
      fun e he e' he' => h.rankedBefore_eq he he'
    rwa [List.map_id, List.map_id] at hmap
  have hle : r.ranked.Pairwise fun e e' => e.rankKey ≤ e'.rankKey := by
    have hpairwise : (r.entries.mergeSort fun e e' => decide (e.rankKey ≤ e'.rankKey)).Pairwise
        fun e e' => decide (e.rankKey ≤ e'.rankKey) = true :=
      List.pairwise_mergeSort (fun e e' e'' => by simpa using le_trans)
        (fun e e' => by simpa using le_total _ _) r.entries
    rw [← hsort] at hpairwise
    exact hpairwise.imp of_decide_eq_true
  have hnodup : r.ranked.Nodup := r.perm_ranked.nodup_iff.2 (List.Nodup.of_map _ h.nodup)
  refine (hle.and hnodup).imp_of_mem ?_
  rintro e e' he he' ⟨hkey, hne⟩
  refine lt_of_le_of_ne hkey fun heq => hne ?_
  exact h.eq_of_rankKey (r.perm_ranked.mem_iff.1 he) (r.perm_ranked.mem_iff.1 he') heq

/-- The order in which entries came in does not matter. -/
theorem IsRankable.ranked_eq_of_perm (h : r.IsRankable) (hperm : r'.entries.Perm r.entries) :
    r'.ranked = r.ranked := by
  have hall : r'.ranked.Perm r.ranked :=
    (r'.perm_ranked.trans hperm).trans r.perm_ranked.symm
  refine hall.eq_of_pairwise ?_ (h.of_perm hperm).pairwise_ranked h.pairwise_ranked
  intro e e' _ _ hlt hlt'
  exact absurd hlt (lt_asymm hlt')

theorem IsRankable.rank_eq (h : r.IsRankable) {n : Int} (hn : 0 ≤ n) :
    r.rank n = .ok (r.ranked.take n.toNat) := by
  rw [rank, h.clash?_eq_none, top, admitted, if_pos hn]

/-- **The selection is the beginning of a strict ranking.** If the names are different texts, or at
least those of entries with equally many places, the entries with the least keys are selected, as
many as asked for or all, in the strict order of their keys. The selection grows at its end with the
number asked for, and it does not depend on the order of the registry. -/
theorem top_takes_least_keys (h : r.IsRankable) {n : Int} (hn : 1 ≤ n) :
    ∃ es, r.rank n = .ok es
      ∧ es.length = min n.toNat r.entries.length
      ∧ (∀ e ∈ es, e ∈ r.entries)
      ∧ (es.map (·.name)).Nodup
      ∧ es.Pairwise (fun e e' => e.rankKey < e'.rankKey)
      ∧ (∀ e ∈ es, ∀ e' ∈ r.entries, e' ∉ es → e.rankKey < e'.rankKey)
      ∧ (∀ m, n ≤ m → ∃ more, r.rank m = .ok more ∧ es <+: more)
      ∧ (∀ r' : Registry, r'.entries.Perm r.entries → r'.rank n = .ok es)
      ∧ ∀ g : Generator, g.registry = r → g.topCount = n → g.selected = pure es := by
  have hsplit : r.ranked.take n.toNat ++ r.ranked.drop n.toNat = r.ranked :=
    List.take_append_drop _ _
  have hstrict := h.pairwise_ranked
  refine ⟨r.ranked.take n.toNat, h.rank_eq (by omega), ?_, ?_, ?_, ?_, ?_, ?_, ?_, ?_⟩
  · rw [List.length_take, r.perm_ranked.length_eq]
  · intro e he
    exact r.perm_ranked.mem_iff.1 (List.mem_of_mem_take he)
  · have hnames : (r.ranked.map (·.name)).Nodup := (r.perm_ranked.map _).nodup_iff.2 h.nodup
    exact hnames.sublist ((List.take_sublist _ _).map _)
  · exact hstrict.sublist (List.take_sublist _ _)
  · intro e he e' he' hnot
    -- An entry that is left out stands behind all that are taken.
    rw [← hsplit] at hstrict
    refine (List.pairwise_append.1 hstrict).2.2 e he e' ?_
    have hmem : e' ∈ r.ranked := r.perm_ranked.mem_iff.2 he'
    rw [← hsplit, List.mem_append] at hmem
    exact hmem.resolve_left hnot
  · intro m hm
    exact ⟨r.ranked.take m.toNat, h.rank_eq (by omega), List.take_prefix_take_left (by omega)⟩
  · intro r' hperm
    rw [(h.of_perm hperm).rank_eq (by omega), h.ranked_eq_of_perm hperm]
  · rintro g rfl rfl
    rw [Generator.selected, h.rank_eq (by omega)]
    rfl

/-- Structs with equally many places among others, and one whose name is a number. -/
def tiedRegistry : Registry :=
  ⟨[⟨.text "C", [⟨"c.h", 1⟩, ⟨"c.h", 4⟩], []⟩, ⟨.int 7, [], [⟨"d.h", 2⟩]⟩,
    ⟨.text "B", [⟨"b.h", 1⟩], [⟨"c.h", 2⟩]⟩, ⟨.text "A", [], []⟩]⟩

theorem top_of_tied :
    tiedRegistry.IsRankable ∧ (1 : Int) ≤ 3 ∧ ∃ es, tiedRegistry.rank 3 = .ok es
      ∧ es.length = 3 ∧ es.Pairwise (fun e e' => e.rankKey < e'.rankKey)
      ∧ Registry.rank ⟨tiedRegistry.entries.reverse⟩ 3 = .ok es := by
  have h : tiedRegistry.IsRankable := by
    refine ⟨by decide, ?_⟩
    intro e he e' he' hne htotal
    simp only [tiedRegistry, List.mem_cons, List.not_mem_nil, or_false] at he he'
    -- The number is the only name with one place, so it is compared with no other name.
    rcases he with rfl | rfl | rfl | rfl
    · exact Name.isString_text _
    · rcases he' with rfl | rfl | rfl | rfl
      · cases htotal
      · exact absurd rfl hne
      · cases htotal
      · cases htotal
    · exact Name.isString_text _
    · exact Name.isString_text _
  obtain ⟨es, hes, hlength, -, -, hstrict, -, -, hperm, -⟩ :=
    top_takes_least_keys h (show (1 : Int) ≤ 3 by decide)
  exact ⟨h, by decide, es, hes, hlength, hstrict, hperm _ (List.reverse_perm _)⟩

end Registry

end StructAtlas
