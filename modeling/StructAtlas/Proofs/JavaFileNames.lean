import Mathlib.Data.List.Nodup
import Mathlib.Data.List.Perm.Subperm
import StructAtlas.Naming
import StructAtlas.Proofs.FieldText
import StructAtlas.Proofs.Numerals
import StructAtlas.Proofs.SessionTrace

set_option autoImplicit false

/-!
# Names of Java files

The name of a new Java file is none of those in use: it is the plain name of the source file, or the
name with its extension, or else one of so many numbered names that they cannot all be taken
(`outputFile_not_mem`). Such a name holds no slash and ends in the extension for Java files, so it
is a single component of a path (`IsComponent`), and files of different names in one directory lead
to different places in every tree (`IsComponent.apart`). Files named one after the other (`nameAll`)
have different names.
-/

namespace StructAtlas

/-! ## Names that are single components -/

/-- A text that names a file in a directory. -/
structure IsComponent (name : String) : Prop where
  slash : '/' ∉ name.toList
  letter : ∃ c ∈ name.toList, c ≠ '.'

namespace IsComponent

variable {name other : String}

theorem parse (h : IsComponent name) : Path.parse name = ⟨"", [name]⟩ := by
  obtain ⟨c, hc, hdot⟩ := h.letter
  have hparts : Path.partsOf name.toList = [name] := by
    rw [Path.partsOf, Text.splitOn, Text.splitBy_of_forall fun c hc => ?_]
    · have hempty : name.toList.isEmpty = false := by
        cases hname : name.toList with
        | nil =>
          rw [hname] at hc
          cases hc
        | cons d ds => rfl
      have hsingle : (name.toList != ['.']) = true := by
        rw [bne_iff_ne]
        intro hname
        rw [hname] at hc
        exact hdot (List.mem_singleton.1 hc)
      simp [hempty, hsingle]
    · rw [beq_eq_false_iff_ne]
      rintro rfl
      exact h.slash hc
  have hroot : Path.rootOf name.toList = "" := by
    have hslash := h.slash
    cases hname : name.toList with
    | nil => rfl
    | cons d ds =>
      rw [hname] at hslash
      have hd : d ≠ '/' := fun e => hslash (e ▸ List.mem_cons_self)
      simp [Path.rootOf, hd]
  rw [Path.parse, hparts, hroot]

theorem joinText (h : IsComponent name) (p : Path) :
    p.joinText name = ⟨p.root, p.parts ++ [name]⟩ := by
  rw [Path.joinText, h.parse]
  rfl

theorem ne_up (h : IsComponent name) : name ≠ ".." := by
  rintro rfl
  obtain ⟨c, hc, hdot⟩ := h.letter
  simp only [String.reduceToList, List.mem_cons, List.not_mem_nil, or_false, or_self] at hc
  exact hdot hc

end IsComponent

namespace FileTree

variable {t : FileTree} {key arrived ps : List String} {name : String}

/-- A walk that ends in a name arrives at that name. -/
theorem getLast?_of_walk (hname : name ≠ "..") (h : t.walk key (ps ++ [name]) = .ok arrived) :
    arrived.getLast? = some name := by
  induction ps generalizing key with
  | nil =>
    obtain ⟨-, -, ⟨hup, -⟩ | ⟨-, -, hrest⟩⟩ := walk_cons_eq_ok.1 h
    · exact absurd hup hname
    · cases hrest
      exact List.getLast?_concat
  | cons p ps ih =>
    obtain ⟨-, -, ⟨-, hrest⟩ | ⟨-, -, hrest⟩⟩ := walk_cons_eq_ok.1 h
    · exact ih hrest
    · exact ih hrest

end FileTree

/-- Files of different names in one directory are different files. -/
theorem IsComponent.apart {name other : String} (h : IsComponent name) (hother : IsComponent other)
    (hne : name ≠ other) (p : Path) : FileTree.Apart (p.joinText name) (p.joinText other) := by
  have hlast (t : FileTree) {n : String} (hn : IsComponent n) {key : List String}
      (hplace : t.place (p.joinText n) = .ok key) : key.getLast? = some n := by
    rw [hn.joinText] at hplace
    exact FileTree.getLast?_of_walk hn.ne_up (FileTree.place_eq_ok.1 hplace).2.2
  intro t key hplace hplace'
  have hsame := (hlast t h hplace).symm.trans (hlast t hother hplace')
  exact hne (Option.some.inj hsame)

namespace Naming

/-! ## Numbered names -/

/-- The name with a number. -/
def withNumber (base ext : String) (n : Nat) : String :=
  base ++ "_" ++ toString n ++ ext

theorem withNumber_injective (base ext : String) :
    Function.Injective (withNumber base ext) := by
  intro m n h
  have htexts := congrArg String.toList h
  simp only [withNumber, String.toList_append] at htexts
  have hdigits := List.append_cancel_left (List.append_cancel_right htexts)
  have hnumber (n : Nat) : (toString n).toList = Nat.toDigits 10 n := Nat.toList_repr
  rw [hnumber, hnumber] at hdigits
  rw [← Nat.ofDigitChars_ten_toDigits (n := m), hdigits, Nat.ofDigitChars_ten_toDigits]

/-- Every numbered name that was passed over is in use. -/
theorem mem_of_numbered_mem {base ext : String} {used : List String} {fuel n : Nat}
    (h : numbered base ext used fuel n ∈ used) :
    ∀ k ≤ fuel, withNumber base ext (n + k) ∈ used := by
  induction fuel generalizing n with
  | zero =>
    intro k hk
    obtain rfl := Nat.le_zero.1 hk
    exact h
  | succ fuel ih =>
    rw [numbered] at h
    split at h
    · rename_i hused
      intro k hk
      cases k with
      | zero => exact List.contains_iff_mem.1 hused
      | succ k =>
        rw [Nat.add_succ, ← Nat.succ_add]
        exact ih h k (Nat.le_of_succ_le_succ hk)
    · rename_i hfree
      exact absurd (List.contains_iff_mem.2 h) hfree

/-- There are more numbered names than names in use. -/
theorem numbered_not_mem (base ext : String) (used : List String) (n : Nat) :
    numbered base ext used used.length n ∉ used := by
  intro h
  have hall := mem_of_numbered_mem h
  have hnodup :
      ((List.range (used.length + 1)).map fun k => withNumber base ext (n + k)).Nodup := by
    refine List.nodup_range.map fun j k hjk => ?_
    exact Nat.add_left_cancel (withNumber_injective base ext hjk)
  have hsubset :
      ((List.range (used.length + 1)).map fun k => withNumber base ext (n + k)) ⊆ used := by
    intro name hname
    obtain ⟨k, hk, rfl⟩ := List.mem_map.1 hname
    exact hall k (Nat.le_of_lt_succ (List.mem_range.1 hk))
  have hlength := (List.subperm_of_subset hnodup hsubset).length_le
  rw [List.length_map, List.length_range] at hlength
  exact absurd hlength (Nat.not_succ_le_self _)

/-- The name of a new file is not in use. -/
theorem outputFile_not_mem (source : String) (used : List String) (ext : String) :
    outputFile source used ext ∉ used := by
  have hfree {name : String} (h : (!used.contains name) = true) : name ∉ used := by
    intro hmem
    rw [List.contains_iff_mem.2 hmem] at h
    cases h
  rw [outputFile]
  generalize (Path.parse source).stem ++ ext = plain
  generalize (Path.parse source).stem ++ "_" ++ _ = base
  simp only
  split
  · exact hfree ‹_›
  · split
    · exact hfree ‹_›
    · exact numbered_not_mem _ _ used 2

/-! ## Names of generated files -/

theorem slash_not_mem_fileName (source : String) :
    '/' ∉ (Path.parse source).fileName.toList := by
  rw [Path.fileName]
  cases hlast : (Path.parse source).parts.getLast? with
  | none => exact List.not_mem_nil
  | some part =>
    have hmem : part ∈ Path.partsOf source.toList := List.mem_of_getLast? hlast
    obtain ⟨cs, hcs, rfl⟩ := List.mem_map.1 hmem
    rw [Option.getD_some, String.toList_ofList]
    intro hslash
    have hfree := Text.not_mem_of_mem_splitBy (List.mem_filter.1 hcs).1 _ hslash
    simp at hfree

/-- A stem and an extension are parts of the file name. -/
theorem slash_not_mem_stem (source : String) :
    '/' ∉ (Path.parse source).stem.toList ∧ '/' ∉ (Path.parse source).extension.toList := by
  have hname := slash_not_mem_fileName source
  rw [Path.stem, Path.extension]
  cases hsplit : Path.splitName? (Path.parse source).fileName.toList with
  | none => exact ⟨hname, List.not_mem_nil⟩
  | some parts =>
    rw [Path.splitName?] at hsplit
    split at hsplit
    · rename_i stem ext hlast
      split at hsplit
      · cases hsplit
      · cases hsplit
        rw [(Text.splitLast?_eq_some.1 hlast).1] at hname
        simp only [List.mem_append, List.mem_cons, not_or] at hname
        simpa using ⟨hname.1, hname.2.2⟩
    · cases hsplit

/-- Numbers are passed over one by one, and only for names in use. -/
theorem exists_numbered (base ext : String) (used : List String) (fuel n : Nat) :
    ∃ k, numbered base ext used fuel n = withNumber base ext (n + k)
      ∧ ∀ j < k, withNumber base ext (n + j) ∈ used := by
  induction fuel generalizing n with
  | zero => exact ⟨0, rfl, fun j hj => absurd hj (Nat.not_lt_zero j)⟩
  | succ fuel ih =>
    rw [numbered]
    split
    · rename_i hused
      obtain ⟨k, hk, hpassed⟩ := ih (n + 1)
      refine ⟨k + 1, by rw [hk, Nat.succ_add_eq_add_succ], fun j hj => ?_⟩
      cases j with
      | zero => exact List.contains_iff_mem.1 hused
      | succ j =>
        rw [← Nat.succ_add_eq_add_succ]
        exact hpassed j (Nat.lt_of_succ_lt_succ hj)
    · exact ⟨0, rfl, fun j hj => absurd hj (Nat.not_lt_zero j)⟩

theorem slash_not_mem_withNumber {base ext : String} (h : '/' ∉ base.toList) (n : Nat) :
    ∃ front, withNumber base ext n = front ++ ext ∧ '/' ∉ front.toList := by
  refine ⟨base ++ "_" ++ toString n, rfl, ?_⟩
  have hdigits : (toString n).toList = Nat.toDigits 10 n := Nat.toList_repr
  simp only [String.toList_append, List.mem_append, not_or, hdigits]
  refine ⟨⟨h, by decide⟩, ?_⟩
  intro hdigit
  exact absurd (isDigit_of_mem_toDigits hdigit) (by decide)

/-- A generated name ends in the extension, and there is no slash in front of it. -/
theorem exists_outputFile (source : String) (used : List String) (ext : String) :
    ∃ front, outputFile source used ext = front ++ ext ∧ '/' ∉ front.toList := by
  obtain ⟨hstem, hextension⟩ := slash_not_mem_stem source
  have hbase : '/' ∉ ((Path.parse source).stem ++ "_"
      ++ (if (Path.parse source).extension.isEmpty then "src"
          else (Path.parse source).extension)).toList := by
    simp only [String.toList_append, List.mem_append, not_or]
    refine ⟨⟨hstem, by decide⟩, ?_⟩
    split
    · decide
    · exact hextension
  rw [outputFile]
  generalize (Path.parse source).stem ++ "_" ++ _ = base at hbase
  simp only
  split
  · exact ⟨_, rfl, hstem⟩
  · split
    · exact ⟨_, rfl, hbase⟩
    · obtain ⟨k, hk, -⟩ := exists_numbered base ext used used.length 2
      rw [hk]
      exact slash_not_mem_withNumber hbase (2 + k)

theorem isComponent_append_sourceExtension {front : String} (h : '/' ∉ front.toList) :
    IsComponent (front ++ sourceExtension) where
  slash := by
    rw [String.toList_append, List.mem_append, not_or]
    exact ⟨h, by decide⟩
  letter := by
    refine ⟨'j', ?_, by decide⟩
    rw [String.toList_append, List.mem_append]
    exact Or.inr (by decide)

theorem isComponent_outputFile (source : String) (used : List String) :
    IsComponent (outputFile source used sourceExtension) := by
  obtain ⟨front, hname, hslash⟩ := exists_outputFile source used sourceExtension
  rw [hname]
  exact isComponent_append_sourceExtension hslash

/-! ## Names given one after the other -/

/-- The names of the Java files for some source files. Each name is in use from then on. -/
def nameAll (used : List String) : List String → List String
  | [] => []
  | source :: sources =>
    let name := outputFile source used sourceExtension
    name :: nameAll (name :: used) sources

section NameAll

variable {used sources : List String} {name : String}

/-- Each of the names was given to one of the files at its turn. -/
theorem exists_turn_of_mem_nameAll (h : name ∈ nameAll used sources) :
    ∃ source ∈ sources, ∃ before,
      used ⊆ before ∧ name = outputFile source before sourceExtension := by
  induction sources generalizing used with
  | nil => cases h
  | cons source sources ih =>
    rcases List.mem_cons.1 h with rfl | h
    · exact ⟨source, List.mem_cons_self, used, List.Subset.refl used, rfl⟩
    · obtain ⟨other, hother, before, hbefore, hname⟩ := ih h
      exact ⟨other, List.mem_cons_of_mem _ hother, before,
        List.Subset.trans (List.subset_cons_self _ _) hbefore, hname⟩

theorem not_mem_of_mem_nameAll (h : name ∈ nameAll used sources) : name ∉ used := by
  obtain ⟨source, -, before, hbefore, rfl⟩ := exists_turn_of_mem_nameAll h
  exact fun hused => outputFile_not_mem source before sourceExtension (hbefore hused)

theorem isComponent_of_mem_nameAll (h : name ∈ nameAll used sources) : IsComponent name := by
  obtain ⟨source, -, before, -, rfl⟩ := exists_turn_of_mem_nameAll h
  exact isComponent_outputFile source before

/-- No two files get the same name: the later one avoids the earlier one. -/
theorem nodup_nameAll (used sources : List String) : (nameAll used sources).Nodup := by
  induction sources generalizing used with
  | nil => exact List.nodup_nil
  | cons source sources ih =>
    refine List.nodup_cons.2 ⟨fun hlater => ?_, ih _⟩
    exact not_mem_of_mem_nameAll hlater List.mem_cons_self

theorem length_nameAll (used sources : List String) :
    (nameAll used sources).length = sources.length := by
  induction sources generalizing used with
  | nil => rfl
  | cons source sources ih => rw [nameAll, List.length_cons, List.length_cons, ih]

end NameAll

end Naming

end StructAtlas
