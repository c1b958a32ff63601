import StructAtlas.Proofs.KeptFiles

set_option autoImplicit false

/-!
# Fresh names in the output directory

The search for the name of a Java file tries one name after the other: the plain name, the name with
the extension of the source file, and this name with numbers from two on (`Naming.tried`). No name
comes twice, so the names in use run out before the search does, however they were chosen: it ends
after at most as many rounds as there are names in use, and `Naming.outputFile` gives the name it
ends with (`Naming.exists_end`). Whatever the source file is called, that name is a file of the
output directory itself.
-/

namespace StructAtlas

namespace Naming

/-! ## The names that are tried -/

/-- The name of a source file with its extension behind it. -/
def marked (source : String) : String :=
  (Path.parse source).stem ++ "_"
    ++ (if (Path.parse source).extension.isEmpty then "src" else (Path.parse source).extension)

/-- The names that are tried for a source file, in order. -/
def tried (source ext : String) : Nat → String
  | 0 => (Path.parse source).stem ++ ext
  | 1 => marked source ++ ext
  | n + 2 => withNumber (marked source) ext (n + 2)

theorem length_tried_zero_lt (source ext : String) (n : Nat) :
    (tried source ext 0).length < (tried source ext (n + 1)).length := by
  have hmarked : (Path.parse source).stem.length < (marked source).length := by
    rw [marked, String.length_append, String.length_append]
    have hmark : "_".length = 1 := by decide
    omega
  cases n with
  | zero =>
    rw [tried, tried, String.length_append, String.length_append]
    omega
  | succ n =>
    rw [tried, tried, withNumber]
    simp only [String.length_append]
    omega

theorem length_tried_one_lt (source ext : String) (n : Nat) :
    (tried source ext 1).length < (tried source ext (n + 2)).length := by
  rw [tried, tried, withNumber]
  have hmark : "_".length = 1 := by decide
  simp only [String.length_append]
  omega

theorem tried_ne_of_lt (source ext : String) (m n : Nat) (h : m < n) :
    tried source ext m ≠ tried source ext n := by
  intro hsame
  have hlength := congrArg String.length hsame
  cases m with
  | zero =>
    obtain ⟨n, rfl⟩ := Nat.exists_eq_add_of_le' h
    exact absurd hlength (Nat.ne_of_lt (length_tried_zero_lt source ext n))
  | succ m =>
    obtain ⟨n, rfl⟩ := Nat.exists_eq_add_of_le' (Nat.le_trans (Nat.le_add_left 2 m) h)
    cases m with
    | zero => exact absurd hlength (Nat.ne_of_lt (length_tried_one_lt source ext n))
    | succ m =>
      have hnumber := withNumber_injective (marked source) ext hsame
      exact absurd hnumber (Nat.ne_of_lt h)

/-- No name is tried twice. -/
theorem tried_injective (source ext : String) : Function.Injective (tried source ext) := by
  intro m n h
  rcases Nat.lt_trichotomy m n with hlt | heq | hgt
  · exact absurd h (tried_ne_of_lt source ext m n hlt)
  · exact heq
  · exact absurd h.symm (tried_ne_of_lt source ext n m hgt)

/-! ## The end of the search -/

/-- The search for a free name ends after some rounds: the names tried so far are in use, and the
next one is free. -/
structure EndsAfter (source ext : String) (used : List String) (rounds : Nat) : Prop where
  taken : ∀ k < rounds, tried source ext k ∈ used
  free : tried source ext rounds ∉ used

section Search

variable {source ext : String} {used : List String} {rounds : Nat}

/-- There are at least as many names in use as rounds. -/
theorem EndsAfter.rounds_le (h : EndsAfter source ext used rounds) : rounds ≤ used.length := by
  have hnodup : ((List.range rounds).map (tried source ext)).Nodup :=
    List.nodup_range.map (tried_injective source ext)
  have hsubset : (List.range rounds).map (tried source ext) ⊆ used := by
    intro name hname
    obtain ⟨k, hk, rfl⟩ := List.mem_map.1 hname
    exact h.taken k (List.mem_range.1 hk)
  simpa using (List.subperm_of_subset hnodup hsubset).length_le

theorem outputFile_eq (source ext : String) (used : List String) :
    outputFile source used ext
      = if !used.contains (tried source ext 0) then tried source ext 0
        else if !used.contains (tried source ext 1) then tried source ext 1
        else numbered (marked source) ext used used.length 2 :=
  rfl

/-- The name of a new file is one of those tried, and the names before it are in use. -/
theorem exists_tried (source ext : String) (used : List String) :
    ∃ rounds, outputFile source used ext = tried source ext rounds
      ∧ ∀ k < rounds, tried source ext k ∈ used := by
  have hused {name : String} (h : ¬ (!used.contains name) = true) : name ∈ used := by
    simpa using h
  rw [outputFile_eq]
  split
  · exact ⟨0, rfl, fun k hk => absurd hk (Nat.not_lt_zero k)⟩
  · rename_i hplain
    split
    · refine ⟨1, rfl, fun k hk => ?_⟩
      obtain rfl := Nat.lt_one_iff.1 hk
      exact hused hplain
    · rename_i hmarked
      obtain ⟨k, hk, hpassed⟩ := exists_numbered (marked source) ext used used.length 2
      rw [Nat.add_comm 2 k] at hk
      refine ⟨k + 2, hk, fun j hj => ?_⟩
      match j with
      | 0 => exact hused hplain
      | 1 => exact hused hmarked
      | j + 2 =>
        have hlater := hpassed j (Nat.lt_of_add_lt_add_right hj)
        rwa [Nat.add_comm 2 j] at hlater

/-- **The search for a free name ends** after at most as many rounds as there are names in use, and
the name of a new file is the one it ends with. -/
theorem exists_end (source ext : String) (used : List String) :
    ∃ rounds ≤ used.length, EndsAfter source ext used rounds
      ∧ outputFile source used ext = tried source ext rounds := by
  obtain ⟨rounds, hname, htaken⟩ := exists_tried source ext used
  have hend : EndsAfter source ext used rounds :=
    ⟨htaken, hname ▸ outputFile_not_mem source used ext⟩
  exact ⟨rounds, hend.rounds_le, hend, hname⟩

end Search

/-! ## Files in the output directory -/

/-- A single component leads to a direct child. -/
theorem joinText_eq_child {name : String} (h : IsComponent name) (out : Path) :
    out.joinText name = out.child name ∧ (out.joinText name).parent = out := by
  rw [h.joinText]
  exact ⟨rfl, by rw [Path.parent, List.dropLast_concat]⟩

end Naming

namespace Generator

theorem map_listed (g : Generator) (runs : List GroupRun) :
    (runs.filterMap (·.listed? g)).map (·.1)
      = (runs.map (·.output)).filterMap Output.written? := by
  rw [List.map_filterMap, List.filterMap_map]
  refine List.filterMap_congr fun run _ => ?_
  rw [GroupRun.listed?, Function.comp_apply]
  cases run.output <;> rfl

/-- The listed files of a generation are named one after the other, for planned source files. -/
theorem exists_sources {g : Generator} {s t : Session} {result : Generated}
    (h : g.generate s = .ok result t) :
    ∃ units u, g.plan (s.log g.startRecord) = .ok units u
      ∧ ∃ sources : List String, sources.Sublist (units.map (·.1.shown))
        ∧ (result.classes.map (·.1)).Sublist (Naming.nameAll [] sources) := by
  obtain ⟨units, p, u, v, w, x, hplan, -, hgroups, hsupport, -⟩ := exists_steps h
  obtain ⟨runs, rfl, hruns⟩ := exists_runsGroups hgroups
  obtain ⟨o, -, rfl, -⟩ := generateSupport_eq_ok hsupport
  refine ⟨_, u, hplan, (runs.filter fun run => run.classes g ≠ []).map (·.source.shown), ?_, ?_⟩
  · rw [List.map_map]
    exact List.filter_sublist.map _
  · have hfiles := hruns.files_eq
    simp only at hfiles
    rw [← hfiles, hruns.progress]
    simp only [Progress.after, List.nil_append]
    rw [map_listed]
    exact Ledger.written_sublist ⟨runs, .absent⟩

/-- All written files lie in the output directory itself. -/
theorem parent_of_written {g : Generator} {s t : Session} {result : Generated}
    (h : g.generate s = .ok result t) {path : Path} (hpath : path ∈ result.written) :
    path.parent = g.output := by
  obtain ⟨ledger, haccounts, rfl⟩ := exists_ledger h
  rw [Ledger.written_eq] at hpath
  obtain ⟨name, hname, rfl⟩ := List.mem_map.1 hpath
  obtain ⟨o, ho, hwritten⟩ := List.mem_filterMap.1 hname
  exact (Naming.joinText_eq_child (haccounts.isComponent ho hwritten) g.output).2

/-- **Java files have fresh names in the output directory.** Whatever a source file is called and
whichever names are in use, the search for a free name ends, after at most as many rounds as there
are names in use; the name ends in the extension for Java files and holds no slash. Source files
that are named one after the other get different names, and joined to any directory these are
different direct children of it. A generation names its files in this way, for source files of its
plan, and writes to direct children of its output directory only. -/
theorem java_files_have_fresh_names :
    (∀ (source : String) (used : List String),
      let name := Naming.outputFile source used Naming.sourceExtension
      (∃ rounds ≤ used.length, Naming.EndsAfter source Naming.sourceExtension used rounds
        ∧ name = Naming.tried source Naming.sourceExtension rounds)
      ∧ name ∉ used ∧ (∃ front, name = front ++ ".java") ∧ '/' ∉ name.toList)
    ∧ (∀ used sources : List String,
      (Naming.nameAll used sources).length = sources.length
      ∧ (Naming.nameAll used sources).Nodup
      ∧ (∀ name ∈ Naming.nameAll used sources, name ∉ used)
      ∧ ∀ out : Path, ((Naming.nameAll used sources).map out.joinText).Nodup
        ∧ ∀ name ∈ Naming.nameAll used sources,
          out.joinText name = out.child name ∧ (out.joinText name).parent = out)
    ∧ ∀ (g : Generator) (s t : Session) (result : Generated), g.generate s = .ok result t →
      (∃ units u, g.plan (s.log g.startRecord) = .ok units u
        ∧ ∃ sources : List String, sources.Sublist (units.map (·.1.shown))
          ∧ (result.classes.map (·.1)).Sublist (Naming.nameAll [] sources))
      ∧ ∀ path ∈ result.written, path.parent = g.output := by
  refine ⟨fun source used => ⟨?_, ?_, ?_, ?_⟩, fun used sources => ⟨?_, ?_, ?_, ?_⟩,
    fun g s t result h => ⟨exists_sources h, fun path hpath => parent_of_written h hpath⟩⟩
  · exact Naming.exists_end source Naming.sourceExtension used
  · exact Naming.outputFile_not_mem source used Naming.sourceExtension
  · obtain ⟨front, hname, -⟩ := Naming.exists_outputFile source used Naming.sourceExtension
    exact ⟨front, hname⟩
  · exact (Naming.isComponent_outputFile source used).slash
  · exact Naming.length_nameAll used sources
  · exact Naming.nodup_nameAll used sources
  · exact fun name hname => Naming.not_mem_of_mem_nameAll hname
  · intro out
    have hcomponent {name : String} (h : name ∈ Naming.nameAll used sources) : IsComponent name :=
      Naming.isComponent_of_mem_nameAll h
    refine ⟨?_, fun name hname => Naming.joinText_eq_child (hcomponent hname) out⟩
    exact (Naming.nodup_nameAll used sources).map_on fun name hname other hother hsame =>
      (hcomponent hname).joinText_inj (hcomponent hother) hsame

/-- A path that leads up gets a number when its first two names are in use, and the Java file of a
struct lies in the output directory. -/
theorem fresh_names_of_leading_up :
    Naming.outputFile "../.." ["...java", ".._src.java"] ".java" = ".._src_2.java"
      ∧ ∃ result t, (unsignedGenerator "n.h").generate (unsignedSession "n.h") = .ok result t
        ∧ result.written ≠ [] ∧ ∀ path ∈ result.written, path.parent = Path.parse "out" := by
  refine ⟨by decide +kernel, ?_⟩
  obtain ⟨t, ht⟩ := generate_unsigned ⟨_, rfl⟩ (by decide +kernel) accepts_unsigned
  exact ⟨_, t, ht, List.cons_ne_nil _ _, (java_files_have_fresh_names.2.2 _ _ _ _ ht).2⟩

end Generator

end StructAtlas
