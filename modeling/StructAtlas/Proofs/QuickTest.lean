import StructAtlas.Proofs.FileScans
import StructAtlas.Proofs.SearchOutcomes
import StructAtlas.Proofs.StructFates

set_option autoImplicit false

/-!
# The quick test for a body

Before a body is read, a quick test looks whether one begins at a place. It reads the lines one
after the other and stops at the first brace or semicolon, where the search goes on and counts. The
two agree (`Body.begins_eq_isReached`): the test succeeds exactly where the search comes to an
opening brace, whether or not the brace is closed. So the place that is chosen for a struct is the
first one at which a search gets that far.
-/

namespace StructAtlas

open Text

namespace Body

/-! ## The first mark decides -/

/-- A search came to an opening brace. -/
def isReached : Except Fault Found → Bool
  | .ok _ => true
  | .error (.unmatched depth _) => decide (0 < depth)
  | .error _ => false

/-- The test looks at the first mark only. -/
theorem braceFirst_eq (cs : List Char) :
    braceFirst cs = ((cs.filter isMark).head? == some '\x7b') := by
  induction cs with
  | nil => rfl
  | cons c cs ih =>
    rw [braceFirst]
    by_cases hmark : isMark c = true
    · have hcase : c = '\x7b' ∨ c = '\x7d' ∨ c = ';' := by simpa [isMark, or_assoc] using hmark
      rw [List.filter_cons_of_pos hmark]
      rcases hcase with rfl | rfl | rfl <;> rfl
    · rw [List.filter_cons_of_neg hmark, ← ih]
      simp only [isMark, Bool.or_eq_true, beq_iff_eq, not_or] at hmark
      simp [hmark]

theorem head?_filter_of_firstMark {cs : List Char} {m : Nat} {c : Char} (hm : FirstMark cs 0 m)
    (hc : cs[m]? = some c) : (cs.filter isMark).head? = some c := by
  obtain ⟨before, hcs, -, htake⟩ := exists_split hc
  have hbefore : before.filter isMark = [] := by
    rw [List.filter_eq_nil_iff, ← htake]
    intro d hd
    simpa using hm.passed d hd
  have hmark : isMark c = true := by
    obtain ⟨d, hd, hmark⟩ := hm.isMark
    rwa [Option.some.inj (hc.symm.trans hd)]
  rw [hcs, List.filter_append, hbefore, List.nil_append, List.filter_cons_of_pos hmark,
    List.head?_cons]

/-- The test says whether a search in the same text comes to an opening brace. -/
theorem SeekEnds.braceFirst_eq_isReached {line : Nat} {cs : List Char} {r : Except Fault Found}
    (h : SeekEnds line cs r) : braceFirst cs = isReached r := by
  rw [braceFirst_eq]
  cases h with
  | noMark hrun =>
    have hnone : cs.filter isMark = [] := by
      rw [List.filter_eq_nil_iff]
      intro c hc
      simpa using hrun c hc
    rw [hnone]
    rfl
  | semicolon hm hc =>
    rw [head?_filter_of_firstMark hm hc]
    rfl
  | closing hm hc =>
    rw [head?_filter_of_firstMark hm hc]
    rfl
  | body hm hc =>
    rw [head?_filter_of_firstMark hm hc]
    rfl
  | unclosed hm hc hnot =>
    rw [head?_filter_of_firstMark hm hc, isReached,
      decide_eq_true (surplus_pos_of_not_balanced hc hnot)]
    rfl

/-- Joined lines have the characters of the lines and line feeds. -/
theorem filter_joinLines {p : Char → Bool} (hp : p '\n' = false) (ls : List (List Char)) :
    (joinLines ls).filter p = ls.flatten.filter p := by
  induction ls with
  | nil => rfl
  | cons l ls ih =>
    cases ls with
    | nil => simp [joinLines, List.intercalate]
    | cons l' ls =>
      have hjoin : joinLines (l :: l' :: ls) = l ++ '\n' :: joinLines (l' :: ls) := by
        simp [joinLines, List.intercalate]
      rw [hjoin, List.flatten_cons, List.filter_append, List.filter_append,
        List.filter_cons_of_neg (by simp [hp]), ih]

/-- The test succeeds exactly where the search comes to an opening brace. -/
theorem begins_eq_isReached (ls : List (List Char)) (line : Int) :
    begins ls line = isReached (find ls line) := by
  have hends := find_eq_iff.1 (Eq.refl (find ls line))
  generalize find ls line = r at hends
  cases hends with
  | outOfBounds hout =>
    rw [begins, if_neg (mt isLine_iff.1 hout)]
    rfl
  | seek hin hr =>
    rw [begins, if_pos (isLine_iff.2 hin), ← hr.braceFirst_eq_isReached, searchText]
    cases ls.drop (line.toNat - 1) with
    | nil => rfl
    | cons first others =>
      -- No line feed is a mark, so it does not matter that lines are joined by them.
      have hfeed : isMark '\n' = false := rfl
      simp only [fromKeyword_eq_drop, braceFirst_eq, filter_joinLines hfeed]

end Body

/-! ## Test and search at a place -/

namespace SourceReader

/-- What a search at a place gives that comes to an opening brace: the body, or how many braces are
left open. -/
inductive ReachesBrace (l : Location) : Except Failure Body.Found → Prop where
  | closed (found : Body.Found) : ReachesBrace l (.ok found)
  | unclosed {depth : Int} (h : 0 < depth) (at? : Option Nat) :
    ReachesBrace l (.error (.body l (.unmatched depth at?)))

/-- What a search at a place gives that comes to no opening brace. -/
inductive MissesBrace (l : Location) : Except Failure Body.Found → Prop where
  | unread {e : Failure} (h : e.isLocal = true) : MissesBrace l (.error e)
  | outOfBounds (lines : Nat) : MissesBrace l (.error (.body l (.outOfBounds lines)))
  | forward : MissesBrace l (.error (.body l .forward))
  | noBody : MissesBrace l (.error (.body l .noBody))
  | closing (at? : Option Nat) : MissesBrace l (.error (.body l (.unmatched (-1) at?)))

variable {reader : SourceReader} {s t : Session} {l : Location}

theorem ReachesBrace.not_misses {r : Except Failure Body.Found} (h : ReachesBrace l r) :
    ¬ MissesBrace l r := by
  intro hmisses
  cases h with
  | closed => cases hmisses
  | unclosed hpos =>
    cases hmisses with
    | unread hlocal => cases hlocal
    | closing => cases hpos

theorem reachesBrace_of_begins {ls : List (List Char)} (h : Body.begins ls l.line = true) :
    ReachesBrace l ((Body.find ls l.line).mapError (.body l)) := by
  rw [Body.begins_eq_isReached] at h
  cases hfind : Body.find ls l.line with
  | ok found => exact .closed found
  | error fault =>
    rw [hfind] at h
    cases fault with
    | unmatched depth at? => exact .unclosed (of_decide_eq_true h) at?
    | _ => cases h

theorem missesBrace_of_not_begins {ls : List (List Char)} (h : Body.begins ls l.line = false) :
    MissesBrace l ((Body.find ls l.line).mapError (.body l)) := by
  rw [Body.begins_eq_isReached] at h
  cases hfind : Body.find ls l.line with
  | ok found =>
    rw [hfind] at h
    cases h
  | error fault =>
    rw [hfind] at h
    cases fault with
    | outOfBounds lines => exact .outOfBounds lines
    | forward => exact .forward
    | noBody => exact .noBody
    | unmatched depth at? =>
      -- A depth that is not positive is that of one brace too many.
      rcases Body.depth_of_find hfind with ⟨rfl, -⟩ | ⟨hpos, -⟩
      · exact .closing at?
      · exact absurd hpos (of_decide_eq_false h)

/-- The test returns, and its answer says what a search in the same session would do. -/
theorem exists_outcome_hasBody
    (hlocal : ∀ e, (reader.linesOf l.path).outcome s = .error e → e.isLocal = true) :
    ∃ test, (reader.hasBody l).outcome s = .ok test ∧
      (test = true → ReachesBrace l ((reader.bodyAt l).outcome s)) ∧
      (test = false → MissesBrace l ((reader.bodyAt l).outcome s)) := by
  rw [outcome_bodyAt]
  cases hlines : reader.linesOf l.path s with
  | ok ls t =>
    have hattempt : (reader.linesOf l.path).attempt s = .ok (.ok ls) t := Act.attempt_ok hlines
    rw [Act.outcome_of_ok hlines]
    refine ⟨Body.begins ls l.line, Act.outcome_bind_of_ok hattempt _, ?_, ?_⟩
    · exact reachesBrace_of_begins
    · exact missesBrace_of_not_begins
  | error e t =>
    have hattempt : (reader.linesOf l.path).attempt s = .ok (.error e) t :=
      Act.attempt_error hlines
    have he : e.isLocal = true := hlocal e (Act.outcome_of_error hlines)
    rw [Act.outcome_of_error hlines]
    refine ⟨false, (Act.outcome_bind_of_ok hattempt _).trans ?_, nofun, fun _ => .unread he⟩
    simp only [he, if_true]
    rfl

theorem outcome_hasBody_eq_true
    (hlocal : ∀ e, (reader.linesOf l.path).outcome s = .error e → e.isLocal = true) :
    (reader.hasBody l).outcome s = .ok true ↔ ReachesBrace l ((reader.bodyAt l).outcome s) := by
  obtain ⟨test, htest, hreaches, hmisses⟩ := exists_outcome_hasBody hlocal
  rw [htest]
  cases test with
  | true => exact iff_of_true rfl (hreaches rfl)
  | false => exact iff_of_false (by simp) fun h => h.not_misses (hmisses rfl)

theorem outcome_hasBody_eq_false
    (hlocal : ∀ e, (reader.linesOf l.path).outcome s = .error e → e.isLocal = true) :
    (reader.hasBody l).outcome s = .ok false ↔ MissesBrace l ((reader.bodyAt l).outcome s) := by
  obtain ⟨test, htest, hreaches, hmisses⟩ := exists_outcome_hasBody hlocal
  rw [htest]
  cases test with
  | true => exact iff_of_false (by simp) (hreaches rfl).not_misses
  | false => exact iff_of_true rfl (hmisses rfl)

/-! ## The place of a struct -/

open Generation in
/-- The place that is chosen is the first one at which a search comes to an opening brace, or the
first one at all. -/
theorem exists_owningLocation {places : List Location} (hne : places ≠ [])
    (h : ∀ l ∈ places, reader.Reliable s l.path) :
    ∃ l t, reader.owningLocation? places s = .ok (some l) t ∧ reader.Serves s t ∧
      IsOwner (fun m => ReachesBrace m ((reader.bodyAt m).outcome s)) places l := by
  obtain ⟨t, ht, hserves⟩ := returns_owningLocation? h s (serves_refl reader s)
  obtain ⟨l, hl⟩ := exists_owner? (reader.showsBody s) hne
  refine ⟨l, t, by rw [ht, hl], hserves, (isOwner_of_owner? hl).congr fun m hm => ?_⟩
  rw [← outcome_hasBody_eq_true (h m hm).isLocal, outcome_hasBody (h m hm), Except.ok.injEq]

/-- A place at which no opening brace is reached gives no body, for a reason that can be noted. -/
theorem MissesBrace.exists_note {r : Except Failure Body.Found} (h : MissesBrace l r) (e : Entry) :
    ∃ failure note, r = .error failure ∧ Generation.skipNote? e l failure = some note := by
  cases h with
  | @unread failure hlocal =>
    cases failure with
    | sourceRead fault => exact ⟨_, _, rfl, rfl⟩
    | sourceDecode primary fallback fault => exact ⟨_, _, rfl, rfl⟩
    | _ => cases hlocal
  | outOfBounds => exact ⟨_, _, rfl, rfl⟩
  | forward => exact ⟨_, _, rfl, rfl⟩
  | noBody => exact ⟨_, _, rfl, rfl⟩
  | closing => exact ⟨_, _, rfl, rfl⟩

end SourceReader

namespace Generator

open SourceReader

variable {g : Generator} {e : Entry} {l : Location} {s t : Session}

/-- No class is built at a place at which no opening brace is reached. -/
theorem eq_none_of_missesBrace (h : MissesBrace l ((g.reader.bodyAt l).outcome s))
    {built : Option JavaClass} (hbuilt : g.buildClass e l s = .ok built t) : built = none := by
  obtain ⟨failure, note, hfailure, -⟩ := h.exists_note e
  obtain ⟨hclass, -, -⟩ := buildClass_eq_ok hbuilt
  rw [hclass, Visit.class?, Visit.found, hfailure]

/-- One problem is noted about the struct, unless the problems cannot be listed. -/
theorem exists_buildClass_of_missesBrace (hlist : s.CanList)
    (h : MissesBrace l ((g.reader.bodyAt l).outcome s)) :
    ∃ failure kind words t, (g.reader.bodyAt l).outcome s = .error failure ∧
      failure.NotedAs kind ∧ g.buildClass e l s = .ok none t ∧ s.Reaches [⟨kind, words⟩] [] t := by
  obtain ⟨failure, note, hfailure, hnote⟩ := h.exists_note e
  obtain ⟨u, hattempt⟩ := Act.exists_attempt (g.reader.bodyAt l) s
  rw [hfailure] at hattempt
  have hread : s.Reaches [] [] u := (makes_bodyAt g.reader l).attempt.reaches_of_ok hattempt
  have hlist' : (u.log ⟨.warning, generatePhase, note.1⟩).CanList := by
    obtain ⟨cs, htrace, -, -⟩ := hread.log ⟨.warning, generatePhase, note.1⟩
    intro p hp
    exact hlist p (htrace.problemsPath.symm.trans hp)
  obtain ⟨t, hreport, -⟩ := Act.exists_notes_report hlist' note.2 note.1
  have hbuilt : g.buildClass e l s = .ok none t := by
    refine (Act.bind_ok hattempt _).trans ?_
    simp only [hnote]
    exact (Act.bind_ok (Act.log_ok _ _ _ u) _).trans (Act.bind_ok hreport _)
  obtain ⟨-, -, hreaches⟩ := buildClass_eq_ok hbuilt
  rw [Visit.problems, Visit.found, hfailure] at hreaches
  simp only [hnote] at hreaches
  exact ⟨failure, note.2, note.1, t, hfailure, notedAs_of_skipNote? hnote, hbuilt, hreaches⟩

/-- A search depends on what the lines of the file are. -/
theorem missesBrace_congr {u : Session}
    (hsame : (g.reader.linesOf l.path).outcome u = (g.reader.linesOf l.path).outcome s) :
    MissesBrace l ((g.reader.bodyAt l).outcome u) ↔
      MissesBrace l ((g.reader.bodyAt l).outcome s) := by
  rw [outcome_bodyAt, outcome_bodyAt, hsame]

open Generation in
/-- **Test and search agree on every place.** Where a file is read or refused by itself, the quick
test says `true` exactly if a search returns a body or leaves braces open, and `false` exactly if
the file is not read or the search comes to no opening brace. So the first of some places is chosen
at which a search comes to an opening brace. If there is none, the first place is chosen, no class
is built there as long as the lines of its file are the same, and one problem is noted that says
why. -/
theorem hasBody_agrees_with_bodyAt (g : Generator) (s : Session) :
    (∀ l, (∀ e, (g.reader.linesOf l.path).outcome s = .error e → e.isLocal = true) →
      ((g.reader.hasBody l).outcome s = .ok true ↔
          ReachesBrace l ((g.reader.bodyAt l).outcome s)) ∧
        ((g.reader.hasBody l).outcome s = .ok false ↔
          MissesBrace l ((g.reader.bodyAt l).outcome s))) ∧
      ∀ places, places ≠ [] → (∀ l ∈ places, g.reader.Reliable s l.path) →
        ∃ l t, g.reader.owningLocation? places s = .ok (some l) t ∧ g.reader.Serves s t ∧
          IsOwner (fun m => ReachesBrace m ((g.reader.bodyAt m).outcome s)) places l ∧
          (¬ ReachesBrace l ((g.reader.bodyAt l).outcome s) → ∀ e u,
            (g.reader.linesOf l.path).outcome u = (g.reader.linesOf l.path).outcome s →
              (∀ built v, g.buildClass e l u = .ok built v → built = none) ∧
              (u.CanList → ∃ failure kind words v,
                (g.reader.bodyAt l).outcome u = .error failure ∧ failure.NotedAs kind ∧
                  g.buildClass e l u = .ok none v ∧ u.Reaches [⟨kind, words⟩] [] v)) := by
  refine ⟨fun l hlocal => ⟨outcome_hasBody_eq_true hlocal, outcome_hasBody_eq_false hlocal⟩, ?_⟩
  intro places hne hreliable
  obtain ⟨l, t, ht, hserves, howner⟩ := exists_owningLocation hne hreliable
  refine ⟨l, t, ht, hserves, howner, fun hnot e u hsame => ?_⟩
  have hl : l ∈ places := by
    rcases howner with ⟨before, after, rfl, -⟩ | ⟨-, hhead⟩
    · simp
    · exact List.mem_of_mem_head? hhead
  have hmisses : MissesBrace l ((g.reader.bodyAt l).outcome u) := by
    rw [missesBrace_congr hsame]
    obtain ⟨test, -, hreaches, hmisses⟩ := exists_outcome_hasBody (hreliable l hl).isLocal
    cases test with
    | true => exact absurd (hreaches rfl) hnot
    | false => exact hmisses rfl
  refine ⟨fun built v hbuilt => eq_none_of_missesBrace hmisses hbuilt, fun hlist => ?_⟩
  exact exists_buildClass_of_missesBrace hlist hmisses

/-- The only place with a property, or the only place at all. -/
theorem eq_of_isOwner_singleton {P : Location → Prop} {m : Location}
    (h : Generation.IsOwner P [m] l) : l = m := by
  rcases h with ⟨before, after, hsplit, -⟩ | ⟨-, hhead⟩
  · cases before with
    | nil => exact (List.cons.inj hsplit).1.symm
    | cons _ _ => simp at hsplit
  · exact (Option.some.inj hhead).symm

/-- A struct whose only definition stands in a file that does not exist. -/
def lostEntry : Entry :=
  ⟨"C", [⟨"c.h", 1⟩], []⟩

/-- A body begins at one place, and the file of another one does not exist. -/
theorem hasBody_agrees_with_bodyAt_scattered :
    ReachesBrace ⟨"b.h", 1⟩ ((scatteredGenerator.reader.bodyAt ⟨"b.h", 1⟩).outcome scatteredSession)
      ∧ (∃ t, scatteredGenerator.reader.owningLocation? lostEntry.definitions scatteredSession
        = .ok (some ⟨"c.h", 1⟩) t)
      ∧ ∃ t, scatteredGenerator.buildClass lostEntry ⟨"c.h", 1⟩ scatteredSession = .ok none t := by
  have hagrees := hasBody_agrees_with_bodyAt scatteredGenerator scatteredSession
  have hbody : (scatteredGenerator.reader.hasBody ⟨"b.h", 1⟩).outcome scatteredSession = .ok true :=
    eq_ok_of_toOption (by decide +kernel)
  have hnone :
      (scatteredGenerator.reader.hasBody ⟨"c.h", 1⟩).outcome scatteredSession = .ok false :=
    eq_ok_of_toOption (by decide +kernel)
  have hknown : scatteredGenerator.reader.Reliable scatteredSession "b.h" :=
    reliable_scattered "b.h" (by decide +kernel)
  have hmissing : scatteredGenerator.reader.Reliable scatteredSession "c.h" :=
    reliable_scattered "c.h" (by decide +kernel)
  have hlist : scatteredSession.CanList := by
    intro p hp
    cases hp
  have hsources : ∀ l ∈ lostEntry.definitions,
      scatteredGenerator.reader.Reliable scatteredSession l.path := by
    intro l hl
    rw [List.mem_singleton.1 hl]
    exact hmissing
  have hreaches := (hagrees.1 ⟨"b.h", 1⟩ hknown.isLocal).1.1 hbody
  have hmisses := (hagrees.1 ⟨"c.h", 1⟩ hmissing.isLocal).2.1 hnone
  obtain ⟨l, t, ht, -, howner, hbuild⟩ :=
    hagrees.2 lostEntry.definitions (by simp [lostEntry]) hsources
  obtain rfl := eq_of_isOwner_singleton howner
  obtain ⟨-, hnoted⟩ :=
    hbuild (fun h => h.not_misses hmisses) lostEntry scatteredSession rfl
  obtain ⟨-, -, -, v, -, -, hv, -⟩ := hnoted hlist
  exact ⟨hreaches, ⟨t, ht⟩, v, hv⟩

end Generator

end StructAtlas
