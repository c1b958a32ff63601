import StructAtlas.Proofs.PlanGroups
import StructAtlas.Proofs.QuietReading
import StructAtlas.Proofs.Ranking

set_option autoImplicit false

/-!
# Plans of a generation

While a plan is made, source files are read, their lines are kept and log records are written. What
is read of a file depends on the files and on the lines that are known only
(`outcome_readRelative_congr`, `outcome_linesOf_congr`). So a file that no log record changes is
read as at the beginning, however far the work has come; `Serves` says this of a session, and every
operation of the plan keeps it. With that, the plan is a function of the session at its beginning
(`returns_plan_groups`), and the main statement says which structs it holds, where, and in which
order.
-/

namespace StructAtlas

/-! ## Sources that stay as they are -/

/-- The session after some log records. -/
def Session.logAll (s : Session) (records : List Record) : Session :=
  records.foldl Session.log s

/-- The session that knows the lines of one more file. -/
def Session.remember (s : Session) (path : WideText) (ls : List (List Char)) : Session :=
  { s with lines := s.lines ++ [(path, ls)] }

theorem Session.lines_logAll (s : Session) (records : List Record) :
    (s.logAll records).lines = s.lines := by
  induction records generalizing s with
  | nil => rfl
  | cons r records ih => exact ih (s.log r)

/-- Knowing lines does not change what records do to files. -/
theorem Session.files_logAll_remember (s : Session) (path : WideText) (ls : List (List Char))
    (records : List Record) :
    ((s.remember path ls).logAll records).files = (s.logAll records).files := by
  induction records generalizing s with
  | nil => rfl
  | cons r records ih => exact ih (s.log r)

/-- Without log files, records leave all files as they are. -/
theorem Session.files_logAll {s : Session} (h : ∀ o ∈ s.journal.outlets, ∀ p, o.sink ≠ .file p)
    (records : List Record) : (s.logAll records).files = s.files := by
  induction records generalizing s with
  | nil => rfl
  | cons r records ih => exact (ih (s := s.log r) h).trans (Journal.deliver_eq_self h r s.files)

/-- A run of log records and nothing else. -/
theorem Session.Trace.exists_logAll {s t : Session} {cs : List Change} (h : s.Trace cs t)
    (hcs : ∀ c ∈ cs, c.IsLogged) : ∃ records, t = s.logAll records := by
  induction h with
  | nil s => exact ⟨[], rfl⟩
  | @cons s t u c cs hstep _ ih =>
    obtain ⟨records, rfl⟩ := ih fun c hc => hcs c (List.mem_cons_of_mem _ hc)
    have hc := hcs c List.mem_cons_self
    cases hstep with
    | logged r => exact ⟨r :: records, rfl⟩
    | _ => cases hc

/-- An operation that writes log records only, and what it returns or fails with. -/
theorem Act.Makes.exists_logAll {α : Type} {act : Act α} (h : Makes Change.IsLogged act)
    (s : Session) : ∃ records, act.attempt s = .ok (act.outcome s) (s.logAll records) := by
  obtain ⟨t, ht⟩ := exists_attempt act s
  obtain ⟨cs, htrace, hcs⟩ := h.attempt s
  rw [after_of_ok ht] at htrace
  obtain ⟨records, rfl⟩ := htrace.exists_logAll hcs
  exact ⟨records, ht⟩

/-- A null character in the path is passed on; any other refusal is one of this source. -/
theorem Source.readBytes_of_error {p : Path} {fault : FileFault} {s : Session}
    (h : s.files.read p = .error fault) :
    Source.readBytes p s
      = .error (if fault.kind == .nullCharacter then .file fault else .sourceRead fault) s := by
  have hask : Act.askFiles (·.read p) s = .error (.file fault) s := Act.askFiles_error h
  rw [Source.readBytes, Act.onRefusal, Act.bind_ok (Act.attempt_error hask)]
  by_cases hkind : (fault.kind == .nullCharacter) = true
  · simp only [hkind, ↓reduceIte]
    rfl
  · simp only [hkind]
    rfl

/-- The record of a second attempt at decoding. -/
def Source.retryRecord (primary fallback : Charset.Codec) (p : Path) : Record where
  severity := .debug
  phase := appPhase
  message := primary.name ++ " 디코딩 실패, " ++ fallback.name ++ " 로 재시도: " ++ p.toText

/-- A file that can be read is decoded; only a second attempt leaves a record. -/
theorem Source.decodeFile_of_read {primary fallback : Charset.Codec} {p : Path} {bytes : List UInt8}
    {s : Session} (h : s.files.read p = .ok bytes) :
    Source.decodeFile primary fallback p s
      = Act.ofExcept id (Source.decode primary fallback bytes).result
          (if (Source.decode primary fallback bytes).retried
            then s.log (Source.retryRecord primary fallback p) else s) := by
  rw [Source.decodeFile, Act.bind_ok (Source.readBytes_ok h)]
  cases (Source.decode primary fallback bytes).retried <;> rfl

namespace SourceReader

variable {reader : SourceReader} {s t : Session} {path : WideText}

/-- A second attempt at decoding is logged, and then the answer is given. -/
theorem exists_decodeFile (primary fallback : Charset.Codec) (p : Path) (bytes : List UInt8) :
    ∃ records, ∀ s : Session, s.files.read p = .ok bytes →
      Source.decodeFile primary fallback p s
        = Act.ofExcept id (Source.decode primary fallback bytes).result (s.logAll records) := by
  cases hretried : (Source.decode primary fallback bytes).retried with
  | false =>
    refine ⟨[], fun s hs => ?_⟩
    rw [Source.decodeFile_of_read hs, hretried]
    rfl
  | true =>
    refine ⟨[Source.retryRecord primary fallback p], fun s hs => ?_⟩
    rw [Source.decodeFile_of_read hs, hretried]
    rfl

/-- What is read of a file depends on what its path leads to. -/
theorem outcome_read_congr {p : Path} (h : s.files.read p = t.files.read p) :
    (reader.read p).outcome s = (reader.read p).outcome t := by
  cases hfound : t.files.read p with
  | error fault =>
    exact (Act.outcome_of_error (Act.bind_error (Act.bind_error
      (Source.readBytes_of_error (h.trans hfound)) _) _)).trans
      (Act.outcome_of_error (Act.bind_error (Act.bind_error
      (Source.readBytes_of_error hfound) _) _)).symm
  | ok bytes =>
    obtain ⟨records, hrecords⟩ := exists_decodeFile reader.primary reader.fallback p bytes
    have hs := hrecords s (h.trans hfound)
    have ht := hrecords t hfound
    cases hresult : (Source.decode reader.primary reader.fallback bytes).result with
    | error e =>
      rw [hresult] at hs ht
      exact (Act.outcome_bind_of_error hs _).trans (Act.outcome_bind_of_error ht _).symm
    | ok text =>
      rw [hresult] at hs ht
      refine (Act.outcome_bind_of_ok hs _).trans (Eq.trans ?_ (Act.outcome_bind_of_ok ht _).symm)
      split <;> rfl

/-- What is read at a relative path depends on the files. -/
theorem outcome_readRelative_congr (h : s.files = t.files) :
    (reader.readRelative path).outcome s = (reader.readRelative path).outcome t := by
  have hread (p : Path) : (reader.read p).outcome s = (reader.read p).outcome t :=
    outcome_read_congr (by rw [h])
  cases path with
  | plain relative => exact hread _
  | broken codes hbroken =>
    rw [readRelative, readBroken]
    split
    · rfl
    · split
      · exact hread _
      · split
        · rfl
        · rw [Act.outcome_bind_of_ok (Act.get_ok s), Act.outcome_bind_of_ok (Act.get_ok t), h]
          rfl

theorem makes_readRelative_logged (reader : SourceReader) (path : WideText) :
    Act.Makes Change.IsLogged (reader.readRelative path) :=
  makes_readRelative (fun _ => trivial) reader path

/-! ## Lines that were read -/

theorem attempt_linesOf_of_read {answer : Except Failure SourceUnit}
    (h : s.lines.find? (·.1 == path) = none)
    (hread : (reader.readRelative path).attempt s = .ok answer t) :
    (reader.linesOf path).attempt s
      = match answer with
        | .ok u => .ok (.ok (Text.lines (Scan.cleanText true u)))
            (t.remember path (Text.lines (Scan.cleanText true u)))
        | .error e => .ok (.error e) t := by
  rw [Act.attempt] at hread
  split at hread
  · rename_i u t' hok
    cases hread
    exact Act.attempt_ok (linesOf_of_read h hok)
  · rename_i e t' herror
    cases hread
    refine Act.attempt_error ?_
    rw [linesOf, Act.bind_ok (Act.get_ok s)]
    simp only [h]
    exact Act.bind_error herror _

/-- What the lines of a file are depends on what is read of it and on what is known of it. -/
theorem outcome_linesOf_congr
    (hknown : s.lines.find? (·.1 == path) = t.lines.find? (·.1 == path))
    (hread : (reader.readRelative path).outcome s = (reader.readRelative path).outcome t) :
    (reader.linesOf path).outcome s = (reader.linesOf path).outcome t := by
  cases hs : s.lines.find? (·.1 == path) with
  | some known =>
    have ht := hknown.symm.trans hs
    rw [Act.outcome_of_attempt (Act.attempt_ok (linesOf_of_known hs)),
      Act.outcome_of_attempt (Act.attempt_ok (linesOf_of_known ht))]
  | none =>
    have ht := hknown.symm.trans hs
    obtain ⟨_, hanswer⟩ := (makes_readRelative_logged reader path).exists_logAll s
    obtain ⟨_, hanswer'⟩ := (makes_readRelative_logged reader path).exists_logAll t
    rw [hread] at hanswer
    generalize (reader.readRelative path).outcome t = answer at hanswer hanswer'
    have hs' := attempt_linesOf_of_read hs hanswer
    have ht' := attempt_linesOf_of_read ht hanswer'
    cases answer <;> rw [Act.outcome_of_attempt hs', Act.outcome_of_attempt ht']

/-- A source file that log records leave as it is, and that is read or refused by the operating
system. -/
structure Reliable (reader : SourceReader) (s : Session) (path : WideText) : Prop where
  steady : ∀ records, (reader.readRelative path).outcome (s.logAll records)
    = (reader.readRelative path).outcome s
  isLocal : ∀ e, (reader.linesOf path).outcome s = .error e → e.isLocal = true

/-- A session in which reliable files are read as they were in an earlier one. -/
structure Serves (reader : SourceReader) (s t : Session) : Prop where
  steady : ∀ path, reader.Reliable s path → ∀ records,
    (reader.readRelative path).outcome (t.logAll records) = (reader.readRelative path).outcome s
  same : ∀ path, reader.Reliable s path →
    (reader.linesOf path).outcome t = (reader.linesOf path).outcome s

theorem serves_refl (reader : SourceReader) (s : Session) : reader.Serves s s :=
  ⟨fun _ h => h.steady, fun _ _ => rfl⟩

theorem Serves.logAll (h : reader.Serves s t) (records : List Record) :
    reader.Serves s (t.logAll records) where
  steady path hpath more := by
    have hall : (t.logAll records).logAll more = t.logAll (records ++ more) :=
      (List.foldl_append ..).symm
    rw [hall]
    exact h.steady path hpath (records ++ more)
  same path hpath := by
    rw [← h.same path hpath]
    refine outcome_linesOf_congr (by rw [Session.lines_logAll]) ?_
    exact (h.steady path hpath records).trans (h.steady path hpath []).symm

theorem lasting_serves (reader : SourceReader) (s : Session) : Act.Lasting (reader.Serves s) :=
  fun _ r h => h.logAll [r]

theorem Serves.remember {ls : List (List Char)} (h : reader.Serves s t)
    (hnew : t.lines.find? (·.1 == path) = none)
    (hls : (reader.linesOf path).outcome t = .ok ls) :
    reader.Serves s (t.remember path ls) where
  steady q hq records := by
    rw [outcome_readRelative_congr (Session.files_logAll_remember t path ls records)]
    exact h.steady q hq records
  same q hq := by
    rw [← h.same q hq]
    by_cases hpath : q = path
    · subst hpath
      -- The lines are found at the end of those that are known.
      have hfound : (t.remember q ls).lines.find? (·.1 == q) = some (q, ls) := by
        rw [Session.remember, List.find?_append, hnew]
        simp
      rw [hls]
      exact Act.outcome_of_attempt (Act.attempt_ok (linesOf_of_known hfound))
    · refine outcome_linesOf_congr ?_ (outcome_readRelative_congr rfl)
      have hne : ¬ path = q := fun e => hpath e.symm
      rw [Session.remember, List.find?_append]
      simp [hne]

/-- Reliable files are read as they were, and they are afterwards. -/
theorem Reliable.returns_linesOf (h : reader.Reliable s path) :
    Act.Returns (reader.Serves s) (reader.linesOf path).attempt ((reader.linesOf path).outcome s)
      (reader.Serves s) := by
  intro t ht
  rw [← ht.same path h]
  cases hknown : t.lines.find? (·.1 == path) with
  | some known =>
    have hlines : (reader.linesOf path).attempt t = .ok (.ok known.2) t :=
      Act.attempt_ok (linesOf_of_known hknown)
    rw [Act.outcome_of_attempt hlines]
    exact ⟨t, hlines, ht⟩
  | none =>
    obtain ⟨records, hanswer⟩ := (makes_readRelative_logged reader path).exists_logAll t
    generalize (reader.readRelative path).outcome t = answer at hanswer
    have hlines := attempt_linesOf_of_read hknown hanswer
    cases answer with
    | error e =>
      rw [Act.outcome_of_attempt hlines]
      exact ⟨_, hlines, ht.logAll records⟩
    | ok u =>
      have hlogged := ht.logAll records
      rw [Act.outcome_of_attempt hlines]
      refine ⟨_, hlines, hlogged.remember (by rw [Session.lines_logAll, hknown]) ?_⟩
      rw [hlogged.same path h, ← ht.same path h, Act.outcome_of_attempt hlines]

/-! ## Places with bodies -/

/-- Whether a body begins at a place; a file that is not read has none. -/
def showsBody (reader : SourceReader) (s : Session) (l : Location) : Bool :=
  match (reader.linesOf l.path).outcome s with
  | .ok ls => Body.begins ls l.line
  | .error _ => false

theorem Reliable.returns_hasBody {l : Location} (h : reader.Reliable s l.path) :
    Act.Returns (reader.Serves s) (reader.hasBody l) (reader.showsBody s l)
      (reader.Serves s) := by
  refine h.returns_linesOf.bind ?_
  rw [showsBody]
  cases hlines : (reader.linesOf l.path).outcome s with
  | ok ls => exact Act.returns_pure _ _
  | error e =>
    simp only [h.isLocal e hlines, ↓reduceIte]
    exact ((lasting_serves reader s).log _ _ _).bind (Act.returns_pure _ false)

theorem outcome_hasBody {l : Location} (h : reader.Reliable s l.path) :
    (reader.hasBody l).outcome s = .ok (reader.showsBody s l) := by
  obtain ⟨t, ht, -⟩ := h.returns_hasBody s (serves_refl reader s)
  exact Act.outcome_eq_ok.2 ⟨t, ht⟩

theorem returns_firstWithBody? {places : List Location}
    (h : ∀ l ∈ places, reader.Reliable s l.path) :
    Act.Returns (reader.Serves s) (reader.firstWithBody? places)
      (places.find? (reader.showsBody s)) (reader.Serves s) := by
  induction places with
  | nil => exact Act.returns_pure _ none
  | cons l places ih =>
    refine (h l List.mem_cons_self).returns_hasBody.bind ?_
    rw [List.find?_cons]
    cases reader.showsBody s l with
    | true => exact Act.returns_pure _ (some l)
    | false => exact ih fun m hm => h m (List.mem_cons_of_mem _ hm)

open Generation in
theorem returns_owningLocation? {places : List Location}
    (h : ∀ l ∈ places, reader.Reliable s l.path) :
    Act.Returns (reader.Serves s) (reader.owningLocation? places)
      (owner? (reader.showsBody s) places) (reader.Serves s) := by
  cases places with
  | nil => exact Act.returns_pure _ none
  | cons first places =>
    refine (returns_firstWithBody? h).bind ?_
    rw [owner?]
    cases (first :: places).find? (reader.showsBody s) with
    | some l => exact Act.returns_pure _ (some l)
    | none => exact ((lasting_serves reader s).log _ _ _).bind (Act.returns_pure _ (some first))

end SourceReader

/-! ## Plans -/

namespace Generator

open Generation

variable {g : Generator} {s : Session}

theorem returns_locateAll_located {es : List Entry}
    (h : ∀ e ∈ es, ∀ l ∈ e.definitions, g.reader.Reliable s l.path) :
    Act.Returns (g.reader.Serves s) (g.locateAll es) (located (g.reader.showsBody s) es)
      (g.reader.Serves s) := by
  have hlasting := SourceReader.lasting_serves g.reader s
  induction es with
  | nil => exact Act.returns_pure _ []
  | cons e es ih =>
    have hrest := ih fun e' he' => h e' (List.mem_cons_of_mem _ he')
    refine (hlasting.log _ _ _).bind ?_
    refine (SourceReader.returns_owningLocation? (h e List.mem_cons_self)).bind ?_
    rw [located, List.filterMap_cons]
    cases owner? (g.reader.showsBody s) e.definitions with
    | none => exact hrest
    | some l => exact hrest.bind (Act.returns_pure _ _)

theorem returns_owningFiles {P : Session → Prop} (hP : Act.Lasting P) (es : List Entry) :
    Act.Returns P (owningFiles es) (firstFiles es) P :=
  (Act.returns_forM fun _ _ => hP.log _ _ _).bind (Act.returns_pure _ _)

/-- The structs that take part, with their places. -/
def planned (g : Generator) (s : Session) : List Planned :=
  located (g.reader.showsBody s)
    ((firstFiles (g.registry.top g.topCount)).flatMap (definedIn g.registry))

theorem returns_plan_groups (hranked : g.registry.clash? = none)
    (h : ∀ e ∈ g.registry.entries, ∀ l ∈ e.definitions, g.reader.Reliable s l.path) :
    Act.Returns (g.reader.Serves s) g.plan (groups (g.planned s)) (g.reader.Serves s) := by
  have hselected : g.selected = pure (g.registry.top g.topCount) := by
    rw [selected, Registry.rank, hranked]
    rfl
  rw [plan, hselected, pure_bind]
  refine (returns_owningFiles (SourceReader.lasting_serves g.reader s) _).bind ?_
  refine (returns_locateAll_located fun e he => h e (mem_flatMap_definedIn.1 he).1).bind ?_
  exact Act.returns_pure _ _

theorem map_planned (g : Generator) (s : Session) :
    (g.planned s).map (·.1)
      = (firstFiles (g.registry.top g.topCount)).flatMap (definedIn g.registry) := by
  refine map_located _ fun e he hnone => ?_
  obtain ⟨-, f, -, hfirst⟩ := mem_flatMap_definedIn.1 he
  rw [firstFile?, hnone] at hfirst
  cases hfirst

/-- What makes groups of structs a plan. -/
structure IsPlan (g : Generator) (s : Session) (gs : List (WideText × List Planned)) : Prop where
  keys : (gs.map (·.1)).Nodup
  members : ∀ e, (∃ group ∈ gs, ∃ l, (e, l) ∈ group.2) ↔
    e ∈ g.registry.entries ∧ ∃ f, firstFile? e = some f
      ∧ ∃ e' ∈ g.registry.top g.topCount, firstFile? e' = some f
  once : ((gs.flatMap (·.2)).map (·.1.name)).Nodup
  owner : ∀ group ∈ gs, ∀ p ∈ group.2,
    IsOwner (fun l => (g.reader.hasBody l).outcome s = .ok true) p.1.definitions p.2
  path : ∀ group ∈ gs, ∀ p ∈ group.2, p.2.path = group.1
  order : ∀ group ∈ gs, ∀ f,
    ((group.2.map (·.1)).filter fun e => firstFile? e == some f).Sublist g.registry.entries

theorem mem_planned {g : Generator} {s : Session} {p : Planned} (h : p ∈ g.planned s) :
    p.1 ∈ g.registry.entries := by
  have hmem : p.1 ∈ (g.planned s).map (·.1) := List.mem_map_of_mem h
  rw [map_planned] at hmem
  exact (mem_flatMap_definedIn.1 hmem).1

theorem mem_groups_planned {g : Generator} {s : Session} {e : Entry} :
    (∃ group ∈ groups (g.planned s), ∃ l, (e, l) ∈ group.2) ↔
      e ∈ (g.planned s).map (·.1) := by
  have hgrouped := grouped_groups (g.planned s)
  rw [List.mem_map]
  constructor
  · rintro ⟨group, hgroup, l, hl⟩
    exact ⟨(e, l), (hgrouped.order group hgroup).subset hl, rfl⟩
  · rintro ⟨p, hp, rfl⟩
    obtain ⟨group, hgroup, hp⟩ := List.mem_flatMap.1 (hgrouped.perm.mem_iff.2 hp)
    exact ⟨group, hgroup, p.2, hp⟩

theorem isOwner_of_mem_planned
    (h : ∀ e ∈ g.registry.entries, ∀ l ∈ e.definitions, g.reader.Reliable s l.path)
    {p : Planned} (hp : p ∈ g.planned s) :
    IsOwner (fun l => (g.reader.hasBody l).outcome s = .ok true) p.1.definitions p.2 := by
  refine (isOwner_of_owner? (owner?_of_mem_located hp)).congr fun l hl => ?_
  rw [SourceReader.outcome_hasBody (h p.1 (mem_planned hp) l hl), Except.ok.injEq]

theorem isPlan_groups (hnames : g.registry.names.Nodup)
    (h : ∀ e ∈ g.registry.entries, ∀ l ∈ e.definitions, g.reader.Reliable s l.path) :
    g.IsPlan s (groups (g.planned s)) := by
  have hgrouped := grouped_groups (g.planned s)
  have hfiles := nodup_firstFiles (g.registry.top g.topCount)
  refine ⟨hgrouped.keys, fun e => ?_, ?_, fun group hgroup p hp => ?_, hgrouped.path,
    fun group hgroup f => ?_⟩
  · rw [mem_groups_planned, map_planned, mem_flatMap_definedIn]
    simp only [mem_firstFiles]
    exact and_congr_right fun _ => exists_congr fun f => and_comm
  · have hnodup := nodup_flatMap_definedIn hnames hfiles
    rw [← map_planned g s, List.map_map] at hnodup
    exact (hgrouped.perm.map (·.1.name)).nodup_iff.2 hnodup
  · exact isOwner_of_mem_planned h ((hgrouped.order group hgroup).subset hp)
  · -- A group is a part of the plan, and the plan lists the structs file by file.
    have hpart := ((hgrouped.order group hgroup).map (·.1)).filter fun e => firstFile? e == some f
    rw [map_planned] at hpart
    exact hpart.trans (filter_flatMap_definedIn g.registry hfiles f)

/-- **A plan loses nothing and duplicates nothing.** Let the names of the registry be different and
the source files of all definitions reliable. If the entries can be ranked, which they can if their
names are texts, a plan is returned. -/
theorem plan_takes_every_struct_once (hnames : g.registry.names.Nodup)
    (hsources : ∀ e ∈ g.registry.entries, ∀ l ∈ e.definitions, g.reader.Reliable s l.path) :
    ((∀ e ∈ g.registry.entries, e.name.isText = true) → g.registry.clash? = none)
      ∧ (g.registry.clash? = none → ∃ gs t, g.plan s = .ok gs t ∧ g.IsPlan s gs) := by
  constructor
  · intro htexts
    exact Registry.clash?_of_isText htexts
  · intro hranked
    obtain ⟨t, ht, -⟩ :=
      returns_plan_groups hranked hsources s (SourceReader.serves_refl g.reader s)
    exact ⟨_, t, ht, isPlan_groups hnames hsources⟩

/-! ## An example -/

/-- A struct that is declared in one file and has its body in another one, a struct with its body in
the first file, one whose file is missing, and one that is used only. -/
def scatteredRegistry : Registry :=
  ⟨[⟨"A", [⟨"a.h", 1⟩, ⟨"b.h", 1⟩], [⟨"b.h", 3⟩]⟩, ⟨"B", [⟨"a.h", 2⟩], []⟩,
    ⟨"C", [⟨"c.h", 1⟩], []⟩, ⟨"D", [], [⟨"a.h", 3⟩]⟩]⟩

/-- A session with the two files that exist. -/
def scatteredSession : Session :=
  .start
    { nodes :=
        [(["src"], .directory),
          (["src", "a.h"],
            .file (Charset.Utf8.bytesOf "struct A;\nstruct B \x7b int b; \x7d;\n")),
          (["src", "b.h"], .file (Charset.Utf8.bytesOf "struct A \x7b int a; \x7d;\n"))] }
    ((Journal.empty ⟨"", "", ""⟩).add 0 0 none .memory)

/-- A generator that selects one struct. -/
def scatteredGenerator : Generator where
  registry := scatteredRegistry
  reader := .ofSrc
  output := Path.parse "out"
  topCount := 1
  packages := ⟨.null, .str "pojos"⟩

theorem reliable_scattered (path : WideText)
    (h : (match (SourceReader.ofSrc.linesOf path).outcome scatteredSession with
      | .ok _ => true
      | .error e => e.isLocal) = true) : SourceReader.ofSrc.Reliable scatteredSession path where
  steady records := by
    have hfiles : (scatteredSession.logAll records).files = scatteredSession.files := by
      refine Session.files_logAll (fun o ho p hp => ?_) records
      cases List.mem_singleton.1 ho
      cases hp
    exact SourceReader.outcome_readRelative_congr hfiles
  isLocal e he := by
    rw [he] at h
    exact h

/-- The one selected struct brings in a second one, and its own body stands in another file. -/
theorem plan_of_scattered_structs :
    scatteredGenerator.registry.names.Nodup
      ∧ (∀ e ∈ scatteredGenerator.registry.entries, ∀ l ∈ e.definitions,
          scatteredGenerator.reader.Reliable scatteredSession l.path)
      ∧ (∀ e ∈ scatteredGenerator.registry.entries, e.name.isText = true)
      ∧ ∃ gs t, scatteredGenerator.plan scatteredSession = .ok gs t
        ∧ scatteredGenerator.IsPlan scatteredSession gs := by
  have hnames : scatteredGenerator.registry.names.Nodup := by decide +kernel
  have htexts : ∀ e ∈ scatteredGenerator.registry.entries, e.name.isText = true := by
    decide +kernel
  have hsources : ∀ e ∈ scatteredGenerator.registry.entries, ∀ l ∈ e.definitions,
      scatteredGenerator.reader.Reliable scatteredSession l.path := by
    intro e he l hl
    have hpath : l.path ∈ (["a.h", "b.h", "c.h"] : List WideText) := by
      revert e l
      decide +kernel
    simp only [List.mem_cons, List.not_mem_nil, or_false] at hpath
    rcases hpath with hpath | hpath | hpath <;> rw [hpath] <;>
      exact reliable_scattered _ (by decide +kernel)
  obtain ⟨hclash, hplan⟩ := plan_takes_every_struct_once hnames hsources
  exact ⟨hnames, hsources, htexts, hplan (hclash htexts)⟩

end Generator

end StructAtlas
