import StructAtlas.Generation
import StructAtlas.Proofs.FileShapes
import StructAtlas.Proofs.Operations
import StructAtlas.Proofs.Ranking
import StructAtlas.Proofs.StructText
import StructAtlas.Proofs.Utf8

set_option autoImplicit false

/-!
# Generating from a single source file

Here all structs are defined in one file, each by a body of its own with at least one field
(`Sited`). Then a generation writes one Java file with the classes of all structs, however many
structs are selected (`returns_generate`).

While the places of the structs are looked for, the source file is read once and its lines are kept
(`Searching`). From then on the source file may change; what counts is that the Java files can be
written (`Writing`).
-/

namespace StructAtlas

open Text

/-! ## Reading the file -/

namespace SourceReader

/-- The file of a path below the root holds a text in UTF-8, and no log record changes it. -/
structure Holds (reader : SourceReader) (s : Session) (path : String) (text : List Char) :
    Prop where
  utf8 : reader.primary.IsUtf8
  below : ∃ relative, (reader.root.joinText path).relativeTo? reader.root = some relative
  read : s.files.read (reader.root.joinText path) = .ok (Charset.Utf8.encode text)
  settled : ∀ key, s.files.place (reader.root.joinText path) = .ok key →
    s.journal.Settled s.files key

variable {reader : SourceReader} {s : Session} {path : String} {text : List Char}

theorem Holds.readRelative (h : reader.Holds s path text) (hends : '\r' ∉ text) :
    ∃ name, reader.readRelative path s = .ok ⟨name, text⟩ s := by
  obtain ⟨relative, hrelative⟩ := h.below
  have hbytes := Source.readBytes_ok h.read
  have hdecoded := Source.decode_encoded reader.fallback h.utf8 hends
  refine ⟨relative.toText, ?_⟩
  simp [SourceReader.readRelative, SourceReader.read, Source.decodeFile, hbytes, hdecoded,
    hrelative, bind, EStateM.bind, pure, EStateM.pure, Act.ofExcept]

/-- Log records leave the file as it is. -/
theorem Holds.log (h : reader.Holds s path text) (r : Record) :
    reader.Holds (s.log r) path text := by
  obtain ⟨key, hplace, hlookup, hfree⟩ := FileTree.read_eq_ok.1 h.read
  have hsettled := h.settled key hplace
  obtain ⟨halike, hsame⟩ := hsettled.deliver r
  have hplace' : (s.log r).files.place (reader.root.joinText path) = .ok key :=
    (halike.place _).symm.trans hplace
  refine ⟨h.utf8, h.below, ?_, ?_⟩
  · exact FileTree.read_eq_ok.2 ⟨key, hplace', hsame.trans hlookup, halike.access key ▸ hfree⟩
  · intro key' hkey'
    cases hplace'.symm.trans hkey'
    exact (hsettled.of_keeps halike.keeps).push r

end SourceReader

/-! ## Sessions on the way -/

/-- The lines of a file are known. -/
def Session.Knows (s : Session) (path : String) (ls : List (List Char)) : Prop :=
  ∃ known, s.lines.find? (·.1 == .plain path) = some known ∧ known.2 = ls

namespace FileTree

variable {t t' : FileTree} {output : Path} {names : List String}

/-- Files of these names can be written in a directory. -/
def Receives (t : FileTree) (output : Path) (names : List String) : Prop :=
  ∀ name ∈ names, ∃ key, t.target (output.joinText name) = .ok key

/-- A directory can be made, and then files of these names can be written there. -/
def Accepts (t : FileTree) (output : Path) (names : List String) : Prop :=
  ∃ made, t.makeDirectories output = .ok made ∧ made.Receives output names

theorem Receives.of_alike (h : t.Receives output names) (halike : Alike t t') :
    t'.Receives output names := by
  intro name hname
  obtain ⟨key, hkey⟩ := h name hname
  exact ⟨key, (halike.target _).symm.trans hkey⟩

theorem Receives.put (h : t.Receives output names) {p : Path} {key : List String}
    (hp : t.target p = .ok key) (bytes : List UInt8) :
    (t.put key (.file bytes)).Receives output names := by
  intro name hname
  obtain ⟨other, hother⟩ := h name hname
  exact ⟨other, target_put hp hother bytes⟩

theorem Accepts.of_alike (h : t.Accepts output names) (halike : Alike t t') :
    t'.Accepts output names := by
  obtain ⟨made, hmade, hreceives⟩ := h
  have hsame := halike.makeDirectories output
  rw [hmade] at hsame
  obtain ⟨made', hmade', halike'⟩ := hsame.exists_ok
  exact ⟨made', hmade', hreceives.of_alike halike'⟩

end FileTree

namespace Generator

open Generation Act

/-- The name of the Java file for a source file. -/
def javaName (path : String) : String :=
  (Path.parse path).stem ++ Naming.sourceExtension

/-- The name of the Java file for the support class. -/
def supportName : String :=
  JavaClass.supportClass ++ Naming.sourceExtension

/-- The names of the Java files for a source file. -/
def javaNames (path : String) : List String :=
  [javaName path, supportName]

/-- The places of structs can be looked for in a file, and the Java files can be written. -/
structure Searching (g : Generator) (path : String) (text : List Char) (ps : ProblemList)
    (s : Session) : Prop where
  holds : g.reader.Holds s path text
  fresh : ∀ known, s.lines.find? (·.1 == .plain path) = some known → known.2 = lines text
  accepts : s.files.Accepts g.output (javaNames path)
  problems : s.problems = ps

/-- The bodies of structs are known, and the Java files can be written. -/
structure Writing (g : Generator) (path : String) (text : List Char) (ps : ProblemList)
    (s : Session) : Prop where
  knows : s.Knows path (lines text)
  settled : ∃ apart, s.journal.Settled s.files apart
  receives : s.files.Receives g.output (javaNames path)
  problems : s.problems = ps

variable {g : Generator} {path : String} {text : List Char} {ps : ProblemList}

theorem Searching.lasting : Lasting (Searching g path text ps) := by
  intro s r h
  obtain ⟨key, hplace, -⟩ := FileTree.read_eq_ok.1 h.holds.read
  obtain ⟨halike, -⟩ := (h.holds.settled key hplace).deliver r
  exact ⟨h.holds.log r, h.fresh, h.accepts.of_alike halike, h.problems⟩

theorem Writing.lasting : Lasting (Writing g path text ps) := by
  intro s r h
  obtain ⟨apart, hsettled⟩ := h.settled
  obtain ⟨halike, -⟩ := hsettled.deliver r
  exact ⟨h.knows, ⟨apart, (hsettled.of_keeps halike.keeps).push r⟩, h.receives.of_alike halike,
    h.problems⟩

/-- The file was read while places were looked for. -/
def Searched (g : Generator) (path : String) (text : List Char) (ps : ProblemList) (s : Session) :
    Prop :=
  Searching g path text ps s ∧ s.Knows path (lines text)

/-- The directory is made, and from then on the Java files can be written. -/
theorem returns_makeDirectories :
    Returns (Searched g path text ps) (Act.makeDirectories g.output) ()
      (Writing g path text ps) := by
  rintro s ⟨h, hknows⟩
  obtain ⟨made, hmade, hreceives⟩ := h.accepts
  obtain ⟨key, hplace, -⟩ := FileTree.read_eq_ok.1 h.holds.read
  have hkeeps := (FileTree.extends_makeDirectories hmade).keeps
  have hsettled := (h.holds.settled key hplace).of_keeps hkeeps
  refine ⟨{ s with files := made }, ?_, hknows, ⟨key, hsettled⟩, hreceives, h.problems⟩
  simp only [Act.makeDirectories, changeFiles, hmade]

/-! ## Looking for places -/

section Places

variable (hplain : ∀ c ∈ text, c ∉ ['/', '\r'])

include hplain

theorem returns_linesOf :
    Returns (Searching g path text ps) (g.reader.linesOf path) (lines text)
      (Searched g path text ps) := by
  intro s h
  cases hknown : s.lines.find? (·.1 == .plain path) with
  | some known =>
    have hlines := h.fresh known hknown
    refine ⟨s, ?_, h, known, hknown, hlines⟩
    rw [← hlines]
    exact SourceReader.linesOf_of_known hknown
  | none =>
    obtain ⟨name, hread⟩ := h.holds.readRelative fun hm => hplain _ hm (by decide)
    have hclean : Scan.cleanText true ⟨name, text⟩ = text :=
      Comment.strip_of_not_mem fun hm => hplain _ hm (by decide)
    have hfound : (s.lines ++ [(WideText.plain path, lines text)]).find? (·.1 == .plain path)
        = some (.plain path, lines text) := by
      rw [List.find?_append, hknown]
      simp
    refine ⟨{ s with lines := s.lines ++ [(.plain path, lines text)] }, ?_, ⟨?_, ?_, ?_, ?_⟩, ?_⟩
    · have hlines := SourceReader.linesOf_of_read hknown hread
      rwa [hclean] at hlines
    · exact ⟨h.holds.utf8, h.holds.below, h.holds.read, h.holds.settled⟩
    · intro known hknown'
      cases hfound.symm.trans hknown'
      rfl
    · exact h.accepts
    · exact h.problems
    · exact ⟨_, hfound, rfl⟩

theorem returns_owningLocation {l : Location} (hpath : l.path = path)
    (hbegins : Body.begins (lines text) l.line = true) :
    Returns (Searching g path text ps) (g.reader.owningLocation? [l]) (some l)
      (Searched g path text ps) := by
  have hbody : Returns (Searching g path text ps) (g.reader.hasBody l) true
      (Searched g path text ps) := by
    have hlines : Returns (Searching g path text ps) (g.reader.linesOf l.path).attempt
        (.ok (lines text)) (Searched g path text ps) := by
      rw [hpath]
      exact (returns_linesOf hplain).attempt
    refine hlines.bind ?_
    simp only [hbegins]
    exact returns_pure _ true
  have hfirst : Returns (Searching g path text ps) (g.reader.firstWithBody? [l]) (some l)
      (Searched g path text ps) :=
    hbody.bind (returns_pure _ (some l))
  exact hfirst.bind (returns_pure _ (some l))

end Places

/-- A struct that is defined once, by a body with fields in a file of the given text. -/
structure Sited (path : String) (text : List Char) (p : Planned) : Prop where
  isText : ∃ name, p.1.name = .text name
  definitions : p.1.definitions = [p.2]
  path_eq : p.2.path = path
  begins : Body.begins (lines text) p.2.line = true
  body : ∃ body, Body.find (lines text) p.2.line = .ok body ∧ Field.ofBody body.text ≠ []

/-- Every struct is found where it is defined. The file has been read as soon as there is one. -/
theorem returns_locateAll (hplain : ∀ c ∈ text, c ∉ ['/', '\r']) {planned : List Planned}
    (h : ∀ p ∈ planned, Sited path text p) :
    Returns (fun s => Searching g path text ps s ∧ (planned = [] → s.Knows path (lines text)))
      (g.locateAll (planned.map (·.1))) planned (Searched g path text ps) := by
  induction planned with
  | nil => exact (returns_pure _ []).of_imp fun s hs => ⟨hs.1, hs.2 rfl⟩
  | cons p planned ih =>
    obtain ⟨e, l⟩ := p
    have hsited := h (e, l) List.mem_cons_self
    have hrest := ih fun p hp => h p (List.mem_cons_of_mem _ hp)
    have hlocation : Returns (Searching g path text ps) (g.reader.owningLocation? [l]) (some l)
        (Searched g path text ps) := returns_owningLocation hplain hsited.path_eq hsited.begins
    rw [List.map_cons, locateAll]
    refine Returns.of_imp ?_ fun s (hs : Searching g path text ps s ∧ _) => hs.1
    refine (Searching.lasting.log _ _ _).bind ?_
    rw [show e.definitions = [l] from hsited.definitions]
    refine hlocation.bind ?_
    refine (hrest.of_imp fun s hs => ⟨hs.1, fun _ => hs.2⟩).bind ?_
    exact returns_pure _ _

/-! ## The plan -/

theorem firstFiles_of_forall {es : List Entry} (hne : es ≠ [])
    (h : ∀ e ∈ es, firstFile? e = some (.plain path)) : firstFiles es = [.plain path] := by
  -- The first struct brings the file in, and the others find it there.
  have hstay : ∀ rest : List Entry, (∀ e ∈ rest, firstFile? e = some (.plain path)) →
      (rest.filterMap firstFile?).foldl insertNew [.plain path] = [.plain path] := by
    intro rest hrest
    induction rest with
    | nil => rfl
    | cons e rest ih =>
      rw [List.filterMap_cons_some (hrest e List.mem_cons_self), List.foldl_cons, insertNew,
        if_pos (by simp)]
      exact ih fun e' he' => hrest e' (List.mem_cons_of_mem _ he')
  cases es with
  | nil => exact absurd rfl hne
  | cons e rest =>
    rw [firstFiles, List.filterMap_cons_some (h e List.mem_cons_self)]
    exact hstay rest fun e' he' => h e' (List.mem_cons_of_mem _ he')

theorem groups_of_forall {planned : List Planned} (hne : planned ≠ [])
    (h : ∀ p ∈ planned, p.2.path = .plain path) : groups planned = [(.plain path, planned)] := by
  -- Once the group of the file is there, the others join it at its end.
  have hstay : ∀ first rest : List Planned, (∀ p ∈ rest, p.2.path = .plain path) →
      rest.foldl (fun gs p => addToGroup p gs) [(.plain path, first)]
        = [(.plain path, first ++ rest)] := by
    intro first rest hrest
    induction rest generalizing first with
    | nil => rw [List.append_nil]; rfl
    | cons p rest ih =>
      have hp := hrest p List.mem_cons_self
      rw [List.foldl_cons, addToGroup, hp, if_pos (beq_self_eq_true _),
        ih _ fun q hq => hrest q (List.mem_cons_of_mem _ hq), List.append_assoc]
      rfl
  cases planned with
  | nil => exact absurd rfl hne
  | cons p rest =>
    have hp := h p List.mem_cons_self
    rw [groups, List.foldl_cons, addToGroup, hp]
    exact hstay [p] rest fun q hq => h q (List.mem_cons_of_mem _ hq)

theorem firstFile?_of_sited {e : Entry} {l : Location} (h : Sited path text (e, l)) :
    firstFile? e = some (.plain path) := by
  rw [firstFile?, show e.definitions = [l] from h.definitions, ← h.path_eq]
  rfl

/-- Structs with a first definition are not logged as missing. -/
theorem owningFiles_of_forall {es : List Entry} (hne : es ≠ [])
    (h : ∀ e ∈ es, firstFile? e = some (.plain path)) : owningFiles es = pure [.plain path] := by
  have hnone : es.filter (fun e => e.definitions.isEmpty) = [] := by
    apply List.filter_eq_nil_iff.2
    intro e he hempty
    have hfile := h e he
    rw [firstFile?, List.isEmpty_iff.1 hempty] at hfile
    cases hfile
  rw [owningFiles, hnone, firstFiles_of_forall hne h]
  rfl

/-- All structs are planned, in one group. -/
theorem returns_plan (hplain : ∀ c ∈ text, c ∉ ['/', '\r']) {planned : List Planned}
    (hne : planned ≠ []) (h : ∀ p ∈ planned, Sited path text p)
    (hentries : g.registry.entries = planned.map (·.1)) (hcount : 1 ≤ g.topCount) :
    Returns (Searching g path text ps) g.plan [(.plain path, planned)]
      (Searched g path text ps) := by
  have hmem : ∀ e ∈ g.registry.entries, ∃ l, Sited path text (e, l) := by
    intro e he
    rw [hentries] at he
    obtain ⟨p, hp, rfl⟩ := List.mem_map.1 he
    exact ⟨p.2, h p hp⟩
  have hfirst : ∀ e ∈ g.registry.entries, firstFile? e = some (.plain path) := by
    intro e he
    obtain ⟨l, hsited⟩ := hmem e he
    exact firstFile?_of_sited hsited
  have htexts : ∀ e ∈ g.registry.entries, e.name.isText = true := by
    intro e he
    obtain ⟨l, hsited⟩ := hmem e he
    obtain ⟨name, hname⟩ := hsited.isText
    rw [show e.name = .text name from hname]
    rfl
  have hselected : g.selected = pure (g.registry.top g.topCount) := by
    rw [selected, Registry.rank_of_isText htexts]
    rfl
  -- One selected struct is enough to bring in the file, and with it all structs.
  have hfiles : owningFiles (g.registry.top g.topCount) = pure [.plain path] := by
    apply owningFiles_of_forall
    · apply Registry.top_ne_nil _ hcount
      rw [hentries]
      exact fun e => hne (List.map_eq_nil_iff.1 e)
    · intro e he
      exact hfirst e (Registry.mem_of_mem_top he)
  have hdefined : [WideText.plain path].flatMap (definedIn g.registry) = planned.map (·.1) := by
    rw [List.flatMap_cons, List.flatMap_nil, List.append_nil, definedIn,
      List.filter_eq_self.2 fun e he => by simp [hfirst e he], hentries]
  rw [plan, hselected, pure_bind, hfiles, pure_bind, hdefined]
  refine Returns.bind (Returns.of_imp (returns_locateAll hplain h) fun s hs => ⟨hs, ?_⟩) ?_
  · exact fun e => absurd e hne
  · rw [groups_of_forall hne fun p hp => (h p hp).path_eq]
    exact returns_pure _ _

/-! ## Building the classes -/

/-- The fields of the body at a place of a text. -/
def fieldsAt (text : List Char) (l : Location) : List Field :=
  match Body.find (lines text) l.line with
  | .ok body => Field.ofBody body.text
  | .error _ => []

/-- The class of a struct whose body stands in a text. -/
def classAt (g : Generator) (text : List Char) (p : Planned) : JavaClass :=
  .ofFields p.1.name (fieldsAt text p.2) g.registry.textNames

/-- A body with fields becomes a class. -/
theorem returns_buildClass_of_body {P Q : Session → Prop} {l : Location} {body : Body.Found}
    (h : Returns P (g.reader.bodyAt l) body Q) (hQ : Lasting Q) (hne : Field.ofBody body.text ≠ [])
    (e : Entry) :
    Returns P (g.buildClass e l)
      (some (.ofFields e.name (Field.ofBody body.text) g.registry.textNames)) Q := by
  have hfields : Returns Q (readFields body.text) (Field.ofBody body.text) Q := by
    refine Returns.bind (returns_forM fun s _ => hQ.log _ _ _) ?_
    exact returns_pure _ _
  refine h.attempt.bind ?_
  refine hfields.bind ?_
  rw [if_neg (by simpa using hne)]
  exact returns_pure _ _

theorem returns_buildClass {p : Planned} (h : Sited path text p) :
    Returns (Writing g path text ps) (g.buildClass p.1 p.2) (some (g.classAt text p))
      (Writing g path text ps) := by
  obtain ⟨body, hbody, hne⟩ := h.body
  have hfields : fieldsAt text p.2 = Field.ofBody body.text := by
    rw [fieldsAt, hbody]
  have hfound : Returns (Writing g path text ps) (g.reader.bodyAt p.2) body
      (Writing g path text ps) := by
    intro s hs
    obtain ⟨known, hknown, hlines⟩ := hs.knows
    refine ⟨s, ?_, hs⟩
    rw [SourceReader.bodyAt, h.path_eq, bind_ok (SourceReader.linesOf_of_known hknown), hlines,
      hbody]
    rfl
  rw [classAt, hfields]
  exact returns_buildClass_of_body hfound Writing.lasting hne p.1

theorem returns_buildAll {planned : List Planned} (h : ∀ p ∈ planned, Sited path text p) :
    Returns (Writing g path text ps) (g.buildAll planned) (planned.map (g.classAt text), [])
      (Writing g path text ps) := by
  induction planned with
  | nil => exact returns_pure _ _
  | cons p planned ih =>
    -- The classes of the others are built whatever became of the first one.
    refine (returns_buildClass (h p List.mem_cons_self)).bind ?_
    refine (ih fun q hq => h q (List.mem_cons_of_mem _ hq)).bind ?_
    exact returns_pure _ _

/-! ## Writing the files -/

theorem returns_writeFile {name : String} (hname : name ∈ javaNames path) {mentioned : List Value}
    (hshown : ∀ v ∈ mentioned, v.isShowable = true)
    (hencoded : ∀ v ∈ mentioned, v.isEncodable = true) (content : String) :
    Returns (Writing g path text ps) (g.writeFile name mentioned content)
      (some (g.output.joinText name)) (Writing g path text ps) := by
  have hwritten : Returns (Writing g path text ps)
      (writeMentioning (g.output.joinText name) mentioned content) () (Writing g path text ps) := by
    intro s hs
    obtain ⟨key, hkey⟩ := hs.receives name hname
    obtain ⟨apart, hsettled⟩ := hs.settled
    have hkeeps := FileTree.keeps_put_file (FileTree.ne_directory_of_target hkey)
      (Charset.Utf8.bytesOf content)
    refine ⟨{ s with files := s.files.put key (.file (Charset.Utf8.bytesOf content)) }, ?_,
      hs.knows, ⟨apart, hsettled.of_keeps hkeeps⟩, hs.receives.put hkey _, hs.problems⟩
    rw [writeMentioning, if_pos (List.all_eq_true.2 hencoded)]
    simp only [writeText, changeFiles, FileTree.write_of_target hkey]
  rw [writeFile, if_neg (by simpa using hshown)]
  refine Returns.onRefusal ?_ _
  refine hwritten.bind ?_
  refine (Writing.lasting.log _ _ _).bind ?_
  exact returns_pure _ _

/-- What the Java files mention of the packages can be written. -/
def CanMention (packages : Packages) : Prop :=
  ∀ v ∈ [packages.own, packages.support], v.isShowable = true ∧ v.isEncodable = true

theorem mem_mentioned {packages : Packages} {classes : List JavaClass} {v : Value}
    (h : v ∈ packages.mentioned classes) : v ∈ [packages.own, packages.support] := by
  rw [Packages.mentioned, List.mem_append] at h
  rcases h with h | h
  · split at h
    · exact List.mem_cons.2 (Or.inl (List.mem_singleton.1 h))
    · cases h
  · split at h
    · exact List.mem_cons_of_mem _ h
    · cases h

/-- The progress after the Java file of one source file. -/
def oneFile (g : Generator) (path : String) (classes : List JavaClass) : Progress where
  result := ⟨[g.output.joinText (javaName path)], [(javaName path, classes.map (·.name))], []⟩
  used := [javaName path]
  needsSupport := classes.any (·.needsUnsigned)

/-- The first group becomes a Java file that is named for its source file. -/
theorem returns_generateGroup (hpackages : CanMention g.packages) {planned : List Planned}
    (hne : planned ≠ []) (h : ∀ p ∈ planned, Sited path text p) :
    Returns (Writing g path text ps) (g.generateGroup ⟨⟨[], [], []⟩, [], false⟩ (path, planned))
      (g.oneFile path (planned.map (g.classAt text))) (Writing g path text ps) := by
  have hmentioned : ∀ v ∈ g.packages.mentioned (planned.map (g.classAt text))
      ++ (planned.map (g.classAt text)).map (·.name.toValue),
      v.isShowable = true ∧ v.isEncodable = true := by
    intro v hv
    rcases List.mem_append.1 hv with hv | hv
    · exact hpackages v (mem_mentioned hv)
    · rw [List.map_map] at hv
      obtain ⟨p, hp, rfl⟩ := List.mem_map.1 hv
      obtain ⟨name, hname⟩ := (h p hp).isText
      have hvalue : ((fun c : JavaClass => c.name.toValue) ∘ g.classAt text) p = .str name :=
        congrArg Name.toValue hname
      rw [hvalue]
      exact ⟨by simp [Value.isShowable], rfl⟩
  have hclasses : planned.map (g.classAt text) ≠ [] := fun e => hne (List.map_eq_nil_iff.1 e)
  refine (returns_buildAll h).bind ?_
  generalize planned.map (g.classAt text) = classes at hmentioned hclasses ⊢
  simp only
  rw [if_neg (by simpa using hclasses)]
  refine (returns_writeFile List.mem_cons_self (fun v hv => (hmentioned v hv).1)
    (fun v hv => (hmentioned v hv).2) _).bind ?_
  exact returns_pure _ _

/-- The outcome of a progress, with the support class if it is needed. -/
def withSupport (g : Generator) (p : Progress) : Generated :=
  { p.result with
    written := p.result.written
      ++ if p.needsSupport then [g.output.joinText supportName] else [] }

/-- The support class adds to the written files only. -/
theorem returns_generateSupport (hpackages : CanMention g.packages) (p : Progress) :
    Returns (Writing g path text ps) (generateSupport g.writeSupport p) (g.withSupport p)
      (Writing g path text ps) := by
  rw [generateSupport, withSupport]
  cases p.needsSupport with
  | false =>
    rw [if_neg (by decide), if_neg (by decide), List.append_nil]
    exact returns_pure _ _
  | true =>
    have hmentioned : ∀ v ∈ [g.packages.support], v.isShowable = true ∧ v.isEncodable = true :=
      fun v hv => hpackages v (List.mem_cons_of_mem _ hv)
    rw [if_pos rfl, if_pos rfl]
    refine (returns_writeFile (List.mem_cons_of_mem _ List.mem_cons_self)
      (fun v hv => (hmentioned v hv).1) (fun v hv => (hmentioned v hv).2) _).bind ?_
    exact returns_pure _ _

/-! ## The whole generation -/

/-- If all structs are defined in one file, each by a body with fields, the generation writes one
Java file with all of them, in their order, and the support class if it is needed. -/
theorem returns_withSupport (hplain : ∀ c ∈ text, c ∉ ['/', '\r']) {planned : List Planned}
    (hne : planned ≠ []) (h : ∀ p ∈ planned, Sited path text p)
    (hentries : g.registry.entries = planned.map (·.1)) (hcount : 1 ≤ g.topCount)
    (hshown : (Value.int g.topCount).isShowable = true) (hpackages : CanMention g.packages) :
    Returns (Searching g path text ps) g.generate
      (g.withSupport (g.oneFile path (planned.map (g.classAt text)))) (Writing g path text ps) := by
  rw [generate, generateWith, hshown, if_neg (by decide)]
  refine Returns.stage ?_ Searching.lasting Writing.lasting _ _ _
  refine (returns_plan hplain hne h hentries hcount).bind ?_
  refine returns_makeDirectories.bind ?_
  refine ((returns_generateGroup hpackages hne h).bind (returns_pure _ _)).bind ?_
  refine (returns_generateSupport hpackages _).bind ?_
  refine (Writing.lasting.log _ _ _).bind ?_
  exact returns_pure _ _

variable (ps) in
/-- The one Java file has the names of the registry, and no struct is left out. -/
theorem returns_generate (hplain : ∀ c ∈ text, c ∉ ['/', '\r']) {planned : List Planned}
    (hne : planned ≠ []) (h : ∀ p ∈ planned, Sited path text p)
    (hentries : g.registry.entries = planned.map (·.1)) (hcount : 1 ≤ g.topCount)
    (hshown : (Value.int g.topCount).isShowable = true) (hpackages : CanMention g.packages) :
    ∃ result, Returns (Searching g path text ps) g.generate result (Writing g path text ps)
      ∧ result.classes = [(javaName path, g.registry.names)] ∧ result.skipped = [] := by
  refine ⟨_, returns_withSupport hplain hne h hentries hcount hshown hpackages, ?_, rfl⟩
  rw [withSupport, oneFile, Registry.names, hentries]
  simp only [List.map_map]
  rfl

end Generator

end StructAtlas
