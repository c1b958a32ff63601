import StructAtlas.Generation
import StructAtlas.Proofs.BodySearch
import StructAtlas.Proofs.SessionTrace

set_option autoImplicit false

/-!
# What reading sources changes

Reading a source file writes log records and nothing else. Looking for bodies keeps the lines of the
files too, and so does a whole plan. None of this notes a problem or writes a file, also where it
fails (`SourceReader.makes_bodyAt`, `Generator.makes_plan`), and for `Session.Reaches` these
operations are steps without a trace (`Act.Makes.reaches`).
-/

namespace StructAtlas

open Act

namespace Source

variable {allowed : Change → Prop}

theorem makes_readBytes (path : Path) : Makes allowed (readBytes path) :=
  (makes_askFiles _).onRefusal fun _ => makes_throw _

/-- A second attempt at decoding is logged; nothing else is done to the session. -/
theorem makes_decodeFile (hlog : ∀ r, allowed (.logged r)) (primary fallback : Charset.Codec)
    (path : Path) : Makes allowed (decodeFile primary fallback path) := by
  refine (makes_readBytes path).bind fun bytes => ?_
  have hresult : Makes allowed (ofExcept id (decode primary fallback bytes).result) :=
    makes_ofExcept _ _
  cases hretried : (decode primary fallback bytes).retried with
  | false =>
    simp only [hretried]
    exact (makes_pure ()).bind fun _ => hresult
  | true =>
    simp only [hretried]
    exact (makes_log hlog _ _ _).bind fun _ => hresult

end Source

namespace SourceReader

variable {allowed : Change → Prop}

theorem makes_read (hlog : ∀ r, allowed (.logged r)) (reader : SourceReader) (path : Path) :
    Makes allowed (reader.read path) := by
  refine (Source.makes_decodeFile hlog _ _ _).bind fun text => ?_
  split
  · exact makes_pure _
  · exact makes_throw _

theorem makes_readRelative (hlog : ∀ r, allowed (.logged r)) (reader : SourceReader)
    (path : WideText) : Makes allowed (reader.readRelative path) := by
  cases path with
  | plain relative => exact makes_read hlog reader _
  | broken codes h =>
    rw [readRelative, readBroken]
    split
    · exact makes_throw _
    · split
      · exact makes_read hlog reader _
      · split
        · exact makes_throw _
        · exact makes_get.bind fun _ => makes_throw _

theorem isQuiet_logged (r : Record) : (Change.logged r).IsQuiet := trivial

theorem makes_linesOf (reader : SourceReader) (path : WideText) :
    Makes Change.IsQuiet (reader.linesOf path) := by
  refine makes_get.bind fun s => ?_
  split
  · exact makes_pure _
  · refine (makes_readRelative isQuiet_logged reader _).bind fun u => ?_
    have hremember (ls : List (List Char)) : Makes Change.IsQuiet
        (modify fun s : Session => { s with lines := s.lines ++ [(path, ls)] }) := fun s =>
      ⟨_, (Session.Step.remembered s path ls).trace, by simp [Change.IsQuiet]⟩
    exact (hremember _).bind fun _ => makes_pure _

theorem makes_bodyAt (reader : SourceReader) (l : Location) :
    Makes Change.IsQuiet (reader.bodyAt l) :=
  (makes_linesOf reader l.path).bind fun _ => makes_ofExcept _ _

theorem makes_hasBody (reader : SourceReader) (l : Location) :
    Makes Change.IsQuiet (reader.hasBody l) := by
  refine (makes_linesOf reader l.path).attempt.bind fun answer => ?_
  split
  · exact makes_pure _
  · split
    · exact (makes_log isQuiet_logged _ _ _).bind fun _ => makes_pure _
    · exact makes_throw _

theorem makes_firstWithBody? (reader : SourceReader) (places : List Location) :
    Makes Change.IsQuiet (reader.firstWithBody? places) := by
  induction places with
  | nil => exact makes_pure none
  | cons l places ih =>
    refine (makes_hasBody reader l).bind fun found => ?_
    cases found with
    | true => exact makes_pure _
    | false => exact ih

theorem makes_owningLocation? (reader : SourceReader) (places : List Location) :
    Makes Change.IsQuiet (reader.owningLocation? places) := by
  cases places with
  | nil => exact makes_pure none
  | cons l places =>
    refine (makes_firstWithBody? reader _).bind fun found => ?_
    cases found with
    | some place => exact makes_pure _
    | none => exact (makes_log isQuiet_logged _ _ _).bind fun _ => makes_pure _

/-- The lines of a file that is known decide what body is found there, in every session. -/
theorem outcome_bodyAt_of_known {reader : SourceReader} {s : Session} {l : Location}
    {known : WideText × List (List Char)} (h : s.lines.find? (·.1 == l.path) = some known) :
    (reader.bodyAt l).outcome s = (Body.find known.2 l.line).mapError (.body l) := by
  have hlines : reader.linesOf l.path s = .ok known.2 s := linesOf_of_known h
  rw [outcome_bodyAt, outcome_of_ok hlines]
  rfl

end SourceReader

namespace Generation

theorem makes_readFields (body : List Char) : Makes Change.IsQuiet (readFields body) :=
  (makes_forM fun _ => makes_log SourceReader.isQuiet_logged _ _ _).bind fun _ => makes_pure _

end Generation

namespace Generator

open Generation SourceReader

theorem makes_owningFiles (es : List Entry) : Makes Change.IsQuiet (owningFiles es) :=
  (makes_forM fun _ => makes_log isQuiet_logged _ _ _).bind fun _ => makes_pure _

theorem makes_locateAll (g : Generator) (es : List Entry) :
    Makes Change.IsQuiet (g.locateAll es) := by
  induction es with
  | nil => exact makes_pure []
  | cons e es ih =>
    refine (makes_log isQuiet_logged _ _ _).bind fun _ => ?_
    refine (makes_owningLocation? g.reader _).bind fun place => ?_
    cases place with
    | some l => exact ih.bind fun _ => makes_pure _
    | none => exact ih

theorem makes_plan (g : Generator) : Makes Change.IsQuiet g.plan := by
  refine (makes_ofExcept _ _).bind fun es => ?_
  refine (makes_owningFiles es).bind fun files => ?_
  exact (makes_locateAll g _).bind fun _ => makes_pure _

end Generator

end StructAtlas
