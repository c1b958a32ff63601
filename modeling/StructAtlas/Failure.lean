import StructAtlas.Body
import StructAtlas.Charset.Decode
import StructAtlas.Declaration.Rule
import StructAtlas.FileTree
import StructAtlas.Json.Reader
import StructAtlas.Markup.Token
import StructAtlas.Path.Template
import StructAtlas.Registry.Import
import StructAtlas.Registry.Ranking

set_option autoImplicit false

/-!
# Failures that stop an operation

A problem with one file or one struct is noted and the run goes on; see `StructAtlas.Problem`. The
failures collected here end the operation that meets them. Each constructor of `Failure` is a cause.
`Failure.message` words it and `Failure.kindName` gives the name of its kind, which the last line of
an unsuccessful run shows.
-/

namespace StructAtlas

/-- What is wrong with the settings of a run. -/
inductive ConfigFault where
  | missing (path : String)
  | malformed (path : String)
  | notMapping
  | noSourceRoot
  | topCount (value : Value)
  | patterns (field : String) (value : Value)
  | lineChoice (value : Value)
  | charset (field : String) (value : Value)
  | noReport

/-- The wording of a fault of markup. -/
def Markup.Fault.message : Markup.Fault → String
  | .malformed => "<yaml>"
  | .codePoint => "chr() arg not in range(0x110000)"
  | .tooLong digits => (Decimal.NumberFault.tooLong digits).message
  | .whole base text => Decimal.literalMessage base (Text.quotedCodes text)
  | .real text => "could not convert string to float: " ++ String.ofList (Text.quotedCodes text)
  | .emptyNumber => "a number needs at least one character"
  | .overflow => "a number is too large"
  | .truthWord => "a word is no truth value"
  | .dateForm => "a text has not the form of a date"
  | .dateKind => "a date has to be a scalar"
  | .calendar fault => fault.message
  | .tooDeep => "lists and mappings lie too deep in each other"

/-- The name of the kind of a fault of markup. -/
def Markup.Fault.kindName : Markup.Fault → String
  | .emptyNumber => "IndexError"
  | .overflow => "OverflowError"
  | .truthWord => "KeyError"
  | .dateForm => "AttributeError"
  | .dateKind => "TypeError"
  | .tooDeep => "RecursionError"
  | _ => "ValueError"

/-- The message of a fault of the settings. -/
def ConfigFault.message : ConfigFault → String
  | .missing path => "설정 파일을 찾을 수 없습니다: " ++ path
  | .malformed path => "YAML 파싱 오류: " ++ path ++ ": " ++ Markup.Fault.malformed.message
  | .notMapping => "잘못된 설정 형식: 딕셔너리가 필요합니다"
  | .noSourceRoot => "source_root가 지정되지 않았습니다"
  | .topCount value => "top_n은 1 이상의 정수여야 합니다: " ++ value.display
  | .patterns field value => field ++ "은 문자열 리스트여야 합니다: " ++ value.display
  | .lineChoice value => "preserve_line_numbers는 true/false 여야 합니다: " ++ value.display
  | .charset field value => "알 수 없는 인코딩 " ++ field ++ ": " ++ value.display
  | .noReport => "report_json이 지정되지 않았습니다"

/-- Why an existing report is no registry. -/
inductive ReportFault where
  | file (fault : FileFault)
  | bytes (fault : Charset.DecodeFault)
  | json (fault : Json.Fault)
  | content (fault : ImportFault)
  | unshowable
deriving Repr, DecidableEq

/-- The wording for a whole number that has too many digits to be shown. -/
def unshowableMessage : String :=
  "Exceeds the limit (4300 digits) for integer string conversion; "
    ++ "use sys.set_int_max_str_digits() to increase the limit"

/-- The wording of a fault of a report. -/
def ReportFault.reason : ReportFault → String
  | .file fault => fault.message
  | .bytes fault => fault.message
  | .json .malformed => "<json>"
  | .json .tooDeep => Markup.Fault.tooDeep.message
  | .json (.number fault) => fault.message
  | .content fault => fault.message
  | .unshowable => unshowableMessage

/-- Why an operation stops. -/
inductive Failure where
  | config (fault : ConfigFault)
  | sourceRoot (root : Path)
  | sourceListing (root : Path) (fault : FileFault)
  | sourceRead (fault : FileFault)
  | sourceDecode (primary fallback : String) (fault : Charset.DecodeFault)
  | reportMissing (path : Path)
  | report (path : Path) (fault : ReportFault)
  | body (location : Location) (fault : Body.Fault)
  | file (fault : FileFault)
  | charset (fault : Charset.Fault)
  | notBelow (path base : Path)
  | markup (fault : Markup.Fault)
  | content (fault : ImportFault)
  | unknownSlot (fault : UnknownSlot)
  | unknownLevel (name : String)
  | goneOutlet (id : Nat)
  | stopped (reason : String)
  | notText (value : Value)
  | notPath (value : Value)
  | tooDeep
  | unshowable
  | unencodable
  | clash (clash : Registry.Clash)
  | classNotText (name : Name)
  | byteLevel
  | template (fault : Template.Fault)

namespace Failure

/-- The message of a failure. -/
def message : Failure → String
  | .config fault => fault.message
  | .sourceRoot root => "소스 디렉토리를 읽을 수 없습니다: " ++ root.toText
  | .sourceListing root fault =>
    "소스 디렉토리 탐색 실패: " ++ root.toText ++ ": " ++ fault.message
  | .sourceRead fault => fault.className ++ " - " ++ fault.message
  | .sourceDecode primary fallback fault =>
    "디코딩 실패 (" ++ primary ++ ", " ++ fallback ++ "): " ++ fault.message
  | .reportMissing path => "보고서 파일을 찾을 수 없습니다: " ++ path.toText
  | .report path fault => "보고서를 읽을 수 없습니다: " ++ path.toText ++ ": " ++ fault.reason
  | .body location fault => location.shown ++ ": " ++ fault.reason
  | .file fault => fault.message
  | .charset fault => fault.message
  | .notBelow path base => path.notBelowMessage base
  | .markup fault => fault.message
  | .content fault => fault.message
  | .unknownSlot _ => "no such group"
  | .unknownLevel name => "Level '" ++ name ++ "' does not exist"
  | .goneOutlet id => "There is no existing handler with id " ++ toString id
  | .stopped reason => reason
  | .notText value => "a text is needed, not " ++ value.display
  | .notPath value => "the name of a file is needed, not " ++ value.display
  | .tooDeep => Markup.Fault.tooDeep.message
  | .unshowable => unshowableMessage
  | .unencodable => "a text holds code points that are no characters"
  | .clash c =>
    "'<' not supported between instances of '" ++ c.first.kindName ++ "' and '"
      ++ c.second.kindName ++ "'"
  | .classNotText name => "a text is needed, not " ++ name.toValue.display
  | .byteLevel => "a level is no text"
  | .template fault => fault.message

/-- The name of the kind of a fault of a report's content. -/
def contentKind : ImportFault → String
  | .compoundName => "TypeError"
  | .placesNotList => "TypeError"
  | .placeNotText => "AttributeError"
  | _ => "ValueError"

/-- The name of the kind of a fault of a character set. -/
def charsetKind : Charset.Fault → String
  | .bytes _ => "UnicodeDecodeError"
  | .unknown _ => "LookupError"
  | .notText _ => "LookupError"
  | .failed _ kind _ => kind
  | .nullCharacter => "ValueError"

/-- The name of the kind of a failure. -/
def kindName : Failure → String
  | .config _ => "ConfigError"
  | .sourceRoot _ => "SourceRootError"
  | .sourceListing .. => "SourceRootError"
  | .sourceRead _ => "SourceReadError"
  | .sourceDecode .. => "SourceDecodeError"
  | .reportMissing _ => "ReportError"
  | .report .. => "ReportError"
  | .body _ (.unmatched ..) => "UnmatchedBracesError"
  | .body .. => "BodyNotFoundError"
  | .file fault => fault.className
  | .charset fault => charsetKind fault
  | .notBelow .. => "ValueError"
  | .markup fault => fault.kindName
  | .content fault => contentKind fault
  | .unknownSlot _ => "IndexError"
  | .unknownLevel _ => "ValueError"
  | .goneOutlet _ => "ValueError"
  | .stopped _ => "ValueError"
  | .notText _ => "AttributeError"
  | .notPath _ => "TypeError"
  | .tooDeep => "RecursionError"
  | .unshowable => "ValueError"
  | .unencodable => "UnicodeEncodeError"
  | .clash _ => "TypeError"
  | .classNotText _ => "TypeError"
  | .byteLevel => "TypeError"
  | .template (.unknownField _) => "KeyError"
  | .template (.unknownPart _) => "AttributeError"
  | .template .noItems => "TypeError"
  | .template _ => "ValueError"

/-- Whether a failure concerns one source file only, so that a run can go on with the next one. -/
def isLocal : Failure → Bool
  | .sourceRead _ => true
  | .sourceDecode .. => true
  | _ => false

end Failure

end StructAtlas
