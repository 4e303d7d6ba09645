import SecureMail.Jobs.Identifier
import SecureMail.Lib.Fallible
import SecureMail.Lib.SortKey
import SecureMail.Py.Dict

/-!
# The report catalog

Reports lie in one directory, and `catalog.json` in it names those that are published. The publisher
writes a report and then the catalog; the reader trusts neither, and checks of each entry the case
ID, the path and the size before it shows anything. The directory has no subdirectories and no
symbolic links, so the checks on links and on resolved paths pass and are left out.

The limits are a parameter that publisher and reader share, with the defaults of the source. The
catalog is kept as the value that is parsed, and its text is a function of it, since what is limited
is the length of the text. A publication is two writes. It can fail between them, and the report it
leaves behind is a file like any other, which is what the map of `Reports.LastWrite` has to account
for.
-/

namespace SecureMail
namespace Reports

open Py
open Jobs (isIdentifier)

/-- `ReportRepositoryError`. -/
structure ReportRepositoryError where
  message : String
deriving DecidableEq

abbrev Checked := Except ReportRepositoryError

def catalogFilename : String := "catalog.json"

def catalogSchemaVersion : String := "securemail.report-catalog/v1"

/-- `MAX_CATALOG_BYTES`. -/
def maxCatalogBytes : Nat := 1024 * 1024

/-- The limits of a publisher and of its reader. -/
theorem defaultBytes_pos : 0 < 8 * 1024 * 1024 := by decide

theorem defaultCount_pos : 0 < 256 := by decide

structure Limits where
  maxReportBytes : Nat := 8 * 1024 * 1024
  maxReportCount : Nat := 256
  maxReportBytes_pos : 0 < maxReportBytes := by
    first | exact SecureMail.Reports.defaultBytes_pos | decide
  maxReportCount_pos : 0 < maxReportCount := by
    first | exact SecureMail.Reports.defaultCount_pos | decide

abbrev Bytes := List UInt8

structure CatalogItem where
  caseId : String
  report : String
deriving DecidableEq

/-- What `json.loads` makes of `catalog.json`. -/
structure Catalog where
  schemaVersion : String
  reports : List CatalogItem
deriving DecidableEq

/-- The directory: its regular files by name, and the catalog apart from them. -/
structure ReportDir where
  catalog : Option Catalog := none
  files : Dict String Bytes := ∅

/-- The report root, which the first report creates. -/
abbrev ReportRoot := Option ReportDir

/-! ## The text of the catalog

`json.dumps(payload, indent=2, sort_keys=True)`, which is ASCII: as many bytes as characters. -/

def hexDigit (n : Nat) : Char := Nat.digitChar (n % 16)

def unicodeEscape (unit : Nat) : List Char :=
  ['\\', 'u', hexDigit (unit / 4096), hexDigit (unit / 256), hexDigit (unit / 16), hexDigit unit]

/-- One character inside a JSON string. The text is ASCII, and whatever is not printable in it is
written as one unit or as two. -/
def jsonChar (c : Char) : List Char :=
  if c = '"' then ['\\', '"']
  else if c = '\\' then ['\\', '\\']
  else if c = '\n' then ['\\', 'n']
  else if c = '\r' then ['\\', 'r']
  else if c = '\t' then ['\\', 't']
  else if c = '\x08' then ['\\', 'b']
  else if c = '\x0c' then ['\\', 'f']
  else if 0x20 ≤ c.toNat ∧ c.toNat ≤ 0x7e then [c]
  else if c.toNat < 0x10000 then unicodeEscape c.toNat
  else
    -- A surrogate pair.
    unicodeEscape (0xd800 + (c.toNat - 0x10000) / 1024) ++
      unicodeEscape (0xdc00 + (c.toNat - 0x10000) % 1024)

def jsonString (s : String) : List Char := '"' :: s.toList.flatMap jsonChar ++ ['"']

def CatalogItem.text (item : CatalogItem) : List Char :=
  "    \x7b\n      \"case_id\": ".toList ++ jsonString item.caseId ++
    ",\n      \"report\": ".toList ++ jsonString item.report ++ "\n    \x7d".toList

def reportsText : List CatalogItem → List Char
  | [] => "[]".toList
  | item :: rest =>
    "[\n".toList ++ item.text ++ rest.flatMap (fun item => ",\n".toList ++ item.text) ++
      "\n  ]".toList

def Catalog.text (catalog : Catalog) : List Char :=
  "\x7b\n  \"reports\": ".toList ++ reportsText catalog.reports ++
    ",\n  \"schema_version\": ".toList ++ jsonString catalog.schemaVersion ++ "\n\x7d\n".toList

/-! ## The reader -/

/-- `PurePath(raw_path).parts` of a relative path. -/
def pathParts (rawPath : String) : List String :=
  (splitOnChar '/' rawPath).filter fun part => part ≠ "" && part ≠ "."

/-- `PurePath(..).suffix`, from the last component. -/
def suffix (name : String) : String :=
  let extension := name.toList.rtakeWhile (· ≠ '.')
  if 0 < extension.length ∧ extension.length + 1 < name.length then
    String.ofList ('.' :: extension)
  else ""

/-- `_validated_report_path`: the components below the root. It is checked on the parts of the path,
before anything is opened. -/
def validatedReportPath (rawPath : String) : Checked (List String) :=
  let parts := pathParts rawPath
  if startsWith rawPath "/" ∨ ".." ∈ parts ∨ "." ∈ parts then
    .error ⟨"report catalog path must remain beneath report root"⟩
  else
    match parts.getLast? with
    | none => .error ⟨"report catalog entries must name JSON files"⟩
    | some name =>
      if lower (suffix name) ≠ ".json" then
        .error ⟨"report catalog entries must name JSON files"⟩
      else if parts = [catalogFilename] then .error ⟨"report catalog cannot reference itself"⟩
      else .ok parts

/-- The constraints of `_CatalogItem`. -/
def CatalogItem.valid (item : CatalogItem) : Bool :=
  1 ≤ item.caseId.length && item.caseId.length ≤ 160 &&
    1 ≤ item.report.length && item.report.length ≤ 512

/-- `paths` and `used_paths`. -/
structure Paths where
  paths : Dict String (List String) := ∅
  used : List (List String) := []

/-- The loop over the items of the catalog. -/
def addItem (acc : Paths) (item : CatalogItem) : Checked Paths := do
  if ¬ isIdentifier item.caseId then
    throw ⟨"report catalog contains an invalid case ID"⟩
  if item.caseId ∈ acc.paths.keys then
    throw ⟨"duplicate case ID in report catalog: " ++ item.caseId⟩
  let reportPath ← validatedReportPath item.report
  if reportPath ∈ acc.used then
    throw ⟨"report catalog maps multiple case IDs to one report"⟩
  pure ⟨acc.paths.set item.caseId reportPath, reportPath :: acc.used⟩

def exceeds (label : String) (limit : Nat) (unit : String) : ReportRepositoryError :=
  ⟨label ++ " exceeds " ++ toString limit ++ " " ++ unit⟩

variable (limits : Limits)

/-- `_load_catalog_paths`. The size is checked before the items are, and one item that fails takes
the catalog with it. -/
def loadCatalogPaths (root : ReportRoot) : Checked (Dict String (List String)) :=
  match root.bind (·.catalog) with
  | none => .ok ∅
  | some catalog => do
    if maxCatalogBytes < catalog.text.length then
      throw (exceeds "report catalog" maxCatalogBytes "bytes")
    if ¬ catalog.reports.all CatalogItem.valid then
      throw ⟨"report catalog is not valid JSON"⟩
    if catalog.schemaVersion ≠ catalogSchemaVersion then
      throw ⟨"unsupported report catalog schema version"⟩
    if limits.maxReportCount < catalog.reports.length then
      throw (exceeds "report catalog" limits.maxReportCount "entries")
    return (← catalog.reports.foldlM addItem {}).paths

/-- The regular file at a path below the root. -/
def fileAt (root : ReportRoot) : List String → Option Bytes
  | [name] => root.bind fun dir => dir.files.get? name
  | _ => none

/-- Whether the path goes through a file as if it were a directory. -/
def throughFile (root : ReportRoot) : List String → Bool
  | name :: _ :: _ =>
    root.any fun dir => (dir.files.get? name).isSome || (name = catalogFilename && dir.catalog.isSome)
  | _ => false

/-- `_safe_size`. A file that is not there is an error of the catalog, since the catalog names it.
-/
def safeSize (root : ReportRoot) (path : List String) : Checked Nat :=
  match fileAt root path with
  | none =>
    if throughFile root path then .error ⟨"cataloged report file cannot be inspected"⟩
    else .error ⟨"cataloged report file is missing"⟩
  | some bytes =>
    if limits.maxReportBytes < bytes.length then
      .error (exceeds "cataloged report" limits.maxReportBytes "bytes")
    else .ok bytes.length

/-- `_read_bounded_file` of a report. The limit is checked again when the bytes are read, as a file
may have grown. -/
def readReport (root : ReportRoot) (path : List String) : Checked Bytes :=
  match fileAt root path with
  | none => .error ⟨"report cannot be opened safely"⟩
  | some bytes =>
    if limits.maxReportBytes < bytes.length then
      .error (exceeds "report" limits.maxReportBytes "bytes")
    else .ok bytes

structure ReportCatalogEntry where
  caseId : String
  sizeBytes : Nat
deriving DecidableEq

def entryOrder : ReportCatalogEntry → ReportCatalogEntry → Ordering := compareOn (·.caseId)

/-- `list_reports`. -/
def listReports (root : ReportRoot) : Checked (List ReportCatalogEntry) := do
  let paths ← loadCatalogPaths limits root
  let entries ← paths.entries.mapM fun item => do
    return (⟨item.1, ← safeSize limits root item.2⟩ : ReportCatalogEntry)
  return entries.insertionSort (SortKey.Before entryOrder)

/-- `get_report`. -/
def getReport (root : ReportRoot) (caseId : String) : Checked (Option Bytes) := do
  let paths ← loadCatalogPaths limits root
  match paths.get? caseId with
  | none => return none
  | some path => return some (← readReport limits root path)

/-! ## The publisher -/

/-- `f"{case_id}.report.json"`. -/
def reportFilename (caseId : String) : String := caseId ++ ".report.json"

/-- `_load_items`. The publisher checks less than the reader, as it reads what it has written
itself. -/
def loadItems (dir : ReportDir) : Checked (List CatalogItem) :=
  match dir.catalog with
  | none => .ok []
  | some catalog =>
    if catalog.schemaVersion ≠ catalogSchemaVersion then
      .error ⟨"unsupported report catalog schema version"⟩
    else .ok catalog.reports

def itemOrder : CatalogItem → CatalogItem → Ordering := compareOn (·.caseId)

instance : Std.TransCmp itemOrder := inferInstanceAs (Std.TransCmp (compareOn CatalogItem.caseId))

instance : Std.TransCmp entryOrder :=
  inferInstanceAs (Std.TransCmp (compareOn ReportCatalogEntry.caseId))

/-- The items with the one of this case new or replaced. -/
def withItem (items : List CatalogItem) (caseId : String) : List CatalogItem :=
  let others := items.filter fun item => item.caseId ≠ caseId
  (others ++ [(⟨caseId, reportFilename caseId⟩ : CatalogItem)]).insertionSort
    (SortKey.Before itemOrder)

/-- `publish_report`: its result, and the root it leaves. -/
def publishReport (root : ReportRoot) (caseId : String) (canonicalBytes : Bytes) :
    Checked Unit × ReportRoot :=
  if ¬ isIdentifier caseId then (.error ⟨"invalid case ID"⟩, root)
  else if limits.maxReportBytes < canonicalBytes.length then
    (.error (exceeds "report" limits.maxReportBytes "bytes"), root)
  else
    let dir := root.getD {}
    -- From here on the report is in its place, whether or not the catalog comes to name it.
    let written := { dir with files := dir.files.set (reportFilename caseId) canonicalBytes }
    match loadItems written with
    | .error e => (.error e, some written)
    | .ok items =>
      let items := withItem items caseId
      if limits.maxReportCount < items.length then
        (.error (exceeds "report catalog" limits.maxReportCount "entries"), some written)
      else (.ok (), some { written with catalog := some ⟨catalogSchemaVersion, items⟩ })

end Reports
end SecureMail
