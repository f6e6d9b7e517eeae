import ClassAudit.Lint.Run
import ClassAudit.Output.Duration
import ClassAudit.Output.Json
import ClassAudit.Text.Blank
import ClassAudit.Text.Columns

/-!
# What a run prints

## Main definitions

* `Summary` - everything that a run tells: findings, failed jobs, jobs without findings, files
  that were skipped, and numbers.
* `Summary.text` - one finding a line; `Summary.json` - one JSON object.
* `linterList` - the list of linters.
-/

namespace ClassAudit

/-- The version of the program. -/
def programVersion : String := "dev"

/-- A job that failed, with the cause in words. -/
structure FailedJob where
  linter : String
  className : String
  cause : String
deriving DecidableEq, Repr

/-- A file that was skipped, with the cause in words. -/
structure SkippedFile where
  path : String
  cause : String
deriving DecidableEq, Repr

/-- How long a run took, and when it ended. -/
structure Clock where
  /-- In nanoseconds. -/
  elapsed : Int := 0
  /-- The same in words. -/
  elapsedText : String := durationText elapsed
  /-- The time of the report. -/
  timestamp : String := ""
deriving Repr, Inhabited

/-- Everything that a run tells. -/
structure Summary where
  findings : List Finding := []
  failedJobs : List FailedJob := []
  clean : List JobRef := []
  skipped : List SkippedFile := []
  /-- The number of classes. -/
  classes : Int := 0
  /-- The number of jobs. -/
  jobs : Int := 0
  clock : Clock := {}
deriving Repr, Inhabited

namespace Summary

/-- The number of suppressed findings. -/
def suppressedCount (s : Summary) : Nat := s.findings.countP (·.suppressed)

/-! ### Text -/

/-- A text with blanks behind it up to a width. -/
def padTo (width : Nat) (s : String) : String :=
  s ++ String.ofList (List.replicate (width - s.length) ' ')

/-- The column of severities. -/
def tagColumn (s : String) : String := padTo 7 s

/-- A text in which a line feed alone ends a line. -/
def plainBreaks : List Char → List Char
  | '\r' :: '\n' :: s => '\n' :: plainBreaks s
  | c :: s => c :: plainBreaks s
  | [] => []

/-- A text as one block: tabs are spaces, and all lines are as wide as the widest. -/
def asBlock (s : String) : String :=
  let chars := (plainBreaks s.toList).flatMap fun c =>
    if c == '\t' then [' ', ' ', ' ', ' '] else [c]
  let lines := Text.splitWhere (· == '\n') chars
  let width := lines.foldl (fun w line => max w (Text.columns line)) 0
  Text.joinWith "\n" (lines.map fun line =>
    String.ofList (line ++ List.replicate (width - Text.columns line) ' '))

/-- The line of a finding. -/
def findingLine (f : Finding) : String :=
  let line := tagColumn f.severity.name ++ " " ++ f.text
  if f.suppressed then asBlock (line ++ " (suppressed: " ++ f.suppressReason ++ ")") else line

/-- The last line of a full report. -/
def statistics (s : Summary) : String :=
  toString s.classes ++ " classes, " ++ toString s.jobs ++ " jobs, " ++
    toString s.findings.length ++ " findings (" ++ toString s.suppressedCount ++
    " suppressed) in " ++ s.clock.elapsedText

/-- The lines of a report. Only a verbose one tells suppressed findings, jobs without findings,
skipped files and numbers. -/
def lines (s : Summary) (verbose : Bool) : List String :=
  (s.findings.filter fun f => verbose || !f.suppressed).map findingLine ++
    s.failedJobs.map (fun e =>
      tagColumn "error" ++ " " ++ failedJobText e.linter e.className e.cause) ++
    if verbose then
      s.clean.map (fun c =>
        tagColumn "ok" ++ " " ++ dottedName c.className ++ " [" ++ c.linter ++
          "] no violations") ++
        s.skipped.map (fun f => asBlock ("skipped " ++ f.path ++ ": " ++ f.cause)) ++
        [s.statistics]
    else []

/-- The text of a report. -/
def text (s : Summary) (verbose : Bool) : String :=
  String.join ((s.lines verbose).map (· ++ "\n"))

/-! ### JSON -/

/-- A member that is left out when its text is empty. -/
def optionalText (name value : String) : List (String × JsonValue) :=
  if value == "" then [] else [(name, .text value)]

/-- A finding as a JSON object. -/
def findingJson (f : Finding) : JsonValue :=
  .object <|
    [("linter", .text f.linter), ("category", .text f.category.name),
      ("class", .text f.className)] ++
    optionalText "member" f.member ++
    (if f.line == 0 then [] else [("line", .int f.line)]) ++
    [("severity", .text f.severity.name), ("message", .text f.message)] ++
    (if f.suppressed then [("suppressed", .bool true)] else []) ++
    optionalText "suppress_reason" (Text.shown f.suppressReason)

/-- A report as a JSON object. -/
def toJson (s : Summary) : JsonValue :=
  .object
    [("findings", .array (s.findings.map findingJson)),
     ("errors", .array (s.failedJobs.map fun e =>
        .object (optionalText "linter" (Text.shown e.linter) ++ optionalText "class" e.className ++
          [("error", .text e.cause)]))),
     ("failures", .array (s.skipped.map fun f =>
        .object (optionalText "path" f.path ++ [("error", .text f.cause)]))),
     ("stats", .object
        [("classes", .int s.classes), ("failed", .int s.skipped.length), ("jobs", .int s.jobs),
         ("findings", .int s.findings.length), ("suppressed", .int s.suppressedCount),
         ("analysis_duration", .int s.clock.elapsed)]),
     ("version", .text programVersion),
     ("timestamp", .text s.clock.timestamp)]

/-- The JSON text of a report. -/
def json (s : Summary) : String := s.toJson.render 0 ++ "\n"

end Summary

/-! ### Linters -/

/-- The list of linters: name, whether it looks at classes or packages, and description. -/
def linterList (reg : Registry) : String :=
  let width := reg.names.foldl (fun w name => max w name.utf8ByteSize) 0
  "Linters\n" ++ String.join (reg.names.map fun name =>
    "  " ++ Summary.padTo width name ++ " " ++
      Summary.tagColumn (if reg.isPackageLinter name then "package" else "class") ++ " " ++
      Text.trim (reg.description name) ++ "\n")

end ClassAudit
