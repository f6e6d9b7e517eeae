import ClassAudit.Bytecode.MemberName
import ClassAudit.Text.Quoted

/-!
# Findings

A finding is one diagnostic: which linter says what about which class, and where. Findings are
reported in a fixed order.

## Main definitions

* `Category`, `Severity` - how linters and findings are ranked.
* `Finding` - one diagnostic; `Finding.text` - its one-line form.
* `Finding.sort` - the order of reports.
* `Origin` - the linter and the class that findings come from.
-/

namespace ClassAudit

/-- The group of a linter, by number. -/
structure Category where
  number : Int
deriving DecidableEq, Repr, Inhabited

namespace Category

/-- Checks of a class's text and structure. -/
def style : Category := ⟨0⟩
/-- Violations of design principles. -/
def principle : Category := ⟨1⟩
/-- Design patterns and their misuse. -/
def pattern : Category := ⟨2⟩

/-- The name of a category. -/
def name (c : Category) : String :=
  if c = style then "style-check"
  else if c = principle then "principle"
  else if c = pattern then "pattern"
  else "Category(" ++ toString c.number ++ ")"

end Category

/-- The rank of a finding, by number. -/
structure Severity where
  number : Int
deriving DecidableEq, Repr, Inhabited

namespace Severity

/-- Worth knowing. -/
def info : Severity := ⟨0⟩
/-- Probably a mistake. -/
def warning : Severity := ⟨1⟩
/-- A mistake. -/
def error : Severity := ⟨2⟩

/-- The name of a severity. -/
def name (s : Severity) : String :=
  if s = info then "info"
  else if s = warning then "warning"
  else if s = error then "error"
  else "Severity(" ++ toString s.number ++ ")"

/-- The severity with a given name, whatever its case. -/
def ofName? (name : String) : Option Severity :=
  let lower := Text.lower name
  if lower == "info" then some info
  else if lower == "warning" || lower == "warn" then some warning
  else if lower == "error" then some error
  else none

/-- What is said about a name of no severity. -/
def unknownName (name : String) : String := "unknown severity " ++ Text.quote name

end Severity

/-- One diagnostic. An empty member and line 0 stand for unknown ones. -/
structure Finding where
  linter : String
  category : Category
  className : String
  member : String := ""
  line : Int := 0
  severity : Severity
  message : String
  suppressed : Bool := false
  suppressReason : String := ""
deriving DecidableEq, Repr, Inhabited

namespace Finding

/-- The one-line form of a finding. -/
def text (f : Finding) : String :=
  dottedName f.className ++ (if f.member == "" then "" else "#" ++ f.member) ++
    (if f.line > 0 then ":" ++ toString f.line else "") ++
    " [" ++ f.linter ++ "] " ++ f.message

/-! ### Order -/

/-- The order of reports: by class, linter, line, member and message. -/
def compare (a b : Finding) : Ordering :=
  (Ord.compare a.className b.className).then <|
  (Ord.compare a.linter b.linter).then <|
  (Ord.compare a.line b.line).then <|
  (Ord.compare a.member b.member).then <|
  Ord.compare a.message b.message

/-- Findings in the order of reports; equal ones keep their order. -/
def sort (fs : List Finding) : List Finding := fs.mergeSort fun a b => (compare a b).isLE

/-- The findings that are not suppressed. -/
def active (fs : List Finding) : List Finding := fs.filter (!·.suppressed)

/-- Is there a finding that counts against the code: one that is not suppressed and is at least a
warning? -/
def hasViolations (fs : List Finding) : Bool :=
  (active fs).any fun f => Severity.warning.number ≤ f.severity.number

end Finding

/-- The linter and the class that findings come from. -/
structure Origin where
  linter : String
  category : Category
  className : String
deriving DecidableEq, Repr, Inhabited

/-- A finding of this origin. -/
def Origin.finding (o : Origin) (severity : Severity) (member : String) (line : Int)
    (message : String) : Finding :=
  { linter := o.linter, category := o.category, className := o.className, member, line,
    severity, message }

end ClassAudit
