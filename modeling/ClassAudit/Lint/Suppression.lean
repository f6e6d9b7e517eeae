import ClassAudit.Finding
import ClassAudit.Text.Blank

/-!
# Suppression

Findings can be silenced by rules. A rule names a linter, a glob for the class and a glob for the
member; the first rule that matches a finding marks it as suppressed, with the rule's reason.

## Main definitions

* `Glob.accepts` - whether a text fits a glob.
* `Suppression` - a rule; `Suppression.covers` - whether it covers a finding.
* `Suppression.verdict?`, `Suppression.apply` - the first rule that covers a finding, and the
  marks on a list of findings.
* `Suppression.ofDirective?` - the rule that a `nolint:` line spells.
-/

namespace ClassAudit

/-! ### Globs -/

namespace Glob

/-- Can a wildcard stand for this character? Wildcards do not reach over line ends. -/
def isWild (c : Char) : Bool := c != '\n'

/-- Which beginnings of a glob fit the empty text, the shortest first; `reached` tells whether what
stands before the glob fits. Only stars fit the empty text. -/
def marks (reached : Bool) : List Char → List Bool
  | [] => [reached]
  | g :: gs => reached :: marks (reached && g == '*') gs

/-- Which beginnings of a glob fit a text with one more character `c`, given which of them fit the
text without it. A star that was reached stays reached and may also stand for nothing more; a
question mark takes one character, and every other character stands for itself. -/
def advance (c : Char) (reached : Bool) : List Char → List Bool → List Bool
  | [], _ => [reached]
  | g :: gs, marks =>
    let before := marks.headD false
    if g == '*' then
      let here := reached || (before && isWild c)
      here :: advance c here gs marks.tail
    else
      reached :: advance c (before && (if g == '?' then isWild c else g == c)) gs marks.tail

/-- Does the text that is left take the glob from its marked beginnings to its end? -/
def runFrom (glob : List Char) (marks : List Bool) : List Char → Bool
  | [] => marks.getLastD false
  | c :: s => runFrom glob (advance c false glob marks) s

/-- Does the text fit the glob? All beginnings of the glob are followed at once, so that many stars
cost no more than their number. -/
def fits (glob s : List Char) : Bool := runFrom glob (marks true glob) s

/-- Does the text fit the glob, where the empty glob fits like a star? -/
def accepts (glob s : String) : Bool :=
  fits (if glob == "" then ['*'] else glob.toList) s.toList

end Glob

/-! ### Rules -/

/-- A rule that silences findings. -/
structure Suppression where
  /-- Empty or a star for every linter. -/
  linter : String := ""
  /-- A glob for the class name, dotted or internal. -/
  className : String := ""
  /-- A glob for the member. -/
  member : String := ""
  reason : String := ""
deriving DecidableEq, Repr, Inhabited

namespace Suppression

/-- Does the rule cover a finding? -/
def covers (r : Suppression) (f : Finding) : Bool :=
  (r.linter == "" || r.linter == "*" || r.linter == f.linter) &&
    Glob.accepts (internalName r.className) f.className && Glob.accepts r.member f.member

/-- The reason that a rule gives. -/
def givenReason (r : Suppression) : String := if r.reason == "" then "suppressed" else r.reason

/-- The reason of the first rule that covers a finding. -/
def verdict? (rules : List Suppression) (f : Finding) : Option String :=
  (rules.find? (·.covers f)).map givenReason

/-- Marks a finding that some rule covers. -/
def mark (rules : List Suppression) (f : Finding) : Finding :=
  match verdict? rules f with
  | some reason => { f with suppressed := true, suppressReason := reason }
  | none => f

/-- Marks the findings that some rule covers. -/
def apply (rules : List Suppression) (fs : List Finding) : List Finding := fs.map (mark rules)

/-- The number of findings that some rule covers. -/
def count (rules : List Suppression) (fs : List Finding) : Nat :=
  fs.countP fun f => (verdict? rules f).isSome

/-! ### Directives -/

/-- The text after `//` and blanks, which must reach to the end of the line. -/
def reasonAfter? : List Char → Option (List Char)
  | '/' :: '/' :: s =>
    let s := s.dropWhile Text.isAsciiBlank
    if s.contains '\n' then none else some s
  | _ => none

/-- Splits a word before a reason that begins inside it: the longest first part of at least one
character after which a reason follows. `rest` follows the word. -/
def splitReason? (word rest : List Char) : Option (List Char × List Char) :=
  ((List.range word.length).reverse.filter (0 < ·)).findSome? fun n =>
    (reasonAfter? (word.drop n ++ rest)).map (word.take n, ·)

/-- The member and the reason that follow the class of a directive, when the member does not
begin with a slash. -/
def memberPart? (s : List Char) : Option (List Char × List Char) :=
  match s.dropWhile Text.isAsciiBlank with
  | [] => none
  | '/' :: _ => none
  | body =>
    let word := body.takeWhile (!Text.isAsciiBlank ·)
    let rest := body.dropWhile (!Text.isAsciiBlank ·)
    if rest.isEmpty then some (word, [])
    else match reasonAfter? (rest.dropWhile Text.isAsciiBlank) with
      | some reason => some (word, reason)
      | none => splitReason? word rest

/-- The class, member and reason of a directive. The class is the first word if what follows it
can be read; otherwise a reason has to begin inside that word. -/
def directiveParts? (s : List Char) : Option (List Char × List Char × List Char) :=
  let word := s.takeWhile (!Text.isAsciiBlank ·)
  let rest := s.dropWhile (!Text.isAsciiBlank ·)
  if word.isEmpty then none
  else if rest.isEmpty then some (word, [], [])
  else match memberPart? rest with
    | some (member, reason) => some (word, member, reason)
    | none =>
      match reasonAfter? (rest.dropWhile Text.isAsciiBlank) with
      | some reason => some (word, [], reason)
      | none => (splitReason? word rest).map fun (first, reason) => (first, [], reason)

/-- The rule that a line spells: `nolint:`, a linter, a class glob, then optionally a member glob
and a reason after `//`. -/
def ofDirective? (line : String) : Option Suppression :=
  let s := Text.trimEnds Text.isBlank line.toList
  let start := "nolint:".toList
  if start.isPrefixOf s then
    let s := s.drop start.length
    let linter := s.takeWhile (!Text.isAsciiBlank ·)
    let rest := s.dropWhile (!Text.isAsciiBlank ·)
    if linter.isEmpty || rest.isEmpty then none
    else (directiveParts? (rest.dropWhile Text.isAsciiBlank)).map
      fun (className, member, reason) =>
        { linter := String.ofList linter, className := String.ofList className
          member := String.ofList member, reason := Text.trim (String.ofList reason) }
  else none

end Suppression

end ClassAudit
