import ClassAudit.Finding

/-!
# Pairing expected and actual findings

The findings of a run are compared with those that were expected. Findings with the same key are
paired: each expected one takes the first that fits it entirely; those left over take the first
that is left, and the differences are told.

## Main definitions

* `ExpectedFinding` - a finding that is expected; `ExpectedFinding.fits` - whether one fits it.
* `Comparison` - what is missing, what was not expected, and what differs.
* `Comparison.ofKey` - the comparison of findings with one key; `Comparison.ofFindings` - of all.
-/

namespace ClassAudit

/-- A finding that is expected. -/
structure ExpectedFinding where
  linter : String := ""
  /-- A dotted or internal name. -/
  className : String := ""
  member : String := ""
  line : Int := 0
  /-- A part of the message; the empty text for any message. -/
  message : String := ""
  suppressed : Bool := false
deriving DecidableEq, Repr, Inhabited

/-- The key under which findings are paired. -/
def findingKey (linter className member : String) (line : Int) : String :=
  linter ++ " " ++ className ++ "#" ++ member ++ ":" ++ toString line

/-- The key of an expected finding. -/
def ExpectedFinding.key (e : ExpectedFinding) : String :=
  findingKey e.linter (internalName e.className) e.member e.line

/-- The key of a finding. -/
def Finding.key (f : Finding) : String := findingKey f.linter f.className f.member f.line

/-- Does a finding have an expected message? -/
def ExpectedFinding.messageFits (e : ExpectedFinding) (f : Finding) : Bool :=
  e.message == "" || Text.contains f.message e.message

/-- Does a finding with the same key fit in message and suppression? -/
def ExpectedFinding.fits (e : ExpectedFinding) (f : Finding) : Bool :=
  e.messageFits f && e.suppressed == f.suppressed

/-! ### Findings with one key -/

/-- The first element that satisfies `p`, and the others. -/
def takeFirst {α : Type} (p : α → Bool) : List α → Option (α × List α)
  | [] => none
  | a :: as => if p a then some (a, as) else (takeFirst p as).map fun (b, bs) => (b, a :: bs)

/-- Pairs each expected finding with the first finding that fits it and was not taken before.
Gives the expected findings and the findings that are left. -/
def pairFitting : List ExpectedFinding → List Finding → List ExpectedFinding × List Finding
  | [], fs => ([], fs)
  | e :: es, fs =>
    match takeFirst e.fits fs with
    | some (_, rest) => pairFitting es rest
    | none =>
      let (left, rest) := pairFitting es fs
      (e :: left, rest)

/-- The differences between an expected finding and a finding with the same key. -/
def differences (key : String) (e : ExpectedFinding) (f : Finding) : List String :=
  (if e.messageFits f then []
    else ["Message mismatch for " ++ key ++ ": expected to contain " ++ Text.quoteKept e.message ++
      ", got " ++ Text.quote f.message]) ++
  (if e.suppressed == f.suppressed then []
    else ["Suppression mismatch for " ++ key ++ ": expected " ++ toString e.suppressed ++
      ", got " ++ toString f.suppressed])

/-- What distinguishes findings from those expected. -/
structure Comparison where
  missing : List String := []
  unexpected : List String := []
  mismatches : List String := []
deriving DecidableEq, Repr, Inhabited

namespace Comparison

/-- Two comparisons together. -/
def append (a b : Comparison) : Comparison where
  missing := a.missing ++ b.missing
  unexpected := a.unexpected ++ b.unexpected
  mismatches := a.mismatches ++ b.mismatches

/-- Compares what is left: each expected finding takes the first finding. -/
def ofLeft (key : String) : List ExpectedFinding → List Finding → Comparison
  | [], fs => { unexpected := fs.map (·.text) }
  | e :: es, [] =>
    append { missing := [key ++ " (" ++ e.message ++ ")"] } (ofLeft key es [])
  | e :: es, f :: fs => append { mismatches := differences key e f } (ofLeft key es fs)

/-- Compares findings with one key. -/
def ofKey (key : String) (es : List ExpectedFinding) (fs : List Finding) : Comparison :=
  let (left, rest) := pairFitting es fs
  ofLeft key left rest

/-! ### All findings -/

/-- The keys of expected and actual findings, in ascending order and each once. -/
def keys (es : List ExpectedFinding) (fs : List Finding) : List String :=
  Text.sortedDistinct (es.map (·.key) ++ fs.map (·.key))

/-- Compares findings with those expected. -/
def ofFindings (es : List ExpectedFinding) (fs : List Finding) : Comparison :=
  (keys es fs).foldl (fun all key =>
    append all (ofKey key (es.filter (·.key == key)) (fs.filter (·.key == key)))) {}

/-- The lines that tell a comparison, each kind in ascending order. -/
def details (c : Comparison) : List String :=
  (Text.sorted c.missing).map ("Should have been reported: " ++ ·) ++
    (Text.sorted c.unexpected).map ("Should not have been reported: " ++ ·) ++
    Text.sorted c.mismatches

/-- Is there no difference? -/
def isEmpty (c : Comparison) : Bool := c.details.isEmpty

end Comparison

end ClassAudit
