import ClassAudit.Lint.Registry
import ClassAudit.Platform

/-!
# Temporal coupling

An object whose name for a method says that it is used should have been set up before. Within a
method, calls are tied to the local variable that holds their receiver.

## Main definitions

* `TemporalCoupling.isSetupName`, `isUseName` - the vocabulary of the two phases.
* `TemporalCoupling.receiver?` - the local variable that holds the receiver of a call.
* `TemporalCoupling.linter` - reports uses without a setup before.
-/

namespace ClassAudit.TemporalCoupling

/-- The name of the linter. -/
def name : String := "TemporalCoupling"

/-- How many instructions before a call its receiver is looked for. -/
def receiverWindow : Nat := 12

/-- Names of calls that set an object up. -/
def setupNames : List String :=
  ["init", "initialize", "open", "start", "begin", "connect", "load", "prepare", "configure",
   "setup"]

/-- Beginnings of such names. -/
def setupStems : List String :=
  ["init", "open", "start", "begin", "connect", "load", "prepare", "config"]

/-- Names of calls that use an object. -/
def useNames : List String :=
  ["execute", "run", "use", "send", "apply", "process", "commit", "save", "write", "read",
   "flush", "close"]

/-- Beginnings of such names. -/
def useStems : List String :=
  ["exec", "run", "use", "send", "apply", "process", "commit", "save", "write", "read", "flush",
   "close"]

/-- Is the name one of `names`, or does it begin with one of `stems`? -/
def inVocabulary (names stems : List String) (lower : String) : Bool :=
  names.contains lower || stems.any fun s => Text.startsWith lower s

/-- A call that sets an object up, by its name in lower case. -/
def isSetupName (lower : String) : Bool := inVocabulary setupNames setupStems lower

/-- A call that uses an object, by its name in lower case. -/
def isUseName (lower : String) : Bool := inVocabulary useNames useStems lower

/-- The local variable that holds the receiver of the call at position `n`: the nearest reference
that was pushed since the call before. -/
def receiver? (b : Body) (n : Nat) : Option Int := do
  let at_ ← b.lookBack n Action.isRefLoad Action.isInvoke receiverWindow
  let i ← b.elements[at_]?
  i.action.slot?

/-- The calls of a body that use a local variable before it is set up, with the variable; `ready`
lists the variables that are set up already. -/
def unprepared (ns : Namespaces) (b : Body) :
    (ready : List Int) → List (Nat × Action) → List (Nat × MemberRef × Int)
  | _, [] => []
  | ready, (n, a) :: rest =>
    match a with
    | .invoke _ m =>
      let lower := Text.lower m.name
      if ns.holds m.owner || isBuilderish lower then unprepared ns b ready rest
      else match receiver? b n with
        | none => unprepared ns b ready rest
        | some slot =>
          if isSetupName lower then unprepared ns b (slot :: ready) rest
          else if isUseName lower && !ready.contains slot then
            (n, m, slot) :: unprepared ns b ready rest
          else unprepared ns b ready rest
    | _ => unprepared ns b ready rest

/-- The findings in one method. -/
def ofMethod (o : Origin) (ns : Namespaces) (m : MethodModel) : List Finding :=
  (unprepared ns m.code [] m.code.indexed).map fun (n, target, slot) =>
    o.finding .warning m.signature (m.code.lineAt n)
      (dottedName target.owner ++ "." ++ target.name ++ target.desc ++ " called on local " ++
        m.localName slot ++ " without prior setup in this method")

/-- The linter for a class. -/
def linter (ns : Namespaces) (c : ClassModel) : Linter where
  name := name
  category := .principle
  findings := (c.methods.filter (!·.isInitializer)).flatMap
    (ofMethod ⟨name, .principle, c.name⟩ ns)

end ClassAudit.TemporalCoupling
