import ClassAudit.Detectors.Collaboration
import ClassAudit.Lint.Registry
import ClassAudit.Platform

/-!
# The observer pattern

A subject holds a collection of observers and calls them; an observer implements an interface of
the package with a method to be called.

## Main definitions

* `ObserverPattern.notifyLine?` - the source line of the first notification.
* `ObserverPattern.observed?` - the interface that makes a class an observer.
* `ObserverPattern.linter` - reports subjects and observers.
-/

namespace ClassAudit.ObserverPattern

/-- The name of the linter. -/
def name : String := "ObserverPattern"

/-- A virtual or interface call with a name that tells observers about something. -/
def notifies : Action → Bool
  | .invoke .virtual m => isNotifyName m.name
  | .invoke .interface m => isNotifyName m.name
  | _ => false

/-- The source line of the first notification in a class. -/
def notifyLine? (c : ClassModel) : Option Int :=
  c.methods.findSome? fun m =>
    (m.code.indexed.find? (notifies ·.2)).map fun (n, _) => m.code.lineAt n

/-- The first interface of a class, known in the package, that has a method to be called. -/
def observed? (c : ClassModel) (ctx : PackageContext) : Option String :=
  c.interfaces.find? fun i =>
    match ctx.lookup? i with
    | some iface => iface.methods.any fun m => isNotifyName m.name
    | none => false

/-- Names of methods that remove an observer. -/
def isRemoveName (name : String) : Bool :=
  mentions ["remove", "unsubscribe", "detach", "deregister", "unregister"] name

/-- The linter for a class in its package. -/
def linter (c : ClassModel) (ctx : PackageContext) : Linter where
  name := name
  category := .pattern
  findings :=
    let o : Origin := ⟨name, .pattern, c.name⟩
    let subject :=
      if c.fields.any fun f => isCollectionDescriptor f.desc then
        match notifyLine? c with
        | some line =>
          o.finding .info "" line "observer subject detected" ::
            if c.methods.any fun m => isRemoveName m.name then []
            else [o.finding .warning "" 0 "observer subject has no remove/unsubscribe method"]
        | none => []
      else []
    let observer := match observed? c ctx with
      | some i => [o.finding .info "" 0 ("observer implementation of " ++ dottedName i)]
      | none => []
    subject ++ observer

end ClassAudit.ObserverPattern
