import ClassAudit.Lint.Registry

/-!
# Unused members and variables

Private fields that are never read, private methods that are never called, and local variables
that are written but never read.

## Main definitions

* `UnusedVariables.UseTable` - the members that are watched, and which of them were seen in use.
* `UnusedVariables.fields`, `methods`, `locals` - the three kinds of findings.
* `UnusedVariables.linter` - all of them, in this order.
-/

namespace ClassAudit.UnusedVariables

/-- The name of the linter. -/
def name : String := "UnusedVariables"

/-! ### Members -/

/-- A member of a class, by its name and descriptor. -/
structure MemberKey where
  name : String
  desc : String
deriving DecidableEq, Repr

/-- The members that are watched, and whether each of them was seen in use. -/
abbrev UseTable := List (MemberKey × Bool)

namespace UseTable

/-- Sets the entry of a member, which is put behind the others where there is none. -/
def set (key : MemberKey) (used : Bool) : UseTable → UseTable
  | [] => [(key, used)]
  | (k, u) :: t => if k == key then (key, used) :: t else (k, u) :: set key used t

/-- The table of watched members before any of them was seen. -/
def ofKeys (watched : List MemberKey) : UseTable :=
  watched.foldl (fun t key => set key false t) []

/-- Takes note of what an action uses, if that is watched. -/
def see (used? : Action → Option MemberKey) (t : UseTable) (a : Action) : UseTable :=
  match used? a with
  | some key => if (t.lookup key).isSome then set key true t else t
  | none => t

/-- Takes note of what the methods of a class use. -/
def seeAll (used? : Action → Option MemberKey) (c : ClassModel) (t : UseTable) : UseTable :=
  c.methods.foldl (fun t m => m.code.elements.foldl (fun t i => t.see used? i.action) t) t

/-- Is the member watched, and was it not seen? -/
def isUnused (t : UseTable) (key : MemberKey) : Bool := t.lookup key == some false

end UseTable

/-- The watched members, and which of them the class uses. The methods are only gone through if there
is something to watch. -/
def useTable (c : ClassModel) (watched : List MemberKey) (used? : Action → Option MemberKey) :
    UseTable :=
  let t := UseTable.ofKeys watched
  if t.isEmpty then [] else t.seeAll used? c

/-- The fields that are watched. -/
def watchedFields (c : ClassModel) : List MemberKey :=
  (c.fields.filter fun f => f.access.isPrivate && !f.access.isSynthetic).map fun f =>
    ⟨f.name, f.desc⟩

/-- The field of a class that an action reads. -/
def readField? (owner : String) : Action → Option MemberKey
  | .field .getField m => if m.owner == owner then some ⟨m.name, m.desc⟩ else none
  | .field .getStatic m => if m.owner == owner then some ⟨m.name, m.desc⟩ else none
  | _ => none

/-- Private fields that are never read; a field that is only written is unused. -/
def fields (o : Origin) (c : ClassModel) : List Finding :=
  let read := useTable c (watchedFields c) (readField? c.name)
  (c.fields.filter fun f => read.isUnused ⟨f.name, f.desc⟩).map fun f =>
    o.finding .warning f.name 0 ("unused private field " ++ f.name ++ " (" ++ f.desc ++ ")")

/-- The methods that are watched. -/
def watchedMethods (c : ClassModel) : List MemberKey :=
  (c.methods.filter fun m => m.access.isPrivate && !m.access.isSynthetic && !m.access.isBridge &&
    !m.isInitializer).map fun m => ⟨m.name, m.desc⟩

/-- The method of a class that an action calls. -/
def calledMethod? (owner : String) : Action → Option MemberKey
  | .invoke _ m => if m.owner == owner then some ⟨m.name, m.desc⟩ else none
  | _ => none

/-- Private methods that are never called. -/
def methods (o : Origin) (c : ClassModel) : List Finding :=
  let called := useTable c (watchedMethods c) (calledMethod? c.name)
  (c.methods.filter fun m => called.isUnused ⟨m.name, m.desc⟩).map fun m =>
    o.finding .warning m.signature m.code.firstLine ("unused private method " ++ m.signature)

/-! ### Local variables -/

/-- Does a method's local variable count? The receiver of an instance method does not. -/
def counts (m : MethodModel) (slot : Int) : Bool := slot != 0 || m.access.isStatic

/-- The local variables that a method stores into, with the position of each store. -/
def stores (m : MethodModel) : List (Nat × Int) :=
  m.code.indexed.filterMap fun (n, a) =>
    match a with
    | .store _ slot => if counts m slot then some (n, slot) else none
    | _ => none

/-- Does a method load a local variable? -/
def loads (m : MethodModel) (slot : Int) : Bool :=
  m.code.elements.any fun i =>
    match i.action with
    | .load _ s => s == slot
    | _ => false

/-- The local variables of a method that are stored into and never loaded, in ascending order,
with the position of the first store. -/
def unread (m : MethodModel) : List (Int × Nat) :=
  let slots := ((stores m).map (·.2)).mergeSort.eraseReps
  (slots.filter fun s => !loads m s).filterMap fun s =>
    ((stores m).find? (·.2 == s)).map fun (n, _) => (s, n)

/-- Local variables that are written but never read. -/
def locals (o : Origin) (c : ClassModel) : List Finding :=
  c.methods.flatMap fun m =>
    (unread m).map fun (slot, n) =>
      o.finding .warning m.signature (m.code.lineAt n)
        ("unused local " ++ m.localName slot ++ " (slot " ++ toString slot ++ ")")

/-- The linter for a class. -/
def linter (c : ClassModel) : Linter where
  name := name
  category := .style
  findings :=
    let o : Origin := ⟨name, .style, c.name⟩
    fields o c ++ methods o c ++ locals o c

end ClassAudit.UnusedVariables
