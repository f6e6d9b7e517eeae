import ClassAudit.Lint.Registry

/-!
# Dead code

After a return, a throw or an unconditional jump, control does not reach the next instruction
unless something jumps there, and then a label stands before it.

## Main definitions

* `DeadCode.linter` - reports every instruction that directly follows such an instruction.
-/

namespace ClassAudit.DeadCode

/-- The name of the linter. -/
def name : String := "DeadCode"

/-- The word for an instruction that control does not pass. -/
def terminalWord : Action → String
  | .return _ => "return"
  | .throw => "throw"
  | .jump _ _ => "goto"
  | _ => "terminal instruction"

/-- The terminal instructions that another instruction directly follows, with their positions.
The first element of the list is at position `n`. -/
def blocked : Nat → List Instruction → List (Nat × Action)
  | n, i :: next :: rest =>
    let found := blocked (n + 1) (next :: rest)
    if i.action.isTerminal && !next.isMarker then (n, i.action) :: found else found
  | _, _ => []

/-- The findings in one method. -/
def ofMethod (o : Origin) (m : MethodModel) : List Finding :=
  (blocked 0 m.code.elements).map fun (n, action) =>
    o.finding .error m.signature (m.code.lineAt n) ("unreachable code after " ++ terminalWord action)

/-- The linter for a class. -/
def linter (c : ClassModel) : Linter where
  name := name
  category := .style
  findings := c.methods.flatMap (ofMethod ⟨name, .style, c.name⟩)

end ClassAudit.DeadCode
