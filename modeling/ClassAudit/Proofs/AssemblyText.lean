import ClassAudit.Assembly.Source
import ClassAudit.Proofs.Separators
import ClassAudit.Proofs.StepMeaning

/-!
# The steps that assembly text spells

Every step that a line spells has operands that its opcode takes: the mnemonics with other
operands are told apart before anything is taken for an instruction without operands. And since
a line is split at blanks, no name and no descriptor holds one.

## Main definitions

* `Source.Gives` - what a parser gives when it succeeds.
* `Step.Spellable` - a step that a line can spell.

## Main statements

* `Step.gives_parseOpcode` - a mnemonic takes the operands of its opcode.
* `Step.gives_parse` - the words of a line spell a spellable step.
* `Step.proper_of_parseAll` - the steps of a text are proper.
-/

namespace ClassAudit

/-! ### Words -/

namespace Text

theorem blank_not_mem_of_mem_words {s word : List Char} (h : word ∈ words s) : ' ' ∉ word :=
  not_mem_of_mem_splitWhere (List.mem_filter.mp h).1 (by decide)

end Text

/-! ### Opcodes without operands -/

namespace Opcode

theorem eq_iff_toNat_eq {op : Opcode} {code : UInt8} :
    op = ⟨code⟩ ↔ op.code.toNat = code.toNat := by
  rw [UInt8.toNat_inj]
  exact ⟨fun h => h ▸ rfl, fun h => by rw [← h]⟩

theorem length_mnemonics : mnemonics.length = 202 := by decide +kernel

/-- An opcode with a mnemonic has a number that stands for the mnemonic. -/
theorem mnemonics_of_ofMnemonic? {name : String} {op : Opcode} (h : ofMnemonic? name = some op) :
    mnemonics[op.code.toNat]? = some name := by
  obtain ⟨n, hn, rfl⟩ := Option.map_eq_some_iff.mp h
  obtain ⟨hlt, hname, -⟩ := List.findIdx?_eq_some_iff_getElem.mp hn
  have hcode : (UInt8.ofNat n).toNat = n := by
    rw [length_mnemonics] at hlt
    rw [UInt8.toNat_ofNat']
    omega
  rw [hcode, List.getElem?_eq_getElem hlt, eq_of_beq hname]

end Opcode

/-! ### Parsers -/

namespace Source

variable {ε α β : Type} {P : α → Prop} {Q : β → Prop}

/-- What the parser gives satisfies `P`. -/
def Gives (r : Except ε α) (P : α → Prop) : Prop := ∀ a, r = .ok a → P a

theorem gives_pure {a : α} (h : P a) : Gives (pure a : Except ε α) P := by
  rintro _ ⟨⟩
  exact h

theorem gives_throw (e : ε) : Gives (throw e : Except ε α) P := fun _ h => nomatch h

theorem Gives.bind {r : Except ε α} {f : α → Except ε β} (hr : Gives r P)
    (hf : ∀ a, P a → Gives (f a) Q) : Gives (r >>= f) Q := by
  intro b h
  obtain ⟨a, ha, hb⟩ := except_bind_eq_ok.mp h
  exact hf a (hr a ha) b hb

/-- Something made of any result. -/
theorem gives_bind_pure {r : Except ε α} {f : α → β} (hf : ∀ a, Q (f a)) :
    Gives (r >>= fun a => pure (f a)) Q := by
  intro b h
  obtain ⟨a, -, hb⟩ := except_bind_eq_ok.mp h
  exact gives_pure (hf a) b hb

theorem Gives.ite {p : Prop} [Decidable p] {r s : Except ε α} (hr : p → Gives r P)
    (hs : ¬p → Gives s P) : Gives (if p then r else s) P := by
  split
  · exact hr ‹p›
  · exact hs ‹¬p›

end Source

namespace Step

open Source

/-- The step is proper as soon as its local variable has a two-byte number, and its texts hold no
blank. -/
structure Spellable (s : Step) : Prop where
  proper : (∀ n, s.slot? = some n → 0 ≤ n ∧ n ≤ 65535) → s.Proper
  unspaced : s.Unspaced

/-- A step without name and descriptor. -/
theorem spellable_of_proper {s : Step} (hproper : (∀ n, s.slot? = some n → 0 ≤ n ∧ n ≤ 65535) →
    s.Proper) (hname : s.name = "") (hdesc : s.desc = "") : s.Spellable :=
  ⟨hproper, by rw [hname]; decide, by rw [hdesc]; decide⟩

theorem gives_memberOperand (mnemonic : String) {args : List String}
    (h : ∀ word ∈ args, ' ' ∉ word.toList) :
    Gives (memberOperand mnemonic args) fun m => ' ' ∉ m.name.toList ∧ ' ' ∉ m.desc.toList := by
  unfold memberOperand
  split
  · exact gives_pure ⟨h _ (by simp), h _ (by simp)⟩
  · exact gives_throw _

theorem gives_member {mnemonic : String} {args : List String} {make : MemberRef → Step}
    (h : ∀ word ∈ args, ' ' ∉ word.toList)
    (hmake : ∀ m, (make m).Proper ∧ (make m).name = m.name ∧ (make m).desc = m.desc) :
    Gives (do return make (← memberOperand mnemonic args)) Spellable := by
  refine (gives_memberOperand mnemonic h).bind fun m hm => gives_pure ?_
  obtain ⟨hproper, hname, hdesc⟩ := hmake m
  exact ⟨fun _ => hproper, by rw [hname]; exact hm.1, by rw [hdesc]; exact hm.2⟩

theorem atPlace_ne_void (n : Nat) : ValueType.atPlace n ≠ .void := by
  unfold ValueType.atPlace
  split <;> decide

theorem spellable_load (n : Nat) (slot : Int) : (load (.atPlace n) slot).Spellable :=
  spellable_of_proper (fun h => ⟨atPlace_ne_void n, h slot rfl⟩) rfl rfl

theorem spellable_store (n : Nat) (slot : Int) : (store (.atPlace n) slot).Spellable :=
  spellable_of_proper (fun h => ⟨atPlace_ne_void n, h slot rfl⟩) rfl rfl

/-- An opcode with a mnemonic spells a step. -/
theorem gives_parseOpcode {mnemonic : String} {op : Opcode} {args : List String}
    (hlt : op.code.toNat < 202) (hconst : op.code.toNat < 0x12 ∨ 0x14 < op.code.toNat)
    (h : ∀ word ∈ args, ' ' ∉ word.toList) : Gives (parseOpcode mnemonic op args) Spellable := by
  have hplain {s : Step} (hproper : s.Proper) (hname : s.name = "") (hdesc : s.desc = "") :
      s.Spellable := spellable_of_proper (fun _ => hproper) hname hdesc
  refine .ite (fun _ => gives_bind_pure fun slot => spellable_load _ slot) fun h₁ => ?_
  refine .ite (fun _ => gives_bind_pure fun slot => spellable_store _ slot) fun h₂ => ?_
  refine .ite (fun _ => gives_bind_pure fun _ => spellable_load _ _) fun h₃ => ?_
  refine .ite (fun _ => gives_bind_pure fun _ => spellable_store _ _) fun h₄ => ?_
  refine .ite (fun _ => ?_) fun h₅ => ?_
  · split
    · exact Gives.bind (P := fun _ => True) (fun _ _ => trivial) fun slot _ =>
        gives_bind_pure fun delta => spellable_of_proper (fun h => h slot rfl) rfl rfl
    · exact gives_throw _
  refine .ite (fun _ => gives_bind_pure fun _ => hplain trivial rfl rfl) fun h₆ => ?_
  refine .ite (fun _ => gives_member h fun _ => ⟨trivial, rfl, rfl⟩) fun h₇ => ?_
  refine .ite (fun _ => gives_member h fun _ => ⟨trivial, rfl, rfl⟩) fun h₈ => ?_
  refine .ite (fun _ => gives_member h fun _ => ⟨trivial, rfl, rfl⟩) fun h₉ => ?_
  refine .ite (fun _ => gives_member h fun _ => ⟨trivial, rfl, rfl⟩) fun h₁₀ => ?_
  refine .ite (fun _ => gives_member h fun _ => ⟨trivial, rfl, rfl⟩) fun h₁₁ => ?_
  refine .ite (fun _ => gives_member h fun _ => ⟨trivial, rfl, rfl⟩) fun h₁₂ => ?_
  refine .ite (fun _ => gives_member h fun _ => ⟨trivial, rfl, rfl⟩) fun h₁₃ => ?_
  refine .ite (fun _ => gives_member h fun _ => ⟨trivial, rfl, rfl⟩) fun h₁₄ => ?_
  refine .ite (fun _ => ?_) fun h₁₅ => ?_
  · split
    · rename_i name desc
      exact gives_pure ⟨fun _ => trivial, h name (by simp), h desc (by simp)⟩
    · exact gives_throw _
  refine .ite (fun hop => gives_bind_pure fun _ => hplain (by simpa [Proper] using hop) rfl rfl)
    fun h₁₆ => ?_
  refine .ite (fun _ => gives_bind_pure fun _ => hplain trivial rfl rfl) fun h₁₇ => ?_
  refine .ite (fun _ => ?_) fun h₁₈ => ?_
  · split
    · exact gives_bind_pure fun _ => hplain trivial rfl rfl
    · exact gives_throw _
  refine .ite (fun hop => gives_bind_pure fun _ => hplain hop rfl rfl) fun h₁₉ => ?_
  refine .ite (fun _ => ?_) fun h₂₀ => ?_
  · split
    · exact gives_bind_pure fun _ => hplain trivial rfl rfl
    · exact gives_throw _
  refine .ite (fun _ => ?_) fun h₂₁ => ?_
  · split
    · exact gives_bind_pure fun _ => hplain trivial rfl rfl
    · exact gives_throw _
  refine .ite (fun _ => gives_throw _) fun h₂₂ => gives_bind_pure fun _ => hplain ?_ rfl rfl
  simp only [Opcode.eq_iff_toNat_eq, Opcode.iinc, Opcode.bipush, Opcode.sipush, Opcode.getstatic,
    Opcode.putstatic, Opcode.getfield, Opcode.putfield, Opcode.invokevirtual,
    Opcode.invokespecial, Opcode.invokestatic, Opcode.invokeinterface, Opcode.invokedynamic,
    Opcode.new, Opcode.anewarray, Opcode.checkcast, Opcode.instanceof, Opcode.newarray,
    Opcode.multianewarray, Opcode.ifnull, Opcode.ifnonnull, Opcode.tableswitch,
    Opcode.lookupswitch, Opcode.wide, Opcode.jsr, Opcode.ret, Opcode.gotoW, Opcode.jsrW,
    UInt8.reduceToNat] at h₅ h₆ h₇ h₈ h₉ h₁₀ h₁₁ h₁₂ h₁₃ h₁₄ h₁₅ h₁₆ h₁₇ h₁₈ h₁₉ h₂₀ h₂₁ h₂₂
  show op.Bare
  simp only [Opcode.Bare, List.mem_cons, List.not_mem_nil, or_false]
  omega

/-- **The words of a line spell a spellable step.** -/
theorem gives_parse (mnemonic : String) {args : List String}
    (h : ∀ word ∈ args, ' ' ∉ word.toList) : Gives (parse mnemonic args) Spellable := by
  have hplain {s : Step} (hproper : s.Proper) (hname : s.name = "") (hdesc : s.desc = "") :
      s.Spellable := spellable_of_proper (fun _ => hproper) hname hdesc
  unfold parse
  split
  · exact gives_pure (hplain trivial rfl rfl)
  refine .ite (fun _ => gives_bind_pure fun _ => hplain trivial rfl rfl) fun _ => ?_
  refine .ite (fun _ => gives_bind_pure fun _ => hplain trivial rfl rfl) fun _ => ?_
  refine .ite (fun _ => gives_bind_pure fun _ => hplain trivial rfl rfl) fun _ => ?_
  refine .ite (fun _ => ?_) fun hldc => ?_
  · dsimp only
    split
    · exact gives_pure (hplain trivial rfl rfl)
    · exact gives_bind_pure fun _ => hplain trivial rfl rfl
  refine .ite (fun _ => ?_) fun hldc2 => ?_
  · refine Gives.bind (P := fun _ => True) (fun _ _ => trivial) fun word _ => ?_
    split
    · exact gives_pure (hplain trivial rfl rfl)
    · exact gives_throw _
  split
  · exact gives_throw _
  · rename_i op hop
    have hname := Opcode.mnemonics_of_ofMnemonic? hop
    obtain ⟨hlt, -⟩ := List.getElem?_eq_some_iff.mp hname
    rw [Opcode.length_mnemonics] at hlt
    refine gives_parseOpcode hlt ?_ h
    -- the constants of the pool are told apart by their mnemonics
    by_contra hcode
    obtain hcode | hcode | hcode : op.code.toNat = 0x12 ∨ op.code.toNat = 0x13 ∨
        op.code.toNat = 0x14 := by omega
    · rw [hcode] at hname
      exact hldc (.inl (Option.some.inj hname).symm)
    · rw [hcode] at hname
      exact hldc (.inr (Option.some.inj hname).symm)
    · rw [hcode] at hname
      exact hldc2 (Option.some.inj hname).symm

/-- A line spells a step that can be spelled. -/
theorem spellable_of_parseLine {line : String} {s : Step} (h : parseLine line = .ok (some s)) :
    s.Spellable := by
  unfold parseLine at h
  split at h
  · exact nomatch h
  · rename_i mnemonic args hwords
    obtain ⟨s', hparse, heq⟩ := except_map_eq_ok.mp h
    obtain rfl := Option.some.inj heq
    refine gives_parse _ (fun word hword => ?_) s' hparse
    obtain ⟨chars, hchars, rfl⟩ := List.mem_map.mp hword
    rw [String.toList_ofList]
    exact Text.blank_not_mem_of_mem_words (hwords ▸ List.mem_cons_of_mem _ hchars)

/-- Every step of a text can be spelled. -/
theorem spellable_of_parseLines {number : Nat} {lines : List String} {steps : List Step}
    (h : parseLines number lines = .ok steps) : ∀ s ∈ steps, s.Spellable := by
  induction lines generalizing number steps with
  | nil =>
      obtain rfl := Except.ok.inj h
      exact fun s hs => nomatch hs
  | cons line lines ih =>
      unfold parseLines at h
      split at h
      · exact nomatch h
      · exact ih h
      · rename_i s hline
        obtain ⟨rest, hrest, heq⟩ := except_bind_eq_ok.mp h
        obtain rfl := Except.ok.inj heq
        exact List.forall_mem_cons.mpr ⟨spellable_of_parseLine hline, ih hrest⟩

/-- **The steps of a text take the operands that they have**, if their local variables have
two-byte numbers, and their texts hold no blanks. -/
theorem proper_of_parseAll {text : String} {steps : List Step} (h : parseAll text = .ok steps)
    (hslots : ∀ s ∈ steps, ∀ n, s.slot? = some n → 0 ≤ n ∧ n ≤ 65535) :
    ∀ s ∈ steps, s.Proper ∧ s.Unspaced := by
  intro s hs
  have hspellable := spellable_of_parseLines h s hs
  exact ⟨hspellable.proper (hslots s hs), hspellable.unspaced⟩

end Step

end ClassAudit
