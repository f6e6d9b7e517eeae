import ClassAudit.Detectors.TemporalCoupling
import ClassAudit.Proofs.LowerCase
import ClassAudit.Proofs.Monitors

/-!
# Objects are set up before they are used

The linter marks a local variable when a method is called on it whose name says that it sets the
object up, and reports calls whose name says that they use an object in a variable without a mark.
Names that read like a step of a builder are skipped before anything else is asked, so they set
nothing up either. One of the setup names, `setup` itself, reads like a fluent setter and never gets
to the vocabulary that lists it.

## Main definitions

* `TemporalCoupling.CallsOn` - a call outside the platform on the object in a local variable.
* `TemporalCoupling.SetUpBefore` - an earlier call on the variable has a setup name.
* `TemporalCoupling.Reports` - a call is reported.
* `TemporalCoupling.preparation` - the linter as a monitor.

## Main statements

* `TemporalCoupling.mem_unprepared` - exactly which calls are reported.
* `TemporalCoupling.isBuilderish_of_isSetupName` - which setup names are skipped.
* `TemporalCoupling.setup_silences_use` - **a call with a setup name silences later uses of the
  variable**, unless it reads like a step of a builder.
-/

namespace ClassAudit

/-- A name reads like a step of a builder whatever its case. -/
theorem isBuilderish_lower (name : String) :
    isBuilderish (Text.lower name) = isBuilderish name := by
  rw [isBuilderish, isBuilderish, Text.lower_lower]

namespace TemporalCoupling

variable {ns : Namespaces} {b : Body} {n : Nat} {target : MemberRef} {slot : Int}

/-! ### Calls on local variables -/

/-- At position `n` a method is called that no platform class owns, on the object that the scan
finds in the local variable. -/
structure CallsOn (ns : Namespaces) (b : Body) (n : Nat) (target : MemberRef) (slot : Int) :
    Prop where
  call : ∃ kind, (n, .invoke kind target) ∈ b.indexed
  foreign : ns.holds target.owner = false
  receiver : receiver? b n = some slot

/-- Before position `n` a method is called on the object in the local variable whose name is among
the setup names, or begins with a setup stem. -/
def SetUpBefore (ns : Namespaces) (b : Body) (n : Nat) (slot : Int) : Prop :=
  ∃ k < n, ∃ earlier, CallsOn ns b k earlier slot ∧ isSetupName (Text.lower earlier.name)

/-- The call at position `n` is reported. -/
def Reports (ns : Namespaces) (b : Body) (n : Nat) : Prop :=
  ∃ target slot, (n, target, slot) ∈ unprepared ns b [] b.indexed

/-- The call of an action, unless it is skipped, with the local variable of its receiver. -/
def called? (ns : Namespaces) (b : Body) : Nat × Action → Option (MemberRef × Int)
  | (n, .invoke _ target) =>
    if ns.holds target.owner || isBuilderish (Text.lower target.name) then none
    else (receiver? b n).map (target, ·)
  | _ => none

theorem called?_eq_some_iff {x : Nat × Action} : called? ns b x = some (target, slot) ↔
    (∃ kind, x.2 = .invoke kind target) ∧ ns.holds target.owner = false ∧
      isBuilderish target.name = false ∧ receiver? b x.1 = some slot := by
  obtain ⟨n, a⟩ := x
  cases a with
  | invoke kind m =>
      simp only [called?, isBuilderish_lower, Option.ite_none_left_eq_some, Bool.or_eq_true, not_or,
        Bool.not_eq_true, Option.map_eq_some_iff, Prod.mk.injEq]
      constructor
      · rintro ⟨⟨hforeign, hplain⟩, s, hslot, rfl, rfl⟩
        exact ⟨⟨kind, rfl⟩, hforeign, hplain, hslot⟩
      · rintro ⟨⟨_, heq⟩, hforeign, hplain, hslot⟩
        cases heq
        exact ⟨⟨hforeign, hplain⟩, slot, hslot, rfl, rfl⟩
  | _ => simp [called?]

/-! ### Going through a body -/

/-- The linter as a monitor, whose state lists the local variables that are set up. -/
def preparation (ns : Namespaces) (b : Body) :
    Monitor (List Int) (Nat × Action) (Nat × MemberRef × Int) where
  next ready x :=
    match called? ns b x with
    | some (target, slot) => if isSetupName (Text.lower target.name) then slot :: ready else ready
    | none => ready
  told? ready x :=
    match called? ns b x with
    | some (target, slot) =>
      if !isSetupName (Text.lower target.name) && isUseName (Text.lower target.name) &&
          !ready.contains slot then some (x.1, target, slot)
      else none
    | none => none

theorem unprepared_eq_reports (ready : List Int) (l : List (Nat × Action)) :
    unprepared ns b ready l = (preparation ns b).reports ready l := by
  induction l generalizing ready with
  | nil => rfl
  | cons x l ih =>
      obtain ⟨n, a⟩ := x
      rw [Monitor.reports, ← ih]
      cases a with
      | invoke kind target =>
          simp only [unprepared, preparation, called?]
          cases hskip : ns.holds target.owner || isBuilderish (Text.lower target.name) with
          | true => rfl
          | false =>
              cases hslot : receiver? b n with
              | none => rfl
              | some slot =>
                  cases hsetup : isSetupName (Text.lower target.name) with
                  | true => simp [hsetup]
                  | false =>
                      simp only [Bool.false_eq_true, if_false, Option.map_some, hsetup,
                        Bool.not_false, Bool.true_and]
                      split <;> rfl
      | _ => rfl

/-- A call that counts sets up the local variable. -/
def Prepares (ns : Namespaces) (b : Body) (x : Nat × Action) (slot : Int) : Prop :=
  ∃ target, called? ns b x = some (target, slot) ∧ isSetupName (Text.lower target.name)

/-- A step marks the local variable that a call sets up. -/
theorem mem_next {ready : List Int} {x : Nat × Action} :
    slot ∈ (preparation ns b).next ready x ↔ slot ∈ ready ∨ Prepares ns b x slot := by
  simp only [preparation, Prepares]
  cases called? ns b x with
  | none => simp
  | some y =>
      obtain ⟨target, s⟩ := y
      simp only [Option.some.injEq, Prod.mk.injEq]
      cases hsetup : isSetupName (Text.lower target.name) with
      | true =>
          rw [if_pos rfl, List.mem_cons]
          constructor
          · rintro (rfl | hready)
            · exact .inr ⟨target, ⟨rfl, rfl⟩, hsetup⟩
            · exact .inl hready
          · rintro (hready | ⟨_, ⟨rfl, rfl⟩, -⟩)
            · exact .inr hready
            · exact .inl rfl
      | false =>
          rw [if_neg Bool.false_ne_true]
          constructor
          · exact .inl
          · rintro (hready | ⟨_, ⟨rfl, rfl⟩, hmarks⟩)
            · exact hready
            · exact absurd hmarks (Bool.eq_false_iff.mp hsetup)

/-- After a run exactly those local variables are marked that some call set up. -/
theorem mem_foldl_next {ready : List Int} {l : List (Nat × Action)} :
    slot ∈ l.foldl (preparation ns b).next ready ↔
      slot ∈ ready ∨ ∃ x ∈ l, Prepares ns b x slot := by
  induction l generalizing ready with
  | nil => simp
  | cons x l ih => rw [List.foldl_cons, ih, mem_next, List.exists_mem_cons_iff, or_assoc]

theorem told?_eq_some_iff {ready : List Int} {x : Nat × Action} :
    (preparation ns b).told? ready x = some (n, target, slot) ↔ x.1 = n ∧
      called? ns b x = some (target, slot) ∧ isSetupName (Text.lower target.name) = false ∧
      isUseName (Text.lower target.name) ∧ slot ∉ ready := by
  simp only [preparation]
  cases called? ns b x with
  | none => simp
  | some y =>
      obtain ⟨m, s⟩ := y
      simp only [Option.ite_none_right_eq_some, Bool.and_eq_true, Bool.not_eq_true',
        Option.some.injEq, Prod.mk.injEq, List.contains_eq_mem, decide_eq_false_iff_not]
      constructor
      · rintro ⟨⟨⟨hsetup, huse⟩, hunset⟩, rfl, rfl, rfl⟩
        exact ⟨rfl, ⟨rfl, rfl⟩, hsetup, huse, hunset⟩
      · rintro ⟨rfl, ⟨rfl, rfl⟩, hsetup, huse, hunset⟩
        exact ⟨⟨⟨hsetup, huse⟩, hunset⟩, rfl, rfl, rfl⟩

/-- The calls that count are those on local variables whose names are not those of a builder. -/
theorem callsOn_iff : CallsOn ns b n target slot ∧ isBuilderish target.name = false ↔
    ∃ x ∈ b.indexed, x.1 = n ∧ called? ns b x = some (target, slot) := by
  simp only [called?_eq_some_iff]
  constructor
  · rintro ⟨⟨⟨kind, hcall⟩, hforeign, hslot⟩, hplain⟩
    exact ⟨_, hcall, rfl, ⟨kind, rfl⟩, hforeign, hplain, hslot⟩
  · rintro ⟨⟨_, _⟩, hmem, rfl, ⟨kind, rfl⟩, hforeign, hplain, hslot⟩
    exact ⟨⟨⟨kind, hmem⟩, hforeign, hslot⟩, hplain⟩

/-- Exactly which calls are reported: those with a use name, unless a call that is not skipped set
the local variable up before. -/
theorem mem_unprepared : (n, target, slot) ∈ unprepared ns b [] b.indexed ↔
    CallsOn ns b n target slot ∧ isBuilderish target.name = false ∧
      isSetupName (Text.lower target.name) = false ∧ isUseName (Text.lower target.name) ∧
      ∀ k < n, ∀ earlier, CallsOn ns b k earlier slot → isBuilderish earlier.name = false →
        isSetupName (Text.lower earlier.name) = false := by
  rw [unprepared_eq_reports, Monitor.mem_reports]
  simp only [told?_eq_some_iff, mem_foldl_next, List.not_mem_nil, false_or]
  constructor
  · rintro ⟨before, x, after, hsplit, rfl, hcalled, hsetup, huse, hunset⟩
    have hmem : x ∈ b.indexed := hsplit ▸ List.mem_append_right _ List.mem_cons_self
    obtain ⟨hcall, hplain⟩ := callsOn_iff.mpr ⟨x, hmem, rfl, hcalled⟩
    refine ⟨hcall, hplain, hsetup, huse, fun k hk earlier hearlier hplain' => ?_⟩
    obtain ⟨y, hy, rfl, hcalled'⟩ := callsOn_iff.mp ⟨hearlier, hplain'⟩
    rw [Bool.eq_false_iff]
    intro hmarks
    exact hunset ⟨y, (Body.mem_of_split hsplit).mpr ⟨hy, hk⟩, earlier, hcalled', hmarks⟩
  · rintro ⟨hcall, hplain, hsetup, huse, hnone⟩
    obtain ⟨x, hx, rfl, hcalled⟩ := callsOn_iff.mp ⟨hcall, hplain⟩
    obtain ⟨before, after, hsplit⟩ := List.append_of_mem hx
    refine ⟨before, x, after, hsplit, rfl, hcalled, hsetup, huse, ?_⟩
    rintro ⟨y, hy, earlier, hcalled', hmarks⟩
    obtain ⟨hy, hlt⟩ := (Body.mem_of_split hsplit).mp hy
    obtain ⟨hearlier, hplain'⟩ := callsOn_iff.mpr ⟨y, hy, rfl, hcalled'⟩
    exact Bool.eq_false_iff.mp (hnone y.1 hlt earlier hearlier hplain') hmarks

/-! ### Vocabularies -/

/-- A text that begins with one of two beginnings, neither of which begins with the other, does not
begin with the other one. -/
theorem startsWith_eq_false {s t u : String} (h : Text.startsWith s t)
    (htu : Text.startsWith u t = false) (hut : Text.startsWith t u = false) :
    Text.startsWith s u = false := by
  rw [Bool.eq_false_iff]
  intro h'
  simp only [Text.startsWith, List.isPrefixOf_iff_prefix, ← Bool.not_eq_true] at h htu hut h'
  exact (List.prefix_or_prefix_of_prefix h h').elim htu hut

/-- A setup name is `setup`, or it begins with a setup stem. -/
theorem isSetupName_iff {lower : String} : isSetupName lower ↔
    lower = "setup" ∨ ∃ stem ∈ setupStems, Text.startsWith lower stem := by
  rw [isSetupName, inVocabulary, Bool.or_eq_true, List.any_eq_true, List.contains_iff_mem]
  constructor
  · rintro (hname | hstem)
    · have hnames : ∀ name ∈ setupNames, name = "setup" ∨
          ∃ stem ∈ setupStems, Text.startsWith name stem := by decide
      exact hnames lower hname
    · exact .inr hstem
  · rintro (rfl | hstem)
    · exact .inl (by decide)
    · exact .inr hstem

/-- Of the setup names, those are skipped that contain `build`, and `setup` itself. -/
theorem isBuilderish_of_isSetupName {name : String} (h : isSetupName (Text.lower name)) :
    isBuilderish name ↔ Text.contains (Text.lower name) "build" ∨ Text.lower name = "setup" := by
  simp only [isBuilderish, Bool.or_eq_true]
  rcases isSetupName_iff.mp h with hsetup | ⟨stem, hstem, hstarts⟩
  · rw [hsetup]
    decide
  · have hstems : ∀ stem ∈ setupStems, ∀ first ∈ ["set", "with"],
        Text.startsWith first stem = false ∧ Text.startsWith stem first = false := by decide
    have hapart (first : String) (hfirst : first ∈ ["set", "with"]) :
        Text.startsWith (Text.lower name) first = false :=
      startsWith_eq_false hstarts (hstems stem hstem first hfirst).1
        (hstems stem hstem first hfirst).2
    have hne : Text.lower name ≠ "setup" := by
      intro heq
      have hset := hapart "set" (by simp)
      rw [heq] at hset
      exact absurd hset (by decide)
    simp [hapart "set" (by simp), hapart "with" (by simp), hne]

/-! ### Findings -/

/-- What is said about a use of a local variable that was not set up. -/
def unpreparedUse (c : ClassModel) (m : MethodModel) (n : Nat) (target : MemberRef) (slot : Int) :
    Finding where
  linter := "TemporalCoupling"
  category := .principle
  className := c.name
  member := m.name ++ m.desc
  line := m.code.lineAt n
  severity := .warning
  message := dottedName target.owner ++ "." ++ target.name ++ target.desc ++ " called on local " ++
    m.localName slot ++ " without prior setup in this method"

/-- **A call with a setup name silences later uses of the variable, unless it reads like a step of a
builder.** Of each method that is no initializer the reported calls are told in program order, each
once. A call with a use name is reported if no call before it, on the same local variable, has a
setup name without `build` in it, and it is not reported if some such call is called otherwise than
`setup`. -/
theorem setup_silences_use (ns : Namespaces) (c : ClassModel) :
    (linter ns c).findings =
      (c.methods.filter fun m => m.name ≠ "<init>" ∧ m.name ≠ "<clinit>").flatMap (fun m =>
        (unprepared ns m.code [] m.code.indexed).map fun (n, target, slot) =>
          unpreparedUse c m n target slot) ∧
    ∀ m ∈ c.methods,
      (unprepared ns m.code [] m.code.indexed).Pairwise (·.1 < ·.1) ∧
      ∀ n target slot, CallsOn ns m.code n target slot → isUseName (Text.lower target.name) →
        isBuilderish target.name = false → isSetupName (Text.lower target.name) = false →
        ((∀ k < n, ∀ earlier, CallsOn ns m.code k earlier slot →
            isSetupName (Text.lower earlier.name) →
            Text.contains (Text.lower earlier.name) "build") →
          Reports ns m.code n) ∧
        ((∃ k < n, ∃ earlier, CallsOn ns m.code k earlier slot ∧
            isSetupName (Text.lower earlier.name) ∧
            Text.contains (Text.lower earlier.name) "build" = false ∧
            Text.lower earlier.name ≠ "setup") →
          ¬Reports ns m.code n) := by
  refine ⟨?_, fun m _ => ⟨?_, fun n target slot hcall huse hplain hsetup => ⟨fun hnone => ?_, ?_⟩⟩⟩
  · simp only [linter, MethodModel.not_isInitializer_eq]
    rfl
  · rw [unprepared_eq_reports]
    refine Monitor.pairwise_reports ?_ m.code.pairwise_indexed
    rintro ready x ⟨n, target, slot⟩ htold
    exact (told?_eq_some_iff.mp htold).1.symm
  · refine ⟨target, slot, mem_unprepared.mpr ⟨hcall, hplain, hsetup, huse, ?_⟩⟩
    intro k hk earlier hearlier hplain'
    rw [Bool.eq_false_iff]
    intro hmarks
    have hbuild := hnone k hk earlier hearlier hmarks
    exact Bool.eq_false_iff.mp hplain' ((isBuilderish_of_isSetupName hmarks).mpr (.inl hbuild))
  · rintro ⟨k, hk, earlier, hearlier, hmarks, hbuild, hother⟩ ⟨target', slot', hreported⟩
    obtain ⟨hcall', -, -, -, hnone⟩ := mem_unprepared.mp hreported
    obtain rfl : slot = slot' := Option.some.inj (hcall.receiver.symm.trans hcall'.receiver)
    have hplain' : isBuilderish earlier.name = false := by
      rw [Bool.eq_false_iff, ne_eq, isBuilderish_of_isSetupName hmarks, not_or, Bool.not_eq_true]
      exact ⟨hbuild, hother⟩
    exact Bool.eq_false_iff.mp (hnone k hk earlier hearlier hplain') hmarks

/-- A method of `Job`. -/
def job (name : String) : MemberRef := ⟨"Job", name, "()V"⟩

/-- Calls of methods of `Job` on the objects in local variables, in this order. -/
def jobCalls (calls : List (Int × String)) : Body where
  elements := calls.flatMap fun (slot, name) =>
    [⟨.load .reference slot, 0⟩, ⟨.invoke .virtual (job name), 0⟩]

/-- A class with one method, which calls methods of `Job` in this order. -/
def scheduler (calls : List (Int × String)) : ClassModel where
  name := "Scheduler"
  methods := [⟨"work", "(LJob;LJob;)V", ⟨1⟩, jobCalls calls, []⟩]

/-- The default namespaces of the platform. -/
def platform : Namespaces := ⟨Namespaces.defaultPrefixes⟩

theorem callsOn_jobCalls {calls : List (Int × String)} {name : String}
    (hcall : (jobCalls calls).indexed[n]? = some (n, .invoke .virtual (job name)))
    (hslot : receiver? (jobCalls calls) n = some slot) :
    CallsOn platform (jobCalls calls) n (job name) slot := by
  have hforeign : platform.holds "Job" = false := by decide
  exact ⟨⟨.virtual, List.mem_of_getElem? hcall⟩, hforeign, hslot⟩

/-- A call of `open` on the first variable silences a use of that variable, but not one of the
second variable. -/
theorem opened_silences_first :
    ¬Reports platform (jobCalls [(1, "open"), (1, "run"), (2, "run")]) 3 ∧
      Reports platform (jobCalls [(1, "open"), (1, "run"), (2, "run")]) 5 := by
  obtain ⟨-, hmethods⟩ := setup_silences_use platform
    (scheduler [(1, "open"), (1, "run"), (2, "run")])
  obtain ⟨-, huses⟩ := hmethods _ (List.mem_singleton_self _)
  have hrun : isUseName (Text.lower "run") ∧ isBuilderish "run" = false ∧
      isSetupName (Text.lower "run") = false := by decide +kernel
  have hopen : isSetupName (Text.lower "open") ∧
      Text.contains (Text.lower "open") "build" = false ∧ Text.lower "open" ≠ "setup" := by
    decide +kernel
  obtain ⟨-, hsilenced⟩ := huses 3 (job "run") 1 (callsOn_jobCalls rfl (by decide +kernel))
    hrun.1 hrun.2.1 hrun.2.2
  obtain ⟨hreported, -⟩ := huses 5 (job "run") 2 (callsOn_jobCalls rfl (by decide +kernel))
    hrun.1 hrun.2.1 hrun.2.2
  constructor
  · exact hsilenced ⟨1, by decide, job "open", callsOn_jobCalls rfl (by decide +kernel), hopen⟩
  · refine hreported fun k hk earlier hearlier => ?_
    have hfirst : ∀ k < 5,
        receiver? (jobCalls [(1, "open"), (1, "run"), (2, "run")]) k ≠ some 2 := by decide +kernel
    exact absurd hearlier.receiver (hfirst k hk)

/-- A step of a builder is skipped although its name begins with a setup stem, and the use after it
is reported. -/
theorem builder_step_sets_nothing_up :
    CallsOn platform (jobCalls [(1, "initBuilder"), (1, "run")]) 3 (job "run") 1 ∧
      isUseName (Text.lower "run") ∧ isBuilderish "run" = false ∧
      isSetupName (Text.lower "run") = false ∧
      SetUpBefore platform (jobCalls [(1, "initBuilder"), (1, "run")]) 3 1 ∧
      Reports platform (jobCalls [(1, "initBuilder"), (1, "run")]) 3 ∧
      (linter platform (scheduler [(1, "initBuilder"), (1, "run")])).findings.length = 1 := by
  have hinit : isSetupName (Text.lower "initBuilder") := by decide +kernel
  refine ⟨callsOn_jobCalls rfl (by decide +kernel), by decide +kernel, by decide +kernel,
    by decide +kernel, ?_, ⟨job "run", 1, by decide +kernel⟩, by decide +kernel⟩
  exact ⟨1, by decide, job "initBuilder", callsOn_jobCalls rfl (by decide +kernel), hinit⟩

end TemporalCoupling

end ClassAudit
