import ClassAudit.Detectors.Catalogue
import ClassAudit.Proofs.DependencyNodes
import ClassAudit.Proofs.FindingOrder

/-!
# Signatures of linters

Whatever a linter reports bears its name and its category, and how grave it is can be told from the
message. So two findings of one linter are the same as soon as the order of reports does not tell
them apart.

## Main definitions

* `Signature` - what the findings of a linter have in common; `Signature.Signs` - a finding has it.
* `Registry.Signed` - every linter of a registry has a signature, and reports only on the class and
  the package that it is given.

## Main statements

* `Signature.Signs.eq_of_compare` - the order of reports tells the findings of a linter apart.
* `Registry.signed_builtin` - the built-in linters have signatures.
-/

namespace ClassAudit

/-- What the findings of a linter have in common. -/
structure Signature where
  linter : String
  category : Category
  /-- How grave a finding is, by its message. -/
  rank : String → Severity

namespace Signature

/-- All findings are equally grave. -/
def fixed (linter : String) (category : Category) (severity : Severity) : Signature :=
  ⟨linter, category, fun _ => severity⟩

/-- Findings whose messages begin with `start` are of another severity than the others. -/
def twofold (linter : String) (category : Category) (start : String) (severity other : Severity) :
    Signature :=
  ⟨linter, category, fun message => if Text.startsWith message start then severity else other⟩

/-- The finding is about the class, bears the signature and no mark. -/
def Signs (s : Signature) (className : String) (f : Finding) : Prop :=
  ∃ member line message, f =
    Origin.finding ⟨s.linter, s.category, className⟩ (s.rank message) member line message

section

variable {s : Signature} {className : String}

/-- The order of reports tells findings of one linter apart. -/
theorem Signs.eq_of_compare {className' : String} {f g : Finding} (hf : s.Signs className f)
    (hg : s.Signs className' g) (h : f.compare g = .eq) : f = g := by
  obtain ⟨member, line, message, rfl⟩ := hf
  obtain ⟨member', line', message', rfl⟩ := hg
  obtain ⟨hclass, -, hline, hmember, hmessage⟩ := Finding.compare_eq_iff.mp h
  obtain rfl : className = className' := hclass
  obtain rfl : line = line' := hline
  obtain rfl : member = member' := hmember
  obtain rfl : message = message' := hmessage
  rfl

theorem Signs.className_eq {f : Finding} (h : s.Signs className f) : f.className = className := by
  obtain ⟨_, _, _, rfl⟩ := h
  rfl

theorem Signs.linter_eq {f : Finding} (h : s.Signs className f) : f.linter = s.linter := by
  obtain ⟨_, _, _, rfl⟩ := h
  rfl

theorem signs_of_rank {message : String} {severity : Severity} (h : s.rank message = severity)
    (member : String) (line : Int) :
    s.Signs className
      (Origin.finding ⟨s.linter, s.category, className⟩ severity member line message) :=
  ⟨member, line, message, h ▸ rfl⟩

theorem signs_fixed {linter : String} {category : Category} {severity : Severity}
    {member : String} {line : Int} {message : String} :
    (fixed linter category severity).Signs className
      (Origin.finding ⟨linter, category, className⟩ severity member line message) :=
  signs_of_rank rfl member line

section Twofold

variable {linter start member message : String} {category : Category} {severity other : Severity}
  {line : Int}

theorem signs_twofold (h : Text.startsWith message start = true) :
    (twofold linter category start severity other).Signs className
      (Origin.finding ⟨linter, category, className⟩ severity member line message) :=
  signs_of_rank (if_pos h) member line

theorem signs_twofold_other (h : Text.startsWith message start = false) :
    (twofold linter category start severity other).Signs className
      (Origin.finding ⟨linter, category, className⟩ other member line message) :=
  signs_of_rank (if_neg (Bool.not_eq_true _ ▸ h)) member line

end Twofold

end

/-! ### Lists of findings -/

/-- Every finding is about the class and bears the signature. -/
def SignsAll (s : Signature) (className : String) (fs : List Finding) : Prop :=
  ∀ f ∈ fs, s.Signs className f

section

variable {s : Signature} {className : String} {f : Finding} {fs gs : List Finding}

theorem signsAll_nil : s.SignsAll className [] := List.forall_mem_nil _

theorem Signs.cons (hf : s.Signs className f) (hfs : s.SignsAll className fs) :
    s.SignsAll className (f :: fs) :=
  List.forall_mem_cons.mpr ⟨hf, hfs⟩

theorem Signs.singleton (hf : s.Signs className f) : s.SignsAll className [f] :=
  hf.cons signsAll_nil

theorem SignsAll.append (hfs : s.SignsAll className fs) (hgs : s.SignsAll className gs) :
    s.SignsAll className (fs ++ gs) :=
  List.forall_mem_append.mpr ⟨hfs, hgs⟩

theorem SignsAll.ite {p : Prop} [Decidable p] (hfs : s.SignsAll className fs)
    (hgs : s.SignsAll className gs) : s.SignsAll className (if p then fs else gs) := by
  split
  · exact hfs
  · exact hgs

theorem signsAll_map {α : Type} {as : List α} {g : α → Finding}
    (h : ∀ a, s.Signs className (g a)) : s.SignsAll className (as.map g) :=
  List.forall_mem_map.mpr fun a _ => h a

theorem signsAll_flatMap {α : Type} {as : List α} {g : α → List Finding}
    (h : ∀ a, s.SignsAll className (g a)) : s.SignsAll className (as.flatMap g) :=
  List.forall_mem_flatMap.mpr fun a _ => h a

theorem signsAll_filterMap {α : Type} {as : List α} {g : α → Option Finding}
    (h : ∀ a f, g a = some f → s.Signs className f) : s.SignsAll className (as.filterMap g) :=
  List.forall_mem_filterMap.mpr fun a _ => h a

end

end Signature

open Signature

/-! ### The built-in linters -/

theorem EqualsHashCode.signsAll (c : ClassModel) :
    (fixed name .style .error).SignsAll c.name (linter c).findings := by
  rw [linter]
  dsimp only
  split
  · exact signs_fixed.singleton
  · exact signs_fixed.singleton
  · exact signsAll_nil

theorem DeadCode.signsAll (c : ClassModel) :
    (fixed name .style .error).SignsAll c.name (linter c).findings :=
  signsAll_flatMap fun _ => signsAll_map fun _ => signs_fixed

theorem UnusedVariables.signsAll (c : ClassModel) :
    (fixed name .style .warning).SignsAll c.name (linter c).findings := by
  refine .append (.append ?_ ?_) ?_
  · exact signsAll_map fun _ => signs_fixed
  · exact signsAll_map fun _ => signs_fixed
  · exact signsAll_flatMap fun _ => signsAll_map fun _ => signs_fixed

theorem FeatureEnvy.signsAll (c : ClassModel) :
    (fixed name .style .warning).SignsAll c.name (linter c).findings := by
  refine signsAll_flatMap fun m => signsAll_filterMap fun owner f h => ?_
  dsimp only at h
  split at h
  · exact nomatch h
  · exact Option.some.inj h ▸ signs_fixed

theorem DemeterPrinciple.signsAll (c : ClassModel) :
    (fixed name .principle .warning).SignsAll c.name (linter c).findings :=
  signsAll_flatMap fun _ => signsAll_map fun _ => signs_fixed

theorem HollywoodPrinciple.signsAll (ns : Namespaces) (c : ClassModel) :
    (fixed name .principle .warning).SignsAll c.name (linter ns c).findings := by
  refine signsAll_filterMap fun m f h => ?_
  dsimp only at h
  split at h
  · exact nomatch h
  · exact Option.some.inj h ▸ signs_fixed

theorem TemporalCoupling.signsAll (ns : Namespaces) (c : ClassModel) :
    (fixed name .principle .warning).SignsAll c.name (linter ns c).findings :=
  signsAll_flatMap fun _ => signsAll_map fun _ => signs_fixed

/-- A class that merely could be final is worth knowing, everything else is probably a mistake. -/
theorem OpenClosedPrinciple.signsAll (c : ClassModel) :
    (twofold name .principle "class exposes " .info .warning).SignsAll c.name
      (linter c).findings := by
  refine .ite signsAll_nil (.append (.append (.append ?_ ?_) ?_) ?_)
  · refine .ite signsAll_nil (signs_twofold_other ?_).singleton
    simp only [Text.startsWith, String.toList_append, List.append_assoc]
    rfl
  · refine .ite (signs_twofold_other ?_).singleton signsAll_nil
    simp only [Text.startsWith, String.toList_append, List.append_assoc]
    rfl
  · refine .ite (signs_twofold ?_).singleton signsAll_nil
    simp only [Text.startsWith, String.toList_append, List.append_assoc]
    rfl
  · refine .ite (signs_twofold_other ?_).singleton signsAll_nil
    simp only [Text.startsWith, String.toList_append, List.append_assoc]
    rfl

theorem SingleResponsibilityPrinciple.signsAll (c : ClassModel) :
    (fixed name .principle .warning).SignsAll c.name (linter c).findings := by
  refine .ite signsAll_nil (.append (.append (.append ?_ ?_) ?_) ?_)
  all_goals exact .ite signs_fixed.singleton signsAll_nil

theorem StrategyPattern.signsAll (ns : Namespaces) (c : ClassModel) :
    (fixed name .pattern .info).SignsAll c.name (linter ns c).findings := by
  refine signsAll_filterMap fun field f h => ?_
  split at h
  · exact nomatch h
  · exact Option.some.inj h ▸ signs_fixed

theorem AdapterPattern.signsAll (c : ClassModel) :
    (fixed name .pattern .info).SignsAll c.name (linter c).findings := by
  rw [linter]
  dsimp only
  split
  · exact .ite signs_fixed.singleton signsAll_nil
  · exact signsAll_nil

theorem DecoratorPattern.signsAll (c : ClassModel) :
    (fixed name .pattern .warning).SignsAll c.name (linter c).findings := by
  refine .ite ?_ signsAll_nil
  split
  · exact signs_fixed.singleton
  · refine .append (.append (.append ?_ ?_) ?_) ?_
    · exact .ite signs_fixed.singleton signsAll_nil
    all_goals exact .ite signsAll_nil signs_fixed.singleton

/-- Only a subject that cannot be left is probably a mistake. -/
theorem ObserverPattern.signsAll (c : ClassModel) (ctx : PackageContext) :
    (twofold name .pattern "observer subject has " .warning .info).SignsAll c.name
      (linter c ctx).findings := by
  refine .append (.ite ?_ signsAll_nil) ?_
  · split
    · exact (signs_twofold_other rfl).cons (.ite signsAll_nil (signs_twofold rfl).singleton)
    · exact signsAll_nil
  · split
    · refine (signs_twofold_other ?_).singleton
      rw [Text.startsWith, String.toList_append]
      rfl
    · exact signsAll_nil

theorem DependencyInversionPrinciple.signsAll (ns : Namespaces) (c : ClassModel)
    (ctx : PackageContext) :
    (fixed name .principle .warning).SignsAll c.name (linter ns c ctx).findings := by
  refine .ite (.append ?_ ?_) signsAll_nil
  · refine signsAll_filterMap fun field f h => ?_
    split at h
    · split at h
      · exact Option.some.inj h ▸ signs_fixed
      · exact nomatch h
    · exact nomatch h
  · exact signsAll_flatMap fun m =>
      .append (signsAll_map fun _ => signs_fixed) (signsAll_map fun _ => signs_fixed)

theorem MissingImplementation.signsAll (c : ClassModel) (ctx : PackageContext) :
    (fixed name .style .error).SignsAll c.name (linter c ctx).findings :=
  .ite (signsAll_map fun _ => signs_fixed) signsAll_nil

/-- Circles are reported at classes of the package. -/
theorem CyclicDependency.exists_signs (c : ClassModel) (ctx : PackageContext) {f : Finding}
    (hf : f ∈ (linter c ctx).findings) :
    ∃ className ∈ ctx.classes.map (·.name), (fixed name .principle .warning).Signs className f := by
  obtain ⟨cycle, hcycle, rfl⟩ := List.mem_map.mp hf
  obtain ⟨hclosed, hnodes⟩ := DependencyGraph.closed_ofContext ctx
  obtain ⟨hne, hcycle⟩ := hclosed.mem_components hcycle
  obtain ⟨first, rest, rfl⟩ := List.exists_cons_of_ne_nil hne
  exact ⟨first, hnodes (hcycle List.mem_cons_self), signs_fixed⟩

/-! ### Registries -/

namespace Registry

/-- Every linter of the registry has a signature, and reports only on the class that it is given
and on classes of its package. -/
structure Signed (r : Registry) : Prop where
  perClass : ∀ e ∈ r.perClass, ∃ s : Signature, s.linter = e.1 ∧
    ∀ c, s.SignsAll c.name (e.2 c).findings
  perPackage : ∀ e ∈ r.perPackage, ∃ s : Signature, s.linter = e.1 ∧
    ∀ c ctx, ∀ f ∈ (e.2 c ctx).findings,
      ∃ className ∈ c.name :: (ctx.getD .empty).classes.map (·.name), s.Signs className f

namespace Signed

variable {r : Registry} {description : String}

theorem withClass {make : ClassModel → Linter} {s : Signature} (hr : r.Signed)
    (hmake : ∀ c, s.SignsAll c.name (make c).findings) :
    (r.withClass s.linter description make).Signed :=
  ⟨List.forall_mem_cons.mpr ⟨⟨s, rfl, hmake⟩, hr.perClass⟩, hr.perPackage⟩

theorem withPackage {make : ClassModel → PackageContext → Linter} {s : Signature} (hr : r.Signed)
    (hmake : ∀ c ctx, s.SignsAll c.name (make c ctx).findings) :
    (r.withPackage s.linter description make).Signed := by
  refine ⟨hr.perClass, List.forall_mem_cons.mpr ⟨⟨s, rfl, fun c ctx f hf => ?_⟩, hr.perPackage⟩⟩
  exact ⟨c.name, List.mem_cons_self, hmake c _ f hf⟩

theorem withPackageWide {make : ClassModel → PackageContext → Linter} {s : Signature}
    (hr : r.Signed) (hmake : ∀ c ctx, ∀ f ∈ (make c ctx).findings,
      ∃ className ∈ ctx.classes.map (·.name), s.Signs className f) :
    ((r.registerPackageWide s.linter (inPackage make)).describe s.linter description).Signed := by
  refine ⟨hr.perClass, List.forall_mem_cons.mpr ⟨⟨s, rfl, fun c ctx f hf => ?_⟩, hr.perPackage⟩⟩
  obtain ⟨className, hmem, hsigns⟩ := hmake c _ f hf
  exact ⟨className, List.mem_cons_of_mem _ hmem, hsigns⟩

end Signed

/-- The built-in linters have signatures. -/
theorem signed_builtin (ns : Namespaces) : (builtin ns).Signed := by
  have hempty : ({} : Registry).Signed :=
    ⟨fun e he => absurd he List.not_mem_nil, fun e he => absurd he List.not_mem_nil⟩
  exact hempty
    |>.withClass EqualsHashCode.signsAll
    |>.withClass DeadCode.signsAll
    |>.withClass UnusedVariables.signsAll
    |>.withClass FeatureEnvy.signsAll
    |>.withClass DemeterPrinciple.signsAll
    |>.withClass (HollywoodPrinciple.signsAll ns)
    |>.withClass (TemporalCoupling.signsAll ns)
    |>.withClass OpenClosedPrinciple.signsAll
    |>.withClass SingleResponsibilityPrinciple.signsAll
    |>.withClass (StrategyPattern.signsAll ns)
    |>.withClass AdapterPattern.signsAll
    |>.withClass DecoratorPattern.signsAll
    |>.withClass (ObserverPattern.signsAll · .empty)
    |>.withPackage ObserverPattern.signsAll
    |>.withPackageWide (fun c ctx _ => CyclicDependency.exists_signs c ctx)
    |>.withPackage (DependencyInversionPrinciple.signsAll ns)
    |>.withPackage MissingImplementation.signsAll

end Registry

end ClassAudit
