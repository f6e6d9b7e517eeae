import ClassAudit.Analysis
import ClassAudit.Proofs.Reading
import ClassAudit.Proofs.Selection
import ClassAudit.Proofs.Signatures

/-!
# Findings of a selection

What a linter finds depends on the class that it runs on and the package of this class. An analysis
collects this for everything that the rules select, so its findings depend on what is selected and
not on how.

## Main definitions

* `Registry.Uniform` - linters of whole packages do not care which class they are asked about.
* `Config.found` - what the jobs of a configuration find, before it is sorted and marked.
* `Config.Accepted` - a configuration that can be used.

## Main statements

* `Registry.Signed.exists_signature` - jobs of one linter share a signature and report on the
  package of their class.
* `Config.mem_found` - what is found is what the selected linters find.
* `Config.keyed_found` - the order of reports tells all of it apart.
* `analyze_eq` - the outcome of an analysis in terms of what is found.
* `findings_depend_on_selection` - configurations that select the same report the same.
-/

namespace ClassAudit

/-- The classes of a context come from the list that it is made of. -/
theorem PackageContext.classes_ofClasses_subset (cs : List ClassModel) :
    (PackageContext.ofClasses cs).classes ⊆ cs := by
  refine List.foldlRecOn (motive := fun ctx : PackageContext => ctx.classes ⊆ cs) cs insert
    (List.nil_subset _) ?_
  intro ctx hctx c hc d hd
  rw [insert] at hd
  split at hd
  · obtain ⟨e, he, rfl⟩ := List.mem_map.mp hd
    split
    · exact hc
    · exact hctx he
  · obtain hd | hd := List.mem_append.mp hd
    · exact hctx hd
    · exact List.mem_singleton.mp hd ▸ hc

/-! ### Jobs -/

namespace Registry

/-- Linters of whole packages do not care which class of the package they are asked about. -/
def Uniform (r : Registry) : Prop :=
  ∀ name, r.isPackageWide name →
    ∃ make, r.perPackage.lookup name = some make ∧ ∀ c d ctx, make c ctx = make d ctx

theorem uniform_builtin (ns : Namespaces) : (builtin ns).Uniform := by
  intro name hname
  obtain rfl := List.mem_singleton.mp (List.contains_iff_mem.mp hname)
  exact ⟨inPackage CyclicDependency.linter, rfl, fun _ _ _ => rfl⟩

variable {r : Registry}

/-- What a planned job finds: linters of classes in their package are preferred and given the
package, and a linter that is not known finds nothing. -/
theorem findings_jobOf (b : Batch) (linter : String) (c : ClassModel) :
    (Config.jobOf r b (linter, c)).findings r =
      match r.perPackage.lookup linter with
      | some make => (make c (some (b.context c.package))).findings
      | none =>
        match r.perClass.lookup linter with
        | some make => (make c).findings
        | none => [] := by
  cases hpackage : r.perPackage.lookup linter with
  | some make =>
      simp [Config.jobOf, newJob, isPackageLinter, hpackage, Job.findings, Job.run, createPackage,
        Except.map]
  | none =>
      cases hclass : r.perClass.lookup linter with
      | some _ | none =>
          simp [Config.jobOf, newJob, isPackageLinter, hpackage, Job.findings, Job.run, create,
            hclass, Except.map]

/-- Jobs of one linter share a signature and report on the package of their class. -/
theorem Signed.exists_signature (hr : r.Signed) (linter : String) :
    ∃ s : Signature, s.linter = linter ∧ ∀ (b : Batch), ∀ c ∈ b.classes,
      ∀ f ∈ (Config.jobOf r b (linter, c)).findings r,
        ∃ d ∈ b.members c.package, s.Signs d.name f := by
  simp only [findings_jobOf]
  have hself {b : Batch} {c : ClassModel} (hc : c ∈ b.classes) : c ∈ b.members c.package :=
    Batch.mem_members.mpr ⟨hc, rfl⟩
  cases hpackage : r.perPackage.lookup linter with
  | some make =>
      obtain ⟨_, _, hentries, -⟩ := List.lookup_eq_some_iff.mp hpackage
      obtain ⟨s, hname, hs⟩ := hr.perPackage (linter, make) (by simp [hentries])
      refine ⟨s, hname, fun b c hc f hf => ?_⟩
      obtain ⟨className, hmem, hsigns⟩ := hs c _ f hf
      obtain rfl | hmem := List.mem_cons.mp hmem
      · exact ⟨c, hself hc, hsigns⟩
      · obtain ⟨d, hd, rfl⟩ := List.mem_map.mp hmem
        exact ⟨d, PackageContext.classes_ofClasses_subset _ hd, hsigns⟩
  | none =>
      cases hclass : r.perClass.lookup linter with
      | some make =>
          obtain ⟨_, _, hentries, -⟩ := List.lookup_eq_some_iff.mp hclass
          obtain ⟨s, hname, hs⟩ := hr.perClass (linter, make) (by simp [hentries])
          exact ⟨s, hname, fun b c hc f hf => ⟨c, hself hc, hs c f hf⟩⟩
      | none =>
          exact ⟨.fixed linter .style .info, rfl, fun _ _ _ f hf => absurd hf List.not_mem_nil⟩

/-- Jobs that are planned only once find the same. -/
theorem Uniform.findings_jobOf_eq (hr : r.Uniform) {b : Batch} (hb : b.Ascending)
    {linter linter' : String} {c d : ClassModel} (hc : c ∈ b.classes) (hd : d ∈ b.classes)
    (h : Config.runKey r (linter, c) = Config.runKey r (linter', d)) :
    (Config.jobOf r b (linter, c)).findings r = (Config.jobOf r b (linter', d)).findings r := by
  obtain ⟨rfl, hkey⟩ := Prod.mk.inj h
  cases hwide : r.isPackageWide linter with
  | true =>
      simp only [hwide, if_true] at hkey
      obtain ⟨make, hmake, hsame⟩ := hr linter hwide
      rw [findings_jobOf, findings_jobOf, hmake, hkey]
      exact congrArg Linter.findings (hsame c d _)
  | false =>
      simp only [hwide, Bool.false_eq_true, if_false] at hkey
      rw [hb.eq_of_name_eq hc hd hkey]

end Registry

/-! ### Plans -/

namespace Config

/-- What the jobs of a configuration find, before it is sorted and marked. -/
def found (c : Config) (r : Registry) (b : Batch) : List Finding :=
  (c.plan r b).jobs.flatMap (·.findings r)

variable {c : Config} {r : Registry} {b : Batch}

theorem selects_of_mem_firstByKey (hb : b.Ascending) {linter : String} {cls : ClassModel}
    (h : (linter, cls) ∈ firstByKey (runKey r) [] (c.selections r b)) :
    c.Selects r b linter cls :=
  (mem_selections hb).mp (firstByKey_subset _ _ _ h)

/-- Of what is selected, something with the same key is planned. -/
theorem Selects.exists_mem_firstByKey (hb : b.Ascending) {linter : String} {cls : ClassModel}
    (h : c.Selects r b linter cls) :
    ∃ linter' cls', (linter', cls') ∈ firstByKey (runKey r) [] (c.selections r b) ∧
      runKey r (linter', cls') = runKey r (linter, cls) := by
  obtain hseen | ⟨⟨linter', cls'⟩, hkept, hkey⟩ :=
    ClassAudit.exists_mem_firstByKey (runKey r) [] ((mem_selections hb).mpr h)
  · exact absurd hseen List.not_mem_nil
  · exact ⟨linter', cls', hkept, hkey⟩

/-- What is found is what the selected linters find. -/
theorem mem_found (hr : r.Uniform) (hb : b.Ascending) {f : Finding} :
    f ∈ c.found r b ↔ ∃ linter cls, c.Selects r b linter cls ∧
      f ∈ (jobOf r b (linter, cls)).findings r := by
  simp only [found, plan, List.mem_flatMap, List.mem_map]
  constructor
  · rintro ⟨_, ⟨⟨linter, cls⟩, hmem, rfl⟩, hf⟩
    exact ⟨linter, cls, selects_of_mem_firstByKey hb hmem, hf⟩
  · rintro ⟨linter, cls, hselects, hf⟩
    obtain ⟨linter', cls', hkept, hkey⟩ := hselects.exists_mem_firstByKey hb
    have hcls' := (selects_of_mem_firstByKey hb hkept).1
    rw [← hr.findings_jobOf_eq hb hcls' hselects.1 hkey] at hf
    exact ⟨_, ⟨_, hkept, rfl⟩, hf⟩

/-- There is nothing to do exactly if nothing is selected. -/
theorem jobs_eq_nil_iff (hb : b.Ascending) :
    (c.plan r b).jobs = [] ↔ ∀ linter cls, ¬c.Selects r b linter cls := by
  rw [plan, List.map_eq_nil_iff, List.eq_nil_iff_forall_not_mem]
  constructor
  · intro h linter cls hselects
    obtain ⟨linter', cls', hkept, -⟩ := hselects.exists_mem_firstByKey hb
    exact h _ hkept
  · exact fun h _ hmem => h _ _ (selects_of_mem_firstByKey hb hmem)

/-- The order of reports tells everything apart that is found. -/
theorem keyed_found (c : Config) (hr : r.Signed) (hu : r.Uniform) (hb : b.Ascending) :
    Finding.Keyed (c.found r b) := by
  intro f hf g hg h
  obtain ⟨linter, cls, hselects, hf⟩ := (mem_found hu hb).mp hf
  obtain ⟨linter', cls', hselects', hg⟩ := (mem_found hu hb).mp hg
  obtain ⟨s, hs, hsigns⟩ := hr.exists_signature linter
  obtain ⟨s', hs', hsigns'⟩ := hr.exists_signature linter'
  obtain ⟨d, -, hd⟩ := hsigns b cls hselects.1 f hf
  obtain ⟨d', -, hd'⟩ := hsigns' b cls' hselects'.1 g hg
  -- findings that are not told apart bear the name of the same linter
  obtain rfl : linter = linter' := by
    rw [← hs, ← hs', ← hd.linter_eq, ← hd'.linter_eq]
    exact (Finding.compare_eq_iff.mp h).2.1
  obtain ⟨d', -, hd'⟩ := hsigns b cls' hselects'.1 g hg
  exact hd.eq_of_compare hd' h

/-- The configuration can be used. -/
def Accepted (c : Config) : Prop := c.problems (.builtin c.namespaces) = []

instance : DecidablePred Accepted := fun _ => inferInstanceAs (Decidable (_ = _))

end Config

/-! ### Analyses -/

/-- The findings of an analysis are what is found, each once, sorted and marked. -/
theorem map_findings_analyze {c : Config} (hc : c.Accepted) (b : Batch) (cancelled : Bool) :
    (analyze c b cancelled).map (·.report.findings) =
      if b.classes = [] then .error .noClasses
      else if cancelled ∧ (c.plan (.builtin c.namespaces) b).jobs ≠ [] then .error (.cancelled {})
      else .ok (Suppression.apply c.suppress
        (Finding.sort (c.found (.builtin c.namespaces) b).eraseDups)) := by
  have hvalid : analyze c b cancelled = analyzeValid (.builtin c.namespaces) c b cancelled := by
    rw [analyze, hc]
    rfl
  rw [hvalid, analyzeValid]
  dsimp only [runJobs]
  by_cases hb : b.classes = []
  · rw [if_pos hb, hb]
    rfl
  rw [if_neg hb, if_neg (by simpa using hb)]
  by_cases hcancelled : cancelled ∧ (c.plan (.builtin c.namespaces) b).jobs ≠ []
  · rw [if_pos hcancelled, if_pos (by simpa using hcancelled)]
    rfl
  · rw [if_neg hcancelled, if_neg (by simpa using hcancelled)]
    rfl

/-- An analysis of classes that is not cancelled has an outcome. -/
theorem exists_analyze_eq_ok {c : Config} (hc : c.Accepted) {b : Batch} (hb : b.classes ≠ []) :
    ∃ a, analyze c b false = .ok a ∧ a.report.findings = Suppression.apply c.suppress
      (Finding.sort (c.found (.builtin c.namespaces) b).eraseDups) := by
  have h := map_findings_analyze hc b false
  rw [if_neg hb, if_neg (by simp)] at h
  exact except_map_eq_ok.mp h

/-- **Findings depend on what is selected, not on how.** Two configurations that select the same
linters for the same classes report the same findings in the same order, and if there are classes
they do report. -/
theorem findings_depend_on_selection {c₁ c₂ : Config} {b : Batch} (hb : b.Ascending)
    (h₁ : c₁.Accepted) (h₂ : c₂.Accepted) (hsuppress : c₁.suppress = c₂.suppress)
    (hplatform : c₁.platform = c₂.platform)
    (hselects : ∀ linter cls, c₁.Selects (.builtin c₁.namespaces) b linter cls ↔
      c₂.Selects (.builtin c₂.namespaces) b linter cls) :
    (∀ cancelled, (analyze c₁ b cancelled).map (·.report.findings) =
      (analyze c₂ b cancelled).map (·.report.findings)) ∧
    (b.classes ≠ [] → ∃ a, analyze c₁ b false = .ok a) := by
  have hnamespaces : c₁.namespaces = c₂.namespaces := congrArg Namespaces.ofPrefixes hplatform
  have huniform := Registry.uniform_builtin c₂.namespaces
  rw [hnamespaces] at hselects
  have hjobs : (c₁.plan (.builtin c₂.namespaces) b).jobs = [] ↔
      (c₂.plan (.builtin c₂.namespaces) b).jobs = [] := by
    rw [Config.jobs_eq_nil_iff hb, Config.jobs_eq_nil_iff hb]
    simp only [hselects]
  have hfound : Finding.sort (c₁.found (.builtin c₂.namespaces) b).eraseDups =
      Finding.sort (c₂.found (.builtin c₂.namespaces) b).eraseDups := by
    have hkeyed := (c₁.keyed_found (Registry.signed_builtin _) huniform hb).eraseDups
    refine hkeyed.sort_eq_of_mem_iff (nodup_eraseDups _) (nodup_eraseDups _) fun f => ?_
    rw [List.mem_eraseDups, List.mem_eraseDups, Config.mem_found huniform hb,
      Config.mem_found huniform hb]
    simp only [hselects]
  refine ⟨fun cancelled => ?_, fun hne => (exists_analyze_eq_ok h₁ hne).imp fun _ => And.left⟩
  rw [map_findings_analyze h₁, map_findings_analyze h₂, hnamespaces, hfound, hsuppress]
  simp only [ne_eq, hjobs]

/-- Two classes of one package, of which the first has `equals` without `hashCode`. -/
def smallPackage : Batch where
  classes := [
    { name := "p/A", methods := [⟨"equals", "(Ljava/lang/Object;)Z", ⟨1⟩, {}, []⟩] },
    { name := "p/B" }]

/-- Every linter on every class, by a single rule. -/
def everything : Config where
  linters := [{ name := "*", all := true }]

/-- Every linter on every class of `smallPackage`, and one of them twice. -/
def piecemeal : Config where
  linters := [
    { name := "EqualsHashCode", classes := ["p.A", "p/A"] },
    { name := "*", classes := ["p.B"], packages := ["p"] }]

/-- Overlapping rules report what the single rule does. -/
theorem piecemeal_findings :
    (analyze everything smallPackage false).map (·.report.findings) =
      (analyze piecemeal smallPackage false).map (·.report.findings) ∧
    ∃ a, analyze everything smallPackage false = .ok a := by
  have hascending : smallPackage.Ascending := by decide
  have heverything : everything.Accepted := by decide +kernel
  have hpiecemeal : piecemeal.Accepted := by decide +kernel
  have hselects (linter : String) (cls : ClassModel) :
      everything.Selects (.builtin everything.namespaces) smallPackage linter cls ↔
        piecemeal.Selects (.builtin piecemeal.namespaces) smallPackage linter cls := by
    constructor
    · rintro ⟨hcls, r, hr, hexpands, -⟩
      obtain rfl := List.mem_singleton.mp hr
      refine ⟨hcls, _, List.mem_cons_of_mem _ List.mem_cons_self, hexpands, .inr (.inr ?_)⟩
      obtain rfl | rfl : cls = _ ∨ cls = _ := by simpa [smallPackage] using hcls
      · exact ⟨"p", List.mem_singleton_self _, by decide +kernel⟩
      · exact ⟨"p", List.mem_singleton_self _, by decide +kernel⟩
    · rintro ⟨hcls, r, hr, hexpands, -⟩
      refine ⟨hcls, _, List.mem_singleton_self _, ?_, .inl rfl⟩
      obtain rfl | rfl : r = _ ∨ r = _ := by simpa [piecemeal] using hr
      · obtain rfl : "EqualsHashCode" = linter := hexpands
        decide +kernel
      · exact hexpands
  obtain ⟨hsame, hreports⟩ :=
    findings_depend_on_selection hascending heverything hpiecemeal rfl rfl hselects
  exact ⟨hsame false, hreports (by decide)⟩

end ClassAudit
