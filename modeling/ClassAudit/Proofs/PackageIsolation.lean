import ClassAudit.Proofs.SelectedFindings

/-!
# Packages do not interfere

Linters look at a class and its package. So when two batches have no package in common, analysing
them together reports what analysing them apart does.

## Main definitions

* `Batch.Splits` - a batch consists of two others that have no package in common.

## Main statements

* `Batch.splits_sortClasses` - batches without a common package are merged by sorting.
* `Batch.Splits.jobOf_eq` - a linter does not see the other part of a batch.
* `packages_do_not_interfere` - analysing together reports what analysing apart does.
-/

namespace ClassAudit

namespace Batch

/-- Lists of classes in ascending order of names are settled by their elements. -/
theorem eq_of_ascending {cs ds : List ClassModel} (hcs : cs.Pairwise fun c d => c.name < d.name)
    (hds : ds.Pairwise fun c d => c.name < d.name) (h : ∀ c, c ∈ cs ↔ c ∈ ds) : cs = ds := by
  have hnodup {es : List ClassModel} (hes : es.Pairwise fun c d => c.name < d.name) : es.Nodup :=
    List.Pairwise.imp (fun hlt heq => String.ne_of_lt hlt (congrArg _ heq)) hes
  refine List.Perm.eq_of_pairwise (fun c d _ _ hcd hdc => absurd hcd (String.lt_asymm hdc)) hcs hds
    ((List.perm_ext_iff_of_nodup (hnodup hcs) (hnodup hds)).mpr h)

/-- Sorting classes with different names makes their names ascend. -/
theorem pairwise_sortClasses {cs : List ClassModel} (h : (cs.map (·.name)).Nodup) :
    (sortClasses cs).Pairwise fun c d => c.name < d.name := by
  have hsorted : (sortClasses cs).Pairwise fun c d => decide (c.name ≤ d.name) :=
    List.pairwise_mergeSort (fun a b c => by simpa using String.le_trans)
      (fun a b => by simpa using String.le_total a.name b.name) cs
  have hnames : (sortClasses cs).Pairwise fun c d => c.name ≠ d.name :=
    List.pairwise_map.mp (((List.mergeSort_perm cs _).map _).nodup_iff.mpr h)
  refine hsorted.imp₂ (fun c d hle hne => String.not_le.mp fun hge => hne ?_) hnames
  exact String.le_antisymm (of_decide_eq_true hle) hge

/-- The batch consists of two others that have no package in common. -/
structure Splits (b b₁ b₂ : Batch) : Prop where
  ascending : b.Ascending
  left : b₁.Ascending
  right : b₂.Ascending
  mem_iff : ∀ c, c ∈ b.classes ↔ c ∈ b₁.classes ∨ c ∈ b₂.classes
  apart : ∀ c ∈ b₁.classes, ∀ d ∈ b₂.classes, c.package ≠ d.package

/-- Batches without a common package are merged by sorting their classes. -/
theorem splits_sortClasses {b b₁ b₂ : Batch} (h₁ : b₁.Ascending) (h₂ : b₂.Ascending)
    (hapart : ∀ c ∈ b₁.classes, ∀ d ∈ b₂.classes, c.package ≠ d.package)
    (hb : b.classes = sortClasses (b₁.classes ++ b₂.classes)) : b.Splits b₁ b₂ := by
  have hnames : ((b₁.classes ++ b₂.classes).map (·.name)).Nodup := by
    refine List.pairwise_map.mpr (List.pairwise_append.mpr ⟨?_, ?_, ?_⟩)
    · exact List.Pairwise.imp String.ne_of_lt h₁
    · exact List.Pairwise.imp String.ne_of_lt h₂
    · exact fun c hc d hd hname => hapart c hc d hd (congrArg packageOf hname)
  refine ⟨?_, h₁, h₂, fun c => ?_, hapart⟩
  · rw [Ascending, hb]
    exact pairwise_sortClasses hnames
  · rw [hb, sortClasses, List.mem_mergeSort, List.mem_append]

namespace Splits

variable {b b₁ b₂ : Batch}

theorem symm (h : b.Splits b₁ b₂) : b.Splits b₂ b₁ :=
  ⟨h.ascending, h.right, h.left, fun c => (h.mem_iff c).trans or_comm,
    fun c hc d hd heq => h.apart d hd c hc heq.symm⟩

/-- The package of a class of one part has no classes in the other. -/
theorem members_eq (h : b.Splits b₁ b₂) {c : ClassModel} (hc : c ∈ b₁.classes) :
    b.members c.package = b₁.members c.package := by
  refine eq_of_ascending (h.ascending.filter _) (h.left.filter _) fun d => ?_
  rw [mem_members, mem_members, h.mem_iff]
  refine and_congr_left fun hpackage => or_iff_left fun hd => ?_
  exact h.apart c hc d hd hpackage.symm

/-- A linter does not see the other part of a batch. -/
theorem jobOf_eq (h : b.Splits b₁ b₂) (r : Registry) (linter : String) {c : ClassModel}
    (hc : c ∈ b₁.classes) : Config.jobOf r b (linter, c) = Config.jobOf r b₁ (linter, c) := by
  rw [Config.jobOf, Config.jobOf, context, context, h.members_eq hc]

/-- What is found in a batch is what is found in its parts. -/
theorem mem_found (h : b.Splits b₁ b₂) {c : Config} {r : Registry} (hr : r.Uniform) {f : Finding} :
    f ∈ c.found r b ↔ f ∈ c.found r b₁ ∨ f ∈ c.found r b₂ := by
  rw [Config.mem_found hr h.ascending, Config.mem_found hr h.left, Config.mem_found hr h.right]
  constructor
  · rintro ⟨linter, cls, ⟨hcls, hrule⟩, hf⟩
    obtain hcls | hcls := (h.mem_iff cls).mp hcls
    · rw [h.jobOf_eq r linter hcls] at hf
      exact .inl ⟨linter, cls, ⟨hcls, hrule⟩, hf⟩
    · rw [h.symm.jobOf_eq r linter hcls] at hf
      exact .inr ⟨linter, cls, ⟨hcls, hrule⟩, hf⟩
  · rintro (⟨linter, cls, ⟨hcls, hrule⟩, hf⟩ | ⟨linter, cls, ⟨hcls, hrule⟩, hf⟩)
    · rw [← h.jobOf_eq r linter hcls] at hf
      exact ⟨linter, cls, ⟨(h.mem_iff cls).mpr (.inl hcls), hrule⟩, hf⟩
    · rw [← h.symm.jobOf_eq r linter hcls] at hf
      exact ⟨linter, cls, ⟨(h.mem_iff cls).mpr (.inr hcls), hrule⟩, hf⟩

end Splits

end Batch

/-- Findings are about classes of the batch. -/
theorem Config.exists_className_eq {c : Config} {r : Registry} {b : Batch} (hr : r.Signed)
    (hu : r.Uniform) (hb : b.Ascending) {f : Finding} (hf : f ∈ c.found r b) :
    ∃ d ∈ b.classes, f.className = d.name := by
  obtain ⟨linter, cls, hselects, hf⟩ := (mem_found hu hb).mp hf
  obtain ⟨s, -, hsigns⟩ := hr.exists_signature linter
  obtain ⟨d, hd, hs⟩ := hsigns b cls hselects.1 f hf
  exact ⟨d, (Batch.mem_members.mp hd).1, hs.className_eq⟩

namespace Batch.Splits

variable {b b₁ b₂ : Batch} {c : Config} {r : Registry}

/-- The parts of a batch have no findings about the same class. -/
theorem className_ne (h : b.Splits b₁ b₂) (hr : r.Signed) (hu : r.Uniform) {f g : Finding}
    (hf : f ∈ c.found r b₁) (hg : g ∈ c.found r b₂) : f.className ≠ g.className := by
  obtain ⟨d, hd, hname⟩ := Config.exists_className_eq hr hu h.left hf
  obtain ⟨e, he, hname'⟩ := Config.exists_className_eq hr hu h.right hg
  intro heq
  exact h.apart d hd e he (congrArg packageOf (hname.symm.trans (heq.trans hname')))

/-- The sorted findings of a batch are those of its parts, sorted together. -/
theorem sort_found (h : b.Splits b₁ b₂) (hr : r.Signed) (hu : r.Uniform) :
    Finding.sort (c.found r b).eraseDups =
      Finding.sort (Finding.sort (c.found r b₁).eraseDups ++
        Finding.sort (c.found r b₂).eraseDups) := by
  have hnodup (fs : List Finding) : (Finding.sort fs.eraseDups).Nodup :=
    (Finding.perm_sort _).nodup_iff.mpr (nodup_eraseDups fs)
  have hkeyed := (c.keyed_found hr hu h.ascending).eraseDups
  refine hkeyed.sort_eq_of_mem_iff (nodup_eraseDups _) ?_ fun f => ?_
  · refine List.nodup_append.mpr ⟨hnodup _, hnodup _, fun f hf g hg heq => ?_⟩
    rw [Finding.mem_sort, List.mem_eraseDups] at hf hg
    exact h.className_ne hr hu hf hg (congrArg _ heq)
  · rw [List.mem_append, Finding.mem_sort, Finding.mem_sort, List.mem_eraseDups, List.mem_eraseDups,
      List.mem_eraseDups, h.mem_found hu]

end Batch.Splits

/-- **Packages do not interfere.** Two batches without a common package, analysed together, give the
findings of the one and of the other, with the same marks; none of them gives both. -/
theorem packages_do_not_interfere {c : Config} (hc : c.Accepted) {b b₁ b₂ : Batch}
    (h₁ : b₁.Ascending) (h₂ : b₂.Ascending) (hne₁ : b₁.classes ≠ []) (hne₂ : b₂.classes ≠ [])
    (hapart : ∀ c₁ ∈ b₁.classes, ∀ c₂ ∈ b₂.classes, c₁.package ≠ c₂.package)
    (hb : b.classes = Batch.sortClasses (b₁.classes ++ b₂.classes)) :
    ∃ a a₁ a₂, analyze c b false = .ok a ∧ analyze c b₁ false = .ok a₁ ∧
      analyze c b₂ false = .ok a₂ ∧
      a.report.findings = Finding.sort (a₁.report.findings ++ a₂.report.findings) ∧
      ∀ f ∈ a₁.report.findings, ∀ g ∈ a₂.report.findings, f.className ≠ g.className := by
  have hsplits := Batch.splits_sortClasses h₁ h₂ hapart hb
  have hsigned := Registry.signed_builtin c.namespaces
  have huniform := Registry.uniform_builtin c.namespaces
  have hne : b.classes ≠ [] := by
    obtain ⟨d, rest, hd⟩ := List.exists_cons_of_ne_nil hne₁
    exact List.ne_nil_of_mem ((hsplits.mem_iff d).mpr (.inl (hd ▸ List.mem_cons_self)))
  obtain ⟨a, ha, hfindings⟩ := exists_analyze_eq_ok hc hne
  obtain ⟨a₁, ha₁, hfindings₁⟩ := exists_analyze_eq_ok hc hne₁
  obtain ⟨a₂, ha₂, hfindings₂⟩ := exists_analyze_eq_ok hc hne₂
  refine ⟨a, a₁, a₂, ha, ha₁, ha₂, ?_, ?_⟩
  · rw [hfindings, hfindings₁, hfindings₂, hsplits.sort_found hsigned huniform,
      ← Suppression.sort_apply, Suppression.apply, List.map_append]
    rfl
  · rw [hfindings₁, hfindings₂]
    intro f hf g hg
    obtain ⟨f, hfound, rfl⟩ := List.mem_map.mp hf
    obtain ⟨g, hfound', rfl⟩ := List.mem_map.mp hg
    rw [Finding.mem_sort, List.mem_eraseDups] at hfound hfound'
    rw [Suppression.className_mark, Suppression.className_mark]
    exact hsplits.className_ne hsigned huniform hfound hfound'

/-- Two classes of other packages than `smallPackage`, one before it and one behind it. -/
def neighbours : Batch where
  classes := [
    { name := "a/C" },
    { name := "q/D", methods := [⟨"hashCode", "()I", ⟨1⟩, {}, []⟩] }]

/-- Every linter on every class, where findings about the package `q` are suppressed. -/
def lenient : Config where
  linters := [{ name := "*", all := true }]
  suppress := [{ className := "q.*" }]

/-- The neighbours of a package do not touch its findings, nor does the package theirs. -/
theorem neighbours_do_not_interfere :
    ∃ a a₁ a₂, analyze lenient (.ofClasses (smallPackage.classes ++ neighbours.classes)) false =
        .ok a ∧
      analyze lenient smallPackage false = .ok a₁ ∧ analyze lenient neighbours false = .ok a₂ ∧
      a.report.findings = Finding.sort (a₁.report.findings ++ a₂.report.findings) ∧
      ∀ f ∈ a₁.report.findings, ∀ g ∈ a₂.report.findings, f.className ≠ g.className := by
  have hlenient : lenient.Accepted := by decide +kernel
  have hsmall : smallPackage.Ascending := by decide
  have hneighbours : neighbours.Ascending := by decide
  have hapart : ∀ c₁ ∈ smallPackage.classes, ∀ c₂ ∈ neighbours.classes,
      c₁.package ≠ c₂.package := by
    decide +kernel
  exact packages_do_not_interfere hlenient hsmall hneighbours (by decide) (by decide) hapart rfl

end ClassAudit
