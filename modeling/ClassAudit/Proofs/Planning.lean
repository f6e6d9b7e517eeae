import ClassAudit.Proofs.SelectedFindings

/-!
# Plans are exact

A plan holds what the rules of a configuration select and nothing else. Linters run once on each
class that is selected for them; a linter that reports on whole packages runs once for each package
with such a class, on the first of them. A plan of a configuration that can be used has no job that
fails.

## Main definitions

* `Config.targetsOf` - the classes that are selected for a linter, in planning order.
* `Plan.Exact` - a plan that holds what the rules select, and nothing else.
* `Job.Resolves` - a job that has a class and a linter of the kind that it asks for.

## Main statements

* `countP_firstByKey`, `find?_of_mem_firstByKey` - of everything with one key, the first is kept.
* `PackageContext.ofClasses_eq` - a context of classes with different names holds these classes.
* `Config.plan_exact` - the plan of a configuration is exact.
* `accepted_jobs_resolve` - an analysis with a configuration that can be used has no failing job.
-/

namespace ClassAudit

/-! ### Keys -/

section Keys

variable {α κ : Type} [BEq κ] [LawfulBEq κ]

theorem key_not_mem_of_mem_firstByKey {key : α → κ} {seen : List κ} {as : List α} {a : α}
    (h : a ∈ firstByKey key seen as) : key a ∉ seen := by
  induction as generalizing seen with
  | nil => exact absurd h List.not_mem_nil
  | cons x as ih =>
      rw [firstByKey] at h
      split at h
      · exact ih h
      · rename_i hseen
        rcases List.mem_cons.mp h with rfl | h
        · rwa [List.contains_iff_mem] at hseen
        · exact fun hmem => ih h (List.mem_cons_of_mem _ hmem)

/-- Of everything with a key that was not seen before, one thing is kept. -/
theorem countP_firstByKey (key : α → κ) (seen : List κ) {as : List α} {a : α} (ha : a ∈ as)
    (hseen : key a ∉ seen) : (firstByKey key seen as).countP (key · == key a) = 1 := by
  induction as generalizing seen with
  | nil => exact absurd ha List.not_mem_nil
  | cons x as ih =>
      rw [firstByKey]
      by_cases hx : key x = key a
      · have hnone : (firstByKey key (key x :: seen) as).countP (key · == key a) = 0 := by
          rw [List.countP_eq_zero]
          intro y hy heq
          have := key_not_mem_of_mem_firstByKey hy
          rw [eq_of_beq heq, hx] at this
          exact this List.mem_cons_self
        rw [if_neg (by rwa [List.contains_iff_mem, hx]), List.countP_cons, hnone, hx]
        simp
      · have ha' : a ∈ as := by
          rcases List.mem_cons.mp ha with rfl | ha
          · exact absurd rfl hx
          · exact ha
        split
        · exact ih seen ha' hseen
        · rw [List.countP_cons, if_neg (by simpa using hx), Nat.add_zero]
          exact ih (key x :: seen) ha' (by simp [Ne.symm hx, hseen])

/-- What is kept is the first of its key. -/
theorem find?_of_mem_firstByKey {key : α → κ} {seen : List κ} {as : List α} {a : α}
    (h : a ∈ firstByKey key seen as) : as.find? (key · == key a) = some a := by
  have hnot := key_not_mem_of_mem_firstByKey h
  induction as generalizing seen with
  | nil => exact absurd h List.not_mem_nil
  | cons x as ih =>
      rw [firstByKey] at h
      split at h
      · rename_i hseen
        rw [List.contains_iff_mem] at hseen
        have hx : key x ≠ key a := fun heq => hnot (heq ▸ hseen)
        rw [List.find?_cons_of_neg (by simpa using hx)]
        exact ih h hnot
      · rcases List.mem_cons.mp h with rfl | h
        · exact List.find?_cons_of_pos (beq_self_eq_true _)
        · have hnot' := key_not_mem_of_mem_firstByKey h
          have hx : key x ≠ key a := fun heq => hnot' (heq ▸ List.mem_cons_self)
          rw [List.find?_cons_of_neg (by simpa using hx)]
          exact ih h hnot'

end Keys

/-! ### Contexts -/

namespace PackageContext

/-- A context of classes with different names holds these classes. -/
theorem ofClasses_eq {cs : List ClassModel} (h : (cs.map (·.name)).Nodup) :
    ofClasses cs = ⟨cs⟩ := by
  have hfold (done rest : List ClassModel) (h : ((done ++ rest).map (·.name)).Nodup) :
      rest.foldl insert ⟨done⟩ = ⟨done ++ rest⟩ := by
    induction rest generalizing done with
    | nil => simp
    | cons c rest ih =>
        have hnew : done.any (·.name == c.name) = false := by
          rw [List.any_eq_false]
          intro d hd heq
          rw [List.map_append, List.map_cons] at h
          exact List.disjoint_of_nodup_append h (List.mem_map_of_mem hd)
            (eq_of_beq heq ▸ List.mem_cons_self)
        rw [List.append_cons] at h ⊢
        rw [List.foldl_cons, insert, hnew, if_neg Bool.false_ne_true]
        exact ih (done ++ [c]) h
  exact hfold [] cs h

end PackageContext

/-- The context of a package finds the classes of the package by their names. -/
theorem Batch.Ascending.lookup?_context {b : Batch} (hb : b.Ascending) {package name : String}
    {d : ClassModel} :
    (b.context package).lookup? name = some d ↔
      d ∈ b.classes ∧ d.package = package ∧ d.name = name := by
  have hmembers : (b.members package).Pairwise fun c d => c.name < d.name := hb.filter _
  have hnodup : ((b.members package).map (·.name)).Nodup :=
    List.pairwise_map.mpr (hmembers.imp String.ne_of_lt)
  rw [Batch.context, PackageContext.ofClasses_eq hnodup, PackageContext.lookup?]
  constructor
  · intro h
    obtain ⟨hd, hpackage⟩ := Batch.mem_members.mp (List.mem_of_find?_eq_some h)
    have hname := List.find?_some (p := fun e : ClassModel => e.name == name) h
    exact ⟨hd, hpackage, eq_of_beq hname⟩
  · rintro ⟨hd, hpackage, rfl⟩
    have hmem := Batch.mem_members.mpr ⟨hd, hpackage⟩
    cases he : (b.members package).find? (·.name == d.name) with
    | none => exact absurd (beq_self_eq_true _) (List.find?_eq_none.mp he d hmem)
    | some e =>
        have hname := List.find?_some (p := fun e : ClassModel => e.name == d.name) he
        have hmem' := Batch.mem_members.mp (List.mem_of_find?_eq_some he)
        rw [hb.eq_of_name_eq hmem'.1 hd (eq_of_beq hname)]

/-! ### Planning order -/

namespace Config

/-- The classes that the rules select for a linter, in planning order: rule by rule, and for each
rule in the order of its targets. A class may occur several times. -/
def targetsOf (c : Config) (reg : Registry) (b : Batch) (linter : String) : List ClassModel :=
  (c.linters.filter fun r => r.ExpandsTo reg linter).flatMap (·.selected b)

end Config

/-- A rule names no linter twice. -/
theorem LinterRule.nodup_linterNames (r : LinterRule) (reg : Registry) :
    (r.linterNames reg).Nodup := by
  rw [linterNames]
  split
  · exact (Text.pairwise_sortedDistinct _).imp ne_of_lt
  · exact List.nodup_singleton _

namespace Config

variable {c : Config} {reg : Registry} {b : Batch} {linter : String} {cls : ClassModel}

/-- What is selected for a linter, in planning order, is what its rules select. -/
theorem filter_selections (c : Config) (reg : Registry) (b : Batch) (linter : String) :
    ((c.selections reg b).filter (·.1 == linter)).map (·.2) = c.targetsOf reg b linter := by
  -- a rule contributes its classes once if it is for the linter, and nothing otherwise
  have hnames (names : List String) (hnodup : names.Nodup) (targets : List ClassModel) :
      ((names.flatMap fun name => targets.map fun t => (name, t)).filter (·.1 == linter)).map
        (·.2) = if linter ∈ names then targets else [] := by
    induction names with
    | nil => simp
    | cons name names ih =>
        obtain ⟨hname, hnodup⟩ := List.nodup_cons.mp hnodup
        rw [List.flatMap_cons, List.filter_append, List.map_append, ih hnodup, List.filter_map]
        by_cases heq : name = linter
        · subst heq
          simp [Function.comp_def, hname]
        · simp [Function.comp_def, heq, Ne.symm heq]
  rw [selections, targetsOf]
  induction c.linters with
  | nil => rfl
  | cons r rules ih =>
      rw [List.flatMap_cons, List.filter_append, List.map_append, ih,
        hnames _ (r.nodup_linterNames reg), List.filter_cons]
      simp only [LinterRule.mem_linterNames]
      by_cases hexpands : r.ExpandsTo reg linter
      · simp [hexpands]
      · simp [hexpands]

/-- The job of a linter on a class: it has a context if the linter looks at packages. -/
theorem jobOf_eq (reg : Registry) (b : Batch) (linter : String) (cls : ClassModel) :
    jobOf reg b (linter, cls) =
      { linter, target := some cls
        context := if reg.isPackageLinter linter then some (b.context cls.package) else none } := by
  rw [jobOf, Registry.newJob]
  cases h : reg.isPackageLinter linter with
  | true => simp
  | false => simp

/-- The jobs of a plan are those of the selections that are kept. -/
theorem mem_jobs {j : Job} :
    j ∈ (c.plan reg b).jobs ↔ ∃ linter cls,
      (linter, cls) ∈ firstByKey (runKey reg) [] (c.selections reg b) ∧
        j = jobOf reg b (linter, cls) := by
  simp only [plan, List.mem_map, Prod.exists]
  constructor
  · rintro ⟨linter, cls, hmem, rfl⟩
    exact ⟨linter, cls, hmem, rfl⟩
  · rintro ⟨linter, cls, hmem, rfl⟩
    exact ⟨linter, cls, hmem, rfl⟩

/-- A linter of classes may look once at each class. -/
theorem runKey_eq_iff (hwide : ¬reg.isPackageWide linter) {linter' : String} {cls' : ClassModel} :
    runKey reg (linter', cls') = runKey reg (linter, cls) ↔
      linter' = linter ∧ cls'.name = cls.name := by
  rw [runKey, runKey, Prod.mk.injEq]
  refine and_congr_right ?_
  rintro rfl
  rw [if_neg hwide, if_neg hwide]

/-- A linter of whole packages may look once at each package. -/
theorem runKey_eq_iff_of_wide (hwide : reg.isPackageWide linter) {linter' : String}
    {cls' : ClassModel} :
    runKey reg (linter', cls') = runKey reg (linter, cls) ↔
      linter' = linter ∧ cls'.package = cls.package := by
  rw [runKey, runKey, Prod.mk.injEq]
  refine and_congr_right ?_
  rintro rfl
  rw [if_pos hwide, if_pos hwide]

/-- What is kept for a linter of whole packages is the first class of its package. -/
theorem find?_targetsOf (hwide : reg.isPackageWide linter)
    (hmem : (linter, cls) ∈ firstByKey (runKey reg) [] (c.selections reg b)) :
    (c.targetsOf reg b linter).find? (·.package = cls.package) = some cls := by
  have hkey : (fun s => runKey reg s == runKey reg (linter, cls)) =
      fun s : String × ClassModel =>
        decide ((s.1 == linter) = true ∧ decide (s.2.package = cls.package) = true) := by
    funext ⟨linter', d⟩
    rw [Bool.eq_iff_iff, beq_iff_eq, runKey_eq_iff_of_wide hwide, decide_eq_true_eq,
      decide_eq_true_eq, beq_iff_eq]
  have hfirst := find?_of_mem_firstByKey hmem
  rw [hkey] at hfirst
  rw [← filter_selections, List.find?_map, List.find?_filter]
  exact congrArg (Option.map Prod.snd) hfirst

/-- A plan has one job for everything with the key of something selected. -/
theorem countP_jobs (hb : b.Ascending) (h : c.Selects reg b linter cls) {p : Job → Bool}
    (hp : ∀ linter' cls', c.Selects reg b linter' cls' →
      (p (jobOf reg b (linter', cls')) ↔ runKey reg (linter', cls') = runKey reg (linter, cls))) :
    (c.plan reg b).jobs.countP p = 1 := by
  have hone := countP_firstByKey (runKey reg) [] ((mem_selections hb).mpr h) List.not_mem_nil
  rw [plan, List.countP_map, ← hone]
  refine List.countP_congr ?_
  rintro ⟨linter', cls'⟩ hmem
  rw [Function.comp_apply, beq_iff_eq]
  exact hp linter' cls' (selects_of_mem_firstByKey hb hmem)

end Config

/-! ### Exact plans -/

/-- The targets of a rule that name nothing in the batch; a rule for every class has none. -/
def LinterRule.unmatched (r : LinterRule) (b : Batch) : List MissingTarget :=
  if r.all then []
  else
    (r.classes.filter fun name => ∀ cls ∈ b.classes, internalName name ≠ cls.name).map
        (fun name => { linter := r.name, name, isPackage := false }) ++
      (r.packages.filter fun name => ∀ cls ∈ b.classes, internalName name ≠ cls.package).map
        (fun name => { linter := r.name, name, isPackage := true })

/-- The plan holds what the rules select, and nothing else. -/
structure Plan.Exact (p : Plan) (c : Config) (reg : Registry) (b : Batch) : Prop where
  /-- Every job is for a class that is selected for its linter. -/
  selected : ∀ j ∈ p.jobs, ∃ cls, j.target = some cls ∧ c.Selects reg b j.linter cls
  /-- A linter runs once on each class that is selected for it. -/
  once_on_class : ∀ linter cls, ¬reg.isPackageWide linter → c.Selects reg b linter cls →
    p.jobs.countP (fun j => j.linter = linter ∧ j.target = some cls) = 1
  /-- A linter of whole packages runs once for each package with such a class. -/
  once_in_package : ∀ linter cls, reg.isPackageWide linter → c.Selects reg b linter cls →
    p.jobs.countP
      (fun j => j.linter = linter ∧ j.target.map (·.package) = some cls.package) = 1
  /-- It runs on the first of them in planning order. -/
  first_in_package : ∀ j ∈ p.jobs, reg.isPackageWide j.linter → ∀ cls, j.target = some cls →
    (c.targetsOf reg b j.linter).find? (·.package = cls.package) = some cls
  /-- A job has a context if its linter looks at packages. -/
  context_iff : ∀ j ∈ p.jobs, j.context.isSome ↔ reg.isPackageLinter j.linter
  /-- A context finds the classes in the package of the job's class by their names. -/
  context_maps : ∀ j ∈ p.jobs, ∀ cls ctx, j.target = some cls → j.context = some ctx →
    ∀ name d, ctx.lookup? name = some d ↔
      d ∈ b.classes ∧ d.package = cls.package ∧ d.name = name
  /-- The targets that name nothing, in the order of the rules. -/
  missing_eq : p.missing = c.linters.flatMap (·.unmatched b)

theorem LinterRule.missing_eq_unmatched (r : LinterRule) (b : Batch) :
    r.missing b = r.unmatched b := by
  have hclass (name : String) : (b.lookup? name).isNone =
      decide (∀ cls ∈ b.classes, internalName name ≠ cls.name) := by
    rw [Bool.eq_iff_iff, Option.isNone_iff_eq_none, decide_eq_true_eq, Batch.lookup?,
      List.find?_eq_none]
    exact forall₂_congr fun cls _ => by rw [beq_iff_eq, ne_eq, eq_comm]
  have hpackage (name : String) : (b.members (internalName name)).isEmpty =
      decide (∀ cls ∈ b.classes, internalName name ≠ cls.package) := by
    rw [Bool.eq_iff_iff, List.isEmpty_iff, decide_eq_true_eq, Batch.members,
      List.filter_eq_nil_iff]
    exact forall₂_congr fun cls _ => by rw [beq_iff_eq, ne_eq, eq_comm]
  simp only [missing, unmatched, hclass, hpackage]

/-- **Plans are exact.** -/
theorem Config.plan_exact (c : Config) (reg : Registry) {b : Batch} (hb : b.Ascending) :
    (c.plan reg b).Exact c reg b where
  selected := by
    intro j hj
    obtain ⟨linter, cls, hmem, rfl⟩ := mem_jobs.mp hj
    rw [jobOf_eq]
    exact ⟨cls, rfl, selects_of_mem_firstByKey hb hmem⟩
  once_on_class := by
    intro linter cls hwide hselects
    refine countP_jobs hb hselects ?_
    intro linter' cls' hselects'
    rw [jobOf_eq, decide_eq_true_eq, runKey_eq_iff hwide, Option.some.injEq]
    refine and_congr_right fun _ => ?_
    exact ⟨congrArg _, hb.eq_of_name_eq hselects'.1 hselects.1⟩
  once_in_package := by
    intro linter cls hwide hselects
    refine countP_jobs hb hselects ?_
    intro linter' cls' _
    rw [jobOf_eq, decide_eq_true_eq, runKey_eq_iff_of_wide hwide, Option.map_some,
      Option.some.injEq]
  first_in_package := by
    intro j hj hwide cls htarget
    obtain ⟨linter, cls', hmem, rfl⟩ := mem_jobs.mp hj
    rw [jobOf_eq] at hwide htarget ⊢
    obtain rfl : cls' = cls := Option.some.inj htarget
    exact find?_targetsOf hwide hmem
  context_iff := by
    intro j hj
    obtain ⟨linter, cls, -, rfl⟩ := mem_jobs.mp hj
    rw [jobOf_eq]
    cases reg.isPackageLinter linter with
    | true => simp
    | false => simp
  context_maps := by
    intro j hj cls ctx htarget hctx name d
    obtain ⟨linter, cls', -, rfl⟩ := mem_jobs.mp hj
    rw [jobOf_eq] at htarget hctx
    obtain rfl : cls' = cls := Option.some.inj htarget
    obtain ⟨-, rfl⟩ : _ ∧ b.context cls'.package = ctx := by simpa using hctx
    exact hb.lookup?_context
  missing_eq := by
    simp only [plan, LinterRule.missing_eq_unmatched]

/-- A plan of overlapping rules: a class that is named twice and again by its package. -/
theorem piecemeal_plan_exact : smallPackage.Ascending ∧
    (piecemeal.plan (.builtin piecemeal.namespaces) smallPackage).Exact piecemeal
      (.builtin piecemeal.namespaces) smallPackage :=
  ⟨by decide, piecemeal.plan_exact (.builtin piecemeal.namespaces) (by decide)⟩

/-! ### Jobs that fail -/

/-- The job has a class, and a linter of the kind that it asks for: one that looks at packages if it
has a context, and one of single classes otherwise. -/
def Job.Resolves (r : Registry) (j : Job) : Prop :=
  j.target.isSome ∧
    if j.context.isSome then r.isPackageLinter j.linter else r.isClassLinter j.linter

/-- A job fails exactly if it does not resolve. -/
theorem Job.error?_eq_none_iff {r : Registry} {j : Job} : j.error? r = none ↔ j.Resolves r := by
  obtain ⟨linter, target, context⟩ := j
  cases target with
  | none => simp [error?, run, Resolves]
  | some cls =>
      cases context with
      | none =>
          cases h : r.perClass.lookup linter with
          | none | some make =>
              simp [error?, run, Resolves, Registry.create, Registry.isClassLinter, h, Except.map]
      | some ctx =>
          cases h : r.perPackage.lookup linter with
          | none | some make =>
              simp [error?, run, Resolves, Registry.createPackage, Registry.isPackageLinter, h,
                Except.map]

/-- The job of a linter that is known resolves: it asks for the kind of linter that there is. -/
theorem Config.resolves_jobOf {reg : Registry} {linter : String} (h : reg.has linter) (b : Batch)
    (cls : ClassModel) : (jobOf reg b (linter, cls)).Resolves reg := by
  rw [jobOf_eq, Job.Resolves]
  refine ⟨rfl, ?_⟩
  cases hpackage : reg.isPackageLinter linter with
  | true => simp
  | false =>
      rw [Registry.has, hpackage, Bool.or_false] at h
      simp [h]

/-- A valid configuration names only linters that are known. -/
theorem Config.has_of_problems_eq_nil {c : Config} {reg : Registry} (h : c.problems reg = [])
    {r : LinterRule} (hr : r ∈ c.linters) {linter : String} (hlinter : linter ∈ r.linterNames reg) :
    reg.has linter := by
  obtain ⟨i, hi, hget⟩ := List.getElem_of_mem hr
  have hrule : r.problems reg i = [] := by
    have hall := List.flatMap_eq_nil_iff.mp (List.append_eq_nil_iff.mp h).1
    exact hall (r, i) (List.mem_zipIdx_iff_getElem?.mpr (by rw [List.getElem?_eq_getElem hi, hget]))
  have hname : r.nameProblems reg i = [] := by
    simp only [LinterRule.problems, List.append_eq_nil_iff] at hrule
    exact hrule.1.1.1
  rw [LinterRule.mem_linterNames, LinterRule.ExpandsTo] at hlinter
  split at hlinter
  · exact hlinter
  · rename_i hstar
    subst hlinter
    rw [LinterRule.nameProblems] at hname
    by_cases hempty : r.name = ""
    · simp [hempty] at hname
    · by_contra hnot
      simp [hempty, hstar, hnot] at hname

/-- The outcome of an analysis of classes that is not cancelled. -/
theorem analyze_eq_ok {c : Config} (hc : c.Accepted) {b : Batch} (hb : b.classes ≠ []) :
    analyze c b false = .ok
      { report := (Report.ofJobs (.builtin c.namespaces)
          (c.plan (.builtin c.namespaces) b).jobs).suppress c.suppress
        jobs := (c.plan (.builtin c.namespaces) b).jobs.length
        missing := (c.plan (.builtin c.namespaces) b).missing
        failures := b.failures } := by
  have hvalid : analyze c b false = analyzeValid (.builtin c.namespaces) c b false := by
    rw [analyze, hc]
    rfl
  rw [hvalid, analyzeValid, if_neg (by simpa using hb)]
  rfl

/-- **A configuration that can be used produces no failing job.** Its analysis of any classes has an
outcome without errors, and every planned job has a class and a linter of the kind that it asks
for. -/
theorem accepted_jobs_resolve {c : Config} (hc : c.Accepted) {b : Batch} (hb : b.classes ≠ []) :
    ∃ a, analyze c b false = .ok a ∧ a.report.errors = [] ∧
      a.jobs = (c.plan (.builtin c.namespaces) b).jobs.length ∧
      ∀ j ∈ (c.plan (.builtin c.namespaces) b).jobs, j.Resolves (.builtin c.namespaces) := by
  have hresolves : ∀ j ∈ (c.plan (.builtin c.namespaces) b).jobs,
      j.Resolves (.builtin c.namespaces) := by
    intro j hj
    obtain ⟨linter, cls, hmem, rfl⟩ := Config.mem_jobs.mp hj
    have hselected := firstByKey_subset _ _ _ hmem
    simp only [Config.selections, List.mem_flatMap, List.mem_map] at hselected
    obtain ⟨r, hr, _, hlinter, _, -, heq⟩ := hselected
    obtain ⟨rfl, -⟩ := Prod.mk.inj heq
    exact Config.resolves_jobOf (Config.has_of_problems_eq_nil hc hr hlinter) b cls
  refine ⟨_, analyze_eq_ok hc hb, ?_, rfl, hresolves⟩
  refine List.filterMap_eq_nil_iff.mpr ?_
  intro j hj
  exact Job.error?_eq_none_iff.mpr (hresolves j hj)

/-- Overlapping rules for linters of single classes, of packages and of whole packages. -/
theorem piecemeal_jobs_resolve :
    piecemeal.Accepted ∧ ∃ a, analyze piecemeal smallPackage false = .ok a ∧ a.report.errors = [] ∧
      a.jobs = (piecemeal.plan (.builtin piecemeal.namespaces) smallPackage).jobs.length ∧
      ∀ j ∈ (piecemeal.plan (.builtin piecemeal.namespaces) smallPackage).jobs,
        j.Resolves (.builtin piecemeal.namespaces) := by
  have haccepted : piecemeal.Accepted := by decide +kernel
  exact ⟨haccepted, accepted_jobs_resolve haccepted (by decide)⟩

end ClassAudit
