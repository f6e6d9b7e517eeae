import ClassAudit.Detectors.EqualsHashCode
import ClassAudit.Lint.Run
import ClassAudit.Proofs.FindingOrder
import Mathlib.Data.Prod.Lex
import Mathlib.Logic.Relation

/-!
# Runs of jobs

Jobs are begun in order, a limited number of them at a time, and end in any order. Each of them
writes its outcome to a slot of its own, and the slots are merged when all jobs have ended. A slot
that nothing was written to would look like a job without findings, so the merged report is right
only because every slot is written by its own job. Then the order in which the jobs ended
does not show: the report is the one of the list of jobs, in which every job is accounted for.

## Main definitions

* `RunState`, `RunState.Step` - a run under way, and how it goes on.
* `Report.merge`, `Report.ofSlots` - the slots merged one after the other.
* `Job.group` - a job that fails, finds nothing or contributes findings.
* `Finding.sortKey` - what findings are sorted by.
* `Report.Accounts` - a report that accounts for every job and every finding.

## Main statements

* `RunState.Step.sound`, `RunState.Reached.sound` - every slot whose job has ended is written.
* `RunState.Sound.exists_completed` - every run can be carried to its end.
* `Report.ofSlots_map_run` - merging slot by slot gives the report of the jobs.
* `Report.accounts_ofJobs` - the report of a list of jobs accounts for them.
* `runs_account` - so does every run.
-/

namespace ClassAudit

/-! ### Runs -/

/-- A run under way. -/
structure RunState where
  /-- The number of jobs that were begun, in order. -/
  begun : Nat
  /-- The numbers of the jobs that were begun and have not ended. -/
  running : List Nat
  /-- One slot for the outcome of each job. -/
  slots : List (Except JobFault (List Finding))

namespace RunState

/-- Before the first job is begun, every slot is empty, as if its job had found nothing. -/
def initial (jobs : List Job) : RunState where
  begun := 0
  running := []
  slots := List.replicate jobs.length (.ok [])

/-- The next job is begun. -/
def start (s : RunState) : RunState :=
  { s with begun := s.begun + 1, running := s.begun :: s.running }

/-- The job with number `i` ends and writes its outcome. -/
def finish (s : RunState) (i : Nat) (outcome : Except JobFault (List Finding)) : RunState :=
  { s with running := s.running.erase i, slots := s.slots.set i outcome }

/-- Every job was begun and has ended. -/
def Completed (jobs : List Job) (s : RunState) : Prop := s.begun = jobs.length ∧ s.running = []

variable (r : Registry) (jobs : List Job) (limit : Nat)

/-- A run goes on: with the next job while fewer than `limit` are running, or with the end of any
job that is running. -/
inductive Step : RunState → RunState → Prop
  | start {s : RunState} (hnext : s.begun < jobs.length) (hfree : s.running.length < limit) :
      Step s s.start
  | finish {s : RunState} {i : Nat} {j : Job} (hrunning : i ∈ s.running)
      (hjob : jobs[i]? = some j) : Step s (s.finish i (j.run r))

/-- The states that runs of the jobs go through. -/
def Reached : RunState → Prop := Relation.ReflTransGen (Step r jobs limit) (initial jobs)

/-- What holds in every state of a run. -/
structure Sound (s : RunState) : Prop where
  begun_le : s.begun ≤ jobs.length
  running_lt : ∀ i ∈ s.running, i < s.begun
  length_slots : s.slots.length = jobs.length
  /-- The slot of a job that has ended holds the outcome of this job. -/
  written : ∀ i < s.begun, i ∉ s.running → s.slots[i]? = jobs[i]?.map (·.run r)

variable {r jobs limit} {s s' : RunState}

theorem sound_initial : (initial jobs).Sound r jobs where
  begun_le := Nat.zero_le _
  running_lt := by simp [initial]
  length_slots := List.length_replicate
  written := fun i hi => absurd hi (Nat.not_lt_zero i)

theorem Sound.start (h : s.Sound r jobs) (hnext : s.begun < jobs.length) :
    s.start.Sound r jobs where
  begun_le := hnext
  running_lt := by
    rintro i (_ | ⟨_, hi⟩)
    · exact Nat.lt_succ_self _
    · exact Nat.lt_succ_of_lt (h.running_lt i hi)
  length_slots := h.length_slots
  written := by
    intro i hi hnot
    have hne : i ≠ s.begun := fun heq => hnot (heq ▸ List.mem_cons_self)
    have hi' : i < s.begun := Nat.lt_of_le_of_ne (Nat.le_of_lt_succ hi) hne
    exact h.written i hi' fun hmem => hnot (List.mem_cons_of_mem _ hmem)

theorem Sound.finish (h : s.Sound r jobs) {i : Nat} {j : Job} (hjob : jobs[i]? = some j) :
    (s.finish i (j.run r)).Sound r jobs where
  begun_le := h.begun_le
  running_lt := fun k hk => h.running_lt k (List.mem_of_mem_erase hk)
  length_slots := by rw [RunState.finish, List.length_set, h.length_slots]
  written := by
    intro k hk hnot
    rw [RunState.finish, List.getElem?_set]
    by_cases hik : i = k
    · subst hik
      obtain ⟨hi, -⟩ := List.getElem?_eq_some_iff.mp hjob
      rw [if_pos rfl, if_pos (h.length_slots ▸ hi), hjob]
      rfl
    · rw [if_neg hik]
      refine h.written k hk fun hmem => hnot ?_
      exact (List.mem_erase_of_ne (Ne.symm hik)).mpr hmem

theorem Step.sound (h : Step r jobs limit s s') (hs : s.Sound r jobs) : s'.Sound r jobs := by
  cases h with
  | start hnext hfree => exact hs.start hnext
  | finish hrunning hjob => exact hs.finish hjob

/-- In every state of a run, the slots of the jobs that have ended hold their outcomes. -/
theorem Reached.sound (h : s.Reached r jobs limit) : s.Sound r jobs := by
  induction h with
  | refl => exact sound_initial
  | tail _ hstep ih => exact hstep.sound ih

/-- At the end of a run, the slots hold the outcomes of the jobs in order. -/
theorem Sound.slots_eq (h : s.Sound r jobs) (hdone : s.Completed jobs) :
    s.slots = jobs.map (·.run r) := by
  refine List.ext_getElem? fun i => ?_
  rw [List.getElem?_map]
  by_cases hi : i < jobs.length
  · exact h.written i (hdone.1 ▸ hi) (by simp [hdone.2])
  · rw [List.getElem?_eq_none (by rw [h.length_slots]; omega), List.getElem?_eq_none (by omega)]
    rfl

/-! ### Progress -/

/-- The number of steps that are left: the beginning and the end of each job. -/
def stepsLeft (jobs : List Job) (s : RunState) : Nat :=
  2 * (jobs.length - s.begun) + s.running.length

theorem Step.stepsLeft_lt (h : Step r jobs limit s s') : s'.stepsLeft jobs < s.stepsLeft jobs := by
  cases h with
  | start hnext hfree =>
      simp only [stepsLeft, RunState.start, List.length_cons]
      omega
  | finish hrunning hjob =>
      have hlength := List.length_erase_of_mem hrunning
      have hpos := List.length_pos_of_mem hrunning
      simp only [stepsLeft, RunState.finish]
      omega

/-- A run that is not at its end goes on. -/
theorem Sound.exists_step (h : s.Sound r jobs) (hlimit : 0 < limit) (hdone : ¬ s.Completed jobs) :
    ∃ s', Step r jobs limit s s' := by
  cases hrunning : s.running with
  | nil =>
      have hnext : s.begun < jobs.length :=
        Nat.lt_of_le_of_ne h.begun_le fun heq => hdone ⟨heq, hrunning⟩
      exact ⟨_, .start hnext (by rw [hrunning]; exact hlimit)⟩
  | cons i rest =>
      have hi : i ∈ s.running := hrunning ▸ List.mem_cons_self
      have hlt : i < jobs.length := Nat.lt_of_lt_of_le (h.running_lt i hi) h.begun_le
      exact ⟨_, .finish hi (List.getElem?_eq_getElem hlt)⟩

/-- Every run can be carried to its end. -/
theorem Sound.exists_completed (h : s.Sound r jobs) (hlimit : 0 < limit) :
    ∃ s', Relation.ReflTransGen (Step r jobs limit) s s' ∧ s'.Completed jobs := by
  -- By induction on the steps that are left, which every step makes fewer.
  induction hleft : s.stepsLeft jobs using Nat.strong_induction_on generalizing s with
  | _ n ih =>
      by_cases hdone : s.Completed jobs
      · exact ⟨s, .refl, hdone⟩
      · obtain ⟨s₁, hstep⟩ := h.exists_step hlimit hdone
        obtain ⟨s', hrun, hdone'⟩ := ih _ (hleft ▸ hstep.stepsLeft_lt) (hstep.sound h) rfl
        exact ⟨s', .head hstep hrun, hdone'⟩

end RunState

/-! ### Merging -/

/-- The findings with those of `fs` that are not among them yet. -/
def Finding.collect (found fs : List Finding) : List Finding :=
  fs.foldl (fun found f => if f ∈ found then found else found ++ [f]) found

namespace Report

/-- The outcome of a job is merged into a report. -/
def merge (report : Report) (j : Job) : Except JobFault (List Finding) → Report
  | .error fault =>
      { report with
        errors := report.errors ++ [{ linter := j.linter, className := j.className, fault }] }
  | .ok [] =>
      { report with clean := report.clean ++ [{ linter := j.linter, className := j.className }] }
  | .ok fs => { report with findings := Finding.collect report.findings fs }

/-- The slots merged in the order of their jobs; the findings are sorted at the end. -/
def ofSlots (jobs : List Job) (slots : List (Except JobFault (List Finding))) : Report :=
  let merged : Report := (jobs.zip slots).foldl (fun report x => report.merge x.1 x.2) {}
  { merged with findings := Finding.sort merged.findings }

end Report

/-- Collecting findings one by one leaves out the repeated ones. -/
theorem Finding.collect_eraseDups (found fs : List Finding) :
    Finding.collect found.eraseDups fs = (found ++ fs).eraseDups := by
  induction fs generalizing found with
  | nil => rw [List.append_nil]; rfl
  | cons f fs ih =>
      have hadd : (if f ∈ found.eraseDups then found.eraseDups else found.eraseDups ++ [f]) =
          (found ++ [f]).eraseDups := by
        rw [List.eraseDups_append]
        by_cases hf : f ∈ found
        · simp [hf, List.removeAll]
        · simp [hf, List.removeAll, List.eraseDups_cons]
      rw [Finding.collect, List.foldl_cons, hadd, ← Finding.collect, ih, List.append_assoc]
      rfl

namespace Report

variable {r : Registry}

/-- What one job adds to a report. -/
theorem merge_run (report : Report) (j : Job) :
    report.merge j (j.run r) =
      { findings := Finding.collect report.findings (j.findings r)
        errors := report.errors ++ (j.error? r).toList
        clean := report.clean ++ (j.clean? r).toList } := by
  rw [Job.findings, Job.error?, Job.clean?]
  cases hrun : j.run r with
  | error fault => simp [merge, Finding.collect]
  | ok fs =>
      cases fs with
      | nil => simp [merge, Finding.collect]
      | cons f fs => simp [merge]

/-- What a list of jobs adds to a report. -/
theorem foldl_merge_run (report : Report) (jobs : List Job) :
    jobs.foldl (fun report j => report.merge j (j.run r)) report =
      { findings := Finding.collect report.findings (jobs.flatMap (·.findings r))
        errors := report.errors ++ jobs.filterMap (·.error? r)
        clean := report.clean ++ jobs.filterMap (·.clean? r) } := by
  induction jobs generalizing report with
  | nil => simp [Finding.collect]
  | cons j jobs ih =>
      rw [List.foldl_cons, ih, merge_run]
      simp only [Finding.collect, List.flatMap_cons, List.foldl_append, List.append_assoc,
        mk.injEq, true_and]
      constructor
      · cases h : j.error? r with
        | none | some e => simp [h]
      · cases h : j.clean? r with
        | none | some e => simp [h]

/-- Merging the outcomes of the jobs slot by slot gives the report of the jobs. -/
theorem ofSlots_map_run (jobs : List Job) :
    ofSlots jobs (jobs.map (·.run r)) = Report.ofJobs r jobs := by
  have hcollect := Finding.collect_eraseDups [] (jobs.flatMap (·.findings r))
  rw [List.eraseDups_nil, List.nil_append] at hcollect
  rw [ofSlots, ← List.map_prod_left_eq_zip, List.foldl_map, foldl_merge_run]
  simp only [Report.ofJobs, List.nil_append, hcollect]

end Report

/-! ### Accounts -/

/-- What findings are sorted by: class, linter, line, member and message, the first of them that
differs deciding. -/
def Finding.sortKey (f : Finding) : String ×ₗ String ×ₗ Int ×ₗ String ×ₗ String :=
  toLex (f.className, toLex (f.linter, toLex (f.line, toLex (f.member, f.message))))

theorem Finding.isLE_compare_iff {f g : Finding} : (f.compare g).isLE ↔ f.sortKey ≤ g.sortKey := by
  have hlast {a b : String} : (Ord.compare a b).isLE ↔ a ≤ b := by
    rw [Ordering.isLE_iff_ne_gt]
    exact compare_le_iff_le
  simp only [Finding.compare, Finding.sortKey, Ordering.isLE_then_iff_or, Prod.Lex.toLex_le_toLex,
    compare_lt_iff_lt, Std.LawfulEqCmp.compare_eq_iff_eq, hlast]

/-- The linter that is made for a job: none if there is no class, or no linter of the kind that the
job asks for. -/
def Job.made? (r : Registry) (j : Job) : Option Linter :=
  j.target.bind fun c =>
    match j.context with
    | some ctx => (r.perPackage.lookup j.linter).map fun make => make c (some ctx)
    | none => (r.perClass.lookup j.linter).map fun make => make c

/-- What becomes of a job. -/
inductive JobGroup where
  | failed
  | clean
  | contributing
deriving DecidableEq, Repr

/-- What becomes of a job: it fails if no linter can be made for it, is clean if its linter finds
nothing, and contributes findings otherwise. -/
def Job.group (r : Registry) (j : Job) : JobGroup :=
  match j.made? r with
  | none => .failed
  | some l => if l.findings = [] then .clean else .contributing

/-- The report accounts for every job and every finding. -/
structure Report.Accounts (r : Registry) (jobs : List Job) (report : Report) : Prop where
  /-- The errors are the failed jobs in order, each with the reason of its failure. -/
  errors : List.Forall₂
    (fun e j => e.linter = j.linter ∧ e.className = j.className ∧ j.run r = .error e.fault)
    report.errors (jobs.filter (·.group r = .failed))
  /-- The clean jobs are listed in order. -/
  clean : report.clean =
    (jobs.filter (·.group r = .clean)).map fun j => { linter := j.linter, className := j.className }
  /-- Every job is in one group. -/
  total : report.errors.length + report.clean.length +
    (jobs.filter (·.group r = .contributing)).length = jobs.length
  /-- The findings are those of the linters that were made. -/
  mem_findings : ∀ f, f ∈ report.findings ↔ ∃ j ∈ jobs, ∃ l, j.made? r = some l ∧ f ∈ l.findings
  nodup_findings : report.findings.Nodup
  sorted_findings : report.findings.Pairwise fun f g => f.sortKey ≤ g.sortKey

namespace Job

variable {r : Registry}

/-- A job succeeds exactly if its linter can be made, with what the linter finds. -/
theorem run_eq_ok_iff {j : Job} {fs : List Finding} :
    j.run r = .ok fs ↔ ∃ l, j.made? r = some l ∧ l.findings = fs := by
  obtain ⟨linter, target, context⟩ := j
  cases target with
  | none => simp [run, made?]
  | some c =>
      cases context with
      | none =>
          cases h : r.perClass.lookup linter with
          | none | some make => simp [run, made?, Registry.create, h, Except.map]
      | some ctx =>
          cases h : r.perPackage.lookup linter with
          | none | some make => simp [run, made?, Registry.createPackage, h, Except.map]

/-- A job has one of three outcomes, and its group tells which. -/
theorem run_cases (r : Registry) (j : Job) :
    (∃ fault, j.run r = .error fault ∧ j.group r = .failed) ∨
      (j.run r = .ok [] ∧ j.group r = .clean) ∨
      ∃ f fs, j.run r = .ok (f :: fs) ∧ j.group r = .contributing := by
  rw [group]
  cases hmade : j.made? r with
  | none =>
      cases hrun : j.run r with
      | error fault => exact .inl ⟨fault, rfl, rfl⟩
      | ok fs =>
          obtain ⟨l, hl, -⟩ := run_eq_ok_iff.mp hrun
          exact nomatch hmade.symm.trans hl
  | some l =>
      have hrun := run_eq_ok_iff.mpr ⟨l, hmade, rfl⟩
      cases hfindings : l.findings with
      | nil => exact .inr (.inl ⟨hfindings ▸ hrun, by simp [hfindings]⟩)
      | cons f fs => exact .inr (.inr ⟨f, fs, hfindings ▸ hrun, by simp [hfindings]⟩)

theorem mem_findings {j : Job} {f : Finding} :
    f ∈ j.findings r ↔ ∃ l, j.made? r = some l ∧ f ∈ l.findings := by
  rw [findings]
  constructor
  · intro hf
    split at hf
    · rename_i fs hrun
      obtain ⟨l, hl, rfl⟩ := run_eq_ok_iff.mp hrun
      exact ⟨l, hl, hf⟩
    · exact nomatch hf
  · rintro ⟨l, hl, hf⟩
    rwa [run_eq_ok_iff.mpr ⟨l, hl, rfl⟩]

end Job

namespace Report

variable (r : Registry) (jobs : List Job)

/-- The errors follow the failed jobs. -/
theorem forall₂_errors : List.Forall₂
    (fun e j => e.linter = j.linter ∧ e.className = j.className ∧ j.run r = .error e.fault)
    (jobs.filterMap (·.error? r)) (jobs.filter (·.group r = .failed)) := by
  induction jobs with
  | nil => exact .nil
  | cons j jobs ih =>
      obtain ⟨fault, hrun, hgroup⟩ | ⟨hrun, hgroup⟩ | ⟨f, fs, hrun, hgroup⟩ := j.run_cases r
      · rw [List.filterMap_cons_some (by rw [Job.error?, hrun]),
          List.filter_cons_of_pos (by simp [hgroup])]
        exact .cons ⟨rfl, rfl, hrun⟩ ih
      · rwa [List.filterMap_cons_none (by rw [Job.error?, hrun]),
          List.filter_cons_of_neg (by simp [hgroup])]
      · rwa [List.filterMap_cons_none (by rw [Job.error?, hrun]),
          List.filter_cons_of_neg (by simp [hgroup])]

/-- The clean jobs are listed as they come. -/
theorem filterMap_clean : jobs.filterMap (·.clean? r) =
    (jobs.filter (·.group r = .clean)).map fun j =>
      { linter := j.linter, className := j.className } := by
  rw [← List.filterMap_eq_map, List.filterMap_filter]
  refine List.filterMap_congr fun j _ => ?_
  obtain ⟨fault, hrun, hgroup⟩ | ⟨hrun, hgroup⟩ | ⟨f, fs, hrun, hgroup⟩ := j.run_cases r
  all_goals simp [Job.clean?, hrun, hgroup]

theorem length_groups : (jobs.filter (·.group r = .failed)).length +
    (jobs.filter (·.group r = .clean)).length +
    (jobs.filter (·.group r = .contributing)).length = jobs.length := by
  induction jobs with
  | nil => rfl
  | cons j jobs ih =>
      cases hgroup : j.group r with
      | failed | clean | contributing =>
          simp only [List.filter_cons, hgroup, decide_true, if_true, reduceCtorEq, decide_false,
            Bool.false_eq_true, if_false, List.length_cons]
          omega

/-- The report of a list of jobs accounts for them. -/
theorem accounts_ofJobs : (Report.ofJobs r jobs).Accounts r jobs where
  errors := forall₂_errors r jobs
  clean := filterMap_clean r jobs
  total := by
    have herrors := (forall₂_errors r jobs).length_eq
    have hclean := congrArg List.length (filterMap_clean r jobs)
    rw [List.length_map] at hclean
    rw [Report.ofJobs, herrors, hclean]
    exact length_groups r jobs
  mem_findings := by
    intro f
    simp only [Report.ofJobs, Finding.mem_sort, List.mem_eraseDups, List.mem_flatMap,
      Job.mem_findings]
  nodup_findings := (Finding.perm_sort _).nodup_iff.mpr (nodup_eraseDups _)
  sorted_findings := (Finding.pairwise_sort _).imp Finding.isLE_compare_iff.mp

end Report

/-- **A run loses no job and no finding, and makes none up.** From every state that a run of the
jobs reaches, it can be carried to its end; and wherever it ends, whatever the order in which its
jobs ended, the merged slots are the report of the jobs. In it every job is in one of three groups,
those that failed and those that were clean in the order of the jobs, and the findings are those
that the linters returned, each once and in the order of reports. -/
theorem runs_account (r : Registry) (jobs : List Job) {limit : Nat} (hlimit : 0 < limit)
    {s : RunState} (hs : s.Reached r jobs limit) :
    (∃ s', Relation.ReflTransGen (RunState.Step r jobs limit) s s' ∧ s'.Completed jobs) ∧
      (s.Completed jobs → runJobs r jobs false = .ok (Report.ofSlots jobs s.slots) ∧
        (Report.ofSlots jobs s.slots).Accounts r jobs) := by
  refine ⟨hs.sound.exists_completed hlimit, fun hdone => ?_⟩
  rw [hs.sound.slots_eq hdone, Report.ofSlots_map_run]
  exact ⟨rfl, Report.accounts_ofJobs r jobs⟩

/-- A registry with one linter of single classes. -/
def oneLinter : Registry := Registry.registerClass {} EqualsHashCode.name EqualsHashCode.linter

/-- A job with a finding, a job without a class, one without a linter, and one without findings. -/
def mixedJobs : List Job := [
  { linter := EqualsHashCode.name,
    target := some
      { name := "p/A", methods := [⟨"equals", "(Ljava/lang/Object;)Z", ⟨1⟩, {}, []⟩] } },
  { linter := EqualsHashCode.name, target := none },
  { linter := "Absent", target := some { name := "p/B" } },
  { linter := EqualsHashCode.name, target := some { name := "p/B" } }]

/-- The first job is overtaken by all others, of which one runs at a time beside it. -/
theorem overtaking_run_accounts :
    ∃ s : RunState, s.Reached oneLinter mixedJobs 2 ∧ s.Completed mixedJobs ∧
      runJobs oneLinter mixedJobs false = .ok (Report.ofSlots mixedJobs s.slots) ∧
      (Report.ofSlots mixedJobs s.slots).Accounts oneLinter mixedJobs := by
  have h₀ : (RunState.initial mixedJobs).Reached oneLinter mixedJobs 2 := .refl
  have h₁ := (h₀.tail (.start (by decide) (by decide))).tail (.start (by decide) (by decide))
  have h₂ := (h₁.tail (.finish (i := 1) (by decide) rfl)).tail (.start (by decide) (by decide))
  have h₃ := (h₂.tail (.finish (i := 2) (by decide) rfl)).tail (.start (by decide) (by decide))
  have h₄ := (h₃.tail (.finish (i := 3) (by decide) rfl)).tail (.finish (i := 0) (by decide) rfl)
  exact ⟨_, h₄, ⟨rfl, rfl⟩, (runs_account oneLinter mixedJobs (by decide) h₄).2 ⟨rfl, rfl⟩⟩

end ClassAudit
