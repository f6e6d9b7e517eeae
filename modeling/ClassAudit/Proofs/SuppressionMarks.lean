import ClassAudit.Proofs.SelectedFindings

/-!
# The marks of suppression

Rules mark findings and do nothing else to them. Which rule marks a finding is decided by the order
of the rules alone, and a mark that is there already plays no part. So marking twice marks once, and
rules that are added at the end take no mark away: a run that had nothing to complain about has
nothing to complain about under more rules.

## Main definitions

* `Suppression.FirstCovering` - the rule that a finding is marked by.
* `Suppression.Marks` - what the rules make of a finding.

## Main statements

* `Suppression.marks_mark` - marking makes of a finding what the rules say.
* `Suppression.verdict?_append` - rules at the end matter only where no rule before them does.
* `Suppression.apply_marks_only` - what marking does to a list of findings.
* `hasViolations_of_more_rules` - an analysis with more rules has no new violations.
-/

namespace ClassAudit

namespace Finding

/-- Violations are findings that are not suppressed and at least warnings. -/
theorem hasViolations_iff {fs : List Finding} : hasViolations fs ↔
    ∃ f ∈ fs, f.suppressed = false ∧ Severity.warning.number ≤ f.severity.number := by
  simp only [hasViolations, active, List.any_eq_true, List.mem_filter, Bool.not_eq_true',
    decide_eq_true_eq, and_assoc]

end Finding

namespace Suppression

/-- The first of the rules that cover the finding. -/
def FirstCovering (rules : List Suppression) (f : Finding) (r : Suppression) : Prop :=
  ∃ before after, rules = before ++ r :: after ∧ r.covers f ∧ ∀ q ∈ before, ¬q.covers f

/-- The rules make `g` of the finding `f`. -/
structure Marks (rules : List Suppression) (f g : Finding) : Prop where
  /-- Nothing but the mark and its reason can be new. -/
  rest : g = { f with suppressed := g.suppressed, suppressReason := g.suppressReason }
  /-- The first rule that covers the finding marks it and gives the reason. -/
  covered : ∀ r, FirstCovering rules f r → g.suppressed = true ∧
    g.suppressReason = if r.reason = "" then "suppressed" else r.reason
  /-- A finding that no rule covers is left as it is. -/
  uncovered : (∀ r ∈ rules, ¬r.covers f) → g = f

variable {rules more : List Suppression} {f g : Finding}

/-! ### One finding -/

theorem verdict?_eq_none_iff : verdict? rules f = none ↔ ∀ r ∈ rules, ¬r.covers f := by
  rw [verdict?, Option.map_eq_none_iff, List.find?_eq_none]

theorem isSome_verdict?_iff : (verdict? rules f).isSome ↔ ∃ r ∈ rules, r.covers f := by
  rw [verdict?, Option.isSome_map, List.find?_isSome]

theorem FirstCovering.verdict?_eq {r : Suppression} (h : FirstCovering rules f r) :
    verdict? rules f = some r.givenReason := by
  obtain ⟨before, after, rfl, hr, hbefore⟩ := h
  have hfind : (before ++ r :: after).find? (·.covers f) = some r := by
    rw [List.find?_eq_some_iff_append]
    exact ⟨hr, before, after, rfl, fun q hq => by simpa using hbefore q hq⟩
  rw [verdict?, hfind, Option.map_some]

/-- Whether a finding is marked already does not matter to a rule. -/
theorem covers_congr (r : Suppression) (h : g = { f with
    suppressed := g.suppressed, suppressReason := g.suppressReason }) :
    r.covers g = r.covers f := by
  rw [h]
  rfl

theorem verdict?_mark : verdict? rules (mark rules f) = verdict? rules f := by
  rw [verdict?, verdict?]
  simp only [covers_congr _ (mark_eq rules f)]

theorem mark_of_verdict?_eq_none (h : verdict? rules f = none) : mark rules f = f := by
  rw [mark, h]

/-- A finding is active after marking if it was before and no rule covers it. -/
theorem suppressed_mark_eq_false_iff :
    (mark rules f).suppressed = false ↔ verdict? rules f = none ∧ f.suppressed = false := by
  cases h : verdict? rules f with
  | none => simp [mark_of_verdict?_eq_none h]
  | some reason => simp [mark, h]

/-- Marking makes of a finding what the rules say. -/
theorem marks_mark (rules : List Suppression) (f : Finding) : Marks rules f (mark rules f) where
  rest := mark_eq rules f
  covered := by
    intro r hr
    rw [mark, hr.verdict?_eq]
    exact ⟨rfl, by simp only [givenReason, beq_iff_eq]⟩
  uncovered := fun hnone => mark_of_verdict?_eq_none (verdict?_eq_none_iff.mpr hnone)

/-- Marking twice marks once. -/
theorem mark_mark : mark rules (mark rules f) = mark rules f := by
  rw [mark, verdict?_mark]
  cases h : verdict? rules f with
  | none => rfl
  | some reason => rw [mark, h]

/-! ### More rules -/

/-- Rules at the end matter only where no rule before them does. -/
theorem verdict?_append :
    verdict? (rules ++ more) f = (verdict? rules f).or (verdict? more f) := by
  rw [verdict?, verdict?, verdict?, List.find?_append]
  cases rules.find? (·.covers f) with
  | none | some r => rfl

theorem mark_append_of_covered (h : ∃ r ∈ rules, r.covers f) :
    mark (rules ++ more) f = mark rules f := by
  obtain ⟨reason, hreason⟩ := Option.isSome_iff_exists.mp (isSome_verdict?_iff.mpr h)
  rw [mark, mark, verdict?_append, hreason, Option.some_or]

/-- What is active under more rules is active under fewer, and the same finding. -/
theorem mark_append_of_active (h : (mark (rules ++ more) f).suppressed = false) :
    mark (rules ++ more) f = mark rules f := by
  obtain ⟨hnone, -⟩ := suppressed_mark_eq_false_iff.mp h
  have hrules : verdict? rules f = none := by
    rw [verdict?_append] at hnone
    exact (Option.or_eq_none_iff.mp hnone).1
  rw [mark_of_verdict?_eq_none hnone, mark_of_verdict?_eq_none hrules]

theorem hasViolations_of_append {fs : List Finding}
    (h : Finding.hasViolations (apply (rules ++ more) fs)) :
    Finding.hasViolations (apply rules fs) := by
  rw [Finding.hasViolations_iff] at h ⊢
  obtain ⟨_, hmem, hactive, hsevere⟩ := h
  obtain ⟨f, hf, rfl⟩ := List.mem_map.mp hmem
  have hsame := mark_append_of_active hactive
  rw [hsame] at hactive hsevere
  exact ⟨mark rules f, List.mem_map_of_mem hf, hactive, hsevere⟩

/-! ### Lists of findings -/

theorem apply_apply (fs : List Finding) : apply rules (apply rules fs) = apply rules fs := by
  rw [apply, apply, List.map_map]
  exact List.map_congr_left fun f _ => mark_mark

theorem forall₂_apply (fs : List Finding) : List.Forall₂ (Marks rules) fs (apply rules fs) := by
  rw [apply, List.forall₂_map_right_iff, List.forall₂_same]
  exact fun f _ => marks_mark rules f

/-- **Marking only marks, once and for all.** It changes nothing of a finding but the mark and its
reason, marks the findings that some rule covers with the reason of the first such rule, counts
them, and finds nothing more to do when it is done. Under more rules every mark stays with its
reason, so that no violation is new. -/
theorem apply_marks_only (rules more : List Suppression) (fs : List Finding) :
    List.Forall₂ (Marks rules) fs (apply rules fs) ∧
      count rules fs = fs.countP (fun f => ∃ r ∈ rules, r.covers f) ∧
      apply rules (apply rules fs) = apply rules fs ∧
      (∀ (i : Nat) (f : Finding), fs[i]? = some f → (∃ r ∈ rules, r.covers f) →
        (apply (rules ++ more) fs)[i]? = (apply rules fs)[i]?) ∧
      (Finding.hasViolations (apply (rules ++ more) fs) →
        Finding.hasViolations (apply rules fs)) := by
  refine ⟨forall₂_apply fs, ?_, apply_apply fs, ?_, hasViolations_of_append⟩
  · exact List.countP_congr fun f _ => by simpa using isSome_verdict?_iff
  · intro i f hi hcovered
    rw [apply, apply, List.getElem?_map, List.getElem?_map, hi, Option.map_some, Option.map_some,
      mark_append_of_covered hcovered]

end Suppression

/-! ### Analyses -/

theorem Config.accepted_of_analyze {c : Config} {b : Batch} {cancelled : Bool} {a : Analysis}
    (h : analyze c b cancelled = .ok a) : c.Accepted := by
  rw [Config.Accepted]
  by_contra hne
  rw [analyze, if_pos (by simpa using hne)] at h
  cases h

/-- **More rules make no violations.** If a configuration gets more rules at the end, an analysis
still has an outcome if it had one, and violations only if it had some before. -/
theorem hasViolations_of_more_rules {c : Config} {more : List Suppression} {b : Batch}
    {cancelled : Bool} {a : Analysis} (h : analyze c b cancelled = .ok a) :
    ∃ a', analyze { c with suppress := c.suppress ++ more } b cancelled = .ok a' ∧
      (Finding.hasViolations a'.report.findings → Finding.hasViolations a.report.findings) := by
  let c' : Config := { c with suppress := c.suppress ++ more }
  have hc := Config.accepted_of_analyze h
  have hc' : c'.Accepted := hc
  have hmore := map_findings_analyze hc' b cancelled
  have hfindings := map_findings_analyze hc b cancelled
  rw [h] at hfindings
  -- The rules play no part in whether there is an outcome.
  split at hfindings
  · exact nomatch hfindings
  rename_i hb
  split at hfindings
  · exact nomatch hfindings
  rename_i hcancelled
  have hcancelled' : ¬(cancelled ∧ (c'.plan (.builtin c'.namespaces) b).jobs ≠ []) := hcancelled
  rw [if_neg hb, if_neg hcancelled'] at hmore
  obtain ⟨a', ha', heq⟩ := except_map_eq_ok.mp hmore
  refine ⟨a', ha', fun hviolations => ?_⟩
  rw [Except.map, Except.ok.injEq] at hfindings
  rw [hfindings]
  rw [heq] at hviolations
  exact Suppression.hasViolations_of_append hviolations

end ClassAudit
