import ClassAudit.Batch
import Mathlib.Logic.Relation

/-!
# Runs of loading

Files are read side by side, and whichever is done next stores what it gave under its path. When all
are done, the batch is put together from what was stored, in the order of the files. A file for
which nothing is stored would break this off. Every file stores under its own path, so nothing is
missing at the end of a run, and the order in which the files were done does not show.

## Main definitions

* `LoadState`, `LoadState.Step` - a run under way, and how it goes on.
* `Batch.collect` - the batch that is put together from what was stored.

## Main statements

* `LoadState.Step.sound`, `LoadState.Reached.sound` - what is stored is what the files give.
* `LoadState.exists_completed` - every run can be carried to its end.
* `LoadState.Sound.collect_eq` - at the end of a run, the batch is the one of the files.
-/

namespace ClassAudit

/-- A run under way. -/
structure LoadState where
  /-- The files that were not done yet. -/
  pending : List String
  /-- What the other files gave, by their paths. What was stored last stands first. -/
  results : List (String × Except FileFault ClassModel)

/-- The batch that is put together from what was stored, in the order of the files; none if nothing
is stored for one of them. -/
def Batch.collect (files : List String) (results : List (String × Except FileFault ClassModel)) :
    Option Batch := do
  let b ← files.foldlM (fun b path => (results.lookup path).map (Batch.add b path)) ({} : Batch)
  return { b with classes := sortClasses b.classes }

namespace LoadState

/-- Before the first file is done, nothing is stored. -/
def initial (files : List String) : LoadState where
  pending := files
  results := []

/-- A file is done and stores what it gave. -/
def finish (t : FileTree) (s : LoadState) (path : String) : LoadState where
  pending := s.pending.erase path
  results := (path, loadClass t path) :: s.results

/-- Every file is done. -/
def Completed (s : LoadState) : Prop := s.pending = []

/-- A run goes on with any file that was not done yet. -/
inductive Step (t : FileTree) : LoadState → LoadState → Prop
  | finish {s : LoadState} {path : String} (hpending : path ∈ s.pending) : Step t s (s.finish t path)

/-- The states that runs of loading go through. -/
def Reached (t : FileTree) (files : List String) : LoadState → Prop :=
  Relation.ReflTransGen (Step t) (initial files)

/-- What every file that is done gave is stored under its path. -/
def Sound (t : FileTree) (files : List String) (s : LoadState) : Prop :=
  ∀ path ∈ files, path ∈ s.pending ∨ s.results.lookup path = some (loadClass t path)

variable {t : FileTree} {files : List String} {s s' : LoadState}

theorem Step.sound (h : Step t s s') (hs : s.Sound t files) : s'.Sound t files := by
  obtain ⟨hpending⟩ := h
  rename_i done
  intro path hpath
  rw [LoadState.finish, List.lookup_cons]
  by_cases heq : path = done
  · subst heq
    exact .inr (by rw [beq_self_eq_true])
  · rw [beq_false_of_ne heq]
    exact (hs path hpath).imp_left (List.mem_erase_of_ne heq).mpr

/-- In every state of a run, what the files that are done gave is stored. -/
theorem Reached.sound (h : s.Reached t files) : s.Sound t files := by
  induction h with
  | refl => exact fun _ hpath => .inl hpath
  | tail _ hstep ih => exact hstep.sound ih

/-- Every run can be carried to its end. -/
theorem exists_completed (t : FileTree) (s : LoadState) :
    ∃ s', Relation.ReflTransGen (Step t) s s' ∧ s'.Completed := by
  -- By induction on the number of files that are not done.
  induction hleft : s.pending.length generalizing s with
  | zero => exact ⟨s, .refl, List.length_eq_zero_iff.mp hleft⟩
  | succ n ih =>
      obtain ⟨path, rest, hpending⟩ := List.exists_cons_of_length_eq_add_one hleft
      have hmem : path ∈ s.pending := hpending ▸ List.mem_cons_self
      have hlength : (s.finish t path).pending.length = n := by
        rw [finish, List.length_erase_of_mem hmem, hleft, Nat.add_sub_cancel]
      obtain ⟨s', hrun, hdone⟩ := ih (s.finish t path) hlength
      exact ⟨s', .head (.finish hmem) hrun, hdone⟩

/-- When something is stored for every file, nothing breaks off. -/
theorem foldlM_add_eq {results : List (String × Except FileFault ClassModel)} {b : Batch}
    (h : ∀ path ∈ files, results.lookup path = some (loadClass t path)) :
    files.foldlM (fun b path => (results.lookup path).map (Batch.add b path)) b =
      some (files.foldl (fun b path => b.add path (loadClass t path)) b) := by
  induction files generalizing b with
  | nil => rfl
  | cons path files ih =>
      rw [List.foldlM_cons, h path List.mem_cons_self, List.foldl_cons,
        ← ih fun path' hpath' => h path' (List.mem_cons_of_mem _ hpath')]
      rfl

/-- At the end of a run, the batch is the one of the files. -/
theorem Sound.collect_eq (h : s.Sound t files) (hdone : s.Completed) :
    Batch.collect files s.results = some (.ofFiles t files) := by
  have hstored : ∀ path ∈ files, s.results.lookup path = some (loadClass t path) := by
    intro path hpath
    refine (h path hpath).resolve_left fun hpending => ?_
    rw [hdone] at hpending
    exact List.not_mem_nil hpending
  rw [Batch.collect, foldlM_add_eq hstored]
  rfl

end LoadState

end ClassAudit
