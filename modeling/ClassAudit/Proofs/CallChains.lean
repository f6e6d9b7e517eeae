import ClassAudit.Detectors.DemeterPrinciple
import ClassAudit.Proofs.Monitors
import Mathlib.Data.List.DropRight

/-!
# Call chains

The linter counts while it goes through a body. What it counts is said here of the body alone: some
elements are passed over, some are links of a chain, and the length of the chain that a call ends is
the number of links up to it that nothing else comes between. The linter keeps the length of the last
chain even when something came after it, and separately whether nothing did; both together are one
count.

## Main definitions

* `DemeterPrinciple.isPassedOver`, `isLink` - elements that chains ignore, and their links.
* `DemeterPrinciple.EndsChain` - a call ends a chain of a certain length.
* `DemeterPrinciple.ChainState.count` - the length of the chain that is open.
* `DemeterPrinciple.counter` - the linter as a monitor, whose state is that length.

## Main statements

* `DemeterPrinciple.chains_eq_reports` - the two variables of the linter never drift apart.
* `DemeterPrinciple.next_trailing` - a step keeps the count equal to the number of links at the end
  of what was gone through.
* `DemeterPrinciple.foldl_next` - so does a run.
* `DemeterPrinciple.findings_chains` - **exactly the calls that end chains of two or more links are
  reported**.
-/

namespace ClassAudit.DemeterPrinciple

/-! ### Chains -/

/-- Markers, stack operations and calls that are chained by convention are passed over. -/
def isPassedOver : Action → Bool
  | .invoke _ target => isExempt target
  | .stack _ => true
  | a => a.isMarker

/-- A link is a call that is not passed over, and not that of a constructor. -/
def isLink : Action → Bool
  | .invoke _ target => !isExempt target && target.name != "<init>"
  | _ => false

/-- The elements that are not passed over. -/
def reduced (l : List (Nat × Action)) : List (Nat × Action) := l.filter (!isPassedOver ·.2)

/-- Without what is passed over, `depth` links stand in a row, the last of which is the call at
position `n`, and none stands directly before them. -/
def EndsChain (b : Body) (n : Nat) (target : MemberRef) (depth : Nat) : Prop :=
  ∃ before links kind after,
    reduced b.indexed = before ++ links ++ (n, .invoke kind target) :: after ∧
    links.length + 1 = depth ∧ (∀ x ∈ links, isLink x.2) ∧ isLink (.invoke kind target) ∧
    ∀ x, before.getLast? = some x → isLink x.2 = false

/-- How many links stand at the end of a list. -/
def trailing (l : List (Nat × Action)) : Nat := (l.rtakeWhile (isLink ·.2)).length

theorem isPassedOver_of_isLink {a : Action} (h : isLink a) : isPassedOver a = false := by
  cases a with
  | invoke kind target => simp_all [isLink, isPassedOver]
  | _ => exact absurd h Bool.false_ne_true

theorem reduced_append (l l' : List (Nat × Action)) :
    reduced (l ++ l') = reduced l ++ reduced l' := List.filter_append l l'

/-- The links at the end of a list are a longest run of links. -/
theorem trailing_eq_iff {l : List (Nat × Action)} {length : Nat} :
    trailing l = length ↔ ∃ before links, l = before ++ links ∧ links.length = length ∧
      (∀ x ∈ links, isLink x.2) ∧ ∀ x, before.getLast? = some x → isLink x.2 = false := by
  constructor
  · rintro rfl
    refine ⟨l.rdropWhile (isLink ·.2), l.rtakeWhile (isLink ·.2),
      List.rdropWhile_append_rtakeWhile.symm, rfl, fun x hx => ?_, fun x hx => ?_⟩
    · exact List.mem_rtakeWhile_imp (p := fun x : Nat × Action => isLink x.2) hx
    · have hne : l.rdropWhile (isLink ·.2) ≠ [] := by
        intro hnil
        rw [hnil] at hx
        cases hx
      rw [List.getLast?_eq_some_getLast hne, Option.some.injEq] at hx
      exact hx ▸ Bool.eq_false_iff.mpr (List.rdropWhile_last_not _ l hne)
  · rintro ⟨before, links, rfl, rfl, hlinks, hlast⟩
    have hstop : before.reverse.takeWhile (isLink ·.2) = [] := by
      cases hrev : before.reverse with
      | nil => rfl
      | cons x rest =>
          have hx : before.getLast? = some x := by simp [List.getLast?_eq_head?_reverse, hrev]
          exact List.takeWhile_cons_of_neg (by simp [hlast x hx])
    rw [trailing, List.rtakeWhile, List.reverse_append, List.length_reverse,
      List.takeWhile_append_of_pos (by simpa using hlinks), hstop, List.append_nil,
      List.length_reverse]

/-! ### Counting -/

/-- The linter as a monitor, whose state is the length of the chain so far. -/
def counter : Monitor Nat (Nat × Action) (Nat × MemberRef × Nat) where
  next length x := if isPassedOver x.2 then length else if isLink x.2 then length + 1 else 0
  told? length x :=
    match x with
    | (n, .invoke kind target) =>
      if isLink (.invoke kind target) ∧ 0 < length then some (n, target, length + 1) else none
    | _ => none

/-- The length of the chain that is open, which is the last one if nothing came after it. -/
def ChainState.count (s : ChainState) : Nat := if s.prevInvoke then s.depth else 0

/-- An open chain has a link. -/
def ChainState.Sound (s : ChainState) : Prop := s.prevInvoke → 0 < s.depth

theorem ChainState.sound_start : ({} : ChainState).Sound := fun h => absurd h Bool.false_ne_true

theorem ChainState.sound_broken (s : ChainState) (a : Action) : (s.broken a).Sound :=
  fun h => absurd h Bool.false_ne_true

/-- The two variables of the linter never drift apart: what it tells depends on their count. -/
theorem chains_eq_reports {s : ChainState} (hs : s.Sound) (l : List (Nat × Action)) :
    chains s l = counter.reports s.count l := by
  induction l generalizing s with
  | nil => rfl
  | cons x l ih =>
      obtain ⟨n, a⟩ := x
      rw [Monitor.reports]
      cases a with
      | invoke kind target =>
          cases hexempt : isExempt target with
          | true => simp [chains, counter, isPassedOver, isLink, hexempt, ih hs]
          | false =>
              by_cases hnew : target.name = "<init>"
              · have hempty := ih ChainState.sound_start
                simp [chains, counter, isPassedOver, isLink, hexempt, hnew, constructorName, hempty,
                  ChainState.count]
              · cases hprev : s.prevInvoke with
                | false =>
                    have hone := ih (s := { depth := 1, prevInvoke := true }) fun _ => Nat.one_pos
                    simp [chains, counter, isPassedOver, isLink, hexempt, hnew, constructorName,
                      hone, hprev, ChainState.count]
                | true =>
                    have hmore := ih (s := { depth := s.depth + 1, prevInvoke := true })
                      fun _ => s.depth.succ_pos
                    simp [chains, counter, isPassedOver, isLink, hexempt, hnew, constructorName,
                      hmore, hprev, hs hprev, ChainState.count]
      | label | line | frame | stack => exact ih hs
      | _ => exact ih (s.sound_broken _)

theorem chains_eq_reports_start (l : List (Nat × Action)) :
    chains {} l = counter.reports 0 l := chains_eq_reports ChainState.sound_start l

theorem told?_eq_some_iff {length n depth : Nat} {x : Nat × Action} {target : MemberRef} :
    counter.told? length x = some (n, target, depth) ↔ ∃ kind, x = (n, .invoke kind target) ∧
      isLink (.invoke kind target) ∧ 0 < length ∧ length + 1 = depth := by
  obtain ⟨k, a⟩ := x
  cases a with
  | invoke kind called =>
      simp only [counter, Option.ite_none_right_eq_some, Option.some.injEq, Prod.mk.injEq]
      constructor
      · rintro ⟨⟨hlink, hpos⟩, rfl, rfl, hdepth⟩
        exact ⟨kind, ⟨rfl, rfl⟩, hlink, hpos, hdepth⟩
      · rintro ⟨_, ⟨rfl, heq⟩, hlink, hpos, hdepth⟩
        cases heq
        exact ⟨⟨hlink, hpos⟩, rfl, rfl, hdepth⟩
  | _ => simp [counter]

/-- A step keeps the count equal to the number of links at the end of what was gone through. -/
theorem next_trailing (before : List (Nat × Action)) (x : Nat × Action) :
    counter.next (trailing (reduced before)) x = trailing (reduced (before ++ [x])) := by
  rw [reduced_append, counter]
  cases hover : isPassedOver x.2 with
  | true => simp [reduced, hover]
  | false =>
      have hkeep : reduced [x] = [x] := by simp [reduced, hover]
      rw [hkeep, trailing, trailing, List.rtakeWhile_concat]
      cases hlink : isLink x.2 <;> simp [hover, hlink]

/-- A run counts the links at the end of what it went through. -/
theorem foldl_next (l : List (Nat × Action)) :
    l.foldl counter.next 0 = trailing (reduced l) := by
  induction l using List.reverseRecOn with
  | nil => rfl
  | append_singleton l x ih => rw [List.foldl_concat, ih, next_trailing]

/-- A body tells exactly the calls that end chains of two or more links. -/
theorem mem_chains {b : Body} {n depth : Nat} {target : MemberRef} :
    (n, target, depth) ∈ chains {} b.indexed ↔ 2 ≤ depth ∧ EndsChain b n target depth := by
  have hkept (kind : InvokeKind) (later : List (Nat × Action)) (h : isLink (.invoke kind target)) :
      reduced ((n, .invoke kind target) :: later) = (n, .invoke kind target) :: reduced later := by
    simp [reduced, isPassedOver_of_isLink h]
  simp only [chains_eq_reports_start, Monitor.mem_reports, foldl_next, told?_eq_some_iff]
  constructor
  · rintro ⟨earlier, _, later, hsplit, kind, rfl, hlink, hpos, hdepth⟩
    obtain ⟨before, links, hearlier, hlength, hlinks, hlast⟩ :=
      trailing_eq_iff.mp (rfl : trailing (reduced earlier) = _)
    refine ⟨by omega, before, links, kind, reduced later, ?_, ?_, hlinks, hlink, hlast⟩
    · rw [hsplit, reduced_append, hkept kind later hlink, hearlier]
    · rw [hlength, hdepth]
  · rintro ⟨hlong, before, links, kind, after, hsplit, hdepth, hlinks, hlink, hlast⟩
    -- the call was not passed over, so the body splits where its reduced form does
    obtain ⟨earlier, rest, hbody, hearlier, hrest⟩ := List.filter_eq_append_iff.mp hsplit
    obtain ⟨skipped, later, rfl, hskipped, -, -⟩ := List.filter_eq_cons_iff.mp hrest
    have hreduced : reduced (earlier ++ skipped) = before ++ links := by
      have hnone : reduced skipped = [] := List.filter_eq_nil_iff.mpr hskipped
      rw [reduced_append, hnone, List.append_nil]
      exact hearlier
    have htrailing : trailing (reduced (earlier ++ skipped)) = links.length :=
      trailing_eq_iff.mpr ⟨before, links, hreduced, rfl, hlinks, hlast⟩
    refine ⟨earlier ++ skipped, _, later, ?_, kind, rfl, hlink, ?_, ?_⟩
    · rw [hbody, List.append_assoc]
    · omega
    · rw [htrailing, hdepth]

/-- A constructor ends a chain, and a marker does not. -/
example :
    chains {} [(0, .invoke .virtual ⟨"A", "f", "()LB;"⟩), (1, .line 7),
      (2, .invoke .virtual ⟨"B", "g", "()V"⟩), (3, .invoke .special ⟨"C", "<init>", "()V"⟩),
      (4, .invoke .virtual ⟨"C", "h", "()V"⟩)] = [(2, ⟨"B", "g", "()V"⟩, 2)] := by
  decide +kernel

/-! ### Findings -/

/-- What is said about a call that ends a long chain. -/
def longChain (c : ClassModel) (m : MethodModel) (n : Nat) (target : MemberRef) (depth : Nat) :
    Finding where
  linter := "DemeterPrinciple"
  category := .principle
  className := c.name
  member := m.name ++ m.desc
  line := m.code.lineAt n
  severity := .warning
  message := "call chain of depth " ++ toString depth ++ " reaches " ++ dottedName target.owner ++
    "." ++ target.name

/-- **Exactly the calls that end chains of two or more links are reported.** For each method that is
no initializer they come in program order, each once and with the length of its chain. -/
theorem findings_chains (c : ClassModel) :
    (linter c).findings =
      (c.methods.filter fun m => m.name ≠ "<init>" ∧ m.name ≠ "<clinit>").flatMap (fun m =>
        (chains {} m.code.indexed).map fun (n, target, depth) => longChain c m n target depth) ∧
    ∀ m ∈ c.methods,
      (chains {} m.code.indexed).Pairwise (·.1 < ·.1) ∧
      ∀ n target depth, (n, target, depth) ∈ chains {} m.code.indexed ↔
        2 ≤ depth ∧ EndsChain m.code n target depth := by
  refine ⟨?_, fun m _ => ⟨?_, fun n target depth => mem_chains⟩⟩
  · simp only [linter, MethodModel.not_isInitializer_eq]
    rfl
  · rw [chains_eq_reports_start]
    refine Monitor.pairwise_reports ?_ m.code.pairwise_indexed
    rintro length x ⟨n, target, depth⟩ htold
    obtain ⟨kind, rfl, -⟩ := told?_eq_some_iff.mp htold
    rfl

end ClassAudit.DemeterPrinciple
