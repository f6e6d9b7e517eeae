import ClassAudit.Proofs.LineForms
import ClassAudit.Proofs.Reading
import ClassAudit.Proofs.Utf8RoundTrip
import Mathlib.Data.List.Induction
import Mathlib.Data.List.Nodup

/-!
# Merging configurations line by line

Each line of a configuration is read on its own, and what the lines say is added up. So the
configuration of two texts, one below the other, is that of the first with that of the second merged
into it. Lines for one linter end up in one rule wherever they stand, with their targets in the
order of the lines.

## Main definitions

* `LinterRule.join`, `mergeRules`, `Config.merge` - a configuration merged into another one.
* `addToRules`, `Config.addLine` - what a line says, added to the rule that a search by name finds.
* `LineRun.Indexed` - each place that is kept is that of the rule with the name.
* `ConfigLine.Says` - what a line that is not too long says.
* `Config.Collects` - the configuration that holds what some lines say.

## Main statements

* `LineRun.indexed_addLine` - the places that are kept stay right.
* `LineRun.config_addLine` - adding at the place that is kept adds to the rule with the name.
* `Config.merge_addLine` - a line can be added before or after merging.
* `Config.collects_iff` - adding up what lines say collects it.
* `Config.ofLines_eq_ok_iff` - reading a byte string reads its lines and adds up what they say.
* `Config.ofLines_merges` - **texts one below the other are merged**, and nothing that a line says is
  lost or repeated.
-/

namespace ClassAudit

/-! ### Merging -/

/-- A rule with the targets of another one for the same linter behind its own. -/
def LinterRule.join (r s : LinterRule) : LinterRule where
  name := r.name
  all := r.all || s.all
  classes := r.classes ++ s.classes
  packages := r.packages ++ s.packages

/-- The rules of `as`, each joined with the rule of `bs` for its linter, and then the rules of `bs`
for other linters. -/
def mergeRules (as bs : List LinterRule) : List LinterRule :=
  as.map (fun r => ((bs.find? (·.name == r.name)).map r.join).getD r) ++
    bs.filter fun s => as.all (·.name != s.name)

/-- A configuration with another one merged into it. -/
def Config.merge (a b : Config) : Config where
  linters := mergeRules a.linters b.linters
  suppress := a.suppress ++ b.suppress
  platform := a.platform ++ b.platform

/-! ### Targets -/

/-- The class that a target names. -/
def RuleTarget.class? : RuleTarget → Option String
  | .className name => some name
  | _ => none

/-- The package that a target names. -/
def RuleTarget.package? : RuleTarget → Option String
  | .package name => some name
  | _ => none

namespace LinterRule

/-- Targets are added in their order behind those that a rule has. -/
theorem addTargets_eq (r : LinterRule) (targets : List RuleTarget) : r.addTargets targets =
    { name := r.name
      all := r.all || targets.contains .everything
      classes := r.classes ++ targets.filterMap RuleTarget.class?
      packages := r.packages ++ targets.filterMap RuleTarget.package? } := by
  induction targets generalizing r with
  | nil => simp [addTargets]
  | cons target targets ih =>
      rw [addTargets, List.foldl_cons, ← addTargets, ih]
      cases target with
      | everything | package name | className name =>
          simp [addTarget, List.filterMap_cons, RuleTarget.class?, RuleTarget.package?]

@[simp]
theorem name_addTargets (r : LinterRule) (targets : List RuleTarget) :
    (r.addTargets targets).name = r.name := by
  rw [addTargets_eq]

theorem addTargets_append (r : LinterRule) (ts us : List RuleTarget) :
    r.addTargets (ts ++ us) = (r.addTargets ts).addTargets us := List.foldl_append

/-- Targets can be added to the second of two rules or to both together. -/
theorem join_addTargets (r s : LinterRule) (targets : List RuleTarget) :
    r.join (s.addTargets targets) = (r.join s).addTargets targets := by
  simp [addTargets_eq, join, Bool.or_assoc, List.append_assoc]

theorem join_empty (r : LinterRule) (name : String) : r.join { name } = r := by
  simp [join]

end LinterRule

/-! ### Rules by their linters -/

/-- Adds targets to the first rule of a linter, or a rule behind the others where there is none. -/
def addToRules (linter : String) (targets : List RuleTarget) : List LinterRule → List LinterRule
  | [] => [LinterRule.addTargets { name := linter } targets]
  | r :: rs =>
    if r.name == linter then r.addTargets targets :: rs else r :: addToRules linter targets rs

section Rules

variable {linter name : String} {targets : List RuleTarget} {rs as bs : List LinterRule}
  {r : LinterRule}

theorem addToRules_nil :
    addToRules linter targets [] = [LinterRule.addTargets { name := linter } targets] := rfl

theorem addToRules_cons_of_eq (h : r.name = linter) :
    addToRules linter targets (r :: rs) = r.addTargets targets :: rs :=
  if_pos (beq_iff_eq.mpr h)

theorem addToRules_cons_of_ne (h : r.name ≠ linter) :
    addToRules linter targets (r :: rs) = r :: addToRules linter targets rs :=
  if_neg (by simpa using h)

theorem find?_addToRules : (addToRules linter targets rs).find? (·.name == name) =
    if linter = name then
      some (((rs.find? (·.name == name)).getD { name := linter }).addTargets targets)
    else rs.find? (·.name == name) := by
  induction rs with
  | nil => simp [addToRules_nil, List.find?_singleton]
  | cons r rs ih =>
      by_cases hr : r.name = linter
      · rw [addToRules_cons_of_eq hr]
        subst hr
        by_cases hname : r.name = name
        · simp [hname]
        · simp [hname]
      · rw [addToRules_cons_of_ne hr]
        by_cases hname : r.name = name
        · subst hname
          simp [Ne.symm hr]
        · simp [hname, ih]

theorem filter_addToRules_self :
    (addToRules linter targets rs).filter (·.name != linter) = rs.filter (·.name != linter) := by
  induction rs with
  | nil => simp [addToRules_nil]
  | cons r rs ih =>
      by_cases hr : r.name = linter
      · simp [addToRules_cons_of_eq hr, hr]
      · simp [addToRules_cons_of_ne hr, hr, ih]

theorem filter_addToRules_of_ne (h : linter ≠ name) :
    (addToRules linter targets rs).filter (·.name != name) =
      addToRules linter targets (rs.filter (·.name != name)) := by
  induction rs with
  | nil => simp [addToRules_nil, h]
  | cons r rs ih =>
      by_cases hr : r.name = linter
      · have hkeep : r.name ≠ name := hr ▸ h
        simp [addToRules_cons_of_eq hr, hkeep]
      · rw [addToRules_cons_of_ne hr]
        by_cases hname : r.name = name
        · simp [hname, ih]
        · simp [addToRules_cons_of_ne hr, hname, ih]

/-- A linter that has no rule yet gets one behind the others. -/
theorem names_addToRules : (addToRules linter targets rs).map (·.name) =
    rs.map (·.name) ++ if linter ∈ rs.map (·.name) then [] else [linter] := by
  induction rs with
  | nil => simp [addToRules_nil]
  | cons r rs ih =>
      by_cases hr : r.name = linter
      · simp [addToRules_cons_of_eq hr, hr]
      · rw [addToRules_cons_of_ne hr, List.map_cons, ih, List.map_cons, List.cons_append,
          if_congr (List.mem_cons.trans (or_iff_right (Ne.symm hr))) rfl rfl]

theorem nodup_names_addToRules (h : (rs.map (·.name)).Nodup) :
    ((addToRules linter targets rs).map (·.name)).Nodup := by
  rw [names_addToRules]
  split
  · rwa [List.append_nil]
  · rename_i hnew
    exact h.append (List.nodup_singleton linter) (List.disjoint_singleton.mpr hnew)

/-- Adding to a rule in its place. -/
theorem addToRules_eq_modify {i : Nat} (hi : (rs.map (·.name))[i]? = some linter)
    (hfirst : ∀ j < i, (rs.map (·.name))[j]? ≠ some linter) :
    addToRules linter targets rs = rs.modify i (·.addTargets targets) := by
  induction rs generalizing i with
  | nil => exact nomatch hi
  | cons r rs ih =>
      cases i with
      | zero => exact addToRules_cons_of_eq (Option.some.inj hi)
      | succ i =>
          have hr : r.name ≠ linter := fun hr => hfirst 0 i.succ_pos (congrArg some hr)
          rw [addToRules_cons_of_ne hr, List.modify_succ_cons,
            ih hi fun j hj => hfirst (j + 1) (Nat.succ_lt_succ hj)]

theorem addToRules_of_not_mem (h : linter ∉ rs.map (·.name)) : addToRules linter targets rs =
    rs ++ [LinterRule.addTargets { name := linter } targets] := by
  induction rs with
  | nil => rfl
  | cons r rs ih =>
      rw [List.map_cons, List.mem_cons, not_or] at h
      rw [addToRules_cons_of_ne (Ne.symm h.1), ih h.2, List.cons_append]

theorem mergeRules_nil_left : mergeRules [] bs = bs := by simp [mergeRules]

theorem mergeRules_nil_right : mergeRules as [] = as := by simp [mergeRules]

/-- The first rule takes what is for its linter, and the rest is left to the rules behind it. -/
theorem mergeRules_cons {r : LinterRule} (h : r.name ∉ as.map (·.name)) :
    mergeRules (r :: as) bs = ((bs.find? (·.name == r.name)).map r.join).getD r ::
      mergeRules as (bs.filter (·.name != r.name)) := by
  have hfind {s : LinterRule} (hs : s ∈ as) : (bs.filter (·.name != r.name)).find?
      (·.name == s.name) = bs.find? (·.name == s.name) := by
    have hne : s.name ≠ r.name := fun heq => h (heq ▸ List.mem_map_of_mem hs)
    rw [List.find?_filter]
    congr 1
    funext t
    by_cases ht : t.name = s.name
    · simp [ht, hne]
    · simp [ht]
  have hmap : as.map (fun s => ((bs.find? (·.name == s.name)).map s.join).getD s) =
      as.map fun s =>
        (((bs.filter (·.name != r.name)).find? (·.name == s.name)).map s.join).getD s :=
    List.map_congr_left fun s hs => by rw [hfind hs]
  have hrest : bs.filter (fun s => (r :: as).all (·.name != s.name)) =
      (bs.filter (·.name != r.name)).filter fun s => as.all (·.name != s.name) := by
    rw [List.filter_filter]
    refine List.filter_congr fun s _ => ?_
    rw [List.all_cons, Bool.and_comm, bne_comm]
  rw [mergeRules, List.map_cons, hmap, hrest, mergeRules, List.cons_append]

/-- Targets can be added before or after merging. -/
theorem mergeRules_addToRules (h : (as.map (·.name)).Nodup) :
    mergeRules as (addToRules linter targets bs) = addToRules linter targets (mergeRules as bs) := by
  induction as generalizing bs with
  | nil => rw [mergeRules_nil_left, mergeRules_nil_left]
  | cons r as ih =>
      rw [List.map_cons, List.nodup_cons] at h
      rw [mergeRules_cons h.1, mergeRules_cons h.1, find?_addToRules]
      have hname : (((bs.find? (·.name == r.name)).map r.join).getD r).name = r.name := by
        cases bs.find? (·.name == r.name) with
        | none | some s => rfl
      by_cases hr : r.name = linter
      · -- The rule takes the targets, after those of `bs` for its linter.
        subst hr
        rw [addToRules_cons_of_eq hname, if_pos rfl, filter_addToRules_self, Option.map_some,
          Option.getD_some, LinterRule.join_addTargets]
        cases bs.find? (·.name == r.name) with
        | none => rw [Option.getD_none, LinterRule.join_empty, Option.map_none, Option.getD_none]
        | some s => rw [Option.getD_some, Option.map_some, Option.getD_some]
      · rw [addToRules_cons_of_ne (hname.trans_ne hr), if_neg (Ne.symm hr),
          filter_addToRules_of_ne (Ne.symm hr), ih h.2]

end Rules

/-! ### Places of rules -/

theorem getElem?_concat_eq_some_iff {α : Type} {l : List α} {a x : α} {i : Nat} :
    (l ++ [a])[i]? = some x ↔ l[i]? = some x ∨ i = l.length ∧ x = a := by
  obtain hlt | hle := Nat.lt_or_ge i l.length
  · rw [List.getElem?_append_left hlt, or_iff_left fun h => hlt.ne h.1]
  · rw [List.getElem?_append_right hle, List.getElem?_eq_none hle, List.getElem?_singleton]
    simp [Nat.sub_eq_zero_iff_le, hle.ge_iff_eq', eq_comm]

/-- Adds what a line says to a configuration. -/
def Config.addLine (c : Config) : ConfigLine → Config
  | .nothing => c
  | .suppression rule => { c with suppress := c.suppress ++ [rule] }
  | .platform prefixes => { c with platform := c.platform ++ prefixes }
  | .rule linter targets => { c with linters := addToRules linter targets c.linters }

namespace LineRun

variable {run : LineRun} {linter : String} {targets : List RuleTarget}

/-- The names of the rules, in order. -/
def names (run : LineRun) : List String := run.config.linters.map (·.name)

/-- Each place that is kept is that of the rule with the name, and every rule has its place kept. -/
def Indexed (run : LineRun) : Prop :=
  ∀ name i, run.places.lookup name = some i ↔ run.names[i]? = some name

theorem indexed_empty : Indexed {} := fun _ _ => ⟨nofun, nofun⟩

theorem place_of_some {i : Nat} (h : run.places.lookup linter = some i) :
    run.place linter = (i, run) := by
  rw [place, h]

theorem place_of_none (h : run.places.lookup linter = none) : run.place linter =
    (run.config.linters.length,
      { config := { run.config with linters := run.config.linters ++ [{ name := linter }] }
        places := (linter, run.config.linters.length) :: run.places }) := by
  rw [place, h]

theorem not_mem_names (h : run.Indexed) (hlookup : run.places.lookup linter = none) :
    linter ∉ run.names := fun hmem => by
  obtain ⟨i, hi⟩ := List.getElem?_of_mem hmem
  rw [(h linter i).mpr hi] at hlookup
  exact nomatch hlookup

/-- The place is that of the rule, and it is the only one. -/
theorem indexed_place (h : run.Indexed) : (run.place linter).2.Indexed ∧
    (run.place linter).2.names[(run.place linter).1]? = some linter := by
  cases hlookup : run.places.lookup linter with
  | some i =>
      rw [place_of_some hlookup]
      exact ⟨h, (h linter i).mp hlookup⟩
  | none =>
      have hlength : run.names.length = run.config.linters.length := List.length_map ..
      have hnames : (run.place linter).2.names = run.names ++ [linter] := by
        rw [place_of_none hlookup, names, List.map_append]
        rfl
      refine ⟨fun name i => ?_, ?_⟩
      · rw [hnames, place_of_none hlookup, List.lookup_cons, ← hlength, getElem?_concat_eq_some_iff]
        by_cases hname : name = linter
        · subst hname
          have hnew : run.names[i]? ≠ some name := fun hi =>
            not_mem_names h hlookup (List.mem_of_getElem? hi)
          rw [beq_self_eq_true, or_iff_right hnew, and_iff_left rfl, Option.some.injEq, eq_comm]
        · rw [beq_false_of_ne hname, h name i, or_iff_left fun hlast => hname hlast.2]
      · rw [hnames, place_of_none hlookup, ← hlength, List.getElem?_concat_length]

theorem names_addRule : (run.addRule linter targets).names = (run.place linter).2.names := by
  refine List.ext_getElem? fun i => ?_
  simp only [names, addRule, List.getElem?_map, List.getElem?_modify]
  cases (run.place linter).2.config.linters[i]? with
  | none => rfl
  | some r =>
      by_cases hi : (run.place linter).1 = i
      · simp [hi]
      · simp [hi]

/-- The place of a rule stays the same when targets are added to it. -/
theorem indexed_addRule (h : run.Indexed) : (run.addRule linter targets).Indexed := by
  intro name i
  rw [names_addRule]
  exact (indexed_place h).1 name i

/-- Adding at the place that is kept adds to the rule with the name. -/
theorem config_addRule (h : run.Indexed) : (run.addRule linter targets).config =
    { run.config with linters := addToRules linter targets run.config.linters } := by
  cases hlookup : run.places.lookup linter with
  | some i =>
      have hi : run.names[i]? = some linter := (h linter i).mp hlookup
      have hfirst : ∀ j < i, run.names[j]? ≠ some linter := fun j hj hname => by
        rw [(h linter j).mpr hname] at hlookup
        exact hj.ne (Option.some.inj hlookup)
      rw [addRule, place_of_some hlookup, addToRules_eq_modify hi hfirst]
  | none =>
      rw [addRule, place_of_none hlookup, addToRules_of_not_mem (not_mem_names h hlookup)]
      simp [List.modify_eq_take_drop]

theorem indexed_addLine {said : ConfigLine} (h : run.Indexed) : (run.addLine said).Indexed := by
  cases said with
  | nothing | suppression rule | platform prefixes => exact h
  | rule linter targets => exact indexed_addRule h

theorem config_addLine {said : ConfigLine} (h : run.Indexed) :
    (run.addLine said).config = run.config.addLine said := by
  cases said with
  | nothing | suppression rule | platform prefixes => rfl
  | rule linter targets => exact config_addRule h

end LineRun

/-! ### What lines say -/

/-- The linter that a line has targets for. -/
def ConfigLine.linter? : ConfigLine → Option String
  | .rule linter _ => some linter
  | _ => none

/-- The rule of suppression that a line holds. -/
def ConfigLine.suppression? : ConfigLine → Option Suppression
  | .suppression silence => some silence
  | _ => none

/-- The platform packages of a line. -/
def ConfigLine.prefixes : ConfigLine → List String
  | .platform prefixes => prefixes
  | _ => []

/-- The targets that a line has for a linter. -/
def ConfigLine.targetsFor (linter : String) : ConfigLine → List RuleTarget
  | .rule name targets => if name = linter then targets else []
  | _ => []

/-- The line is not too long, and this is what it says without the blanks around it. -/
def ConfigLine.Says (line : List UInt8) (said : ConfigLine) : Prop :=
  line.length < lineLimit ∧ ∃ s, Text.Trims (Text.decodeKeeping line) s ∧ Spelled s said

theorem ConfigLine.says_iff {line : List UInt8} {said : ConfigLine} (hline : lineFeed ∉ line) :
    Says line said ↔ line.length < lineLimit ∧
      read? (Text.trimEnds Text.isBlank (Text.decodeKeeping line)) = some said := by
  have htrims := Text.trims_trimEnds (Text.decodeKeeping line)
  have hkept : '\n' ∉ Text.decodeKeeping line := fun h =>
    hline (Text.byte_mem_of_mem_decodeKeeping h (by decide) (by decide))
  have hline' : '\n' ∉ Text.trimEnds Text.isBlank (Text.decodeKeeping line) := by
    obtain ⟨before, after, -, -, heq⟩ := htrims.around
    rw [heq] at hkept
    exact fun h => hkept (List.mem_append_right _ (List.mem_append_left _ h))
  refine and_congr_right fun _ => ?_
  rw [← spelled_iff hline' htrims.trimmed]
  constructor
  · rintro ⟨s, hs, hsaid⟩
    rwa [Text.trims_iff.mp hs]
  · exact fun hsaid => ⟨_, htrims, hsaid⟩

/-- The configuration holds what the lines say: nothing of it is lost, repeated or made up, and what
is for one linter is in one rule. -/
structure Config.Collects (said : List ConfigLine) (c : Config) : Prop where
  nodup_names : (c.linters.map (·.name)).Nodup
  /-- The rules stand in the order in which the lines first name their linters. -/
  names : c.linters.map (·.name) = (said.filterMap ConfigLine.linter?).eraseDups
  /-- The classes of a rule are those of the lines for its linter, in order. -/
  classes : ∀ r ∈ c.linters,
    r.classes = (said.flatMap (·.targetsFor r.name)).filterMap RuleTarget.class?
  packages : ∀ r ∈ c.linters,
    r.packages = (said.flatMap (·.targetsFor r.name)).filterMap RuleTarget.package?
  all : ∀ r ∈ c.linters, r.all ↔ .everything ∈ said.flatMap (·.targetsFor r.name)
  suppress : c.suppress = said.filterMap ConfigLine.suppression?
  platform : c.platform = said.flatMap ConfigLine.prefixes

/-- Adds up what lines say. -/
def Config.addAll (c : Config) (said : List ConfigLine) : Config := said.foldl addLine c

namespace Config

variable {c : Config} {line : ConfigLine} {said : List ConfigLine}

theorem addAll_concat : c.addAll (said ++ [line]) = (c.addAll said).addLine line := by
  rw [addAll, List.foldl_append]
  rfl

theorem nodup_names_addLine (h : (c.linters.map (·.name)).Nodup) :
    ((c.addLine line).linters.map (·.name)).Nodup := by
  cases line with
  | nothing | suppression rule | platform prefixes => exact h
  | rule linter targets => exact nodup_names_addToRules h

theorem nodup_names_addAll (h : (c.linters.map (·.name)).Nodup) :
    ((c.addAll said).linters.map (·.name)).Nodup := by
  induction said generalizing c with
  | nil => exact h
  | cons line said ih => exact ih (nodup_names_addLine h)

/-! ### Merging what lines say -/

theorem merge_empty : c.merge {} = c := by
  simp [merge, mergeRules_nil_right]

/-- A line can be added before or after merging. -/
theorem merge_addLine {d : Config} (h : (c.linters.map (·.name)).Nodup) :
    c.merge (d.addLine line) = (c.merge d).addLine line := by
  cases line with
  | nothing => rfl
  | suppression rule => simp [merge, addLine, List.append_assoc]
  | platform prefixes => simp [merge, addLine, List.append_assoc]
  | rule linter targets => simp [merge, addLine, mergeRules_addToRules h]

theorem merge_addAll {d : Config} (h : (c.linters.map (·.name)).Nodup) :
    c.merge (d.addAll said) = (c.merge d).addAll said := by
  induction said generalizing d with
  | nil => rfl
  | cons line said ih =>
      rw [addAll, List.foldl_cons, ← addAll, ih, merge_addLine h]
      rfl

/-- What follows is merged into what comes before. -/
theorem addAll_append (said more : List ConfigLine) :
    addAll {} (said ++ more) = (addAll {} said).merge (addAll {} more) := by
  rw [merge_addAll (nodup_names_addAll (by simp)), merge_empty, addAll, List.foldl_append]
  rfl

/-! ### Collecting -/

theorem eraseDups_concat {names : List String} {name : String} : (names ++ [name]).eraseDups =
    names.eraseDups ++ if name ∈ names then [] else [name] := by
  rw [List.eraseDups_append]
  by_cases hmem : name ∈ names
  · simp [hmem, List.removeAll]
  · simp [hmem, List.removeAll, List.eraseDups_cons]

theorem names_addAll :
    (addAll {} said).linters.map (·.name) = (said.filterMap ConfigLine.linter?).eraseDups := by
  induction said using List.reverseRecOn with
  | nil => rfl
  | append_singleton said line ih =>
      rw [addAll_concat, List.filterMap_append]
      cases line with
      | nothing | suppression rule | platform prefixes =>
          exact ih.trans (congrArg List.eraseDups (List.append_nil _).symm)
      | rule linter targets =>
          have hmem : linter ∈ (addAll {} said).linters.map (·.name) ↔
              linter ∈ said.filterMap ConfigLine.linter? := by rw [ih, List.mem_eraseDups]
          rw [addLine, names_addToRules, if_congr hmem rfl rfl, ih]
          exact eraseDups_concat.symm

/-- The targets of all lines for a linter are in its rule. -/
theorem getD_find?_addAll (linter : String) :
    ((addAll {} said).linters.find? (·.name == linter)).getD { name := linter } =
      LinterRule.addTargets { name := linter } (said.flatMap (·.targetsFor linter)) := by
  induction said using List.reverseRecOn with
  | nil => rfl
  | append_singleton said line ih =>
      rw [addAll_concat, List.flatMap_append, List.flatMap_singleton, LinterRule.addTargets_append,
        ← ih]
      cases line with
      | nothing | suppression rule | platform prefixes => rfl
      | rule name targets =>
          rw [addLine, find?_addToRules, ConfigLine.targetsFor]
          by_cases hname : name = linter
          · subst hname
            rw [if_pos rfl, if_pos rfl, Option.getD_some]
          · rw [if_neg hname, if_neg hname]
            rfl

/-- A rule holds the targets of all lines for its linter. -/
theorem eq_of_mem_addAll {r : LinterRule} (h : r ∈ (addAll {} said).linters) : r =
    { name := r.name
      all := (said.flatMap (·.targetsFor r.name)).contains .everything
      classes := (said.flatMap (·.targetsFor r.name)).filterMap RuleTarget.class?
      packages := (said.flatMap (·.targetsFor r.name)).filterMap RuleTarget.package? } := by
  have hfound : (addAll {} said).linters.find? (·.name == r.name) = some r := by
    have hnodup : ((addAll {} said).linters.map (·.name)).Nodup := nodup_names_addAll (by simp)
    cases hfind : (addAll {} said).linters.find? (·.name == r.name) with
    | none => exact absurd (beq_self_eq_true _) (List.find?_eq_none.mp hfind r h)
    | some s =>
        have hname : s.name = r.name := by simpa using List.find?_some hfind
        rw [List.inj_on_of_nodup_map hnodup (List.mem_of_find?_eq_some hfind) h hname]
  have hadded : _ = LinterRule.addTargets _ (said.flatMap _) := getD_find?_addAll r.name
  rw [hfound, Option.getD_some, LinterRule.addTargets_eq] at hadded
  exact hadded

theorem suppress_addAll : (addAll {} said).suppress = said.filterMap ConfigLine.suppression? := by
  induction said using List.reverseRecOn with
  | nil => rfl
  | append_singleton said line ih =>
      rw [addAll_concat, List.filterMap_append, ← ih]
      cases line with
      | nothing | suppression rule | platform prefixes | rule name targets =>
          simp [addLine, List.filterMap_cons, ConfigLine.suppression?]

theorem platform_addAll : (addAll {} said).platform = said.flatMap ConfigLine.prefixes := by
  induction said using List.reverseRecOn with
  | nil => rfl
  | append_singleton said line ih =>
      rw [addAll_concat, List.flatMap_append, List.flatMap_singleton, ← ih]
      cases line with
      | nothing | suppression rule | platform prefixes | rule name targets =>
          simp [addLine, ConfigLine.prefixes]

theorem collects_addAll (said : List ConfigLine) : (addAll {} said).Collects said where
  nodup_names := nodup_names_addAll (by simp)
  names := names_addAll
  classes _ hr := congrArg LinterRule.classes (eq_of_mem_addAll hr)
  packages _ hr := congrArg LinterRule.packages (eq_of_mem_addAll hr)
  all r hr := by
    rw [congrArg LinterRule.all (eq_of_mem_addAll hr)]
    simp
  suppress := suppress_addAll
  platform := platform_addAll

/-- The rules are told by what they hold. -/
theorem Collects.linters_eq (h : c.Collects said) : c.linters =
    (said.filterMap ConfigLine.linter?).eraseDups.map fun name =>
      { name
        all := (said.flatMap (·.targetsFor name)).contains .everything
        classes := (said.flatMap (·.targetsFor name)).filterMap RuleTarget.class?
        packages := (said.flatMap (·.targetsFor name)).filterMap RuleTarget.package? } := by
  rw [← h.names, List.map_map]
  refine (List.map_id _).symm.trans (List.map_congr_left fun r hr => ?_)
  have hall : r.all = (said.flatMap (·.targetsFor r.name)).contains .everything := by
    rw [Bool.eq_iff_iff, h.all r hr, List.contains_iff_mem]
  rw [Function.comp_apply, ← hall, ← h.classes r hr, ← h.packages r hr]
  rfl

/-- Adding up what lines say collects it, and nothing else does. -/
theorem collects_iff : c.Collects said ↔ c = addAll {} said := by
  constructor
  · intro h
    have hadded := collects_addAll said
    obtain ⟨linters, suppress, platform⟩ := c
    rw [mk.injEq]
    exact ⟨h.linters_eq.trans hadded.linters_eq.symm, h.suppress.trans hadded.suppress.symm,
      h.platform.trans hadded.platform.symm⟩
  · rintro rfl
    exact collects_addAll said

/-! ### Reading -/

theorem addLines_eq_ok_iff {run run' : LineRun} {number : Nat} {lines : List (List UInt8)}
    (hlines : ∀ line ∈ lines, lineFeed ∉ line) : run.addLines number lines = .ok run' ↔
      ∃ said, List.Forall₂ ConfigLine.Says lines said ∧ run' = said.foldl LineRun.addLine run := by
  induction lines generalizing run number with
  | nil =>
      rw [LineRun.addLines, Except.ok.injEq]
      simp [eq_comm]
  | cons line lines ih =>
      obtain ⟨hline, hlines⟩ := List.forall_mem_cons.mp hlines
      rw [LineRun.addLines]
      constructor
      · intro h
        split at h
        · exact nomatch h
        rename_i hshort
        split at h
        · exact nomatch h
        rename_i line' hread
        obtain ⟨said, hsaid, rfl⟩ := (ih hlines).mp h
        have hsays := (ConfigLine.says_iff hline).mpr ⟨Nat.lt_of_not_le hshort, hread⟩
        exact ⟨line' :: said, .cons hsays hsaid, rfl⟩
      · rintro ⟨_, hall, rfl⟩
        obtain ⟨line', said, hsays, hsaid, rfl⟩ := List.forall₂_cons_left_iff.mp hall
        obtain ⟨hshort, hread⟩ := (ConfigLine.says_iff hline).mp hsays
        rw [if_neg (Nat.not_le_of_lt hshort), hread]
        exact (ih hlines).mpr ⟨said, hsaid, rfl⟩

/-- The places that are kept do not show in what lines add up to. -/
theorem config_foldl_addLine {run : LineRun} (h : run.Indexed) :
    (said.foldl LineRun.addLine run).config = run.config.addAll said := by
  induction said generalizing run with
  | nil => rfl
  | cons line said ih =>
      rw [List.foldl_cons, ih (LineRun.indexed_addLine h), LineRun.config_addLine h]
      rfl

/-- Reading a byte string reads its lines and adds up what they say. -/
theorem ofLines_eq_ok_iff {bytes : List UInt8} {c : Config} : ofLines bytes = .ok c ↔
    ∃ said, List.Forall₂ ConfigLine.Says (Text.splitWhere (· == lineFeed) bytes) said ∧
      c = addAll {} said := by
  have hlines : ∀ line ∈ Text.splitWhere (· == lineFeed) bytes, lineFeed ∉ line := fun line hline =>
    Text.not_mem_of_mem_splitWhere hline (beq_self_eq_true lineFeed)
  rw [ofLines, except_map_eq_ok]
  simp only [addLines_eq_ok_iff hlines]
  constructor
  · rintro ⟨_, ⟨said, hsaid, rfl⟩, rfl⟩
    exact ⟨said, hsaid, config_foldl_addLine LineRun.indexed_empty⟩
  · rintro ⟨said, hsaid, rfl⟩
    exact ⟨_, ⟨said, hsaid, rfl⟩, config_foldl_addLine LineRun.indexed_empty⟩

theorem lines_append (a b : List UInt8) : Text.splitWhere (· == lineFeed) (a ++ lineFeed :: b) =
    Text.splitWhere (· == lineFeed) a ++ Text.splitWhere (· == lineFeed) b := by
  simp only [Text.splitWhere_eq_splitOnP]
  exact List.splitOnP_append_cons a b rfl

/-- Reading two texts one below the other reads both. -/
theorem ofLines_append_eq_ok_iff {a b : List UInt8} {c : Config} :
    ofLines (a ++ lineFeed :: b) = .ok c ↔
      ∃ ca cb, ofLines a = .ok ca ∧ ofLines b = .ok cb ∧ c = ca.merge cb := by
  simp only [ofLines_eq_ok_iff, lines_append]
  constructor
  · rintro ⟨_, hsays, rfl⟩
    obtain ⟨said, more, rfl, hsaid, hmore⟩ := exists_append_of_forall₂ hsays
    exact ⟨_, _, ⟨said, hsaid, rfl⟩, ⟨more, hmore, rfl⟩, addAll_append said more⟩
  · rintro ⟨_, _, ⟨said, hsaid, rfl⟩, ⟨more, hmore, rfl⟩, rfl⟩
    exact ⟨said ++ more, List.rel_append hsaid hmore, (addAll_append said more).symm⟩

/-- **Texts one below the other are merged.** A text, as a byte string, can be read exactly if the
part above a line end and the part below it can, and then the second configuration is merged into the
first. A text is read exactly if each of its lines is spelled as one of the forms says. The
configuration holds what the lines say: no two rules are for the same linter, and no target of a line
is lost or repeated. -/
theorem ofLines_merges (a b : List UInt8) :
    ((∃ c, ofLines (a ++ lineFeed :: b) = .ok c) ↔
        (∃ c, ofLines a = .ok c) ∧ ∃ d, ofLines b = .ok d) ∧
      (∀ c d, ofLines a = .ok c → ofLines b = .ok d →
        ofLines (a ++ lineFeed :: b) = .ok (c.merge d)) ∧
      ∀ bytes c, ofLines bytes = .ok c ↔ ∃ lines said, Text.Separates lineFeed bytes lines ∧
        List.Forall₂ ConfigLine.Says lines said ∧ c.Collects said := by
  refine ⟨?_, fun c d hc hd => ofLines_append_eq_ok_iff.mpr ⟨c, d, hc, hd, rfl⟩, ?_⟩
  · constructor
    · rintro ⟨_, h⟩
      obtain ⟨c, d, hc, hd, -⟩ := ofLines_append_eq_ok_iff.mp h
      exact ⟨⟨c, hc⟩, d, hd⟩
    · rintro ⟨⟨c, hc⟩, d, hd⟩
      exact ⟨_, ofLines_append_eq_ok_iff.mpr ⟨c, d, hc, hd, rfl⟩⟩
  · intro bytes c
    simp only [ofLines_eq_ok_iff, collects_iff, Text.separates_iff]
    constructor
    · rintro ⟨said, hsaid, rfl⟩
      exact ⟨_, said, rfl, hsaid, rfl⟩
    · rintro ⟨_, said, rfl, hsaid, rfl⟩
      exact ⟨said, hsaid, rfl⟩

/-- Lines for linters that take turns. -/
def linesAbove : List UInt8 :=
  "Cohesion: p/A, PACKAGE: q\n# p/B\nDemeter: *\nCohesion: p/C,".toList.flatMap
    String.utf8EncodeChar

@[inherit_doc linesAbove]
def linesBelow : List UInt8 :=
  "Demeter: p/D\nnolint:Demeter p/A\nMonitor: p/E\nplatform = java/\nCohesion: p/A".toList.flatMap
    String.utf8EncodeChar

/-- The targets of each linter are collected from above and from below. -/
theorem ofLines_merges_interleaved :
    ∃ c d, ofLines linesAbove = .ok c ∧ ofLines linesBelow = .ok d ∧
      ofLines (linesAbove ++ lineFeed :: linesBelow) = .ok (c.merge d) ∧
      (c.merge d).linters =
        [{ name := "Cohesion", classes := ["p/A", "p/C", "p/A"], packages := ["q"] },
          { name := "Demeter", all := true, classes := ["p/D"] },
          { name := "Monitor", classes := ["p/E"] }] := by
  have habove : ofLines linesAbove = .ok { linters :=
      [{ name := "Cohesion", classes := ["p/A", "p/C"], packages := ["q"] },
        { name := "Demeter", all := true }] } := by decide +kernel
  have hbelow : ofLines linesBelow = .ok
      { linters := [{ name := "Demeter", classes := ["p/D"] },
          { name := "Monitor", classes := ["p/E"] }, { name := "Cohesion", classes := ["p/A"] }]
        suppress := [{ linter := "Demeter", className := "p/A" }], platform := ["java/"] } := by
    decide +kernel
  exact ⟨_, _, habove, hbelow, (ofLines_merges _ _).2.1 _ _ habove hbelow, by decide⟩

end Config

end ClassAudit
