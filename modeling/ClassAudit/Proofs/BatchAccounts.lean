import ClassAudit.Proofs.LoadRuns
import ClassAudit.Proofs.NameSearch
import ClassAudit.Proofs.PackageIsolation
import ClassAudit.Proofs.PrefixFree
import ClassAudit.Proofs.Reading

/-!
# What a batch tells of its files

Every file of a batch either is the one that a class comes from, or is a failure. Of several files
with a class of one name the first gives the class, and the others are failures that name it. Files
are gathered in the order of their paths, so the first of them is the one with the least path.

While files are added, the batch is determined by the files seen so far: no file that comes later
changes what an earlier one has given.

## Main definitions

* `firstWith?`, `kept?`, `failure?` - the first file with a class of a name, and what a file gives.
* `Batch.Gathered` - the batch holds what the files seen so far give.
* `FirstFile`, `Batch.Accounts` - where each class and each failure of a batch comes from.

## Main statements

* `Batch.Gathered.add`, `Batch.Gathered.foldl` - adding files gathers what they give.
* `Batch.accounts_ofFiles` - a batch accounts for its files.
* `discover_congr` - the order of the roots, and how often each is named, do not matter.
* `Batch.load_accounts` - the same for loading, in whatever order the files are done.
-/

namespace ClassAudit

/-- The name of the class in a file, if there is one. -/
def classNameAt (t : FileTree) (path : String) : Option String :=
  (loadClass t path).toOption.map (·.name)

/-- The first of some files with a class of this name. -/
def firstWith? (t : FileTree) (files : List String) (name : String) : Option String :=
  files.find? (classNameAt t · == some name)

/-- The class that a file gives, if the file is the first with a class of its name. -/
def kept? (t : FileTree) (files : List String) (path : String) : Option ClassModel :=
  (loadClass t path).toOption.filter fun c => firstWith? t files c.name == some path

/-- The failure that a file gives, if it holds no class or not the first of its name. -/
def failure? (t : FileTree) (files : List String) (path : String) : Option Failure :=
  match loadClass t path with
  | .error fault => some { path, fault }
  | .ok c =>
    match firstWith? t files c.name with
    | some first =>
      if first = path then none else some { path, fault := .duplicate c.name first }
    | none => none

variable {t : FileTree} {files seen : List String} {path name : String} {c : ClassModel}

/-! ### The first file of a name -/

theorem classNameAt_of_ok (h : loadClass t path = .ok c) : classNameAt t path = some c.name := by
  rw [classNameAt, h]
  rfl

theorem classNameAt_of_error {fault : FileFault} (h : loadClass t path = .error fault) :
    classNameAt t path = none := by
  rw [classNameAt, h]
  rfl

theorem firstWith?_append (t : FileTree) (seen : List String) (path name : String) :
    firstWith? t (seen ++ [path]) name = (firstWith? t seen name).or
      (if classNameAt t path = some name then some path else none) := by
  simp only [firstWith?, List.find?_append, List.find?_singleton, beq_iff_eq]

theorem mem_of_firstWith? (h : firstWith? t files name = some path) : path ∈ files :=
  List.mem_of_find?_eq_some h

theorem exists_firstWith? (hmem : path ∈ files) (h : classNameAt t path = some name) :
    ∃ first, firstWith? t files name = some first := by
  rw [← Option.isSome_iff_exists, firstWith?, List.find?_isSome]
  exact ⟨path, hmem, beq_iff_eq.mpr h⟩

/-- Files that come later do not change which is the first. -/
theorem firstWith?_append_of_mem {more : List String} (hmem : path ∈ seen)
    (h : classNameAt t path = some name) :
    firstWith? t (seen ++ more) name = firstWith? t seen name := by
  obtain ⟨first, hfirst⟩ := exists_firstWith? hmem h
  rw [firstWith?, List.find?_append]
  change (firstWith? t seen name).or _ = _
  rw [hfirst, Option.some_or]

/-- The path is the least of those of the files with a class of this name. -/
structure FirstFile (t : FileTree) (files : List String) (name path : String) : Prop where
  mem : path ∈ files
  holds : classNameAt t path = some name
  least : ∀ other ∈ files, classNameAt t other = some name → path ≤ other

theorem FirstFile.eq {other : String} (h : FirstFile t files name path)
    (hother : FirstFile t files name other) : path = other :=
  le_antisymm (h.least other hother.mem hother.holds) (hother.least path h.mem h.holds)

/-- In the order of the paths, the first file is the one with the least path. -/
theorem firstWith?_eq_some_iff (hfiles : files.Pairwise (· < ·)) :
    firstWith? t files name = some path ↔ FirstFile t files name path := by
  have hfirst {path : String} (h : firstWith? t files name = some path) :
      FirstFile t files name path := by
    obtain ⟨hname, before, after, rfl, hbefore⟩ := List.find?_eq_some_iff_append.mp h
    refine ⟨mem_of_firstWith? h, beq_iff_eq.mp hname, fun other hother hholds => ?_⟩
    obtain hmem | hmem := List.mem_append.mp hother
    · have hnot := hbefore other hmem
      rw [hholds, beq_self_eq_true] at hnot
      exact nomatch hnot
    · obtain rfl | hmem := List.mem_cons.mp hmem
      · exact le_rfl
      · have hlater := List.pairwise_append.mp hfiles
        exact ((List.pairwise_cons.mp hlater.2.1).1 other hmem).le
  refine ⟨hfirst, fun h => ?_⟩
  obtain ⟨first, hfound⟩ := exists_firstWith? h.mem h.holds
  rw [hfound, (hfirst hfound).eq h]

/-! ### What a file gives -/

theorem kept?_eq_some_iff :
    kept? t files path = some c ↔ loadClass t path = .ok c ∧
      firstWith? t files c.name = some path := by
  rw [kept?, Option.filter_eq_some_iff, beq_iff_eq]
  refine and_congr_left fun _ => ?_
  cases loadClass t path <;> simp [Except.toOption]

theorem kept?_append_of_mem {more : List String} (hmem : path ∈ seen) :
    kept? t (seen ++ more) path = kept? t seen path := by
  ext c
  rw [kept?_eq_some_iff, kept?_eq_some_iff]
  refine and_congr_right fun hload => ?_
  rw [firstWith?_append_of_mem hmem (classNameAt_of_ok hload)]

theorem failure?_append_of_mem {more : List String} (hmem : path ∈ seen) :
    failure? t (seen ++ more) path = failure? t seen path := by
  cases hload : loadClass t path with
  | error fault => simp only [failure?, hload]
  | ok c => simp only [failure?, hload, firstWith?_append_of_mem hmem (classNameAt_of_ok hload)]

theorem failure?_eq_some_iff {f : Failure} :
    failure? t files path = some f ↔ f.path = path ∧
      (loadClass t path = .error f.fault ∨ ∃ c first, loadClass t path = .ok c ∧
        firstWith? t files c.name = some first ∧ first ≠ path ∧
          f.fault = .duplicate c.name first) := by
  obtain ⟨path', fault⟩ := f
  cases hload : loadClass t path with
  | error fault' => simp [failure?, hload, eq_comm]
  | ok c =>
      cases hfirst : firstWith? t files c.name with
      | none => simp [failure?, hload, hfirst]
      | some first =>
          by_cases heq : first = path
          · simp [failure?, hload, hfirst, heq]
          · simp [failure?, hload, hfirst, heq, eq_comm (a := path'), eq_comm (a := fault)]

/-- A file gives a failure exactly if it gives no class. -/
theorem isSome_failure? (hmem : path ∈ files) :
    (failure? t files path).isSome = !(kept? t files path).isSome := by
  cases hload : loadClass t path with
  | error fault => simp [failure?, kept?, hload, Except.toOption]
  | ok c =>
      obtain ⟨first, hfirst⟩ := exists_firstWith? hmem (classNameAt_of_ok hload)
      by_cases heq : first = path <;>
        simp [failure?, kept?, hload, hfirst, heq, Except.toOption, Option.filter]

/-! ### Gathering -/

namespace Batch

section Add

variable {b : Batch}

theorem add_error (b : Batch) (path : String) (fault : FileFault) :
    b.add path (.error fault) = { b with failures := b.failures ++ [{ path, fault }] } := rfl

theorem add_duplicate {previous : String} (h : b.sources.lookup c.name = some previous)
    (path : String) :
    b.add path (.ok c) =
      { b with failures := b.failures ++ [{ path, fault := .duplicate c.name previous }] } := by
  rw [add, h]

theorem add_new (h : b.sources.lookup c.name = none) (path : String) :
    b.add path (.ok c) =
      { b with classes := b.classes ++ [c], sources := b.sources ++ [(c.name, path)] } := by
  rw [add, h]

end Add

/-- The batch holds what the files seen so far give. -/
structure Gathered (t : FileTree) (seen : List String) (b : Batch) : Prop where
  sources : ∀ name, b.sources.lookup name = firstWith? t seen name
  classes : b.classes = seen.filterMap (kept? t seen)
  failures : b.failures = seen.filterMap (failure? t seen)

/-- A file that comes later adds what it gives itself to what the others have given. -/
theorem filterMap_append {β : Type} {f : List String → String → Option β}
    (hf : ∀ p ∈ seen, f (seen ++ [path]) p = f seen p) :
    (seen ++ [path]).filterMap (f (seen ++ [path])) =
      seen.filterMap (f seen) ++ (f (seen ++ [path]) path).toList := by
  rw [List.filterMap_append, List.filterMap_congr hf]
  cases h : f (seen ++ [path]) path with
  | none => rw [List.filterMap_cons_none h, List.filterMap_nil, Option.toList_none]
  | some b => rw [List.filterMap_cons_some h, List.filterMap_nil, Option.toList_some]

namespace Gathered

variable {b b' : Batch}

theorem empty (t : FileTree) : Gathered t [] {} := ⟨fun _ => rfl, rfl, rfl⟩

/-- What has to be added for one more file. -/
theorem append (h : b.Gathered t seen)
    (hsources : ∀ name, b'.sources.lookup name = (b.sources.lookup name).or
      (if classNameAt t path = some name then some path else none))
    (hclasses : b'.classes = b.classes ++ (kept? t (seen ++ [path]) path).toList)
    (hfailures : b'.failures = b.failures ++ (failure? t (seen ++ [path]) path).toList) :
    b'.Gathered t (seen ++ [path]) where
  sources name := by rw [hsources, h.sources, firstWith?_append]
  classes := by rw [hclasses, h.classes, filterMap_append fun _ => kept?_append_of_mem]
  failures := by rw [hfailures, h.failures, filterMap_append fun _ => failure?_append_of_mem]

/-- Adding a file gathers what it gives. -/
theorem add (h : b.Gathered t seen) (hpath : path ∉ seen) :
    (b.add path (loadClass t path)).Gathered t (seen ++ [path]) := by
  cases hload : loadClass t path with
  | error fault =>
      rw [add_error]
      refine h.append (fun name => ?_) ?_ ?_
      · simp [classNameAt_of_error hload]
      · simp [kept?, hload, Except.toOption]
      · simp [failure?, hload]
  | ok c =>
      have hname := classNameAt_of_ok hload
      have hfirst := firstWith?_append t seen path c.name
      rw [if_pos hname, ← h.sources] at hfirst
      cases hprevious : b.sources.lookup c.name with
      | some previous =>
          rw [hprevious, Option.some_or] at hfirst
          have hne : previous ≠ path := by
            rintro rfl
            exact hpath (mem_of_firstWith? (hprevious ▸ h.sources c.name).symm)
          rw [add_duplicate hprevious]
          refine h.append (fun name => ?_) ?_ ?_
          · rw [hname]
            by_cases heq : c.name = name
            · rw [← heq, hprevious, Option.some_or]
            · simp [heq]
          · simp [kept?, hload, hfirst, hne, Except.toOption, Option.filter]
          · simp [failure?, hload, hfirst, hne]
      | none =>
          rw [hprevious, Option.none_or] at hfirst
          rw [add_new hprevious]
          refine h.append (fun name => ?_) ?_ ?_
          · rw [hname, List.lookup_append, List.lookup_cons, List.lookup_nil]
            by_cases heq : c.name = name
            · simp [heq]
            · simp [heq, beq_false_of_ne (Ne.symm heq)]
          · simp [kept?, hload, hfirst, Except.toOption, Option.filter]
          · simp [failure?, hload, hfirst]

/-- Adding files that were not seen before gathers what they give. -/
theorem foldl (h : b.Gathered t seen) (hnodup : (seen ++ files).Nodup) :
    (files.foldl (fun b path => b.add path (loadClass t path)) b).Gathered t (seen ++ files) := by
  induction files generalizing seen b with
  | nil => rwa [List.append_nil]
  | cons path files ih =>
      have hpath : path ∉ seen := fun hmem =>
        (List.nodup_append.mp hnodup).2.2 path hmem path List.mem_cons_self rfl
      rw [List.append_cons] at hnodup ⊢
      exact ih (h.add hpath) hnodup

end Gathered

/-! ### Accounting -/

/-- What lists of kept things tell of the list that they are taken from. -/
theorem map_filterMap_eq_map_filter {α β γ : Type} {f : α → Option β} {g : β → γ} {h : α → γ}
    {l : List α} (hg : ∀ a ∈ l, ∀ b, f a = some b → g b = h a) :
    (l.filterMap f).map g = (l.filter fun a => (f a).isSome).map h := by
  rw [List.map_filterMap, ← List.filterMap_eq_map, List.filterMap_filter]
  refine List.filterMap_congr fun a ha => ?_
  cases hb : f a with
  | none => rfl
  | some b => simp [hg a ha b hb]

/-- Where each class and each failure of a batch comes from. -/
structure Accounts (t : FileTree) (files : List String) (b : Batch) : Prop where
  ascending : b.Ascending
  /-- A class comes from the first file with a class of its name. -/
  mem_classes : ∀ c, c ∈ b.classes ↔
    ∃ path, FirstFile t files c.name path ∧ loadClass t path = .ok c
  lookup_sources : ∀ name path, b.sources.lookup name = some path ↔ FirstFile t files name path
  /-- A file fails if it gives no class, or if another file of the same class comes first. -/
  mem_failures : ∀ path fault, { path, fault } ∈ b.failures ↔ path ∈ files ∧
    (loadClass t path = .error fault ∨ ∃ c first, loadClass t path = .ok c ∧
      FirstFile t files c.name first ∧ first < path ∧ fault = .duplicate c.name first)
  /-- A file is either the source of one class or stands once among the failures. -/
  once : ∀ path ∈ files, b.classes.countP (fun c => b.sources.lookup c.name == some path) +
    b.failures.countP (·.path == path) = 1
  total : files.length = b.classes.length + b.failures.length

namespace Gathered

variable {b : Batch}

/-- The classes that were gathered have different names. -/
theorem nodup_names (h : b.Gathered t files) (hfiles : files.Nodup) :
    (b.classes.map (·.name)).Nodup := by
  rw [h.classes, List.Nodup, List.pairwise_map, List.pairwise_filterMap]
  refine hfiles.imp fun hne c hc d hd hname => hne ?_
  have hfirst := (kept?_eq_some_iff.mp hc).2
  rw [hname, (kept?_eq_some_iff.mp hd).2] at hfirst
  exact (Option.some.inj hfirst).symm

/-- The sources of the classes and the paths of the failures are the files. -/
theorem perm_files (h : b.Gathered t files) :
    (b.classes.map (fun c => b.sources.lookup c.name) ++ b.failures.map fun f => some f.path).Perm
      (files.map some) := by
  have hkept : b.classes.map (fun c => b.sources.lookup c.name) =
      (files.filter fun path => (kept? t files path).isSome).map some := by
    rw [h.classes]
    refine map_filterMap_eq_map_filter fun path _ c hc => ?_
    rw [h.sources, (kept?_eq_some_iff.mp hc).2]
  have hfailed : b.failures.map (fun f => some f.path) =
      (files.filter fun path => !(kept? t files path).isSome).map some := by
    rw [h.failures, ← List.filter_congr fun path => isSome_failure?]
    exact map_filterMap_eq_map_filter fun path _ f hf => congrArg some (failure?_eq_some_iff.mp hf).1
  rw [hkept, hfailed, ← List.map_append]
  exact (List.filter_append_perm _ files).map some

theorem mem_failures (h : b.Gathered t files) (hfiles : files.Pairwise (· < ·)) (path : String)
    (fault : FileFault) :
    { path, fault } ∈ b.failures ↔ path ∈ files ∧
      (loadClass t path = .error fault ∨ ∃ c first, loadClass t path = .ok c ∧
        FirstFile t files c.name first ∧ first < path ∧ fault = .duplicate c.name first) := by
  have hgiven : { path, fault } ∈ b.failures ↔
      path ∈ files ∧ failure? t files path = some { path, fault } := by
    rw [h.failures, List.mem_filterMap]
    constructor
    · rintro ⟨path', hmem, hf⟩
      obtain rfl := (failure?_eq_some_iff.mp hf).1
      exact ⟨hmem, hf⟩
    · exact fun ⟨hmem, hf⟩ => ⟨path, hmem, hf⟩
  rw [hgiven, failure?_eq_some_iff]
  refine and_congr_right fun hmem => ?_
  rw [and_iff_right rfl]
  refine or_congr_right (exists₂_congr fun c first => and_congr_right fun hload => ?_)
  rw [firstWith?_eq_some_iff hfiles]
  refine and_congr_right fun hfirst => and_congr_left fun _ => ?_
  exact (hfirst.least path hmem (classNameAt_of_ok hload)).lt_iff_ne.symm

/-- A batch accounts for its files once its classes are in order. -/
theorem accounts (h : b.Gathered t files) (hfiles : files.Pairwise (· < ·)) :
    Accounts t files { b with classes := sortClasses b.classes } := by
  have hnodup : files.Nodup := hfiles.imp ne_of_lt
  have hperm : (sortClasses b.classes).Perm b.classes := List.mergeSort_perm _ _
  have hfirst (name path : String) :
      b.sources.lookup name = some path ↔ FirstFile t files name path := by
    rw [h.sources, firstWith?_eq_some_iff hfiles]
  refine ⟨pairwise_sortClasses (h.nodup_names hnodup), fun c => ?_, hfirst,
    h.mem_failures hfiles, fun path hmem => ?_, ?_⟩
  · rw [hperm.mem_iff, h.classes, List.mem_filterMap]
    constructor
    · rintro ⟨path, -, hc⟩
      obtain ⟨hload, hname⟩ := kept?_eq_some_iff.mp hc
      exact ⟨path, (firstWith?_eq_some_iff hfiles).mp hname, hload⟩
    · rintro ⟨path, hpath, hload⟩
      exact ⟨path, hpath.mem,
        kept?_eq_some_iff.mpr ⟨hload, (firstWith?_eq_some_iff hfiles).mpr hpath⟩⟩
  · have hcount := h.perm_files.count_eq (some path)
    have hone := List.count_eq_one_of_mem (hnodup.map (Option.some_injective _))
      (List.mem_map_of_mem hmem)
    rw [hone, List.count_append, List.count_eq_countP, List.count_eq_countP, List.countP_map,
      List.countP_map] at hcount
    rw [hperm.countP_eq]
    exact hcount
  · have hlength := h.perm_files.length_eq
    rw [List.length_append, List.length_map, List.length_map, List.length_map] at hlength
    rw [hperm.length_eq, hlength]

end Gathered

theorem accounts_ofFiles (t : FileTree) (hfiles : files.Pairwise (· < ·)) :
    (ofFiles t files).Accounts t files :=
  ((Gathered.empty t).foldl (hfiles.imp ne_of_lt)).accounts hfiles

end Batch

/-! ### Discovery -/

section Discovery

variable {recursive : Bool} {roots roots' : List String}

/-- Discovery succeeds if each root can be followed, and gives the files found, in order. -/
theorem discover_eq_ok_iff :
    discover t recursive roots = .ok files ↔
      (∀ root ∈ roots, ∃ found, discoverAt t recursive root = .ok found) ∧
        files.Pairwise (· < ·) ∧ ∀ path, path ∈ files ↔
          ∃ root ∈ roots, ∃ found, discoverAt t recursive root = .ok found ∧ path ∈ found := by
  have hmem {lists : List (List String)} (h : roots.map (discoverAt t recursive) = lists.map .ok)
      (path : String) : path ∈ Text.sortedDistinct lists.flatten ↔
        ∃ root ∈ roots, ∃ found, discoverAt t recursive root = .ok found ∧ path ∈ found := by
    have hfound {found : List String} : found ∈ lists ↔
        ∃ root ∈ roots, discoverAt t recursive root = .ok found := by
      rw [← List.mem_map, h, List.mem_map_of_injective fun _ _ => Except.ok.inj]
    rw [Text.sortedDistinct, Text.sorted, mem_eraseReps, List.mem_mergeSort, List.mem_flatten]
    constructor
    · rintro ⟨found, hlist, hpath⟩
      obtain ⟨root, hroot, hdiscover⟩ := hfound.mp hlist
      exact ⟨root, hroot, found, hdiscover, hpath⟩
    · rintro ⟨root, hroot, found, hdiscover, hpath⟩
      exact ⟨found, hfound.mpr ⟨root, hroot, hdiscover⟩, hpath⟩
  rw [discover, except_bind_eq_ok]
  constructor
  · rintro ⟨lists, hlists, hpure⟩
    obtain rfl := Except.ok.inj hpure
    have heq := mapM_eq_ok_iff.mp hlists
    refine ⟨fun root hroot => ?_, Text.pairwise_sortedDistinct _, hmem heq⟩
    have hresult := List.mem_map_of_mem (f := discoverAt t recursive) hroot
    rw [heq] at hresult
    obtain ⟨found, -, hfound⟩ := List.mem_map.mp hresult
    exact ⟨found, hfound.symm⟩
  · rintro ⟨hok, hfiles, hpaths⟩
    choose! found hfound using hok
    have heq : roots.map (discoverAt t recursive) = (roots.map found).map .ok := by
      rw [List.map_map]
      exact List.map_congr_left hfound
    refine ⟨roots.map found, mapM_eq_ok_iff.mpr heq, congrArg Except.ok ?_⟩
    refine (Text.pairwise_sortedDistinct _).eq_of_mem_iff hfiles fun path => ?_
    rw [hpaths, hmem heq]

theorem discover_congr (hroots : ∀ root, root ∈ roots' ↔ root ∈ roots) :
    discover t recursive roots' = .ok files ↔ discover t recursive roots = .ok files := by
  simp only [discover_eq_ok_iff, hroots]

end Discovery

/-! ### Loading -/

namespace Batch

variable {paths : List String} {recursive cancelled : Bool} {b : Batch}

/-- The paths that are looked at when these are named. -/
def rootsOf (paths : List String) : List String := if paths.isEmpty then ["."] else paths

theorem load_eq_ok_iff :
    load t paths recursive cancelled = .ok b ↔ cancelled = false ∧
      ∃ files, discover t recursive (rootsOf paths) = .ok files ∧ files ≠ [] ∧
        ofFiles t files = b := by
  rw [load, except_bind_eq_ok, ← exists_and_left]
  refine exists_congr fun files => ?_
  rw [rootsOf, and_left_comm]
  refine and_congr_right fun _ => ?_
  cases files <;> cases cancelled <;>
    simp [throw, throwThe, MonadExceptOf.throw, pure, bind, Except.bind, Except.pure]

theorem mem_rootsOf_congr {paths' : List String} (h : ∀ path, path ∈ paths' ↔ path ∈ paths)
    (root : String) : root ∈ rootsOf paths' ↔ root ∈ rootsOf paths := by
  have hempty : paths'.isEmpty = paths.isEmpty := by
    rw [Bool.eq_iff_iff, List.isEmpty_iff, List.isEmpty_iff, List.eq_nil_iff_forall_not_mem,
      List.eq_nil_iff_forall_not_mem]
    exact forall_congr' fun path => not_congr (h path)
  rw [rootsOf, rootsOf, hempty]
  split
  · rfl
  · exact h root

/-- A batch that was loaded accounts for every file that was discovered, in whatever order the files
were done. Naming the roots in another order or more than once gives the same batch. Halving finds a
class in it exactly if one of this name was loaded. -/
theorem load_accounts (h : load t paths recursive cancelled = .ok b) :
    (∃ files, discover t recursive (rootsOf paths) = .ok files ∧ b.Accounts t files ∧
      ∀ s, LoadState.Reached t files s →
        (∃ s', Relation.ReflTransGen (LoadState.Step t) s s' ∧ s'.Completed) ∧
          (s.Completed → collect files s.results = some b)) ∧
    (∀ paths', (∀ path, path ∈ paths' ↔ path ∈ paths) →
      load t paths' recursive cancelled = .ok b) ∧
    ∀ name, b.search? name = b.lookup? name ∧
      ∀ c, b.search? name = some c ↔ c ∈ b.classes ∧ c.name = internalName name := by
  obtain ⟨hcancelled, files, hfiles, hsome, rfl⟩ := load_eq_ok_iff.mp h
  have haccounts := accounts_ofFiles t (discover_eq_ok_iff.mp hfiles).2.1
  refine ⟨⟨files, hfiles, haccounts, fun s hs => ?_⟩, fun paths' hpaths => ?_, fun name => ?_⟩
  · exact ⟨LoadState.exists_completed t s, hs.sound.collect_eq⟩
  · have hfiles' := (discover_congr (mem_rootsOf_congr hpaths)).mpr hfiles
    exact load_eq_ok_iff.mpr ⟨hcancelled, files, hfiles', hsome, rfl⟩
  · refine ⟨haccounts.ascending.search?_eq_lookup? name, fun c => ?_⟩
    rw [haccounts.ascending.search?_eq_some_iff, eq_comm (b := c.name)]

/-- A directory with two files of the same class and one that holds none. -/
def heldTwice : FileTree where
  entries := [(["C.class"], .file []), (["B.class"], .file ClassModel.bareClass),
    (["A.class"], .file ClassModel.bareClass)]

/-- The batch of this directory. -/
def heldOnce : Batch where
  classes := [{ name := "A", access := ⟨1⟩, major := 52 }]
  sources := [("A", "A.class")]
  failures := [⟨"B.class", .duplicate "A" "A.class"⟩,
    ⟨"C.class", .malformed "C.class" { cause := .truncated "magic" 4 0, offset := some 0 }⟩]

theorem discover_heldTwice :
    discover heldTwice false [".", "."] = .ok ["A.class", "B.class", "C.class"] := by
  have hresolve (followLast : Bool) : heldTwice.resolve "." followLast = .ok ([], .directory) := by
    have htext : FileTree.textFault? "." = none := by decide +kernel
    have hsteps : Path.steps "." = ["."] := by decide +kernel
    rw [FileTree.resolve, htext, hsteps]
    show heldTwice.follow _ _ _ _ = _
    rw [FileTree.follow, if_pos (beq_self_eq_true _), FileTree.follow]
    rfl
  have hfound : discoverAt heldTwice false "." = .ok ["C.class", "B.class", "A.class"] := by
    rw [discoverAt, hresolve, hresolve]
    decide +kernel
  refine discover_eq_ok_iff.mpr ⟨?_, by decide +kernel, fun path => ?_⟩
  · simp [hfound]
  · simp only [List.mem_cons, List.not_mem_nil, or_false, or_self, exists_eq_left, hfound,
      Except.ok.injEq, exists_eq_left']
    tauto

theorem loadClass_heldTwice : ∀ path ∈ ["A.class", "B.class"],
    loadClass heldTwice path = .ok { name := "A", access := ⟨1⟩, major := 52 } := by
  have hparse : ClassModel.parse ClassModel.bareClass =
      .ok { name := "A", access := ⟨1⟩, major := 52 } := by decide +kernel
  have hread : ∀ path ∈ ["A.class", "B.class"], heldTwice.read path = .ok ClassModel.bareClass := by
    intro path hpath
    rw [FileTree.read, FileTree.resolve, FileTree.follow.eq_def]
    revert path
    decide +kernel
  intro path hpath
  rw [loadClass, hread path hpath, Except.mapError, except_bind_eq_ok]
  exact ⟨_, rfl, except_mapError_eq_ok.mpr hparse⟩

theorem loadClass_heldTwice_error :
    loadClass heldTwice "C.class" =
      .error (.malformed "C.class" { cause := .truncated "magic" 4 0, offset := some 0 }) := by
  rw [loadClass, FileTree.read, FileTree.resolve, FileTree.follow.eq_def]
  rfl

/-- Of two files with one class the first is kept, however often their directory is named. -/
theorem load_heldTwice :
    load heldTwice [".", "."] false false = .ok heldOnce ∧
      load heldTwice ["."] false false = .ok heldOnce ∧
      heldOnce.Accounts heldTwice ["A.class", "B.class", "C.class"] := by
  have hloaded : load heldTwice [".", "."] false false = .ok heldOnce := by
    refine load_eq_ok_iff.mpr ⟨rfl, _, discover_heldTwice, by decide, ?_⟩
    rw [ofFiles, List.foldl_cons, List.foldl_cons, List.foldl_cons, List.foldl_nil,
      loadClass_heldTwice "A.class" (.head _), loadClass_heldTwice "B.class" (.tail _ (.head _)),
      loadClass_heldTwice_error]
    simp [add, sortClasses, heldOnce]
  obtain ⟨⟨files, hfiles, haccounts, -⟩, hroots, -⟩ := load_accounts hloaded
  obtain rfl := Except.ok.inj (hfiles.symm.trans discover_heldTwice)
  exact ⟨hloaded, hroots ["."] (by simp), haccounts⟩

end Batch

end ClassAudit
