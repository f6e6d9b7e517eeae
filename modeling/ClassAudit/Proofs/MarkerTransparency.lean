import ClassAudit.Detectors.Catalogue
import ClassAudit.Proofs.Remarking
import ClassAudit.Proofs.UnusedMembers

/-!
# Markers are transparent

A class with other markers has the same instructions at the same sites, so the linters report the
same about it: only source lines differ. The linter for dead code is the exception, because for it a
marker after a return, a throw or a jump makes the code behind the marker reachable.

## Main definitions

* `Registry.MadeAlike` - a linter is made in both cases, or in none, and reports alike.
* `Registry.Transparent` - the linters of a registry, but for those under one name, do not see
  markers.

## Main statements

* `Registry.transparent_builtin` - no built-in linter sees markers but the one for dead code.
* `Registry.findings_ignore_markers` - **markers change nothing that is reported but its line**.
-/

namespace ClassAudit

open List Relator

/-! ### Linters of single classes -/

section PerClass

variable {c c' : ClassModel} {m m' : MethodModel}

theorem EqualsHashCode.alike (h : c.Remarked c') : (linter c).Alike (linter c') := by
  obtain @⟨ms, hms⟩ := h
  have hnamed (name : String) : c.hasMethodNamed name =
      { c with methods := ms }.hasMethodNamed name := hms.any_eq fun _ _ ⟨_⟩ => rfl
  refine ⟨rfl, rfl, Finding.forall₂_alike_of_eq ?_⟩
  simp only [linter, hnamed]

namespace UnusedVariables

theorem any_actions_eq (h : c.Remarked c') {p : Action → Bool} (hp : IgnoresMarkers p false) :
    (actions c).any p = (actions c').any p := by
  obtain ⟨hms⟩ := h
  simp only [actions, any_flatMap, any_map]
  refine hms.any_eq fun m m' hm => ?_
  obtain ⟨hcode⟩ := hm
  exact hcode.any_elements_eq fun _ => hp

/-- The same members are unused. -/
theorem isUnused_eq (h : c.Remarked c') (watched : List MemberKey)
    {u : Action → Option MemberKey} (hused : IgnoresMarkers u none) :
    (useTable c watched u).isUnused = (useTable c' watched u).isUnused := by
  funext key
  have hsilent : IgnoresMarkers (u · == some key) false :=
    ⟨fun id => by rw [hused.label]; rfl, fun number => by rw [hused.line]; rfl,
      by rw [hused.frame]; rfl⟩
  rw [isUnused_useTable, isUnused_useTable, any_actions_eq h hsilent]

/-- The stores into a local variable are the same, at other positions. -/
theorem rel_stores (h : m.Remarked m') :
    Forall₂ (fun x y => x.2 = y.2) (stores m) (stores m') := by
  obtain ⟨hcode⟩ := h
  refine hcode.rel_filterMap_indexed ?_ ?_ ?_
  · exact fun n => ⟨fun _ => rfl, fun _ => rfl, rfl⟩
  · exact fun n => ⟨fun _ => rfl, fun _ => rfl, rfl⟩
  · intro n n' a _
    cases a with
    | store type slot => exact rel_ite (.some rfl) .none
    | _ => exact .none

theorem loads_eq (h : m.Remarked m') (slot : Int) : loads m slot = loads m' slot := by
  obtain ⟨hcode⟩ := h
  exact hcode.any_elements_eq fun pc => ⟨fun _ => rfl, fun _ => rfl, rfl⟩

theorem rel_unread (h : m.Remarked m') :
    Forall₂ (fun x y => x.1 = y.1) (unread m) (unread m') := by
  have hstores := rel_stores h
  have hslots : (stores m).map (·.2) = (stores m').map (·.2) := hstores.map_eq fun _ _ hxy => hxy
  have hloads : (fun s => !loads m s) = fun s => !loads m' s := by
    funext s
    rw [loads_eq h]
  rw [unread, unread, hslots, hloads]
  refine rel_filterMap (R := Eq) ?_ (forall₂_refl _)
  rintro s _ rfl
  -- the first store of a variable is found in both bodies or in none
  have hfirst := hstores.rel_find? (p := (·.2 == s)) (q := (·.2 == s)) fun x y hxy => by rw [hxy]
  exact hfirst.map fun _ _ _ => rfl

theorem alike (h : c.Remarked c') : (linter c).Alike (linter c') := by
  have hread (watched : List MemberKey) :=
    isUnused_eq h watched (u := readField? c.name) ⟨fun _ => rfl, fun _ => rfl, rfl⟩
  have hcalled (watched : List MemberKey) :=
    isUnused_eq h watched (u := calledMethod? c.name) ⟨fun _ => rfl, fun _ => rfl, rfl⟩
  obtain @⟨ms, hms⟩ := h
  have hwatched : watchedMethods c = watchedMethods { c with methods := ms } :=
    (hms.filter fun _ _ ⟨_⟩ => rfl).map_eq fun _ _ ⟨_⟩ => rfl
  refine ⟨rfl, rfl, rel_append (rel_append ?_ ?_) ?_⟩
  · refine Finding.forall₂_alike_of_eq ?_
    simp only [fields, hread]
    rfl
  · refine rel_map ?_ (hms.filter ?_)
    · rintro m _ ⟨_⟩
      exact Origin.alike ..
    · rintro m _ ⟨_⟩
      rw [hcalled, hwatched]
  · refine rel_flatMap hms ?_
    rintro m m' hm
    refine rel_map ?_ (rel_unread hm)
    obtain ⟨_⟩ := hm
    rintro ⟨slot, n⟩ ⟨_, n'⟩ rfl
    exact Origin.alike ..

end UnusedVariables

namespace FeatureEnvy

theorem accesses_eq (h : m.Remarked m') (self : String) : accesses self m = accesses self m' := by
  obtain @⟨b, hcode⟩ := h
  have hactions : m.code.semantic.map (·.2) = b.semantic.map (·.2) :=
    (Body.forall₂_semantic hcode.instructions_eq).map_eq fun _ _ hxy => hxy.action_eq
  have hfound := congrArg (filterMap (accessedOwner? self)) hactions
  rw [filterMap_map, filterMap_map] at hfound
  exact hfound

theorem alike (h : c.Remarked c') : (linter c).Alike (linter c') := by
  obtain ⟨hms⟩ := h
  refine ⟨rfl, rfl, rel_flatMap (hms.filter fun _ _ ⟨_⟩ => rfl) ?_⟩
  rintro m m' hm
  rw [ofMethod, ofMethod, accesses_eq hm]
  obtain ⟨_⟩ := hm
  refine rel_filterMap (R := Eq) ?_ (forall₂_refl _)
  rintro owner _ rfl
  exact rel_ite .none (.some (Origin.alike ..))

end FeatureEnvy

namespace DemeterPrinciple

/-- A marker neither continues nor ends a chain. -/
theorem chains_filter (s : ChainState) (l : List (Nat × Action)) :
    chains s (l.filter (!·.2.isMarker)) = chains s l := by
  induction l generalizing s with
  | nil => rfl
  | cons x l ih =>
      obtain ⟨n, a⟩ := x
      cases a with
      | label id | line number | frame | stack op => exact ih s
      | invoke kind target =>
          rw [filter_cons_of_pos rfl]
          simp only [chains, ih]
      | _ => exact ih (s.broken _)

/-- The same calls continue chains, at other positions. -/
theorem rel_chains {l l' : List (Nat × Action)} (h : Forall₂ (fun x y => x.2 = y.2) l l')
    (s : ChainState) : Forall₂ (fun x y => x.2 = y.2) (chains s l) (chains s l') := by
  induction h generalizing s with
  | nil => exact .nil
  | @cons x y l l' hxy _ ih =>
      obtain ⟨n, a⟩ := x
      obtain ⟨n', a'⟩ := y
      obtain rfl : a = a' := hxy
      cases a with
      | label id | line number | frame | stack op => exact ih s
      | invoke kind target =>
          rw [chains, chains]
          split
          · exact ih s
          split
          · exact ih {}
          split
          · exact ih { depth := 1, prevInvoke := true }
          · exact .cons rfl (ih { s with depth := s.depth + 1 })
      | _ => exact ih (s.broken _)

theorem alike (h : c.Remarked c') : (linter c).Alike (linter c') := by
  obtain ⟨hms⟩ := h
  refine ⟨rfl, rfl, rel_flatMap (hms.filter fun _ _ ⟨_⟩ => rfl) ?_⟩
  rintro m _ @⟨b, hcode⟩
  have hactions : Forall₂ (fun x y => x.2 = y.2) m.code.semantic b.semantic :=
    (Body.forall₂_semantic hcode.instructions_eq).imp fun _ _ hxy => hxy.action_eq
  have hchains := rel_chains hactions {}
  rw [Body.semantic, Body.semantic, chains_filter, chains_filter] at hchains
  refine rel_map ?_ hchains
  rintro ⟨n, target, depth⟩ ⟨n', _, _⟩ ⟨⟩
  exact Origin.alike ..

end DemeterPrinciple

theorem HollywoodPrinciple.score_eq (ns : Namespaces) {b b' : Body} (h : b.Remarked b') :
    score ns b = score ns b' := by
  have hcount (p : Action → Bool) (hp : IgnoresMarkers p false) :
      b.elements.countP (p ·.action) = b'.elements.countP (p ·.action) :=
    h.countP_elements_eq fun _ => hp
  rw [score, score, hcount (creates ns) ⟨fun _ => rfl, fun _ => rfl, rfl⟩,
    hcount (pulls ns) ⟨fun _ => rfl, fun _ => rfl, rfl⟩,
    hcount branches ⟨fun _ => rfl, fun _ => rfl, rfl⟩]

theorem HollywoodPrinciple.alike (ns : Namespaces) (h : c.Remarked c') :
    (linter ns c).Alike (linter ns c') := by
  obtain ⟨hms⟩ := h
  refine ⟨rfl, rfl, rel_filterMap ?_ (hms.filter fun _ _ ⟨_⟩ => rfl)⟩
  rintro m _ ⟨hcode⟩
  simp only [score_eq ns hcode]
  exact rel_ite .none (.some (Origin.alike ..))

namespace TemporalCoupling

/-- The receiver of a call is the nearest reference among the instructions before it. -/
theorem receiver?_eq_bind (b : Body) (n : Nat) :
    receiver? b n = (nearest Action.isRefLoad Action.isInvoke receiverWindow
      (unmarked (b.elements.take n)).reverse).bind (·.action.slot?) := by
  have hfound := congrArg (Option.bind · (Option.bind · (·.action.slot?)))
    (Body.map_lookBack Action.isRefLoad Action.isInvoke b n receiverWindow)
  simp only [Option.bind_map] at hfound
  exact hfound

theorem unprepared_filter (ns : Namespaces) (b : Body) (ready : List Int)
    (l : List (Nat × Action)) :
    unprepared ns b ready (l.filter (!·.2.isMarker)) = unprepared ns b ready l := by
  induction l generalizing ready with
  | nil => rfl
  | cons x l ih =>
      obtain ⟨n, a⟩ := x
      cases a with
      | invoke kind target =>
          rw [filter_cons_of_pos rfl]
          simp only [unprepared, ih]
      | _ => exact ih ready

/-- The same calls come without a setup, at other positions. -/
theorem rel_unprepared (ns : Namespaces) {b b' : Body} {l l' : List (Nat × Action)}
    (h : Forall₂ (Body.Corresponds b b') l l') (ready : List Int) :
    Forall₂ (fun x y => x.2 = y.2) (unprepared ns b ready l) (unprepared ns b' ready l') := by
  induction h generalizing ready with
  | nil => exact .nil
  | @cons x y l l' hxy _ ih =>
      obtain ⟨n, a⟩ := x
      obtain ⟨n', a'⟩ := y
      obtain rfl : a = a' := hxy.action_eq
      cases a with
      | invoke kind target =>
          have hreceiver : receiver? b n = receiver? b' n' := by
            rw [receiver?_eq_bind, receiver?_eq_bind, hxy.before_eq]
          rw [unprepared, unprepared, hreceiver]
          split
          · exact ih ready
          split
          · exact ih ready
          split
          · exact ih _
          split
          · exact .cons rfl (ih ready)
          · exact ih ready
      | _ => exact ih ready

theorem alike (ns : Namespaces) (h : c.Remarked c') : (linter ns c).Alike (linter ns c') := by
  obtain ⟨hms⟩ := h
  refine ⟨rfl, rfl, rel_flatMap (hms.filter fun _ _ ⟨_⟩ => rfl) ?_⟩
  rintro m _ ⟨hcode⟩
  have hcalls := rel_unprepared ns (Body.forall₂_semantic hcode.instructions_eq) []
  rw [Body.semantic, Body.semantic, unprepared_filter, unprepared_filter] at hcalls
  refine rel_map ?_ hcalls
  rintro ⟨n, target, slot⟩ ⟨n', _, _⟩ ⟨⟩
  exact Origin.alike ..

end TemporalCoupling

theorem OpenClosedPrinciple.alike (h : c.Remarked c') : (linter c).Alike (linter c') := by
  obtain ⟨hms⟩ := h
  have hmethods := hms.filter (p := (!·.isInitializer)) (q := (!·.isInitializer)) fun _ _ ⟨_⟩ => rfl
  have hinstance := hmethods.filter (p := (!·.access.isStatic)) (q := (!·.access.isStatic))
    fun _ _ ⟨_⟩ => rfl
  have hcount {l l' : List MethodModel} (hl : Forall₂ MethodModel.Remarked l l')
      (p : MethodModel → Bool) (hp : ∀ m b, p { m with code := b } = p m) :
      l.countP p = l'.countP p := hl.countP_eq fun m _ ⟨_⟩ => (hp m _).symm
  refine ⟨rfl, rfl, Finding.forall₂_alike_of_eq ?_⟩
  simp only [linter]
  rw [hcount hmethods (·.access.isPublic) fun _ _ => rfl,
    hcount hmethods (·.access.isProtected) fun _ _ => rfl,
    hcount hmethods isOverridable fun _ _ => rfl,
    hcount hinstance (·.access.isAbstract) fun _ _ => rfl,
    hcount hinstance (!·.access.isAbstract) fun _ _ => rfl]

namespace SingleResponsibilityPrinciple

theorem collaborators_eq (h : c.Remarked c') : collaborators c = collaborators c' := by
  obtain ⟨hms⟩ := h
  rw [collaborators, collaborators, hms.flatMap_eq]
  rintro m _ ⟨hcode⟩
  exact hcode.filterMap_elements_eq fun _ => ⟨fun _ => rfl, fun _ => rfl, rfl⟩

theorem fieldsUsed_eq {b b' : Body} (h : b.Remarked b') : fieldsUsed b = fieldsUsed b' :=
  congrArg List.eraseDups (h.filterMap_elements_eq fun _ => ⟨fun _ => rfl, fun _ => rfl, rfl⟩)

/-- A method without code has no markers to lose, so the methods with code stay the same. -/
theorem cohesion_eq (h : c.Remarked c') : cohesion c = cohesion c' := by
  obtain ⟨hms⟩ := h
  have hfilled := hms.filter (p := (!·.code.isEmpty)) (q := (!·.code.isEmpty))
    fun _ _ ⟨hcode⟩ => congrArg (!·) hcode.isEmpty_eq
  have husage := hfilled.map_eq (f := fun m => fieldsUsed m.code) (g := fun m => fieldsUsed m.code)
    fun _ _ ⟨hcode⟩ => fieldsUsed_eq hcode
  simp only [cohesion, husage]

theorem alike (h : c.Remarked c') : (linter c).Alike (linter c') := by
  refine ⟨rfl, rfl, Finding.forall₂_alike_of_eq ?_⟩
  have hcalled := collaborators_eq h
  have hcohesion := cohesion_eq h
  obtain ⟨hms⟩ := h
  simp only [linter, hcalled, hcohesion, hms.length_eq]

end SingleResponsibilityPrinciple

namespace StrategyPattern

theorem injects_eq (h : m.Remarked m') (owner : String) (f : FieldModel) :
    injects owner f m = injects owner f m' := by
  obtain ⟨hcode⟩ := h
  refine congrArg (m.name != staticInitializerName && ·) (hcode.any_indexed_eq ?_ ?_ ?_)
  · exact fun n => ⟨fun _ => rfl, fun _ => rfl, rfl⟩
  · exact fun n => ⟨fun _ => rfl, fun _ => rfl, rfl⟩
  · intro n n' a hxy
    exact congrArg (writesField owner f a && ·) (hxy.isSome_lookBack_eq ..)

/-- The same calls go through the field, on other lines. -/
theorem rel_delegations (h : c.Remarked c') (f : FieldModel) :
    Forall₂ (fun d d' => d.target = d'.target) (delegations c f) (delegations c' f) := by
  obtain ⟨hms⟩ := h
  refine rel_flatMap (hms.filter fun _ _ ⟨_⟩ => rfl) ?_
  rintro m _ ⟨hcode⟩
  refine hcode.rel_filterMap_indexed ?_ ?_ ?_
  · exact fun n => ⟨fun _ => rfl, fun _ => rfl, rfl⟩
  · exact fun n => ⟨fun _ => rfl, fun _ => rfl, rfl⟩
  · intro n n' a hxy
    cases a with
    | invoke kind target =>
        have hfound := hxy.isSome_lookBack_eq (readsField c.name f) Action.isInvoke delegationWindow
        dsimp only at hfound ⊢
        rw [hfound]
        exact rel_ite (.some rfl) .none
    | _ => exact .none

theorem alike (ns : Namespaces) (h : c.Remarked c') : (linter ns c).Alike (linter ns c') := by
  have hdelegations := rel_delegations h
  obtain @⟨ms, hms⟩ := h
  have hinjected (f : FieldModel) : isInjected c f = isInjected { c with methods := ms } f :=
    hms.any_eq fun _ _ hm => injects_eq hm c.name f
  refine ⟨rfl, rfl, rel_filterMap (R := Eq) ?_ ?_⟩
  · rintro f _ rfl
    have hall := hdelegations f
    have hlength := hall.length_eq
    have hquoted := (forall₂_take maxExamples hall).map_eq fun _ _ htarget => htarget
    dsimp only
    generalize delegations c f = all, delegations { c with methods := ms } f = all'
      at hall hlength hquoted
    cases hall with
    | nil => exact .none
    | cons =>
        -- as many calls are counted, so the texts differ in the quoted ones only
        refine .some ⟨rfl, .inr ⟨rfl, _, _, _, _, hquoted, rfl, ?_⟩⟩
        rw [hlength]
        rfl
  · rw [forall₂_eq_eq_eq]
    simp only [hinjected]

end StrategyPattern

namespace AdapterPattern

theorem delegates_eq {b b' : Body} (h : b.Remarked b') (owner : String) (f : FieldModel) :
    delegates owner f b = delegates owner f b' := by
  refine h.any_indexed_eq ?_ ?_ ?_
  · exact fun n => ⟨fun _ => rfl, fun _ => rfl, rfl⟩
  · exact fun n => ⟨fun _ => rfl, fun _ => rfl, rfl⟩
  · intro n n' a hxy
    exact congrArg (readsField owner f a && ·) (hxy.isSome_lookOn_eq _ (fun _ => false) _)

theorem alike (h : c.Remarked c') : (linter c).Alike (linter c') := by
  obtain @⟨ms, hms⟩ := h
  have hdelegating (f : FieldModel) :
      delegating c f = delegating { c with methods := ms } f := by
    refine (hms.filter ?_).map_eq fun _ _ ⟨_⟩ => rfl
    rintro m _ ⟨hcode⟩
    exact congrArg (!m.isInitializer && !m.access.isStatic && ·) (delegates_eq hcode c.name f)
  have hinjected (f : FieldModel) : isInjected c f = isInjected { c with methods := ms } f := by
    refine hms.any_eq ?_
    rintro m _ ⟨hcode⟩
    exact congrArg (m.isConstructor && c.acceptsParam m (typeName f.desc) && ·)
      (hcode.any_elements_eq fun _ => ⟨fun _ => rfl, fun _ => rfl, rfl⟩)
  refine ⟨rfl, rfl, Finding.forall₂_alike_of_eq ?_⟩
  simp only [linter, hdelegating, hinjected]
  rfl

end AdapterPattern

theorem DecoratorPattern.alike (h : c.Remarked c') : (linter c).Alike (linter c') := by
  obtain @⟨ms, hms⟩ := h
  have haccessor (f : FieldModel) :
      hasPublicAccessor c f = hasPublicAccessor { c with methods := ms } f :=
    hms.any_eq fun _ _ ⟨_⟩ => rfl
  have hconstructor (t : String) :
      (c.methods.any fun m => m.isConstructor && c.acceptsParam m t) =
        ms.any fun m => m.isConstructor && c.acceptsParam m t :=
    hms.any_eq fun _ _ ⟨_⟩ => rfl
  refine ⟨rfl, rfl, Finding.forall₂_alike_of_eq ?_⟩
  simp only [linter, haccessor, hconstructor]
  rfl

end PerClass

/-! ### Linters of classes in their package -/

section PerPackage

variable {c c' : ClassModel} {ctx ctx' : PackageContext}

namespace ObserverPattern

theorem rel_notifyLine? (h : c.Remarked c') :
    Option.Rel (fun _ _ => True) (notifyLine? c) (notifyLine? c') := by
  obtain ⟨hms⟩ := h
  refine hms.rel_findSome? ?_
  rintro m _ ⟨hcode⟩
  have hfirst := hcode.rel_find?_indexed (p := notifies) ⟨fun _ => rfl, fun _ => rfl, rfl⟩
  exact hfirst.map fun _ _ _ => trivial

theorem observed?_eq (h : c.Remarked c') (hctx : ctx.Remarked ctx') :
    observed? c ctx = observed? c' ctx' := by
  obtain ⟨_⟩ := h
  unfold observed?
  congr 1
  funext i
  have hfound := hctx.rel_lookup? i
  generalize ctx.lookup? i = iface, ctx'.lookup? i = iface' at hfound
  cases hfound with
  | some h =>
      obtain ⟨hms⟩ := h
      exact hms.any_eq fun _ _ ⟨_⟩ => rfl
  | none => rfl

theorem alike (h : c.Remarked c') (hctx : ctx.Remarked ctx') :
    (linter c ctx).Alike (linter c' ctx') := by
  have hline := rel_notifyLine? h
  have hobserved := observed?_eq h hctx
  obtain @⟨ms, hms⟩ := h
  have hremove : (c.methods.any fun m => isRemoveName m.name) =
      ms.any fun m => isRemoveName m.name := hms.any_eq fun _ _ ⟨_⟩ => rfl
  refine ⟨rfl, rfl, rel_append ?_ (Finding.forall₂_alike_of_eq ?_)⟩
  · dsimp only
    split
    · generalize notifyLine? c = line, notifyLine? { c with methods := ms } = line' at hline
      cases hline with
      | some =>
          refine .cons (Origin.alike ..) (Finding.forall₂_alike_of_eq ?_)
          rw [hremove]
      | none => exact .nil
    · exact .nil
  · rw [hobserved]

end ObserverPattern

namespace DependencyGraph

theorem references_eq (h : c.Remarked c') : references c = references c' := by
  obtain ⟨hms⟩ := h
  refine congrArg (· ++ _) ((hms.filter fun _ _ ⟨_⟩ => rfl).flatMap_eq ?_)
  rintro m _ ⟨hcode⟩
  exact hcode.filterMap_elements_eq fun _ => ⟨fun _ => rfl, fun _ => rfl, rfl⟩

/-- Dependencies come from instructions. -/
theorem ofContext_eq (hctx : ctx.Remarked ctx') : ofContext ctx = ofContext ctx' := by
  have hcontains (name : String) : ctx.contains name = ctx'.contains name :=
    (hctx.rel_lookup? name).isSome_eq
  refine rel_foldl (P := Eq) ?_ rfl hctx
  rintro g _ rfl c c' hc
  have hreferences := references_eq hc
  obtain ⟨_⟩ := hc
  simp only [addClass, hreferences, hcontains]

end DependencyGraph

theorem CyclicDependency.alike (hctx : ctx.Remarked ctx') :
    (linter c ctx).Alike (linter c' ctx') := by
  refine ⟨rfl, rfl, Finding.forall₂_alike_of_eq ?_⟩
  simp only [linter, DependencyGraph.ofContext_eq hctx]

namespace DependencyInversionPrinciple

theorem isConcrete_eq (hctx : ctx.Remarked ctx') (ns : Namespaces) (self name : String) :
    isConcrete ns ctx self name = isConcrete ns ctx' self name := by
  have hfound := hctx.rel_lookup? name
  unfold isConcrete
  generalize ctx.lookup? name = found, ctx'.lookup? name = found' at hfound
  cases hfound with
  | some h =>
      obtain ⟨_⟩ := h
      rfl
  | none => rfl

/-- The same objects are created, at other positions. -/
theorem rel_constructions {m m' : MethodModel} (h : m.Remarked m') (concrete : String → Bool)
    (superName : String) :
    Forall₂ (fun x y => x.2 = y.2) (constructions concrete superName m)
      (constructions concrete superName m') := by
  obtain ⟨hcode⟩ := h
  refine hcode.rel_filterMap_indexed ?_ ?_ ?_
  · exact fun n => ⟨fun _ => rfl, fun _ => rfl, rfl⟩
  · exact fun n => ⟨fun _ => rfl, fun _ => rfl, rfl⟩
  · intro n n' a _
    cases a with
    | invoke kind target =>
        cases kind with
        | special => exact rel_ite (.some rfl) .none
        | _ => exact .none
    | _ => exact .none

theorem alike (ns : Namespaces) (h : c.Remarked c') (hctx : ctx.Remarked ctx') :
    (linter ns c ctx).Alike (linter ns c' ctx') := by
  obtain ⟨hms⟩ := h
  have hconcrete : isConcrete ns ctx c.name = isConcrete ns ctx' c.name :=
    funext (isConcrete_eq hctx ns c.name)
  refine ⟨rfl, rfl, ?_⟩
  simp only [linter, hconcrete]
  refine rel_ite (rel_append (Finding.forall₂_alike_of_eq rfl) (rel_flatMap hms ?_)) .nil
  intro m m' hm
  have hconstructions := rel_constructions hm (isConcrete ns ctx' c.name) c.superName
  obtain ⟨_⟩ := hm
  refine rel_append (rel_map (R := Eq) ?_ (forall₂_refl _)) (rel_map ?_ hconstructions)
  · rintro t _ rfl
    exact Origin.alike ..
  · rintro ⟨n, t⟩ ⟨n', _⟩ rfl
    exact Origin.alike ..

end DependencyInversionPrinciple

namespace MissingImplementation

theorem resolve_eq (hctx : ctx.Remarked ctx') (method desc : String) (fuel : Nat)
    (visited : List String) (h : c.Remarked c') :
    resolve ctx method desc fuel visited c = resolve ctx' method desc fuel visited c' := by
  induction fuel generalizing visited c c' with
  | zero => rfl
  | succ fuel ih =>
      obtain @⟨ms, hms⟩ := h
      have hmethod : Option.Rel MethodModel.Remarked (c.method? method desc)
          ({ c with methods := ms }.method? method desc) := hms.rel_find? fun _ _ ⟨_⟩ => rfl
      have hsuper := hctx.rel_lookup? c.superName
      -- both searches take the same branch, whichever it is
      rw [resolve, resolve]
      generalize c.method? method desc = m, { c with methods := ms }.method? method desc = m'
        at hmethod
      generalize ctx.lookup? c.superName = super, ctx'.lookup? c.superName = super' at hsuper
      split
      · rfl
      cases hmethod with
      | some hm =>
          obtain ⟨_⟩ := hm
          rfl
      | none =>
          cases hsuper with
          | some hs => exact ih (c.name :: visited) hs
          | none => rfl

theorem implemented_eq (h : c.Remarked c') (hctx : ctx.Remarked ctx') (method desc : String) :
    implemented c ctx method desc = implemented c' ctx' method desc := by
  rw [implemented, implemented, PackageContext.size, PackageContext.size, hctx.length_eq]
  exact resolve_eq hctx method desc _ [] h

/-- The methods belong to the same supertype and are the same but for their markers. -/
def Agree (x y : String × MethodModel) : Prop := x.1 = y.1 ∧ x.2.Remarked y.2

theorem rel_required (h : c.Remarked c') (hctx : ctx.Remarked ctx') :
    Forall₂ Agree (required c ctx) (required c' ctx') := by
  obtain ⟨_⟩ := h
  have hdeclared {p : MethodModel → Bool} (hp : ∀ m b, p { m with code := b } = p m)
      {i i' : ClassModel} (hi : i.Remarked i') :
      Forall₂ Agree ((i.methods.filter p).map (i.name, ·))
        ((i'.methods.filter p).map (i'.name, ·)) := by
    obtain ⟨hms⟩ := hi
    refine rel_map ?_ (hms.filter fun m _ ⟨_⟩ => (hp m _).symm)
    exact fun m m' hm => ⟨rfl, hm⟩
  refine rel_append (rel_flatMap (R := ClassModel.Remarked) ?_ ?_) ?_
  · refine rel_filterMap (R := Eq) ?_ (forall₂_refl _)
    rintro i _ rfl
    exact hctx.rel_lookup? i
  · exact fun i i' hi => hdeclared (fun _ _ => rfl) hi
  · have hsuper := hctx.rel_lookup? c.superName
    dsimp only
    generalize ctx.lookup? c.superName = super, ctx'.lookup? c.superName = super' at hsuper
    cases hsuper with
    | some hs => exact hdeclared (fun _ _ => rfl) hs
    | none => exact .nil

theorem rel_distinct {l l' : List (String × MethodModel)}
    (h : Forall₂ Agree l l') (seen : List String) :
    Forall₂ Agree (distinct seen l) (distinct seen l') := by
  induction h generalizing seen with
  | nil => exact .nil
  | @cons x y l l' hxy _ ih =>
      obtain ⟨owner, m⟩ := x
      obtain ⟨owner', m'⟩ := y
      have hsignature : m.signature = m'.signature := by
        obtain ⟨-, ⟨_⟩⟩ := hxy
        rfl
      rw [distinct, distinct, hsignature]
      exact rel_ite (ih seen) (.cons hxy (ih _))

theorem alike (h : c.Remarked c') (hctx : ctx.Remarked ctx') :
    (linter c ctx).Alike (linter c' ctx') := by
  have hrequired := rel_distinct (rel_required h hctx) []
  have himplemented := implemented_eq h hctx
  obtain ⟨_⟩ := h
  refine ⟨rfl, rfl, rel_ite (rel_map ?_ (hrequired.filter ?_)) .nil⟩
  · rintro ⟨owner, m⟩ ⟨_, _⟩ ⟨rfl, ⟨_⟩⟩
    exact Origin.alike ..
  · rintro ⟨owner, m⟩ ⟨_, _⟩ ⟨rfl, ⟨_⟩⟩
    exact congrArg (!·) (himplemented m.name m.desc)

end MissingImplementation

end PerPackage

/-! ### Registries -/

namespace Registry

/-- Making a linter fails for the same reason in both cases, or gives linters that report alike. -/
inductive MadeAlike : Except JobFault Linter → Except JobFault Linter → Prop
  | ok {l l' : Linter} (h : l.Alike l') : MadeAlike (.ok l) (.ok l')
  | error (fault : JobFault) : MadeAlike (.error fault) (.error fault)

/-- The linters of the registry do not see markers; the one called `seeing` may. -/
structure Transparent (r : Registry) (seeing : String) : Prop where
  perClass : ∀ e ∈ r.perClass, e.1 ≠ seeing → ∀ {c c' : ClassModel}, c.Remarked c' →
    (e.2 c).Alike (e.2 c')
  perPackage : ∀ e ∈ r.perPackage, e.1 ≠ seeing → ∀ {c c' : ClassModel}, c.Remarked c' →
    ∀ {ctx ctx' : Option PackageContext}, Option.Rel PackageContext.Remarked ctx ctx' →
      (e.2 c ctx).Alike (e.2 c' ctx')

namespace Transparent

variable {r : Registry} {name seeing description : String}

theorem withClass {make : ClassModel → Linter} (hr : r.Transparent seeing)
    (hmake : ∀ {c c' : ClassModel}, c.Remarked c' → (make c).Alike (make c')) :
    (r.withClass name description make).Transparent seeing :=
  ⟨forall_mem_cons.mpr ⟨fun _ _ _ => hmake, hr.perClass⟩, hr.perPackage⟩

theorem withSeeing {make : ClassModel → Linter} (hr : r.Transparent seeing) :
    (r.withClass seeing description make).Transparent seeing :=
  ⟨forall_mem_cons.mpr ⟨fun h => absurd rfl h, hr.perClass⟩, hr.perPackage⟩

section

variable {make : ClassModel → PackageContext → Linter}
  (hmake : ∀ {c c' : ClassModel} {ctx ctx' : PackageContext}, c.Remarked c' → ctx.Remarked ctx' →
    (make c ctx).Alike (make c' ctx'))

include hmake

/-- An unknown package counts as empty, and an empty package has no markers. -/
theorem inPackage_alike {c c' : ClassModel} (hc : c.Remarked c') {ctx ctx' : Option PackageContext}
    (hctx : Option.Rel PackageContext.Remarked ctx ctx') :
    (inPackage make c ctx).Alike (inPackage make c' ctx') := by
  cases hctx with
  | some hctx => exact hmake hc hctx
  | none => exact hmake hc .nil

theorem withPackage (hr : r.Transparent seeing) :
    (r.withPackage name description make).Transparent seeing :=
  ⟨hr.perClass, forall_mem_cons.mpr ⟨fun _ _ _ => inPackage_alike hmake, hr.perPackage⟩⟩

theorem withPackageWide (hr : r.Transparent seeing) :
    ((r.registerPackageWide name (inPackage make)).describe name description).Transparent seeing :=
  ⟨hr.perClass, forall_mem_cons.mpr ⟨fun _ _ _ => inPackage_alike hmake, hr.perPackage⟩⟩

end

theorem create_alike (hr : r.Transparent seeing) (hname : name ≠ seeing) {c c' : ClassModel}
    (hc : c.Remarked c') : MadeAlike (r.create name c) (r.create name c') := by
  rw [create, create]
  cases hmake : r.perClass.lookup name with
  | none => exact .error _
  | some make =>
      obtain ⟨_, _, hentries, -⟩ := lookup_eq_some_iff.mp hmake
      exact .ok (hr.perClass (name, make) (by simp [hentries]) hname hc)

theorem createPackage_alike (hr : r.Transparent seeing) (hname : name ≠ seeing) {c c' : ClassModel}
    (hc : c.Remarked c') {ctx ctx' : Option PackageContext}
    (hctx : Option.Rel PackageContext.Remarked ctx ctx') :
    MadeAlike (r.createPackage name c ctx) (r.createPackage name c' ctx') := by
  rw [createPackage, createPackage]
  cases hmake : r.perPackage.lookup name with
  | none => exact .error _
  | some make =>
      obtain ⟨_, _, hentries, -⟩ := lookup_eq_some_iff.mp hmake
      exact .ok (hr.perPackage (name, make) (by simp [hentries]) hname hc hctx)

end Transparent

/-- No built-in linter sees markers but the one for dead code. -/
theorem transparent_builtin (ns : Namespaces) : (builtin ns).Transparent DeadCode.name := by
  have hempty : ({} : Registry).Transparent DeadCode.name :=
    ⟨fun e he => absurd he not_mem_nil, fun e he => absurd he not_mem_nil⟩
  exact hempty
    |>.withClass EqualsHashCode.alike
    |>.withSeeing
    |>.withClass UnusedVariables.alike
    |>.withClass FeatureEnvy.alike
    |>.withClass DemeterPrinciple.alike
    |>.withClass (HollywoodPrinciple.alike ns)
    |>.withClass (TemporalCoupling.alike ns)
    |>.withClass OpenClosedPrinciple.alike
    |>.withClass SingleResponsibilityPrinciple.alike
    |>.withClass (StrategyPattern.alike ns)
    |>.withClass AdapterPattern.alike
    |>.withClass DecoratorPattern.alike
    |>.withClass (fun hc => ObserverPattern.alike hc .nil)
    |>.withPackage ObserverPattern.alike
    |>.withPackageWide (fun _ hctx => CyclicDependency.alike hctx)
    |>.withPackage (DependencyInversionPrinciple.alike ns)
    |>.withPackage MissingImplementation.alike

/-- A marker after a throw hides what follows from the linter for dead code. -/
example : DeadCode.blocked 0 [⟨.throw, 0⟩, ⟨.throw, 1⟩] = [(0, .throw)] ∧
    DeadCode.blocked 0 [⟨.throw, 0⟩, ⟨.frame, 1⟩, ⟨.throw, 1⟩] = [] := by
  decide

/-- **Markers change nothing that is reported but its line.** Whatever markers are inserted into the
methods of a class and of its package, or deleted from them, every built-in linter but the one for
dead code reports the same findings in the same order, up to their lines and the lines that they
quote. -/
theorem findings_ignore_markers (ns : Namespaces) {name : String} (hname : name ≠ DeadCode.name)
    {c c' : ClassModel} (hc : c.Remarked c') {ctx ctx' : Option PackageContext}
    (hctx : Option.Rel PackageContext.Remarked ctx ctx') :
    MadeAlike ((builtin ns).create name c) ((builtin ns).create name c') ∧
      MadeAlike ((builtin ns).createPackage name c ctx) ((builtin ns).createPackage name c' ctx') :=
  ⟨(transparent_builtin ns).create_alike hname hc,
    (transparent_builtin ns).createPackage_alike hname hc hctx⟩

end Registry

/-- A class that is given a strategy and calls it; its methods begin with some markers. -/
def delegator (markers : List Instruction) : ClassModel where
  name := "a/A"
  fields := [⟨"s", "La/S;", ⟨0⟩⟩]
  methods :=
    [{ name := "<init>", desc := "(La/S;)V", access := ⟨1⟩,
       code := ⟨markers ++ [⟨.load .reference 0, 0⟩, ⟨.load .reference 1, 1⟩,
         ⟨.field .putField ⟨"a/A", "s", "La/S;"⟩, 2⟩, ⟨.return .void, 5⟩]⟩ },
     { name := "run", desc := "()V", access := ⟨1⟩,
       code := ⟨markers ++ [⟨.load .reference 0, 0⟩, ⟨.field .getField ⟨"a/A", "s", "La/S;"⟩, 1⟩,
         ⟨.invoke .interface ⟨"a/S", "go", "()V"⟩, 4⟩, ⟨.return .void, 9⟩]⟩ }]

/-- A strategy is reported and quoted with its line numbers and without them. -/
theorem delegator_findings_ignore_markers :
    let r := Registry.builtin ⟨["java/"]⟩
    (StrategyPattern.linter ⟨["java/"]⟩ (delegator [])).findings.length = 1 ∧
      Registry.MadeAlike (r.create StrategyPattern.name (delegator []))
        (r.create StrategyPattern.name (delegator [⟨.line 7, 0⟩])) ∧
      Registry.MadeAlike (r.createPackage StrategyPattern.name (delegator []) none)
        (r.createPackage StrategyPattern.name (delegator [⟨.line 7, 0⟩]) none) := by
  have hremarked : (delegator []).Remarked (delegator [⟨.line 7, 0⟩]) :=
    .methods (.cons (.code ⟨rfl, nofun⟩) (.cons (.code ⟨rfl, nofun⟩) .nil))
  refine ⟨by decide +kernel, ?_⟩
  exact Registry.findings_ignore_markers ⟨["java/"]⟩ (by decide) hremarked .none

end ClassAudit
