import ClassAudit.Config.Lines
import ClassAudit.Proofs.DirectiveRoundTrip
import ClassAudit.Proofs.Separators
import Mathlib.Data.List.Forall2

/-!
# The forms of configuration lines

A line without the blanks around it is nothing, a directive, a line of platform packages or a rule.
Three patterns compete for it in this order. A line may fit the pattern of directives and that of
rules, and then it is a directive. What a platform line or a rule lists stands between commas.

## Main definitions

* `Text.ListsItems` - the items of a list.
* `RuleTarget.Spelled` - the target that an item names.
* `Pattern.platform`, `Pattern.rule` - the patterns of platform lines and of rules.
* `ConfigLine.Spelled` - what a line says, by the first pattern that it fits.

## Main statements

* `Text.listsItems_iff`, `RuleTarget.spelled_iff` - lists and targets are read as they are spelled.
* `Pattern.fields?_platform`, `Pattern.fields?_rule` - the reader finds the fields of the patterns.
* `ConfigLine.spelled_iff` - **a line is read as it is spelled**.
-/

namespace ClassAudit

/-! ### Lists -/

/-- The items of a list: what stands between its commas, without the blanks around it. A part with
nothing but blanks is no item. -/
def Text.ListsItems (s : List Char) (items : List String) : Prop :=
  ∃ parts trimmed, Separates ',' s parts ∧ List.Forall₂ Trims parts trimmed ∧
    items = (trimmed.filter (· ≠ [])).map String.ofList

theorem Text.listsItems_iff {s : List Char} {items : List String} :
    ListsItems s items ↔ listItems s = items := by
  have hforall (parts trimmed : List (List Char)) : List.Forall₂ Trims parts trimmed ↔
      parts.map (trimEnds isBlank) = trimmed := by
    have htrims : Trims = fun part trimmed => trimEnds isBlank part = trimmed :=
      funext₂ fun _ _ => propext trims_iff
    rw [htrims, ← List.forall₂_map_left_iff, List.forall₂_eq_eq_eq]
  have hitems : listItems s =
      (((splitWhere (· == ',') s).map (trimEnds isBlank)).filter (· ≠ [])).map String.ofList := by
    rw [listItems, List.filter_map, List.filter_map, List.map_map]
    congr 2
    funext part
    rw [Function.comp_apply, Function.comp_apply, Bool.eq_iff_iff, bne_iff_ne, decide_eq_true_iff,
      ne_eq, String.ofList_eq_empty_iff]
  simp only [ListsItems, separates_iff, hforall, hitems]
  constructor
  · rintro ⟨parts, trimmed, rfl, rfl, rfl⟩
    rfl
  · rintro rfl
    exact ⟨_, _, rfl, rfl, rfl⟩

/-! ### Targets -/

/-- The target that an item names. -/
inductive RuleTarget.Spelled : String → RuleTarget → Prop
  | everything : Spelled "*" .everything
  | package (name : String) : Spelled (packageMark ++ name) (.package (Text.trim name))
  | className {item : String} (hstar : item ≠ "*") (hmark : ¬packageMark.toList <+: item.toList) :
      Spelled item (.className item)

theorem RuleTarget.spelled_iff {item : String} {target : RuleTarget} :
    Spelled item target ↔ ofText item = target := by
  constructor
  · rintro (_ | name | ⟨hstar, hmark⟩)
    · rfl
    · have hne : packageMark ++ name ≠ "*" := fun h => by
        have := congrArg (List.head? ∘ String.toList) h
        simp [packageMark] at this
      rw [ofText, if_neg (by simpa using hne), if_pos]
      · rw [String.toList_append, String.length, List.drop_left, String.ofList_toList]
      · rw [Text.startsWith, String.toList_append, List.isPrefixOf_iff_prefix]
        exact List.prefix_append _ _
    · rw [ofText, if_neg (by simpa using hstar), if_neg]
      rwa [Text.startsWith, List.isPrefixOf_iff_prefix]
  · rintro rfl
    rw [ofText]
    split
    · rename_i h
      rw [beq_iff_eq.mp h]
      exact .everything
    · rename_i hstar
      split
      · rename_i hmark
        obtain ⟨rest, hrest⟩ := List.isPrefixOf_iff_prefix.mp hmark
        obtain rfl : item = packageMark ++ String.ofList rest := by
          rw [← String.toList_inj, String.toList_append, String.toList_ofList, hrest]
        rw [String.toList_append, String.length, List.drop_left, String.ofList_toList]
        exact .package _
      · rename_i hmark
        exact .className (by simpa using hstar) fun h => hmark (List.isPrefixOf_iff_prefix.mpr h)

/-- Lists of targets, and each target for itself. -/
theorem RuleTarget.forall₂_spelled_iff {items : List String} {targets : List RuleTarget} :
    List.Forall₂ Spelled items targets ↔ items.map ofText = targets := by
  have hspelled : Spelled = fun item target => ofText item = target :=
    funext₂ fun _ _ => propext spelled_iff
  rw [hspelled, ← List.forall₂_map_left_iff, List.forall₂_eq_eq_eq]

/-! ### Patterns -/

namespace Pattern

/-- A reading has all fields of its pattern. -/
theorem length_of_mem_readings {q : Pattern} {s : List Char} {x : List (List Char) × List Char}
    (h : x ∈ q.readings s) : x.1.length = q.fieldCount := by
  induction q generalizing s x with
  | text t =>
      rw [readings] at h
      split at h
      · rw [List.mem_singleton.mp h]
        rfl
      · exact absurd h List.not_mem_nil
  | one p =>
      cases s with
      | nil => exact absurd h List.not_mem_nil
      | cons c s =>
          rw [readings] at h
          split at h
          · rw [List.mem_singleton.mp h]
            rfl
          · exact absurd h List.not_mem_nil
  | many p =>
      obtain ⟨rest, -, rfl⟩ := List.mem_map.mp h
      rfl
  | field q ih =>
      obtain ⟨y, hy, rfl⟩ := List.mem_map.mp h
      rw [List.length_cons, ih hy, fieldCount]
  | optional q ih =>
      obtain h | h := List.mem_append.mp h
      · exact ih h
      · rw [List.mem_singleton.mp h, List.length_replicate, fieldCount]
  | either q r ihq ihr =>
      obtain h | h := List.mem_append.mp h
      · obtain ⟨y, hy, rfl⟩ := List.mem_map.mp h
        rw [List.length_append, ihq hy, List.length_replicate, fieldCount]
      · obtain ⟨y, hy, rfl⟩ := List.mem_map.mp h
        rw [List.length_append, ihr hy, List.length_replicate, fieldCount]
  | seq q r ihq ihr =>
      obtain ⟨y, hy, h⟩ := List.mem_flatMap.mp h
      obtain ⟨z, hz, rfl⟩ := List.mem_map.mp h
      rw [List.length_append, ihq hy, ihr hz, fieldCount]

theorem length_of_fields?_eq {q : Pattern} {s : List Char} {fields : List (List Char)}
    (h : q.fields? s = some fields) : fields.length = q.fieldCount := by
  obtain ⟨⟨fields', rest⟩, hmem, hend⟩ := List.exists_of_findSome?_eq_some h
  cases rest with
  | nil => exact Option.some.inj hend ▸ length_of_mem_readings hmem
  | cons c rest => exact nomatch hend

/-- A mark between blanks, and the rest of the line. -/
def marked (mark : Char) : Pattern :=
  seq (many Text.isAsciiBlank) (seq (text [mark]) lineRest)

/-- The pattern of platform lines. -/
def platform : Pattern := seq (text "platform".toList) (marked '=')

/-- The characters that a linter's name can begin with. -/
abbrev isInitial (c : Char) : Bool := c.isAlpha || c == '_'

/-- The characters of a linter's name. -/
abbrev isNamePart (c : Char) : Bool := c.isAlphanum || c == '_'

/-- The name of a linter, or a star for all of them. -/
def linterName : Pattern := field (either (seq (one isInitial) (many isNamePart)) (text ['*']))

/-- The pattern of rules. -/
def rule : Pattern := seq linterName (marked ':')

variable {β : Type} {mark c : Char} {s : List Char} {f : List (List Char) → β}

theorem first_char_of_ne {next : List (List Char) → List Char → Option β} (hc : c ≠ mark) :
    (text [mark]).first (c :: s) next = none :=
  first_text_of_not (by simp [List.isPrefixOf, Ne.symm hc])

/-- A mark is not found before a character that is neither a blank nor the mark. -/
theorem first_marked_of_ink (hblank : ¬Text.isAsciiBlank c) (hmark : c ≠ mark) :
    (marked mark).first (c :: s) (atEnd f) = none := by
  rw [marked, first_seq, first_many_cons, if_neg hblank, first_seq, first_char_of_ne hmark]

/-- Blanks around a mark belong to no field. -/
theorem first_marked (hmark : ¬Text.isAsciiBlank mark) (hline : '\n' ∉ s) :
    (marked mark).first s (atEnd f) = (afterMark? mark s).map fun rest => f [rest] := by
  rw [marked, first_seq, first_many, afterMark?]
  · have hline' : '\n' ∉ s.dropWhile Text.isAsciiBlank := fun h =>
      hline ((List.dropWhile_suffix _).subset h)
    generalize s.dropWhile Text.isAsciiBlank = t at hline'
    cases t with
    | nil => rfl
    | cons c rest =>
        dsimp only
        rw [first_seq]
        by_cases hc : c = mark
        · subst hc
          have hrest : ¬(rest.dropWhile Text.isAsciiBlank).contains '\n' := by
            rw [List.contains_iff_mem]
            exact fun h => hline' (List.mem_cons_of_mem _ ((List.dropWhile_suffix _).subset h))
          rw [first_text (by simp), if_pos (beq_self_eq_true c)]
          exact first_lineRest.trans (if_neg hrest)
        · rw [first_char_of_ne hc, if_neg (by simpa using hc)]
          rfl
  · intro c s hc
    rw [first_seq, first_char_of_ne]
    rintro rfl
    exact hmark hc

theorem fields?_platform (hline : '\n' ∉ s) : platform.fields? s =
    if "platform".toList.isPrefixOf s then
      (afterMark? '=' (s.drop "platform".toList.length)).map ([·])
    else none := by
  rw [fields?, platform, first_seq_atEnd]
  by_cases hword : "platform".toList.isPrefixOf s = true
  · rw [first_text hword, andThen, if_pos hword]
    exact first_marked (by decide) fun h => hline ((List.drop_suffix _ _).subset h)
  · rw [first_text_of_not (Bool.not_eq_true _ ▸ hword), if_neg hword]

/-- A mark cannot begin inside a name. -/
theorem first_marked_of_isNamePart (hc : isNamePart c) (hmark : ¬isNamePart mark) :
    (marked mark).first (c :: s) (atEnd f) = none := by
  refine first_marked_of_ink (fun hblank => ?_) ?_
  · simp only [Text.isAsciiBlank, Bool.or_eq_true, beq_iff_eq] at hblank
    obtain (((rfl | rfl) | rfl) | rfl) | rfl := hblank <;> exact absurd hc (by decide)
  · rintro rfl
    exact hmark hc

theorem linterName?_cons : linterName? (c :: s) =
    if c = '*' then some (['*'], s)
    else if isInitial c then some (c :: s.takeWhile isNamePart, s.dropWhile isNamePart)
    else none := by
  have hpart : (fun c : Char => isNameStart c || c.isDigit) = isNamePart := by
    funext c
    rw [isNameStart, isNamePart, Char.isAlphanum]
    exact Bool.or_right_comm _ _ _
  rw [linterName?, hpart]
  simp only [beq_iff_eq]
  split
  · rename_i hstar
    rw [hstar]
  · rfl

/-- A name is read to its end. -/
theorem first_linterName {next : List (List Char) → List Char → Option β}
    (h : ∀ fields c s, isNamePart c → next fields (c :: s) = none) :
    linterName.first s next = (linterName? s).bind fun x => next [x.1] x.2 := by
  rw [linterName, first_field, first_either, first_seq]
  cases s with
  | nil => rfl
  | cons c s =>
      rw [first_one_cons, linterName?_cons]
      by_cases hstar : c = '*'
      · subst hstar
        rw [if_neg (by decide), first_text rfl, if_pos rfl]
        simp [fieldCount]
      · rw [first_char_of_ne hstar, Option.or_none, if_neg hstar]
        by_cases hc : isInitial c = true
        · have hname : (c :: s).take ((c :: s).length - (s.dropWhile isNamePart).length) =
              c :: s.takeWhile isNamePart := by
            have hsplit : c :: s.takeWhile isNamePart ++ s.dropWhile isNamePart = c :: s :=
              congrArg (c :: ·) List.takeWhile_append_dropWhile
            rw [← hsplit, List.length_append, Nat.add_sub_cancel, List.take_left]
          rw [if_pos hc, if_pos hc, first_many]
          · rw [hname]
            rfl
          · exact fun d t hd => h _ d t hd
        · rw [if_neg hc, if_neg hc]
          rfl

theorem linterName?_suffix {x : List Char × List Char} (h : linterName? s = some x) :
    x.2 <:+ s := by
  cases s with
  | nil => exact nomatch h
  | cons c s =>
      rw [linterName?_cons] at h
      split at h
      · obtain rfl := Option.some.inj h
        exact List.suffix_cons c s
      · split at h
        · obtain rfl := Option.some.inj h
          exact (List.dropWhile_suffix _).trans (List.suffix_cons c s)
        · exact nomatch h

theorem fields?_rule (hline : '\n' ∉ s) : rule.fields? s =
    (linterName? s).bind fun x => (afterMark? ':' x.2).map fun list => [x.1, list] := by
  rw [fields?, rule, first_seq_atEnd, first_linterName]
  · refine Option.bind_congr fun x hx => ?_
    exact first_marked (by decide) fun h => hline ((linterName?_suffix hx).subset h)
  · intro fields d t hd
    exact first_marked_of_isNamePart hd (by decide)

end Pattern

/-! ### Lines -/

/-- An empty line or a comment. -/
def ConfigLine.Ignored (s : List Char) : Prop := s = [] ∨ s.head? = some '#'

/-- What a line says that has no blanks around it. -/
inductive ConfigLine.Spelled (s : List Char) : ConfigLine → Prop
  | nothing (hempty : Ignored s) : Spelled s .nothing
  | suppression {fields : List (List Char)} {silence : Suppression} (hempty : ¬Ignored s)
      (hdirective : Pattern.directive.fields? s = some fields)
      (hsilence : Suppression.ofFields? fields = some silence) : Spelled s (.suppression silence)
  | platform {list : List Char} {prefixes : List String} (hempty : ¬Ignored s)
      (hdirective : Pattern.directive.fields? s = none)
      (hplatform : Pattern.platform.fields? s = some [list])
      (hlist : Text.ListsItems list prefixes) : Spelled s (.platform prefixes)
  | rule {linter list : List Char} {items : List String} {targets : List RuleTarget}
      (hempty : ¬Ignored s) (hdirective : Pattern.directive.fields? s = none)
      (hplatform : Pattern.platform.fields? s = none)
      (hrule : Pattern.rule.fields? s = some [linter, list]) (hlist : Text.ListsItems list items)
      (htargets : List.Forall₂ RuleTarget.Spelled items targets) :
      Spelled s (.rule (String.ofList linter) targets)

section Lines

variable {s : List Char} {said : ConfigLine}

theorem ConfigLine.ignored_iff : Ignored s ↔ (s.isEmpty || s.head? == some '#') = true := by
  rw [Ignored, Bool.or_eq_true, List.isEmpty_iff, beq_iff_eq]

/-- The fields of a directive are those of a rule of suppression. -/
theorem exists_ofFields?_eq {fields : List (List Char)}
    (h : Pattern.directive.fields? s = some fields) :
    ∃ silence, Suppression.ofFields? fields = some silence := by
  obtain ⟨a, b, c, d, rfl⟩ := List.length_eq_four.mp (Pattern.length_of_fields?_eq h)
  exact ⟨_, rfl⟩

theorem platformLine?_eq (hline : '\n' ∉ s) :
    platformLine? s = (Pattern.platform.fields? s).bind fun
      | [list] => some (listItems list)
      | _ => none := by
  rw [platformLine?, Pattern.fields?_platform hline]
  split
  · cases afterMark? '=' _ <;> rfl
  · rfl

theorem ruleLine?_eq (hline : '\n' ∉ s) :
    ruleLine? s = (Pattern.rule.fields? s).bind fun
      | [linter, list] => some (String.ofList linter, (listItems list).map .ofText)
      | _ => none := by
  rw [ruleLine?, Pattern.fields?_rule hline]
  cases linterName? s with
  | none => rfl
  | some x => cases h : afterMark? ':' x.2 <;> simp [h]

/-- **A line is read as it is spelled**: by the first form that it has. -/
theorem ConfigLine.spelled_iff (hline : '\n' ∉ s) (htrimmed : Text.Trimmed s) :
    Spelled s said ↔ read? s = some said := by
  have hdirective : Suppression.ofDirective? (String.ofList s) =
      (Pattern.directive.fields? s).bind Suppression.ofFields? := by
    have hself : Text.Trims s s := ⟨htrimmed, [], [], by simp⟩
    rw [Suppression.ofDirective?_eq, String.toList_ofList, Text.trims_iff.mp hself]
  rw [read?, hdirective, platformLine?_eq hline, ruleLine?_eq hline]
  constructor
  · rintro (hempty | ⟨hempty, hd, hsilence⟩ | ⟨hempty, hd, hp, hlist⟩ |
      ⟨hempty, hd, hp, hr, hlist, htargets⟩)
    · rw [if_pos (ignored_iff.mp hempty)]
    · rw [if_neg (mt ignored_iff.mpr hempty), hd, Option.bind_some, hsilence]
    · rw [if_neg (mt ignored_iff.mpr hempty), hd, hp, Option.bind_some,
        ← Text.listsItems_iff.mp hlist]
      rfl
    · rw [if_neg (mt ignored_iff.mpr hempty), hd, hp, hr, Option.bind_some,
        ← RuleTarget.forall₂_spelled_iff.mp htargets, ← Text.listsItems_iff.mp hlist]
      rfl
  · intro h
    by_cases hempty : Ignored s
    · rw [if_pos (ignored_iff.mp hempty)] at h
      exact Option.some.inj h ▸ .nothing hempty
    rw [if_neg (mt ignored_iff.mpr hempty)] at h
    cases hd : Pattern.directive.fields? s with
    | some fields =>
        obtain ⟨silence, hsilence⟩ := exists_ofFields?_eq hd
        rw [hd, Option.bind_some, hsilence] at h
        exact Option.some.inj h ▸ .suppression hempty hd hsilence
    | none =>
        rw [hd] at h
        cases hp : Pattern.platform.fields? s with
        | some fields =>
            obtain ⟨list, rfl⟩ := List.length_eq_one_iff.mp (Pattern.length_of_fields?_eq hp)
            rw [hp] at h
            exact Option.some.inj h ▸ .platform hempty hd hp (Text.listsItems_iff.mpr rfl)
        | none =>
            rw [hp] at h
            cases hr : Pattern.rule.fields? s with
            | none =>
                rw [hr] at h
                exact nomatch h
            | some fields =>
                obtain ⟨linter, list, rfl⟩ :=
                  List.length_eq_two.mp (Pattern.length_of_fields?_eq hr)
                rw [hr] at h
                exact Option.some.inj h ▸ .rule hempty hd hp hr (Text.listsItems_iff.mpr rfl)
                  (RuleTarget.forall₂_spelled_iff.mpr rfl)

end Lines

end ClassAudit
