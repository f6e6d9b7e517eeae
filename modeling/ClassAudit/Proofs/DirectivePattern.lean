import ClassAudit.Lint.Suppression
import Mathlib.Data.List.TakeWhile

/-!
# The pattern of directives

A `nolint:` line is told by a pattern: a linter, a class and an optional member between blanks, and
an optional reason after `//`. A line can often be taken apart in several ways, since words may hold
slashes themselves and parts may be missing. The pattern therefore orders its readings. A run of
characters is as long as it can be, an optional part is present if it can be, and what stands further
left decides first; the first reading that reaches the end of the line counts. The reader of
directives never lists the readings: it looks at the words of the line and goes back into a word only
where a reason may begin inside it. This module shows that it finds the same reading.

## Main definitions

* `Pattern`, `Pattern.readings` - patterns and their readings, the preferred ones first.
* `Pattern.fields?` - the fields of the first reading that reaches the end.
* `Pattern.directive` - the pattern of directives.

## Main statements

* `Pattern.first_many` - a run before something that cannot begin inside it is read to its end.
* `Pattern.first_word` - the readings of a word, in order of their length.
* `Pattern.first_parts` - the class, the member and the reason.
* `Suppression.ofDirective?_eq` - **the rule that a line spells is told by the preferred reading**.
-/

namespace ClassAudit

/-! ### Patterns and their readings -/

/-- A pattern for the beginning of a text. -/
inductive Pattern where
  /-- Exactly these characters. -/
  | text (t : List Char)
  /-- One character of a class. -/
  | one (p : Char → Bool)
  /-- As many characters of a class as possible. -/
  | many (p : Char → Bool)
  /-- A part whose text is kept. -/
  | field (q : Pattern)
  /-- A part that may be left out. -/
  | optional (q : Pattern)
  /-- One of two parts, the first one if both can be read. -/
  | either (q r : Pattern)
  | seq (q r : Pattern)

namespace Pattern

/-- The number of fields of a pattern. -/
def fieldCount : Pattern → Nat
  | text _ => 0
  | one _ => 0
  | many _ => 0
  | field q => q.fieldCount + 1
  | optional q => q.fieldCount
  | either q r => q.fieldCount + r.fieldCount
  | seq q r => q.fieldCount + r.fieldCount

/-- What runs of a class can leave, the shortest rest first. -/
def rests (p : Char → Bool) : List Char → List (List Char)
  | [] => [[]]
  | c :: s => if p c then rests p s ++ [c :: s] else [c :: s]

/-- The ways to read the beginning of a text, the preferred ones first. Each gives the fields that
were read and the rest of the text. The fields of a part that is left out are empty. -/
@[simp]
def readings : Pattern → List Char → List (List (List Char) × List Char)
  | text t, s => if t.isPrefixOf s then [([], s.drop t.length)] else []
  | one _, [] => []
  | one p, c :: s => if p c then [([], s)] else []
  | many p, s => (rests p s).map ([], ·)
  | field q, s => (q.readings s).map fun x => (s.take (s.length - x.2.length) :: x.1, x.2)
  | optional q, s => q.readings s ++ [(List.replicate q.fieldCount [], s)]
  | either q r, s =>
    ((q.readings s).map fun x => (x.1 ++ List.replicate r.fieldCount [], x.2)) ++
      (r.readings s).map fun x => (List.replicate q.fieldCount [] ++ x.1, x.2)
  | seq q r, s => (q.readings s).flatMap fun x => (r.readings x.2).map fun y => (x.1 ++ y.1, y.2)

variable {β : Type}

/-- The first reading that can be gone on from. -/
def first (q : Pattern) (s : List Char) (next : List (List Char) → List Char → Option β) :
    Option β :=
  (q.readings s).findSome? fun x => next x.1 x.2

/-- Goes on only from the end of the text. -/
def atEnd (f : List (List Char) → β) (fields : List (List Char)) : List Char → Option β
  | [] => some (f fields)
  | _ :: _ => none

/-- Goes on with another pattern up to the end of the text. -/
def andThen (r : Pattern) (f : List (List Char) → β) (fields : List (List Char))
    (mid : List Char) : Option β := r.first mid (atEnd fun fields' => f (fields ++ fields'))

/-- The fields of the first reading that reaches the end of the text. -/
def fields? (q : Pattern) (s : List Char) : Option (List (List Char)) := q.first s (atEnd id)

/-! ### The first reading of each pattern -/

section First

variable {p : Char → Bool} {q r : Pattern} {s t : List Char} {c : Char}
  {next : List (List Char) → List Char → Option β}

theorem first_text (h : t.isPrefixOf s = true) :
    (text t).first s next = next [] (s.drop t.length) := by
  simp [first, readings, h]

theorem first_text_of_not (h : t.isPrefixOf s = false) : (text t).first s next = none := by
  simp [first, readings, h]

theorem first_one_cons :
    (one p).first (c :: s) next = if p c then next [] s else none := by
  cases h : p c <;> simp [first, readings, h]

theorem first_optional : (optional q).first s next =
    (q.first s next).or (next (List.replicate q.fieldCount []) s) := by
  rw [first, readings, List.findSome?_append]
  simp [first]

theorem first_either : (either q r).first s next =
    (q.first s fun fields => next (fields ++ List.replicate r.fieldCount [])).or
      (r.first s fun fields => next (List.replicate q.fieldCount [] ++ fields)) := by
  rw [first, readings, List.findSome?_append, List.findSome?_map, List.findSome?_map]
  rfl

theorem first_field : (field q).first s next =
    q.first s fun fields rest => next (s.take (s.length - rest.length) :: fields) rest := by
  rw [first, readings, List.findSome?_map]
  rfl

theorem findSome?_flatMap {α γ : Type} (as : List α) (f : α → List γ) (g : γ → Option β) :
    (as.flatMap f).findSome? g = as.findSome? fun a => (f a).findSome? g := by
  induction as with
  | nil => rfl
  | cons a as ih =>
      rw [List.flatMap_cons, List.findSome?_append, ih, List.findSome?_cons]
      cases (f a).findSome? g <;> rfl

/-- A sequence goes back into its first part when its second part cannot go on. -/
theorem first_seq : (seq q r).first s next =
    q.first s fun fields mid => r.first mid fun fields' rest => next (fields ++ fields') rest := by
  rw [first, readings, findSome?_flatMap]
  simp only [List.findSome?_map]
  rfl

theorem atEnd_append {f : List (List Char) → β} {fields : List (List Char)} :
    (fun fields' rest => atEnd f (fields ++ fields') rest) =
      atEnd fun fields' => f (fields ++ fields') := by
  funext fields' rest
  cases rest <;> rfl

theorem not_of_dropWhile_eq (h : s.dropWhile p = c :: t) : p c = false := by
  have hhead := List.head?_dropWhile_not p s
  rwa [h] at hhead

theorem first_seq_atEnd {f : List (List Char) → β} :
    (seq q r).first s (atEnd f) = q.first s (r.andThen f) := by
  rw [first_seq]
  simp only [atEnd_append]
  rfl

theorem first_many_nil : (many p).first [] next = next [] [] := by
  simp [first, readings, rests]

theorem first_many_cons : (many p).first (c :: s) next =
    if p c then ((many p).first s next).or (next [] (c :: s)) else next [] (c :: s) := by
  rw [first, readings, List.findSome?_map, rests]
  split
  · rw [List.findSome?_append, first, readings, List.findSome?_map]
    simp
  · simp

/-- A run before something that cannot begin inside it is read to its end. -/
theorem first_many (h : ∀ c s, p c → next [] (c :: s) = none) :
    (many p).first s next = next [] (s.dropWhile p) := by
  induction s with
  | nil => rw [first_many_nil, List.dropWhile_nil]
  | cons c s ih =>
      rw [first_many_cons, ih, List.dropWhile_cons]
      split
      · rename_i hc
        rw [h c s hc, Option.or_none]
      · rfl

/-- What a run can leave, by the number of characters that it takes. -/
theorem rests_eq (p : Char → Bool) (s : List Char) :
    rests p s = (List.range ((s.takeWhile p).length + 1)).reverse.map s.drop := by
  induction s with
  | nil => rfl
  | cons c s ih =>
      rw [rests]
      cases hc : p c with
      | false => simp [hc]
      | true =>
          rw [if_pos rfl, ih, List.takeWhile_cons_of_pos hc, List.length_cons,
            List.range_succ_eq_map (n := (s.takeWhile p).length + 1)]
          simp

/-- The lengths of the proper beginnings of a word, the longest first; the empty one is none. -/
def cuts (w : List Char) : List Nat := (List.range w.length).reverse.filter (0 < ·)

theorem cuts_cons (c : Char) (w : List Char) :
    cuts (c :: w) = (List.range w.length).reverse.map (· + 1) := by
  have hpos : ∀ n ∈ (List.range w.length).reverse.map Nat.succ, decide (0 < n) = true := by simp
  rw [cuts, List.length_cons, List.range_succ_eq_map, List.reverse_cons, List.filter_append,
    ← List.map_reverse, List.filter_eq_self.mpr hpos]
  exact List.append_nil _

end First

/-! ### The pattern of directives -/

/-- The characters of words. -/
abbrev isInk (c : Char) : Bool := !Text.isAsciiBlank c

/-- At least one blank. -/
def blanks : Pattern := seq (one Text.isAsciiBlank) (many Text.isAsciiBlank)

/-- A word whose first character is of a class. -/
def word (initial : Char → Bool) : Pattern := field (seq (one initial) (many isInk))

/-- Blanks, and a word that does not begin with a slash. -/
def memberPart : Pattern := seq blanks (word fun c => isInk c && c != '/')

/-- The rest of a line, without the blanks before it. -/
def lineRest : Pattern := seq (many Text.isAsciiBlank) (field (many (· != '\n')))

/-- Blanks, two slashes and the rest of the line. -/
def reasonPart : Pattern := seq (many Text.isAsciiBlank) (seq (text "//".toList) lineRest)

/-- What follows the class. -/
def tail : Pattern := seq (optional memberPart) (optional reasonPart)

/-- The pattern of directives. -/
def directive : Pattern :=
  seq (text "nolint:".toList) (seq (word isInk) (seq blanks (seq (word isInk) tail)))

section Directive

variable {f : List (List Char) → β} {s t : List Char} {c : Char}
  {next : List (List Char) → List Char → Option β}

/-- A word is read to its end, or else up to a place inside it, the last one first. -/
theorem readings_word {initial : Char → Bool} (hc : initial c) (hink : isInk c) :
    (word initial).readings (c :: s) =
      (((c :: s).takeWhile isInk).length :: cuts ((c :: s).takeWhile isInk)).map fun n =>
        ([(c :: s).take n], (c :: s).drop n) := by
  have hlength : (s.takeWhile isInk).length ≤ s.length := (List.takeWhile_sublist isInk).length_le
  rw [List.takeWhile_cons_of_pos hink, cuts_cons, List.length_cons]
  have hcuts : ((s.takeWhile isInk).length + 1) ::
      (List.range (s.takeWhile isInk).length).reverse.map (· + 1) =
        (List.range ((s.takeWhile isInk).length + 1)).reverse.map (· + 1) := by
    rw [List.range_succ, List.reverse_append]
    rfl
  have hone : (one initial).readings (c :: s) = [([], s)] := if_pos hc
  have hmany : (many isInk).readings s = (rests isInk s).map ([], ·) := rfl
  rw [hcuts, word, readings, readings, hone, List.flatMap_singleton, hmany, rests_eq, List.map_map,
    List.map_map, List.map_map, List.map_map]
  refine List.map_congr_left fun n hn => ?_
  have hn' : n ≤ s.length := by
    have := List.mem_range.mp (List.mem_reverse.mp hn)
    omega
  have htaken : s.length + 1 - (s.length - n) = n + 1 := by omega
  simp [htaken]

theorem first_word {initial : Char → Bool} (hc : initial c) (hink : isInk c) :
    (word initial).first (c :: s) next =
      (next [(c :: s).takeWhile isInk] ((c :: s).dropWhile isInk)).or
        ((cuts ((c :: s).takeWhile isInk)).findSome? fun n =>
          next [(c :: s).take n] ((c :: s).drop n)) := by
  have hsplit : (c :: s).takeWhile isInk ++ (c :: s).dropWhile isInk = c :: s :=
    List.takeWhile_append_dropWhile
  have htake := congrArg (List.take ((c :: s).takeWhile isInk).length) hsplit
  have hdrop := congrArg (List.drop ((c :: s).takeWhile isInk).length) hsplit
  rw [List.take_left] at htake
  rw [List.drop_left] at hdrop
  rw [first, readings_word hc hink, List.findSome?_map, List.findSome?_cons, Function.comp_apply,
    ← htake, ← hdrop]
  cases next [(c :: s).takeWhile isInk] ((c :: s).dropWhile isInk) <;> rfl

/-- A line is read to the end of the text if no line ends inside it. -/
theorem first_line : (field (many (· != '\n'))).first s (atEnd f) =
    if s.contains '\n' then none else some (f [s]) := by
  rw [first_field, first_many fun _ _ _ => rfl]
  split
  · rename_i hmem
    have hline : s.dropWhile (· != '\n') ≠ [] := by
      rw [ne_eq, List.dropWhile_eq_nil_iff]
      exact fun hall => absurd (hall _ (List.contains_iff_mem.mp hmem)) (by decide)
    obtain ⟨c, t, hct⟩ := List.exists_cons_of_ne_nil hline
    rw [hct]
    rfl
  · rename_i hmem
    have hline : s.dropWhile (· != '\n') = [] := by
      rw [List.dropWhile_eq_nil_iff]
      exact fun c hc => bne_iff_ne.mpr fun hend => hmem (List.contains_iff_mem.mpr (hend ▸ hc))
    rw [hline, List.length_nil, Nat.sub_zero, List.take_length]
    rfl

/-- The blanks before a line are not taken back for it. -/
theorem first_lineRest : lineRest.first s (atEnd f) =
    if (s.dropWhile Text.isAsciiBlank).contains '\n' then none
    else some (f [s.dropWhile Text.isAsciiBlank]) := by
  rw [lineRest, first_seq]
  induction s with
  | nil => exact first_line (s := [])
  | cons c s ih =>
      rw [first_many_cons]
      split
      · rename_i hc
        rw [ih, List.dropWhile_cons_of_pos hc]
        split
        · -- A line end behind the blanks is also behind fewer of them.
          rename_i hmem
          have hmem' : (c :: s).contains '\n' := by
            rw [List.contains_iff_mem] at hmem ⊢
            exact List.mem_cons_of_mem _ ((List.dropWhile_suffix _).subset hmem)
          exact (first_line (s := c :: s)).trans (if_pos hmem')
        · rfl
      · rename_i hc
        rw [List.dropWhile_cons_of_neg hc]
        exact first_line (s := c :: s)

theorem slashes_isPrefixOf_iff : "//".toList.isPrefixOf s = true ↔ ∃ t, s = '/' :: '/' :: t := by
  rw [List.isPrefixOf_iff_prefix]
  exact ⟨fun ⟨t, ht⟩ => ⟨t, ht.symm⟩, fun ⟨t, ht⟩ => ⟨t, ht.symm⟩⟩

/-- What stands behind two slashes is a reason. -/
theorem first_reasonText : (seq (text "//".toList) lineRest).first s (atEnd f) =
    (Suppression.reasonAfter? s).map fun reason => f [reason] := by
  rw [first_seq]
  by_cases hslashes : "//".toList.isPrefixOf s = true
  · obtain ⟨t, rfl⟩ := slashes_isPrefixOf_iff.mp hslashes
    rw [first_text hslashes, Suppression.reasonAfter?]
    refine first_lineRest.trans ?_
    show (if (t.dropWhile Text.isAsciiBlank).contains '\n' then none else _) = _
    split <;> rfl
  · rw [first_text_of_not (Bool.not_eq_true _ ▸ hslashes), Suppression.reasonAfter?]
    · rfl
    · rintro t rfl
      exact hslashes rfl

/-- A reason is read if there is one, whatever blanks stand before it. -/
theorem first_reasonPart : (optional reasonPart).first s (atEnd f) =
    ((Suppression.reasonAfter? (s.dropWhile Text.isAsciiBlank)).map fun reason => f [reason]).or
      (atEnd f [[]] s) := by
  rw [first_optional, reasonPart, first_seq, first_many]
  · simp only [List.nil_append]
    rw [first_reasonText]
    rfl
  · intro c s hc
    rw [first_seq, first_text_of_not]
    refine Bool.eq_false_iff.mpr fun hslashes => ?_
    obtain ⟨t, ht⟩ := slashes_isPrefixOf_iff.mp hslashes
    obtain ⟨rfl, -⟩ := List.cons.inj ht
    exact absurd hc (by decide)

/-- Blanks before something that does not begin with one are all read. -/
theorem first_blanks (hc : Text.isAsciiBlank c)
    (h : ∀ c s, Text.isAsciiBlank c → next [] (c :: s) = none) :
    blanks.first (c :: s) next = next [] (s.dropWhile Text.isAsciiBlank) := by
  rw [blanks, first_seq, first_one_cons, if_pos hc]
  exact first_many h

theorem first_blanks_of_ink (hc : isInk c) : blanks.first (c :: s) next = none := by
  rw [blanks, first_seq, first_one_cons, if_neg (by simpa using hc)]

/-- A word does not begin with a character outside its class. -/
theorem first_word_of_not {initial : Char → Bool} (hc : ¬initial c) :
    (word initial).first (c :: s) next = none := by
  rw [word, first_field, first_seq, first_one_cons, if_neg hc]

/-- Behind a word that was cut only a reason can begin. -/
theorem first_reason_of_ink (hc : isInk c) : (optional reasonPart).first (c :: s) (atEnd f) =
    (Suppression.reasonAfter? (c :: s)).map fun reason => f [reason] := by
  have hblank : ¬Text.isAsciiBlank c := by simpa using hc
  rw [first_reasonPart, List.dropWhile_cons_of_neg hblank]
  exact Option.or_none

theorem first_tail_of_ink (hc : isInk c) : tail.first (c :: s) (atEnd f) =
    (Suppression.reasonAfter? (c :: s)).map fun reason => f [[], reason] := by
  rw [tail, first_seq_atEnd, first_optional, memberPart, first_seq, first_blanks_of_ink hc,
    Option.none_or, andThen, first_reason_of_ink hc]
  rfl

theorem findSome?_congr {α : Type} {as : List α} {g g' : α → Option β} (h : ∀ a ∈ as, g a = g' a) :
    as.findSome? g = as.findSome? g' := by
  induction as with
  | nil => rfl
  | cons a as ih =>
      obtain ⟨ha, has⟩ := List.forall_mem_cons.mp h
      rw [List.findSome?_cons, List.findSome?_cons, ha, ih has]

/-- Where a word is cut, one of its characters follows. -/
theorem exists_of_mem_cuts {n : Nat} (hn : n ∈ cuts (s.takeWhile isInk)) :
    s.take n = (s.takeWhile isInk).take n ∧
      ∃ c t, isInk c ∧ s.drop n = c :: t ∧
        (s.takeWhile isInk).drop n ++ s.dropWhile isInk = c :: t := by
  have hsplit : s.takeWhile isInk ++ s.dropWhile isInk = s := List.takeWhile_append_dropWhile
  have hink : ∀ c ∈ s.takeWhile isInk, isInk c := fun c hc => List.mem_takeWhile_imp hc
  generalize s.takeWhile isInk = w at hsplit hink hn ⊢
  have hlt : n < w.length := List.mem_range.mp (List.mem_reverse.mp (List.mem_filter.mp hn).1)
  have hdrop : s.drop n = w.drop n ++ s.dropWhile isInk := by
    rw [← List.drop_append_of_le_length hlt.le, hsplit]
  have hcons : w.drop n ++ s.dropWhile isInk = w[n] :: (w.drop (n + 1) ++ s.dropWhile isInk) := by
    rw [List.drop_eq_getElem_cons hlt, List.cons_append]
  refine ⟨?_, w[n], _, hink _ (List.getElem_mem hlt), hdrop.trans hcons, hcons⟩
  rw [← List.take_append_of_le_length hlt.le, hsplit]

/-- A word is cut before the last reason that begins inside it. -/
theorem findSome?_cuts (next : List (List Char) → List Char → Option β)
    {g : List Char × List Char → β} (h : ∀ w c t, isInk c →
      next [w] (c :: t) = (Suppression.reasonAfter? (c :: t)).map fun reason => g (w, reason)) :
    ((cuts (s.takeWhile isInk)).findSome? fun n => next [s.take n] (s.drop n)) =
      (Suppression.splitReason? (s.takeWhile isInk) (s.dropWhile isInk)).map g := by
  rw [Suppression.splitReason?, List.map_findSome?]
  refine findSome?_congr fun n hn => ?_
  obtain ⟨htake, c, t, hc, hdrop, hrest⟩ := exists_of_mem_cuts hn
  rw [htake, hdrop, Function.comp_apply, Option.map_map, hrest, h _ _ _ hc]
  rfl

/-- A member is read to its end if a reason or the end of the line follows, and otherwise up to the
last reason that begins inside it. -/
theorem first_member {initial : Char → Bool} (hc : initial c) (hink : isInk c) :
    (word initial).first (c :: s) ((optional reasonPart).andThen f) =
      (if ((c :: s).dropWhile isInk).isEmpty then some ((c :: s).takeWhile isInk, [])
        else match Suppression.reasonAfter?
            (((c :: s).dropWhile isInk).dropWhile Text.isAsciiBlank) with
          | some reason => some ((c :: s).takeWhile isInk, reason)
          | none => Suppression.splitReason? ((c :: s).takeWhile isInk)
              ((c :: s).dropWhile isInk)).map fun x => f [x.1, x.2] := by
  rw [first_word hc hink, findSome?_cuts ((optional reasonPart).andThen f)
    (g := fun x => f [x.1, x.2]) fun w c t hc => first_reason_of_ink hc, andThen, first_reasonPart]
  cases (c :: s).dropWhile isInk with
  | nil => rfl
  | cons d rest =>
      cases Suppression.reasonAfter? ((d :: rest).dropWhile Text.isAsciiBlank) <;> rfl

/-- The member and perhaps a reason are those of the first reading. -/
theorem first_memberPart (hc : Text.isAsciiBlank c) :
    memberPart.first (c :: s) ((optional reasonPart).andThen f) =
      (Suppression.memberPart? (c :: s)).map fun x => f [x.1, x.2] := by
  have hstop (c : Char) (s : List Char) (hc : Text.isAsciiBlank c)
      (next : List (List Char) → List Char → Option β) :
      (word fun c => isInk c && c != '/').first (c :: s) next = none :=
    first_word_of_not (by simp [hc])
  rw [memberPart, first_seq, first_blanks hc fun c s hc => hstop c s hc _,
    Suppression.memberPart?, List.dropWhile_cons_of_pos hc]
  split
  · rename_i hrest
    rw [hrest]
    rfl
  · rename_i hrest
    rw [hrest]
    exact first_word_of_not (by simp)
  · rename_i hempty hslash
    obtain ⟨d, t, hrest⟩ := List.exists_cons_of_ne_nil hempty
    have hd : isInk d := by simpa using not_of_dropWhile_eq hrest
    have hd' : d ≠ '/' := by
      rintro rfl
      exact hslash t hrest
    rw [hrest]
    exact first_member (by simpa [hd'] using hd) hd

/-- What follows the class is a member and perhaps a reason, if it can be read so, and otherwise a
reason alone. -/
theorem first_tail_of_blank (hc : Text.isAsciiBlank c) : tail.first (c :: s) (atEnd f) =
    ((Suppression.memberPart? (c :: s)).map fun x => f [x.1, x.2]).or
      ((Suppression.reasonAfter? (s.dropWhile Text.isAsciiBlank)).map fun reason =>
        f [[], reason]) := by
  rw [tail, first_seq_atEnd, first_optional, first_memberPart hc, andThen, first_reasonPart,
    List.dropWhile_cons_of_pos hc]
  exact congrArg _ Option.or_none

/-- The class, the member and the reason are those of the first reading. -/
theorem first_parts : (seq (word isInk) tail).first s (atEnd f) =
    (Suppression.directiveParts? s).map fun x => f [x.1, x.2.1, x.2.2] := by
  cases s with
  | nil => rfl
  | cons c s =>
      rw [first_seq_atEnd]
      by_cases hc : isInk c
      · rw [first_word hc hc, findSome?_cuts (tail.andThen f)
          (g := fun x => f [x.1, [], x.2]) fun w c t hc => first_tail_of_ink hc, andThen,
          Suppression.directiveParts?]
        have hword : ((c :: s).takeWhile isInk).isEmpty = false := by
          rw [List.takeWhile_cons_of_pos hc]
          rfl
        rw [if_neg (by rw [hword]; exact Bool.false_ne_true)]
        cases hrest : (c :: s).dropWhile isInk with
        | nil => rfl
        | cons d rest =>
            have hd : Text.isAsciiBlank d := by simpa using not_of_dropWhile_eq hrest
            rw [first_tail_of_blank hd, List.dropWhile_cons_of_pos hd]
            cases Suppression.memberPart? (d :: rest) with
            | some x => rfl
            | none =>
                cases Suppression.reasonAfter? (rest.dropWhile Text.isAsciiBlank) with
                | some reason => rfl
                | none => cases Suppression.splitReason? _ (d :: rest) <;> rfl
      · rw [first_word_of_not hc, Suppression.directiveParts?, List.takeWhile_cons_of_neg hc]
        rfl

/-- A linter is a whole word, since blanks have to follow it. -/
theorem first_linter : (seq (word isInk) (seq blanks (seq (word isInk) tail))).first s (atEnd f) =
    if (s.takeWhile isInk).isEmpty || (s.dropWhile isInk).isEmpty then none
    else (Suppression.directiveParts? ((s.dropWhile isInk).dropWhile Text.isAsciiBlank)).map
      fun x => f [s.takeWhile isInk, x.1, x.2.1, x.2.2] := by
  cases s with
  | nil => rfl
  | cons c s =>
      rw [first_seq_atEnd]
      by_cases hc : isInk c
      · have hcut : (cuts ((c :: s).takeWhile isInk)).findSome? (fun n =>
            (seq blanks (seq (word isInk) tail)).andThen f [(c :: s).take n] ((c :: s).drop n)) =
              none := by
          refine List.findSome?_eq_none_iff.mpr fun n hn => ?_
          obtain ⟨-, d, t, hd, hdrop, -⟩ := exists_of_mem_cuts hn
          rw [hdrop, andThen, first_seq, first_blanks_of_ink hd]
        have hword : ((c :: s).takeWhile isInk).isEmpty = false := by
          rw [List.takeWhile_cons_of_pos hc]
          rfl
        rw [first_word hc hc, hword, Bool.false_or]
        refine (congrArg (Option.or _) hcut).trans (Option.or_none.trans ?_)
        cases hrest : (c :: s).dropWhile isInk with
        | nil => rfl
        | cons d rest =>
            have hd : Text.isAsciiBlank d := by simpa using not_of_dropWhile_eq hrest
            rw [andThen, first_seq_atEnd, first_blanks hd, List.dropWhile_cons_of_pos hd, andThen,
              first_parts]
            · rfl
            · intro c s hc
              rw [andThen, first_seq, first_word_of_not (by simpa using hc)]
      · rw [first_word_of_not hc, List.takeWhile_cons_of_neg hc]
        rfl

end Directive

end Pattern

namespace Suppression

/-- The rule whose parts are the fields of a directive. -/
def ofFields? : List (List Char) → Option Suppression
  | [linter, className, member, reason] => some
      { linter := String.ofList linter, className := String.ofList className
        member := String.ofList member, reason := Text.trim (String.ofList reason) }
  | _ => none

/-- **The rule that a line spells is told by the preferred reading** of the line without the blanks
at its ends. -/
theorem ofDirective?_eq (line : String) : ofDirective? line =
    (Pattern.directive.fields? (Text.trimEnds Text.isBlank line.toList)).bind ofFields? := by
  rw [Pattern.fields?, Pattern.directive, Pattern.first_seq_atEnd, ofDirective?]
  split
  · rename_i hstart
    rw [Pattern.first_text hstart, Pattern.andThen, Pattern.first_linter]
    split
    · rename_i hlinter
      exact if_pos hlinter
    · rename_i hlinter
      refine (if_neg hlinter).trans ?_
      cases directiveParts? _ <;> rfl
  · rename_i hstart
    rw [Pattern.first_text_of_not (Bool.not_eq_true _ ▸ hstart)]
    rfl

end Suppression

end ClassAudit
