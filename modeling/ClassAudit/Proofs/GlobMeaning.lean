import ClassAudit.Lint.Suppression
import ClassAudit.Proofs.Reading

/-!
# What globs mean

A glob describes a text piece by piece: a star stands for any run of characters, a question mark for
one character, and every other character for itself. This module compares that description with the
matcher, which reads the text once and keeps track of the beginnings of the glob that fit what was
read. The two agree on one line of text. Wildcards do not reach over line ends, though, so a name
with a line end in it can escape a rule that describes it.

## Main definitions

* `Glob.Spells`, `Glob.Means` - the texts that a glob describes, given what wildcards stand for.
* `Glob.Tells` - marks that tell which beginnings of a glob describe a text.
* `Suppression.MeantFor` - the findings that a rule describes.

## Main statements

* `Glob.Tells.advance` - reading one more character keeps the marks right.
* `Glob.fits_iff`, `Glob.accepts_iff` - what the matcher accepts.
* `Suppression.covers_within_lines` - the findings that a rule covers.
-/

namespace ClassAudit

namespace Glob

/-- A piece of text that one character of a glob stands for. Wildcards stand for the characters in
`wild`. -/
def Stands (wild : Char → Prop) (g : Char) (piece : List Char) : Prop :=
  if g = '*' then ∀ c ∈ piece, wild c
  else if g = '?' then ∃ c, wild c ∧ piece = [c]
  else piece = [g]

/-- The text consists of consecutive pieces, one for each character of the glob. -/
def Spells (wild : Char → Prop) (glob s : List Char) : Prop :=
  ∃ pieces, List.Forall₂ (Stands wild) glob pieces ∧ pieces.flatten = s

/-- The glob describes the text; the empty glob describes what a star does. -/
def Means (wild : Char → Prop) (glob s : String) : Prop :=
  Spells wild (if glob = "" then ['*'] else glob.toList) s.toList

variable {wild wild' : Char → Prop} {g c : Char} {pre glob s t : List Char}

/-! ### Texts that a glob describes -/

theorem stands_star {piece : List Char} : Stands wild '*' piece ↔ ∀ c ∈ piece, wild c := by
  rw [Stands, if_pos rfl]

/-- Everything but a star stands for one character. -/
theorem stands_of_ne_star (hg : g ≠ '*') {piece : List Char} :
    Stands wild g piece ↔ ∃ c, (if g = '?' then wild c else g = c) ∧ piece = [c] := by
  rw [Stands, if_neg hg]
  split
  · rfl
  · exact ⟨fun h => ⟨g, rfl, h⟩, fun ⟨_, heq, h⟩ => heq ▸ h⟩

theorem spells_nil : Spells wild [] s ↔ s = [] := by
  constructor
  · rintro ⟨_, ⟨⟩, rfl⟩
    rfl
  · rintro rfl
    exact ⟨[], .nil, rfl⟩

/-- The last character of a glob stands for the end of the text. -/
theorem spells_append_singleton :
    Spells wild (pre ++ [g]) s ↔ ∃ u piece, Spells wild pre u ∧ Stands wild g piece ∧
      u ++ piece = s := by
  constructor
  · rintro ⟨pieces, hpieces, rfl⟩
    obtain ⟨before, last, rfl, hbefore, hlast⟩ := exists_append_of_forall₂ hpieces
    obtain ⟨piece, _, hpiece, hnil, rfl⟩ := List.forall₂_cons_left_iff.mp hlast
    obtain rfl := List.forall₂_nil_left_iff.mp hnil
    exact ⟨_, piece, ⟨before, hbefore, rfl⟩, hpiece, by simp⟩
  · rintro ⟨_, piece, ⟨pieces, hpieces, rfl⟩, hpiece, rfl⟩
    exact ⟨pieces ++ [piece], List.rel_append hpieces (.cons hpiece .nil), by simp⟩

/-- A star at the end stands for nothing, or for one more wild character. -/
theorem spells_star_nil : Spells wild (pre ++ ['*']) [] ↔ Spells wild pre [] := by
  simp [spells_append_singleton, stands_star]

theorem spells_star_concat : Spells wild (pre ++ ['*']) (s ++ [c]) ↔
    Spells wild pre (s ++ [c]) ∨ Spells wild (pre ++ ['*']) s ∧ wild c := by
  simp only [spells_append_singleton, stands_star]
  constructor
  · rintro ⟨u, piece, hu, hpiece, heq⟩
    obtain rfl | ⟨rest, d, rfl⟩ := List.eq_nil_or_concat' piece
    · exact .inl (by rwa [← heq, List.append_nil])
    · rw [← List.append_assoc] at heq
      obtain ⟨rfl, hd⟩ := List.append_inj' heq rfl
      obtain rfl : d = c := by simpa using hd
      exact .inr ⟨⟨u, rest, hu, fun c hc => hpiece c (by simp [hc]), rfl⟩, hpiece d (by simp)⟩
  · rintro (hs | ⟨⟨u, piece, hu, hpiece, rfl⟩, hc⟩)
    · exact ⟨s ++ [c], [], hs, by simp, by simp⟩
    · refine ⟨u, piece ++ [c], hu, fun d hd => ?_, by simp⟩
      obtain hd | hd := List.mem_append.mp hd
      · exact hpiece d hd
      · exact List.mem_singleton.mp hd ▸ hc

/-- Everything but a star at the end stands for the last character. -/
theorem not_spells_nil (hg : g ≠ '*') : ¬Spells wild (pre ++ [g]) [] := by
  simp [spells_append_singleton, stands_of_ne_star hg]

theorem spells_concat (hg : g ≠ '*') : Spells wild (pre ++ [g]) (s ++ [c]) ↔
    Spells wild pre s ∧ if g = '?' then wild c else g = c := by
  simp only [spells_append_singleton, stands_of_ne_star hg]
  constructor
  · rintro ⟨u, _, hu, ⟨d, hd, rfl⟩, heq⟩
    obtain ⟨rfl, hdc⟩ := List.append_inj' heq rfl
    obtain rfl : d = c := by simpa using hdc
    exact ⟨hu, hd⟩
  · rintro ⟨hs, hc⟩
    exact ⟨s, [c], hs, ⟨c, hc, rfl⟩, rfl⟩

/-- Only what wildcards make of the characters of the text matters. -/
theorem Stands.congr {piece : List Char} (h : ∀ c ∈ piece, wild c → wild' c)
    (hpiece : Stands wild g piece) : Stands wild' g piece := by
  by_cases hg : g = '*'
  · subst hg
    rw [stands_star] at hpiece ⊢
    exact fun c hc => h c hc (hpiece c hc)
  · rw [stands_of_ne_star hg] at hpiece ⊢
    obtain ⟨c, hc, rfl⟩ := hpiece
    refine ⟨c, ?_, rfl⟩
    split
    · rename_i hq
      exact h c (List.mem_singleton_self c) (by rwa [if_pos hq] at hc)
    · rename_i hq
      rwa [if_neg hq] at hc

theorem Spells.congr (h : ∀ c ∈ s, wild c → wild' c) (hs : Spells wild glob s) :
    Spells wild' glob s := by
  obtain ⟨pieces, hpieces, rfl⟩ := hs
  refine ⟨pieces, ?_, rfl⟩
  induction hpieces with
  | nil => exact .nil
  | cons hpiece _ ih =>
      simp only [List.flatten_cons, List.mem_append] at h
      exact .cons (hpiece.congr fun c hc => h c (.inl hc)) (ih fun c hc => h c (.inr hc))

/-! ### The matcher -/

/-- The marks tell which beginnings of `pre ++ glob`, from `pre` on, describe the text `s`. Where a
star follows, it is already counted in. -/
inductive Tells (wild : Char → Prop) (s : List Char) : List Char → List Char → List Bool → Prop
  | last {pre : List Char} {mark : Bool} (hmark : mark ↔ Spells wild pre s) :
      Tells wild s pre [] [mark]
  | next {pre glob : List Char} {g : Char} {mark : Bool} {marks : List Bool}
      (hmark : mark ↔ Spells wild (if g = '*' then pre ++ [g] else pre) s)
      (hmarks : Tells wild s (pre ++ [g]) glob marks) : Tells wild s pre (g :: glob) (mark :: marks)

theorem tells_marks {reached : Bool} (h : reached ↔ Spells wild pre []) :
    Tells wild [] pre glob (marks reached glob) := by
  induction glob generalizing pre reached with
  | nil => exact .last h
  | cons g glob ih =>
      rw [marks]
      by_cases hg : g = '*'
      · subst hg
        refine .next ?_ (ih ?_)
        · rw [if_pos rfl, spells_star_nil, h]
        · simpa [spells_star_nil] using h
      · refine .next ?_ (ih ?_)
        · rw [if_neg hg, h]
        · simp [hg, not_spells_nil hg]

/-- Reading one more character keeps the marks right. -/
theorem Tells.advance {marks : List Bool} {reached : Bool}
    (h : Tells (isWild ·) s pre glob marks) (hreached : reached ↔ Spells (isWild ·) pre (s ++ [c])) :
    Tells (isWild ·) (s ++ [c]) pre glob (advance c reached glob marks) := by
  induction h generalizing reached with
  | last hmark => exact .last hreached
  | @next pre glob g mark marks hmark _ ih =>
      rw [Glob.advance, List.headD_cons, List.tail_cons]
      by_cases hg : g = '*'
      · subst hg
        rw [if_pos rfl] at hmark
        have hhere : (reached || (mark && isWild c)) ↔
            Spells (isWild ·) (pre ++ ['*']) (s ++ [c]) := by
          rw [Bool.or_eq_true, Bool.and_eq_true, hreached, hmark, spells_star_concat]
        exact .next (by rwa [if_pos rfl]) (ih hhere)
      · rw [if_neg hg] at hmark
        rw [if_neg (by simpa using hg)]
        refine .next (by rwa [if_neg hg]) (ih ?_)
        rw [Bool.and_eq_true, hmark, spells_concat hg]
        by_cases hq : g = '?'
        · simp [hq]
        · simp [hq]

/-- The last mark is the one of the whole glob. -/
theorem Tells.getLastD {marks : List Bool} (h : Tells wild s pre glob marks) :
    marks.getLastD false ↔ Spells wild (pre ++ glob) s := by
  induction h with
  | last hmark => rwa [List.append_nil]
  | @next pre glob g mark marks _ hmarks ih =>
      rw [List.append_cons, ← ih]
      cases hmarks with
      | last | next => simp

theorem Tells.runFrom {marks : List Bool} (h : Tells (isWild ·) s [] glob marks) :
    runFrom glob marks t ↔ Spells (isWild ·) glob (s ++ t) := by
  induction t generalizing s marks with
  | nil =>
      rw [Glob.runFrom, h.getLastD, List.nil_append, List.append_nil]
  | cons c t ih =>
      have hnone : false ↔ Spells (isWild ·) [] (s ++ [c]) := by simp [spells_nil]
      rw [Glob.runFrom, ih (h.advance hnone), List.append_assoc, List.singleton_append]

/-- The matcher accepts the texts that consist of pieces for the characters of the glob. -/
theorem fits_iff : fits glob s ↔ Spells (· ≠ '\n') glob s := by
  have hempty : true ↔ Spells (isWild ·) [] [] := by simp [spells_nil]
  rw [fits, (tells_marks hempty).runFrom, List.nil_append]
  simp [isWild]

theorem accepts_iff {glob s : String} : accepts glob s ↔ Means (· ≠ '\n') glob s := by
  simp only [accepts, fits_iff, Means, beq_iff_eq]

/-- In a text without line ends, wildcards stand for whatever there is. -/
theorem means_of_one_line {glob s : String} (h : '\n' ∉ s.toList) :
    Means (· ≠ '\n') glob s ↔ Means (fun _ => True) glob s :=
  ⟨Spells.congr fun _ _ _ => trivial, Spells.congr fun _ hc _ heq => h (heq ▸ hc)⟩

end Glob

namespace Suppression

/-- The rule describes the finding: by its linter, its class and its member. -/
structure MeantFor (wild : Char → Prop) (r : Suppression) (f : Finding) : Prop where
  linter : r.linter = "" ∨ r.linter = "*" ∨ r.linter = f.linter
  className : Glob.Means wild (internalName r.className) f.className
  member : Glob.Means wild r.member f.member

theorem covers_iff {r : Suppression} {f : Finding} : r.covers f ↔ r.MeantFor (· ≠ '\n') f := by
  simp only [covers, Bool.and_eq_true, Bool.or_eq_true, beq_iff_eq, Glob.accepts_iff, or_assoc]
  exact ⟨fun ⟨⟨hlinter, hclass⟩, hmember⟩ => ⟨hlinter, hclass, hmember⟩,
    fun h => ⟨⟨h.linter, h.className⟩, h.member⟩⟩

/-- **Rules cover what they describe, within a line.** -/
theorem covers_within_lines (r : Suppression) (f : Finding) :
    (r.covers f ↔ r.MeantFor (· ≠ '\n') f) ∧
      ('\n' ∉ f.className.toList → '\n' ∉ f.member.toList →
        (r.covers f ↔ r.MeantFor (fun _ => True) f)) := by
  refine ⟨covers_iff, fun hclass hmember => ?_⟩
  rw [covers_iff]
  constructor
  · rintro ⟨hlinter, hname, hspelled⟩
    exact ⟨hlinter, (Glob.means_of_one_line hclass).mp hname,
      (Glob.means_of_one_line hmember).mp hspelled⟩
  · rintro ⟨hlinter, hname, hspelled⟩
    exact ⟨hlinter, (Glob.means_of_one_line hclass).mpr hname,
      (Glob.means_of_one_line hmember).mpr hspelled⟩

/-- A finding about a class with a line end in its name. -/
def findingOnTwoLines : Finding where
  linter := "DeadCode"
  category := .style
  className := "p/Half\nDone"
  severity := .warning
  message := "unreachable code"

/-- A star that describes both lines of a name stops at the end of the first. -/
theorem star_stops_at_line_end :
    MeantFor (fun _ => True) { className := "p.*" } findingOnTwoLines ∧
      covers { className := "p.*" } findingOnTwoLines = false := by
  have hname : internalName "p.*" = "p/*" := by cbv
  refine ⟨⟨.inl rfl, ?_, ?_⟩, by decide +kernel⟩
  · refine ⟨[['p'], ['/'], "Half\nDone".toList], ?_, by cbv⟩
    rw [hname]
    exact .cons rfl (.cons rfl (.cons (Glob.stands_star.mpr fun _ _ => trivial) .nil))
  · exact ⟨[[]], .cons (Glob.stands_star.mpr fun _ _ => trivial) .nil, rfl⟩

end Suppression

end ClassAudit
