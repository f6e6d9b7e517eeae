/-!
# Pieces of texts

Splitting, searching and joining texts, mostly on their lists of characters. Texts are ordered
by their code points, which is also the order of their UTF-8 bytes.

## Main definitions

* `splitWhere`, `cutAt`, `lines` - the pieces of a text between separators.
* `startsWith`, `endsWith`, `contains` - where a text occurs in another.
* `dropTailWhile`, `trimEnds` - a text without its ends.
* `joinWith` - texts joined by a separator.
* `sorted`, `sortedDistinct` - texts in ascending order.
-/

namespace ClassAudit.Text

/-! ### Splitting -/

/-- The pieces of a list between the elements that satisfy `p`; there is always one more piece
than there are such elements. -/
def splitWhere {α : Type} (p : α → Bool) : List α → List (List α)
  | [] => [[]]
  | a :: as =>
    if p a then [] :: splitWhere p as
    else match splitWhere p as with
      | [] => [[a]]
      | piece :: pieces => (a :: piece) :: pieces

/-- The pieces of a text between line feeds. -/
def lines (s : String) : List String :=
  (splitWhere (· == '\n') s.toList).map String.ofList

/-- The pieces before and after the first element that satisfies `p`, without it. -/
def cutAt {α : Type} (p : α → Bool) : List α → Option (List α × List α)
  | [] => none
  | a :: as => if p a then some ([], as) else (cutAt p as).map fun (l, r) => (a :: l, r)

/-- What follows the cut is shorter than the whole. -/
theorem length_lt_of_cutAt {α : Type} {p : α → Bool} {s l r : List α}
    (h : cutAt p s = some (l, r)) : r.length < s.length := by
  induction s generalizing l with
  | nil => simp [cutAt] at h
  | cons a as ih =>
    rw [cutAt] at h
    split at h
    · simp only [Option.some.injEq, Prod.mk.injEq] at h
      simp [← h.2]
    · obtain ⟨⟨l', r'⟩, hcut, heq⟩ := Option.map_eq_some_iff.1 h
      simp only [Prod.mk.injEq] at heq
      have := ih (heq.2 ▸ hcut)
      exact Nat.lt_succ_of_lt this

/-- What follows the first element outside `p` is shorter than the whole. -/
theorem length_lt_of_dropWhile {α : Type} {p : α → Bool} {s r : List α} {a : α}
    (h : s.dropWhile p = a :: r) : r.length < s.length := by
  have hle := (List.dropWhile_suffix (l := s) p).length_le
  rw [h, List.length_cons] at hle
  omega

/-- A list without its longest tail inside `p`. -/
def dropTailWhile {α : Type} (p : α → Bool) (s : List α) : List α :=
  (s.reverse.dropWhile p).reverse

/-- A list without its longest head and tail inside `p`. -/
def trimEnds {α : Type} (p : α → Bool) (s : List α) : List α :=
  dropTailWhile p (s.dropWhile p)

/-! ### Searching -/

/-- Does the list contain `t` as consecutive elements? -/
def containsList {α : Type} [BEq α] (t : List α) : List α → Bool
  | [] => t.isEmpty
  | s@(_ :: rest) => t.isPrefixOf s || containsList t rest

/-- Does the text begin with `t`? -/
def startsWith (s t : String) : Bool := t.toList.isPrefixOf s.toList

/-- Does the text end with `t`? -/
def endsWith (s t : String) : Bool := t.toList.isSuffixOf s.toList

/-- Does the text contain `t`? -/
def contains (s t : String) : Bool := containsList t.toList s.toList

/-- The number of UTF-8 bytes of a text. -/
def byteLength (s : List Char) : Nat := s.foldl (fun n c => n + c.utf8Size) 0

/-! ### Joining and sorting -/

/-- Texts joined by a separator. -/
def joinWith (sep : String) (parts : List String) : String := String.intercalate sep parts

/-- Texts in ascending order. -/
def sorted (texts : List String) : List String := texts.mergeSort fun a b => decide (a ≤ b)

/-- Texts in ascending order, each once. -/
def sortedDistinct (texts : List String) : List String := (sorted texts).eraseReps

end ClassAudit.Text
