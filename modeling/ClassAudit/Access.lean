/-!
# Accesses to tables

An access to a table goes to an index or cuts a part out of it, and both can lie past its end. The
accesses here fail in that case and say where, so that a program built from them stays inside its
tables exactly if it never fails so.

## Main definitions

* `OutOfBounds` - an access past the end of a table.
* `Access` - computations that go to their tables by index.
* `Access.get`, `Access.slice`, `Access.put` - an entry, a part, a table with one entry replaced.
* `Access.split` - the first entries of a list and the rest.
-/

namespace ClassAudit

/-- An access to `index` of a table that has only `size` entries. -/
structure OutOfBounds where
  index : Nat
  size : Nat
deriving DecidableEq, Repr

/-- A computation that goes to its tables by index. -/
abbrev Access := Except OutOfBounds

namespace Access

variable {α β : Type}

/-- The entry at an index. -/
def get (table : Array α) (index : Nat) : Access α :=
  match table[index]? with
  | some a => .ok a
  | none => .error ⟨index, table.size⟩

/-- The part from one index up to another, which is not in it. -/
def slice (table : Array α) (start stop : Nat) : Access (Array α) :=
  if table.size < stop then .error ⟨stop, table.size⟩
  else if stop < start then .error ⟨start, stop⟩
  else .ok (table.extract start stop)

/-- The table with another entry at an index. -/
def put (table : Array α) (index : Nat) (a : α) : Access (Array α) :=
  if h : index < table.size then .ok (table.set index a) else .error ⟨index, table.size⟩

/-- Has the list fewer than `n` entries? No more than `n` of them are looked at. -/
def isShorter : List α → Nat → Bool
  | _, 0 => false
  | [], _ + 1 => true
  | _ :: l, n + 1 => isShorter l n

/-- The first `n` entries of a list and the rest. -/
def split (l : List α) (n : Nat) : Access (List α × List α) :=
  if isShorter l n then .error ⟨n, l.length⟩ else .ok (l.splitAt n)

/-- An access that succeeds is followed by the rest. -/
@[simp]
theorem ok_bind (a : α) (f : α → Access β) : (Except.ok a >>= f) = f a := rfl

theorem get_eq_ok_iff {table : Array α} {index : Nat} {a : α} :
    get table index = .ok a ↔ table[index]? = some a := by
  rw [get]
  cases table[index]? <;> simp

theorem get_of_lt {table : Array α} {index : Nat} (h : index < table.size) :
    get table index = .ok table[index] :=
  get_eq_ok_iff.mpr (Array.getElem?_eq_getElem h)

theorem slice_of_le {table : Array α} {start stop : Nat} (hstop : stop ≤ table.size)
    (hstart : start ≤ stop) : slice table start stop = .ok (table.extract start stop) := by
  rw [slice, if_neg (Nat.not_lt.mpr hstop), if_neg (Nat.not_lt.mpr hstart)]

theorem put_of_lt {table : Array α} {index : Nat} (h : index < table.size) (a : α) :
    put table index a = .ok (table.set index a) := by
  rw [put, dif_pos h]

theorem isShorter_iff {l : List α} {n : Nat} : isShorter l n = true ↔ l.length < n := by
  fun_induction isShorter l n with
  | case1 => simp
  | case2 => simp
  | case3 a l n ih => rw [ih, List.length_cons, Nat.add_lt_add_iff_right]

theorem split_of_le {l : List α} {n : Nat} (h : n ≤ l.length) :
    split l n = .ok (l.take n, l.drop n) := by
  rw [split, if_neg fun hshort => absurd (isShorter_iff.mp hshort) (Nat.not_lt.mpr h),
    List.splitAt_eq]

end Access

end ClassAudit
