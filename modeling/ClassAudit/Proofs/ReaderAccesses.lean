import ClassAudit.ClassFile.Parse
import ClassAudit.Proofs.DescriptorBytes
import ClassAudit.Proofs.TextRoundTrip

/-!
# Readers without accesses

Where a reader goes to a table by an index - the bytes of a text or a descriptor, the places of the
constant pool, the uses of a field, the content of an attribute - the access succeeds, on the grounds
that the code around it gives. What is left is a reader without accesses, and most of what is proved
of the readers is proved of these.

## Main definitions

* `ConstantPool.fault?`, `ConstantPool.firstFault?` - the checks of references.
* `ConstantPool.readEntries` - the entries of a pool, one after the other.

## Main statements

* `ConstantPool.check_eq`, `ConstantPool.validate_eq` - checks do not leave the pool.
* `ConstantPool.fill_eq` - every constant is put into a place that there is.
* `Constant.readText_eq`, `ConstantPool.read_eq`, `Decode.use_eq`, `ClassModel.readField_eq`,
  `ClassModel.readMethod_eq`, `ClassModel.readSourceFile_succ` - the readers without accesses.
-/

namespace ClassAudit

theorem Read.access_ok {α : Type} (a : α) : Read.access (.ok a) = pure a := rfl

/-! ### Constants -/

theorem Constant.readText_eq (index start : Nat) :
    Constant.readText index start = (do
      let n ← Read.u2 "utf8 length"
      let raw ← Read.bytes n "utf8 bytes"
      match Text.ModifiedUtf8.decode raw with
      | some text => return utf8 text
      | none => Read.fail (.badText index) (some start)) := by
  refine congrArg (Read.u2 "utf8 length" >>= ·) (funext fun n => ?_)
  refine congrArg (Read.bytes n "utf8 bytes" >>= ·) (funext fun raw => ?_)
  rw [Text.ModifiedUtf8.read_eq_decode]
  rfl

namespace ConstantPool

/-! ### References -/

/-- The number of the kind of the entry at an index, 0 where there is no constant. -/
def tagNumber (p : ConstantPool) (index : Nat) : Nat :=
  match p.entries[index]? with
  | some (some c) => c.tag.number
  | _ => 0

/-- What is wrong with an index that should lead to a constant of one of the given kinds. -/
def fault? (p : ConstantPool) (index : Nat) (tags : List Tag) : Option PoolFault :=
  if index = 0 ∨ p.entries.size ≤ index then some (.outOfRange index)
  else if (tags.map Tag.number).contains (p.tagNumber index) then none
  else some (.wrongTag index (p.tagNumber index) (tags.map Tag.number))

/-- The first entry with a reference that its kind does not allow. -/
def firstFault? (p : ConstantPool) : Option (Nat × PoolFault) :=
  p.entries.toList.zipIdx.findSome? fun (entry, index) =>
    match entry with
    | none => none
    | some c => ((requirements c).findSome? fun (a, tags) => p.fault? a tags).map (index, ·)

variable (p : ConstantPool)

theorem tagAt_eq {index : Nat} (h : index < p.entries.size) :
    p.tagAt index = .ok (p.tagNumber index) := by
  rw [tagAt, Access.get_of_lt h, Access.ok_bind, tagNumber, Array.getElem?_eq_getElem h]
  cases p.entries[index] <;> rfl

/-- A check looks at an entry only where there is one. -/
theorem check_eq (index : Nat) (tags : List Tag) : p.check index tags = .ok (p.fault? index tags) := by
  rw [check, fault?]
  by_cases hrange : index = 0 ∨ p.entries.size ≤ index
  · rw [if_pos hrange, if_pos hrange]
    rfl
  · rw [if_neg hrange, if_neg hrange, tagAt_eq p (by omega), Access.ok_bind]
    split <;> rfl

/-- A search that never fails finds what the search by its results finds. -/
theorem findSomeM?_eq {α β : Type} {f : α → Access (Option β)} {g : α → Option β}
    (h : ∀ a, f a = .ok (g a)) (l : List α) : l.findSomeM? f = .ok (l.findSome? g) := by
  induction l with
  | nil => rfl
  | cons a l ih =>
      rw [List.findSomeM?, h, Access.ok_bind, List.findSome?_cons]
      cases g a with
      | none => exact ih
      | some b => rfl

/-- Checking the references of a whole pool does not leave it. -/
theorem validate_eq : p.validate = .ok p.firstFault? := by
  refine findSomeM?_eq (fun x => ?_) _
  obtain ⟨_ | c, index⟩ := x
  · rfl
  · have hfaults := findSomeM?_eq (fun x : Nat × List Tag => p.check_eq x.1 x.2) (requirements c)
    dsimp only
    rw [hfaults]
    rfl

theorem entry_eq (index : Nat) (tags : List Tag) :
    p.entry index tags =
      match p.fault? index tags with
      | some fault => .error { cause := .badReference fault, offset := none }
      | none =>
        match p.entries[index]? with
        | some (some c) => .ok c
        | _ => p.outside index := by
  rw [entry, check_eq]
  cases p.fault? index tags <;> rfl

/-! ### The table -/

/-- Reads the constants of `places` places, the first of which has the given index. -/
def readEntries : (places index : Nat) → Read (List (Option Constant))
  | 0, _ => return []
  | 1, index => return [some (← Constant.read index)]
  | places + 2, index => do
    let c ← Constant.read index
    if c.isWide then
      return some c :: none :: (← readEntries places (index + 2))
    else
      return some c :: (← readEntries (places + 1) (index + 1))

/-- An entry is put into the first place that is left. -/
theorem put_first (before rest : List (Option Constant)) (c : Constant) :
    Access.put (before ++ none :: rest).toArray before.length (some c) =
      .ok (before ++ some c :: rest).toArray := by
  have hlt : before.length < (before ++ none :: rest).toArray.size := by simp
  rw [Access.put_of_lt hlt]
  simp

/-- The constants are put into the places that are left, as many as there are. -/
theorem fill_eq {before : List (Option Constant)} {index : Nat} (h : before.length = index)
    (places : Nat) :
    fill (index + places) (before ++ List.replicate places none).toArray index =
      (fun entries => (before ++ entries).toArray) <$> readEntries places index := by
  fun_induction readEntries places index generalizing before with
  | case1 index =>
      rw [fill, if_neg (by omega)]
      rfl
  | case2 index =>
      rw [fill, if_pos (Nat.lt_succ_self _), map_bind]
      refine bind_congr fun c => ?_
      rw [List.replicate_one, ← h, put_first, Read.access_ok, pure_bind, fill,
        if_neg (by split <;> omega)]
      rfl
  | case3 places index ihWide ihNarrow =>
      rw [fill, if_pos (by omega), map_bind]
      refine bind_congr fun c => ?_
      rw [List.replicate_succ, ← h, put_first, Read.access_ok, pure_bind, h]
      cases hwide : c.isWide with
      | true =>
          have hlength : (before ++ [some c, none]).length = index + 2 := by simp [h]
          have hrest := ihWide hlength
          rw [List.append_assoc, Nat.add_right_comm, Nat.add_assoc] at hrest
          rw [if_pos rfl, if_pos rfl, map_bind]
          simp only [map_pure]
          refine hrest.trans ?_
          simp
      | false =>
          have hlength : (before ++ [some c]).length = index + 1 := by simp [h]
          have hrest := ihNarrow hlength
          rw [List.append_assoc, Nat.add_right_comm] at hrest
          rw [if_neg Bool.false_ne_true, if_neg Bool.false_ne_true]
          refine hrest.trans ?_
          simp

theorem read_eq : ConstantPool.read = (do
    let start ← Read.position
    let count ← Read.u2 "constant_pool_count"
    if count = 0 then Read.fail .emptyPool (some start)
    else
      let entries ← readEntries (count - 1) 1
      let pool : ConstantPool := ⟨(none :: entries).toArray⟩
      match pool.firstFault? with
      | some (index, fault) => Read.fail (.badConstant index fault)
      | none => return pool) := by
  refine congrArg (Read.position >>= ·) (funext fun start => ?_)
  refine congrArg (Read.u2 "constant_pool_count" >>= ·) (funext fun count => ?_)
  refine ite_congr rfl (fun _ => rfl) fun hcount => ?_
  obtain ⟨places, rfl⟩ : ∃ n, count = n + 1 := ⟨count - 1, by omega⟩
  have hfill := fill_eq (show [(none : Option Constant)].length = 1 from rfl) places
  rw [List.singleton_append, ← List.replicate_succ, List.toArray_replicate, Nat.add_comm 1] at hfill
  rw [hfill, Nat.add_sub_cancel, bind_map_left]
  refine bind_congr fun entries => ?_
  dsimp only
  rw [validate_eq]
  rfl

end ConstantPool

/-! ### Instructions -/

namespace Decode

/-- The difference of two opcodes is one of numbers if the second one is not before the first. -/
theorem distance_eq {first code : Nat} (h : first ≤ code) (h' : code < first + 256) :
    distance first code = code - first := by
  rw [distance]
  omega

/-- The table of the uses of a field has an entry for each of their opcodes. -/
theorem exists_fieldUse_eq (pool : ConstantPool) {code : Nat} (h : 0xb2 ≤ code)
    (h' : code ≤ 0xb5) :
    ∃ access, fieldUse pool code = (do return .field access (← member pool [.fieldRef])) := by
  have hlt : distance 0xb2 code < fieldUses.size := by
    rw [distance_eq h (by omega)]
    show code - 0xb2 < 4
    omega
  exact ⟨_, by rw [fieldUse, Access.get_of_lt hlt, Read.access_ok, pure_bind]⟩

end Decode

/-! ### Classes -/

namespace ClassModel

variable (pool : ConstantPool)

theorem readField_eq : readField pool = (do
    let m ← readMember pool .field
    if validFieldDescriptor m.desc then
      return { name := m.name, desc := m.desc, access := m.access }
    else Read.fail (.badField m.name m.desc)) := by
  simp only [readField, checkFieldDescriptor_eq, Read.access_ok, pure_bind]

theorem readMethod_eq : readMethod pool = (do
    let m ← readMember pool .method
    match MethodDescriptor.parse m.desc with
    | .error fault => Read.fail (.badMethod m.name m.desc fault)
    | .ok _ =>
      match m.attributes.lookup "Code" with
      | none => return { name := m.name, desc := m.desc, access := m.access }
      | some content =>
        if m.access.isAbstract || m.access.isNative then
          Read.fail (.unexpectedCode m.name m.desc)
        else
          let (code, localNames) ←
            Read.within (.body m.name m.desc) (Decode.lookup (Code.read pool content))
          return { name := m.name, desc := m.desc, access := m.access, code, localNames }) := by
  refine congrArg (readMember pool .method >>= ·) (funext fun m => ?_)
  have hinside := MethodDescriptor.parse_ne_outside m.desc
  cases hparse : MethodDescriptor.parse m.desc with
  | ok d => rfl
  | error fault =>
      cases fault with
      | outside access => exact absurd hparse (hinside access)
      | _ => rfl

theorem readSourceFile_succ (n : Nat) (source : String) :
    readSourceFile pool (n + 1) source = (do
      let (name, content) ← Code.readAttribute pool
      if name == "SourceFile" && content.length == 2 then
        let source ←
          Read.within .sourceFile (Decode.lookup (pool.text (Binary.value content)))
        readSourceFile pool n source
      else readSourceFile pool n source) := by
  rw [readSourceFile]
  refine congrArg (Code.readAttribute pool >>= ·) (funext fun x => ?_)
  obtain ⟨name, content⟩ := x
  dsimp only
  split
  case isFalse => rfl
  case isTrue h =>
    have hlength : content.length = 2 := eq_of_beq (Bool.and_eq_true_iff.mp h).2
    rw [Binary.leading_eq hlength.ge, List.take_of_length_le hlength.le, Read.access_ok, pure_bind]

end ClassModel

end ClassAudit
