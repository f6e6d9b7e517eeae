import ClassAudit.Assembly.Source
import ClassAudit.Proofs.ClassRoundTrip
import ClassAudit.Proofs.QuotedText
import ClassAudit.Proofs.StoredMembers

/-!
# String constants of the assembly text

A line that pushes a string spells it as a quoted text. Before the line is unquoted it is cut at
its first comment mark, divided into words and joined again. Quotes play no part in that: a
string with a comment mark cannot be spelled at all. Any other string whose spaces stand alone is
pushed as it is, however it has to be escaped, and a class that is written with the push has it
in its constant pool, and the push in the code array of its method.

## Main definitions

* `Step.pushLine` - the line that pushes a string.
* `Code.readArray`, `Code.MadeOf` - the code array of a code attribute, and its steps.
* `ClassDraft.PushesString` - a step of a method pushes a string, in the written class file.

## Main statements

* `Step.parseAll_pushLine`, `Step.parseAll_pushLine_of_mark` - what the line spells.
* `ClassModel.exists_stored_of_encode` - a written class file stores the bodies of its methods.
* `ClassDraft.pushesString` - the strings that are pushed are in the pool of the class.
* `Step.string_survives` - **which strings survive**.
-/

namespace ClassAudit

/-! ### Comment marks and line feeds -/

namespace Text

theorem mark_mem_quoteChar {c : Char} (h : '#' ∈ quoteChar c) : c = '#' := by
  obtain ⟨-, -, -, heq⟩ | ⟨code, heq, hcode, -⟩ := quoteChar_forms c
  · rw [heq] at h
    exact (List.mem_singleton.mp h).symm
  · rw [heq] at h
    obtain h | h := List.mem_cons.mp h
    · exact absurd h (by decide)
    · exact absurd rfl (hcode _ h).2

theorem mark_not_mem {s : List Char} (h : '#' ∉ s) : '#' ∉ s.flatMap quoteChar := by
  intro hmem
  obtain ⟨c, hc, hmark⟩ := List.mem_flatMap.mp hmem
  exact h (mark_mem_quoteChar hmark ▸ hc)

theorem mark_not_mem_quoteChars {s : List Char} (h : '#' ∉ s) : '#' ∉ quoteChars s := by
  rw [quoteChars, List.mem_cons, List.mem_append, List.mem_singleton]
  rintro (hmark | hmark | hmark)
  · exact absurd hmark (by decide)
  · exact mark_not_mem h hmark
  · exact absurd hmark (by decide)

/-- A quoted text stays on its line. -/
theorem lineFeed_not_mem_quoteChars (s : List Char) : '\n' ∉ quoteChars s := by
  have hwritten : '\n' ∉ s.flatMap quoteChar := by
    intro hmem
    obtain ⟨c, -, hc⟩ := List.mem_flatMap.mp hmem
    obtain heq | ⟨-, hink⟩ := token_quoteChar c
    · rw [heq] at hc
      exact absurd hc (by decide)
    · exact absurd (hink _ hc) (by decide)
  rw [quoteChars, List.mem_cons, List.mem_append, List.mem_singleton]
  rintro (hmark | hmark | hmark)
  · exact absurd hmark (by decide)
  · exact hwritten hmark
  · exact absurd hmark (by decide)

/-- The first word, up to the first blank. -/
theorem words_append {word rest : List Char} {blank : Char} (hne : word ≠ [])
    (hword : ∀ c ∈ word, isBlank c = false) (hblank : isBlank blank = true) :
    words (word ++ blank :: rest) = word :: words rest := by
  rw [words, words, splitWhere_eq_splitOnP, splitWhere_eq_splitOnP,
    List.splitOnP_append_cons _ _ hblank, List.splitOnP_eq_singleton hword, List.singleton_append,
    List.filter_cons_of_pos (by simpa using hne)]

/-- A text without line feed is one line. -/
theorem lines_eq_singleton {text : String} (h : '\n' ∉ text.toList) : lines text = [text] := by
  have hnone : ∀ c ∈ text.toList, (c == '\n') = false := fun c hc =>
    beq_eq_false_iff_ne.mpr fun heq => h (heq ▸ hc)
  rw [lines, splitWhere_eq_splitOnP, List.splitOnP_eq_singleton hnone, List.map_singleton,
    String.ofList_toList]

end Text

/-! ### The line that pushes a string -/

namespace Step

open Source

/-- The line that pushes a string. -/
def pushLine (s : String) : String := "ldc " ++ Text.quote s

theorem toList_pushLine (s : String) :
    (pushLine s).toList = ['l', 'd', 'c', ' '] ++ Text.quoteChars s.toList := by
  simp [pushLine, Text.quote]

theorem lines_pushLine (s : String) : Text.lines (pushLine s) = [pushLine s] := by
  refine Text.lines_eq_singleton ?_
  rw [toList_pushLine, List.mem_append, not_or]
  exact ⟨by decide, Text.lineFeed_not_mem_quoteChars _⟩

/-- A comment mark is looked for behind what holds none. -/
theorem withoutComment_append {before : List Char} (h : '#' ∉ before) (rest : List Char) :
    withoutComment (before ++ rest) = before ++ withoutComment rest :=
  List.takeWhile_append_of_pos fun _ hc => bne_iff_ne.mpr fun heq => h (heq ▸ hc)

theorem withoutComment_eq_self {line : List Char} (h : '#' ∉ line) :
    withoutComment line = line := by
  simpa [withoutComment] using withoutComment_append h []

/-- The words behind the mnemonic are joined, and spell a string or a number. -/
theorem parse_ldc (args : List String) :
    parse "ldc" args =
      match Text.unquote (Text.joinWith " " args).toList with
      | some literal => .ok (.string literal)
      | none => (number "ldc" (Text.joinWith " " args)).map .int := by
  have hlabel : labelWord? "ldc" = none := by decide +kernel
  rw [parse]
  · simp only [String.reduceEq, if_false, true_or, if_true]
    cases Text.unquote (Text.joinWith " " args).toList with
    | some literal => rfl
    | none => cases number "ldc" (Text.joinWith " " args) <;> rfl
  · intro name _ hname
    rw [hlabel] at hname
    cases hname

/-- The line of a mnemonic and a text is divided at the blank between them. -/
theorem parseLine_ldc {line : String} {operand : List Char}
    (h : withoutComment line.toList = ['l', 'd', 'c', ' '] ++ operand) :
    parseLine line = some <$> parse "ldc" ((Text.words operand).map String.ofList) := by
  have hwords : Text.words (['l', 'd', 'c', ' '] ++ operand) =
      ['l', 'd', 'c'] :: Text.words operand := by
    have hword : ∀ c ∈ ['l', 'd', 'c'], Text.isBlank c = false := by simp [Text.isBlank]
    exact Text.words_append (List.cons_ne_nil _ _) hword rfl
  rw [parseLine, h, hwords]

/-- **A string is pushed as it is**, if it has no comment mark and its spaces stand alone. -/
theorem parseAll_pushLine {s : String} (hmark : '#' ∉ s.toList)
    (hsingle : Text.SingleSpaced s.toList) :
    parseAll (pushLine s) = .ok [.string (.text s.toList)] := by
  have hcomment : withoutComment (pushLine s).toList =
      ['l', 'd', 'c', ' '] ++ Text.quoteChars s.toList := by
    rw [toList_pushLine, withoutComment_append (by decide),
      withoutComment_eq_self (Text.mark_not_mem_quoteChars hmark)]
  have hline : parseLine (pushLine s) = .ok (some (.string (.text s.toList))) := by
    rw [parseLine_ldc hcomment, parse_ldc, Text.joinWith_words_quoteChars hsingle,
      Text.unquote_quoteChars]
    rfl
  rw [parseAll, lines_pushLine, parseLines, hline]
  rfl

/-- What begins with a quote is no number. -/
theorem number_of_mark {operand : String} {rest : List Char}
    (h : operand.toList = Text.doubleMark :: rest) :
    number "ldc" operand = .error (.badNumber "ldc" operand) := by
  have hread : Text.readInt64 (Text.doubleMark :: rest) = .error .malformed := rfl
  rw [number, h, hread]
  rfl

/-- A string with a comment mark is cut off there, and what is left spells nothing. -/
theorem parseAll_pushLine_of_mark {s : String} (hmark : '#' ∈ s.toList) :
    ∃ operand, parseAll (pushLine s) = .error
      { number := 1, line := Text.trim (pushLine s), fault := .badNumber "ldc" operand } := by
  obtain ⟨before, after, hs, hbefore⟩ := List.eq_append_cons_of_mem hmark
  have hquoted : Text.quoteChars s.toList = (Text.doubleMark :: before.flatMap Text.quoteChar) ++
      '#' :: (after.flatMap Text.quoteChar ++ [Text.doubleMark]) := by
    have hshown : Text.quoteChar '#' = ['#'] := by decide
    simp [Text.quoteChars, hs, hshown]
  have hopen : '#' ∉ Text.doubleMark :: before.flatMap Text.quoteChar := by
    rw [List.mem_cons, not_or]
    exact ⟨by decide, Text.mark_not_mem hbefore⟩
  have hcomment : withoutComment (pushLine s).toList =
      ['l', 'd', 'c', ' '] ++ (Text.doubleMark :: before.flatMap Text.quoteChar) := by
    rw [toList_pushLine, withoutComment_append (by decide), hquoted, withoutComment_append hopen]
    simp [withoutComment]
  obtain ⟨s', hs'⟩ := Text.exists_joinWith_words_open before
  refine ⟨Text.joinWith " " ((Text.words (Text.doubleMark :: before.flatMap Text.quoteChar)).map
    String.ofList), ?_⟩
  rw [parseAll, lines_pushLine, parseLines, parseLine_ldc hcomment, parse_ldc, hs',
    Text.unquote_open]
  simp only [number_of_mark hs']
  rfl

end Step

/-! ### Classes as they are stored -/

/-- Reads the code array of a code attribute. -/
def Code.readArray : Read (List UInt8) := do
  Read.skip 4 "max_stack/max_locals"
  let codeLength ← Read.u4 "code_length"
  Read.bytes codeLength "code"

/-- The code array of a code attribute is what was written for the steps. -/
theorem CodeParts.run_readArray {parts : CodeParts} {maxLocals : Int}
    (hlength : (parts.bytes maxLocals).length < 4294967296) :
    Read.runOn (parts.bytes maxLocals) Code.readArray = .ok parts.pieces.flatten := by
  simp only [CodeParts.bytes, List.append_assoc] at hlength ⊢
  have hcode : parts.pieces.flatten.length < 4294967296 := by
    simp only [List.length_append] at hlength
    omega
  have hcount := Read.yields_u4 parts.pieces.flatten.length "code_length"
    (0 + (Binary.u2 16 ++ Binary.u2 maxLocals).length)
  rw [Binary.wrap_of_lt hcode] at hcount
  have hread : Code.readArray.Yields 0 (Binary.u2 16 ++ Binary.u2 maxLocals ++
      (Binary.u4 parts.pieces.flatten.length ++ parts.pieces.flatten))
      (.ok parts.pieces.flatten) :=
    (Read.yields_skip (by simp) _ 0).bind_ok (hcount.bind_ok (Read.yields_bytes _ _ _))
  have hrun := hread.runOn_append (Binary.u2 parts.handlers.length ++ (parts.handlers.flatten ++
    (Binary.u2 parts.tables.length ++ parts.tables.flatten)))
  simpa only [List.append_assoc] using hrun

/-- The content of an attribute is among the bytes of its member. -/
theorem ConstantPool.SpellsMember.content_isInfix {t : ConstantPool} {access : Int}
    {name desc : String} {a : String × List UInt8} {bytes : List UInt8}
    (h : t.SpellsMember access name desc [a] bytes) : a.2 <:+: bytes := by
  obtain ⟨nameBytes, descBytes, pieces, -, -, hpieces, rfl⟩ := h
  cases hpieces with
  | cons hpiece hnil =>
      cases hnil
      obtain ⟨n, -, rfl⟩ := hpiece
      refine List.IsSuffix.isInfix ⟨Binary.u2 access ++ nameBytes ++ descBytes ++
        Binary.u2 (1 : Nat) ++ Binary.u2 n ++ Binary.u4 a.2.length, ?_⟩
      simp [List.append_assoc]

namespace ClassModel

variable {v : Vocabulary} {t : ConstantPool} {bytes : List UInt8}

/-- A method with steps is stored with one attribute, the content of which is its body. -/
def StoresBody (v : Vocabulary) (t : ConstantPool) (m : MethodDraft) (info : MemberInfo) : Prop :=
  m.steps ≠ [] → ∃ parts : CodeParts, parts.Valid v t m ∧
    (parts.bytes m.maxLocals).length < 4294967296 ∧
    info.attributes = [("Code", parts.bytes m.maxLocals)]

theorem yields_storedMethod {m : MethodDraft} (h : m.Spelled v t bytes)
    (hsize : t.entries.size ≤ 65536) (hlength : bytes.length < 4294967296) :
    ∃ info, StoresBody v t m info ∧ ∀ pos, (readMember t .method).Yields pos bytes (.ok info) := by
  unfold MethodDraft.Spelled at h
  split at h
  · exact ⟨_, fun hsteps => absurd ‹m.steps = []› hsteps,
      yields_readMember h hsize hlength (by decide) .method⟩
  · obtain ⟨parts, hparts, hmember⟩ := h
    have hsmall := hmember.content_isInfix.length_le.trans_lt hlength
    exact ⟨_, fun _ => ⟨parts, hparts, hsmall, rfl⟩,
      yields_readMember hmember hsize hlength (by simp) .method⟩

/-- The methods of a class are stored one after the other. -/
theorem yields_storedMethods {methods : List MethodDraft} {pieces : List (List UInt8)}
    (h : List.Forall₂ (fun m => m.Spelled v t) methods pieces) (hsize : t.entries.size ≤ 65536)
    (hlength : pieces.flatten.length < 4294967296) :
    ∃ infos, List.Forall₂ (StoresBody v t) methods infos ∧
      ∀ pos, (Read.times pieces.length (readMember t .method)).Yields pos pieces.flatten
        (.ok infos) := by
  have hsmall : List.Forall₂ (fun m piece => m.Spelled v t piece ∧ piece.length < 4294967296)
      methods pieces :=
    forall₂_imp_of_mem h fun m _ piece hpiece hm => ⟨hm, length_lt_of_mem hlength hpiece⟩
  obtain ⟨infos, hinfos, hyields⟩ := exists_forall₂ hsmall fun m piece hm =>
    yields_storedMethod hm.1 hsize hm.2
  exact ⟨infos, hinfos, Read.yields_times_ok hyields⟩

/-- The fields of a class are stored one after the other. -/
theorem yields_storedFields {fields : List FieldDraft} {pieces : List (List UInt8)}
    (h : List.Forall₂ (fun f => t.SpellsMember f.access f.name f.desc []) fields pieces)
    (hsize : t.entries.size ≤ 65536) (hlength : pieces.flatten.length < 4294967296) :
    ∃ infos, ∀ pos, (Read.times pieces.length (readMember t .field)).Yields pos pieces.flatten
      (.ok infos) := by
  have hsmall : List.Forall₂ (fun f piece => t.SpellsMember f.access f.name f.desc [] piece ∧
      piece.length < 4294967296) fields pieces :=
    forall₂_imp_of_mem h fun f _ piece hpiece hf => ⟨hf, length_lt_of_mem hlength hpiece⟩
  obtain ⟨infos, -, hyields⟩ := exists_forall₂ (S := fun _ _ => True)
    (T := fun piece info => ∀ pos, (readMember t .field).Yields pos piece (.ok info)) hsmall
    fun f piece hf => ⟨_, trivial, yields_readMember hf.1 hsize hf.2 (by decide) .field⟩
  exact ⟨infos, Read.yields_times_ok hyields⟩

theorem yields_storedInterfaces {names : List String} {pieces : List (List UInt8)}
    (h : List.Forall₂ t.SpellsClass names pieces) :
    ∃ indexes, ∀ pos, (Read.times pieces.length (Read.u2 "interface index")).Yields pos
      pieces.flatten (.ok indexes) := by
  obtain ⟨indexes, -, hyields⟩ := exists_forall₂ (S := fun _ _ => True)
    (T := fun piece n => ∀ pos, (Read.u2 "interface index").Yields pos piece (.ok n)) h <| by
      rintro name _ ⟨n, -, rfl⟩
      exact ⟨_, trivial, Read.yields_u2 n _⟩
  exact ⟨indexes, Read.yields_times_ok hyields⟩

/-- The attributes of a class are stored behind their number. -/
theorem yields_storedAttributes {c : ClassDraft} (h : c.SourceSpelled t bytes)
    (hsize : t.entries.size ≤ 65536) (hlength : bytes.length < 4294967296) :
    ∃ (n : Nat) (rest : List UInt8) (attributes : List (String × List UInt8)), n < 65536 ∧
      bytes = Binary.u2 n ++ rest ∧
      ∀ pos, (Read.times n (Code.readAttribute t)).Yields pos rest (.ok attributes) := by
  unfold ClassDraft.SourceSpelled at h
  split at h
  · exact ⟨0, [], [], by decide, by rw [h, List.append_nil]; rfl, fun pos => Read.yields_pure _ pos⟩
  · obtain ⟨source, piece, -, hpiece, rfl⟩ := h
    have hsmall : piece.length < 4294967296 := by
      rw [List.length_append] at hlength
      omega
    have hone := Read.yields_times_ok (.cons (hpiece.yields hsize hsmall) .nil)
    rw [List.flatten_singleton] at hone
    exact ⟨1, piece, _, by decide, rfl, hone⟩

/-- The parts of a class are stored with the bodies of its methods. -/
theorem yields_readStoredBody {c : ClassDraft} {parts : ClassParts} (h : parts.Valid v t c)
    (hfits : c.Fits) (hsize : t.entries.size ≤ 65536) (hzero : ∀ constant, ¬t.Holds 0 constant)
    (hlength : (parts.bytes c.access).length < 4294967296) :
    ∃ stored, stored.pool = t ∧ List.Forall₂ (StoresBody v t) c.methods stored.methods ∧
      ∀ pos, (readStoredBody t).Yields pos (parts.bytes c.access) (.ok stored) := by
  simp only [ClassParts.bytes, List.length_append] at hlength
  have hinterfaces : parts.interfaces.length < 65536 := by
    rw [← h.interfaces.length_eq]
    exact Nat.lt_succ_of_le hfits.interfaces
  have hfields : parts.fields.length < 65536 := by
    rw [← h.fields.length_eq]
    exact Nat.lt_succ_of_le hfits.fields
  have hmethods : parts.methods.length < 65536 := by
    rw [← h.methods.length_eq]
    exact Nat.lt_succ_of_le hfits.methods
  obtain ⟨thisIndex, -, hname⟩ := h.name
  obtain ⟨superIndex, -, hsuper, -⟩ := yields_superNameAt h.superName hsize hzero
  obtain ⟨count, rest, attributes, hcount, hattributes, hreadAttributes⟩ :=
    yields_storedAttributes h.attributes hsize (by omega)
  obtain ⟨indexes, hreadIndexes⟩ := yields_storedInterfaces h.interfaces
  obtain ⟨fields, hreadFields⟩ := yields_storedFields h.fields hsize (by omega)
  obtain ⟨methods, hstores, hreadMethods⟩ := yields_storedMethods h.methods hsize (by omega)
  refine ⟨{ pool := t, fields, methods, attributes }, rfl, hstores, fun pos => ?_⟩
  rw [ClassParts.bytes, hname, hsuper, hattributes]
  simp only [List.append_assoc]
  refine ((Read.yields_u2 c.access _ _).map _).bind_ok ?_
  refine ((Read.yields_u2 thisIndex _ _).map _).bind_ok ?_
  refine ((Read.yields_u2 superIndex _ _).map _).bind_ok ?_
  refine (Read.yields_u2_of_lt hinterfaces _ _).bind_ok ?_
  refine ((hreadIndexes _).map _).bind_ok ?_
  refine (Read.yields_u2_of_lt hfields _ _).bind_ok ((hreadFields _).bind_ok ?_)
  refine (Read.yields_u2_of_lt hmethods _ _).bind_ok ((hreadMethods _).bind_ok ?_)
  refine (Read.yields_u2_of_lt hcount _ _).bind_ok ((hreadAttributes _).bind_last ?_)
  exact Read.yields_pure _ _

/-- A class file that is written stores the bodies of the methods. -/
theorem exists_stored_of_encode {c : ClassDraft} (hfits : c.Fits) (h : c.encode = .ok bytes) :
    ∃ stored, Read.runOn bytes readStored = .ok stored ∧
      List.Forall₂ (StoresBody c.vocabulary stored.pool) c.methods stored.methods := by
  obtain ⟨pool, parts, hparts, hsize, hpool, rfl⟩ := ClassDraft.encode_eq_ok hfits h
  have hlength := hfits.length _ h
  have hzero (constant : Constant) : ¬pool.table.Holds 0 constant := fun hc => nomatch hc
  obtain ⟨stored, htable, hstores, hbody⟩ := yields_readStoredBody hparts hfits hsize hzero
    (by rw [List.length_append] at hlength; omega)
  refine ⟨stored, Read.Yields.runOn ?_, htable ▸ hstores⟩
  simp only [List.append_assoc]
  refine ((Read.yields_u4 _ _ _).map _).bind_ok (((Read.yields_u2 _ _ _).map _).bind_ok ?_)
  exact ((Read.yields_u2 _ _ _).map _).bind_ok ((hpool _).bind_ok (hbody _))

end ClassModel

/-! ### Pushes -/

/-- The code array is made of the bytes of the steps, one piece for each: labels, source lines and
frames have none, instructions have some, and each piece is what its step is encoded to at the place
where the piece begins. -/
structure Code.MadeOf (steps : List Step) (pieces : List (List UInt8)) (code : List UInt8) :
    Prop where
  eq_flatten : code = pieces.flatten
  eq_nil_iff : List.Forall₂ (fun s piece => piece = [] ↔ s.isInstruction = false) steps pieces
  encoded : ∃ labels, ∀ (k : Nat) (s : Step), steps[k]? = some s → ∃ piece p p',
    pieces[k]? = some piece ∧ s.encode labels (pieces.take k).flatten.length p = .ok (piece, p')

theorem Laid.forall₂ {W : Nat → Step → List UInt8 → Prop} {pc : Nat} {located : List (Nat × Step)}
    {pieces : List (List UInt8)} (h : Laid W pc located pieces) :
    List.Forall₂ (fun x bytes => W x.1 x.2 bytes) located pieces := by
  induction h with
  | nil => exact .nil
  | cons hs _ ih => exact .cons hs ih

/-- A step is written where the pieces before its own end. -/
theorem Laid.exists_piece {W : Nat → Step → List UInt8 → Prop} {pc : Nat}
    {located : List (Nat × Step)} {pieces : List (List UInt8)} (h : Laid W pc located pieces)
    {k : Nat} {x : Nat × Step} (hx : located[k]? = some x) : ∃ piece, pieces[k]? = some piece ∧
      x.1 = pc + (pieces.take k).flatten.length ∧ W x.1 x.2 piece := by
  induction h generalizing k with
  | nil pc => exact nomatch hx
  | cons hs _ ih =>
      cases k with
      | zero =>
          obtain rfl := Option.some.inj hx
          exact ⟨_, rfl, rfl, hs⟩
      | succ k =>
          obtain ⟨piece, hpiece, hplace, hw⟩ := ih hx
          refine ⟨piece, hpiece, ?_, hw⟩
          rw [hplace, List.take_succ_cons, List.flatten_cons, List.length_append, Nat.add_assoc]

/-- The string of a push stands in the table, and the push refers to it. -/
theorem CodeParts.Valid.exists_hasString {v : Vocabulary} {t : ConstantPool} {m : MethodDraft}
    {parts : CodeParts} (h : parts.Valid v t m) {k : Nat} {literal : Text.Literal}
    (hs : m.steps[k]? = some (.string literal)) :
    ∃ n, t.HasString n literal.chars ∧ parts.pieces[k]? = some (Step.encodePush n) := by
  rw [← h.steps, List.getElem?_map, Option.map_eq_some_iff] at hs
  obtain ⟨⟨pc, s⟩, hx, rfl⟩ := hs
  obtain ⟨bytes, hbytes, -, hwritten⟩ := h.laid.exists_piece hx
  obtain ⟨n, t', hwithin, hn, rfl⟩ :=
    hwritten.answer (PoolBuilder.supplies_string literal) rfl
  exact ⟨n, hwithin.hasString hn, hbytes⟩

theorem CodeParts.Valid.madeOf {v : Vocabulary} {t : ConstantPool} {m : MethodDraft}
    {parts : CodeParts} (h : parts.Valid v t m) :
    Code.MadeOf m.steps parts.pieces parts.pieces.flatten where
  eq_flatten := rfl
  eq_nil_iff := by
    rw [← h.steps, List.forall₂_map_left_iff]
    exact h.laid.forall₂.imp fun _ _ => Step.Written.eq_nil_iff
  encoded := by
    refine ⟨Layout.labels ⟨parts.located⟩, fun k s hs => ?_⟩
    rw [← h.steps, List.getElem?_map, Option.map_eq_some_iff] at hs
    obtain ⟨⟨pc, s⟩, hx, rfl⟩ := hs
    obtain ⟨piece, hpiece, hplace, p, p', hencode, -⟩ := h.laid.exists_piece hx
    rw [Nat.zero_add] at hplace
    exact ⟨piece, p, p', hpiece, hplace ▸ hencode⟩

namespace ClassDraft

/-- The `k`-th step of the method pushes the string, in the class file that the draft is written
to: the pool has the string as a constant, and the code array in the `Code` attribute of the method
has, for this step, the push that refers to the constant. -/
def PushesString (bytes : List UInt8) (i : Nat) (m : MethodDraft) (k : Nat) (chars : List Char) :
    Prop :=
  ∃ stored info content code pieces n, Read.runOn bytes ClassModel.readStored = .ok stored ∧
    stored.methods[i]? = some info ∧ info.attributes.lookup "Code" = some content ∧
    Read.runOn content Code.readArray = .ok code ∧ Code.MadeOf m.steps pieces code ∧
    stored.pool.HasString n chars ∧ pieces[k]? = some (Step.encodePush n)

/-- **A class that is written has the strings that its methods push.** -/
theorem pushesString {c : ClassDraft} (hfits : c.Fits) {bytes : List UInt8}
    (h : c.encode = .ok bytes) {i : Nat} {m : MethodDraft} (hm : c.methods[i]? = some m) {k : Nat}
    {literal : Text.Literal} (hs : m.steps[k]? = some (.string literal)) :
    PushesString bytes i m k literal.chars := by
  obtain ⟨stored, hstored, hmethods⟩ := ClassModel.exists_stored_of_encode hfits h
  obtain ⟨info, hinfo, hbody⟩ := exists_getElem?_of_forall₂ hmethods hm
  have hsteps : m.steps ≠ [] := List.ne_nil_of_mem (List.mem_of_getElem? hs)
  obtain ⟨parts, hparts, hlength, hattributes⟩ := hbody hsteps
  obtain ⟨n, hn, hpush⟩ := hparts.exists_hasString hs
  exact ⟨stored, info, _, _, parts.pieces, n, hstored, hinfo, by rw [hattributes]; rfl,
    CodeParts.run_readArray hlength, hparts.madeOf, hn, hpush⟩

end ClassDraft

namespace Step

/-- **Which strings survive.** A string with a comment mark cannot be spelled: the mark begins a
comment, in quotes too. Any other string whose spaces stand alone is read from its quoted form as
one push of the string, and every class file that is written with the push in one of its methods,
within the limits of the format, has it as a string constant, and in the code array of this method
the push that refers to the constant. -/
theorem string_survives (s : String) :
    ('#' ∈ s.toList → ∃ operand, parseAll (pushLine s) = .error
      { number := 1, line := Text.trim (pushLine s), fault := .badNumber "ldc" operand }) ∧
    ('#' ∉ s.toList → Text.SingleSpaced s.toList →
      parseAll (pushLine s) = .ok [.string (.text s.toList)] ∧
      ∀ (c : ClassDraft) (i : Nat) (m : MethodDraft) (k : Nat) (bytes : List UInt8), c.Fits →
        c.encode = .ok bytes → c.methods[i]? = some m →
        m.steps[k]? = some (.string (.text s.toList)) →
        ClassDraft.PushesString bytes i m k s.toList) :=
  ⟨parseAll_pushLine_of_mark, fun hmark hsingle => ⟨parseAll_pushLine hmark hsingle,
    fun _ _ _ _ _ hfits hencode hm hs => ClassDraft.pushesString hfits hencode hm hs⟩⟩

/-- A method with one push of the string, behind a label. -/
def pushMethod (s : String) : MethodDraft where
  name := "run"
  desc := "()V"
  steps := [.label "top", .string (.text s.toList), .plain .voidReturn]

/-- A class with one push of the string. -/
def pushDraft (s : String) : ClassDraft where
  name := "a/B"
  methods := [pushMethod s]

/-- Quotes, a backslash, a tab, a line feed, a blank that has to be escaped, and single spaces. -/
def escapedText : String :=
  String.ofList [Text.doubleMark, ' ', '\\', '\t', '\n', Char.ofNat 0x2003, ' ', 'é']

theorem string_survives_escapes :
    (∃ operand, parseAll (pushLine "a#b") = .error
      { number := 1, line := Text.trim (pushLine "a#b"), fault := .badNumber "ldc" operand }) ∧
    ∃ bytes, parseAll (pushLine escapedText) = .ok [.string (.text escapedText.toList)] ∧
      (pushDraft escapedText).encode = .ok bytes ∧
      ClassDraft.PushesString bytes 0 (pushMethod escapedText) 1 escapedText.toList := by
  obtain ⟨bytes, hbytes⟩ := exists_eq_ok_of_isOk
    (show (pushDraft escapedText).encode.isOk = true by decide +kernel)
  obtain ⟨hparse, hclass⟩ := (string_survives escapedText).2 (by decide +kernel)
    (by decide +kernel)
  exact ⟨(string_survives "a#b").1 (by decide), bytes, hparse, hbytes,
    hclass (pushDraft escapedText) 0 _ 1 bytes (by decide +kernel) hbytes rfl rfl⟩

/-- The mark of a comment cannot be pushed. -/
theorem comment_mark_refused :
    '#' ∈ "a#b".toList ∧ parseAll (pushLine "a#b") ≠ .ok [.string (.text "a#b".toList)] := by
  decide +kernel

end Step

end ClassAudit
