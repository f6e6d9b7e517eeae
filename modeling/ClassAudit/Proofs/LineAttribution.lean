import ClassAudit.Proofs.BodyMarkers
import ClassAudit.Proofs.StoredMembers
import Mathlib.Data.List.Induction

/-!
# Source lines of instructions

The line tables of a method say at which positions source lines begin. They may be spread over
several attributes, come in any order, name a position more than once or point between
instructions. The line of an instruction is that of the entry which begins nearest before it, and
of several such entries that of the last one; only entries at instructions count.

## Main definitions

* `LatestLine` - the line of the last entry with the greatest position among those that count.
* `Code.StoredCode`, `Code.lineEntries` - a code attribute as it is stored, and the entries of its
  line tables one after the other.
* `LineSource` - what a method stores about source lines; `LineSource.Gives` - the line that this
  gives to a position.

## Main statements

* `LatestLine.extend` - what changes when the entries at a further position count.
* `Code.Content.Sound.latestLine` - the line of an instruction in the body of a code attribute.
* `ClassModel.parse_attributes_lines` - the lines of all instructions of a class.
-/

namespace ClassAudit

/-! ### The latest of several entries -/

/-- The place of the last element that satisfies `p`. -/
theorem exists_of_getLast?_filter {α : Type} {p : α → Bool} {l : List α} {a : α}
    (h : (l.filter p).getLast? = some a) :
    p a ∧ ∃ k : Nat, l[k]? = some a ∧ ∀ b ∈ l.drop (k + 1), p b = false := by
  rw [List.getLast?_filter, List.find?_eq_some_iff_append] at h
  obtain ⟨ha, after, before, hsplit, hafter⟩ := h
  have hl : l = before.reverse ++ a :: after.reverse := by
    rw [← List.reverse_reverse l, hsplit]
    simp
  refine ⟨ha, before.reverse.length, by simp [hl], fun b hb => ?_⟩
  rw [hl, List.drop_length_add_append, List.drop_succ_cons, List.drop_zero] at hb
  simpa using hafter b (List.mem_reverse.mp hb)

theorem mem_drop_of_getElem? {α : Type} {l : List α} {a : α} {j k : Nat} (hj : j < k)
    (hk : l[k]? = some a) : a ∈ l.drop (j + 1) := by
  refine List.mem_of_getElem? (i := k - (j + 1)) ?_
  rwa [List.getElem?_drop, Nat.add_sub_cancel' hj]

/-- The line is that of an entry with the greatest position among those that count, and of several
such entries the last; it is 0 if no entry counts. -/
inductive LatestLine (counts : LineEntry → Prop) (entries : List LineEntry) : Int → Prop
  | entry {k : Nat} {e : LineEntry} (hk : entries[k]? = some e) (he : counts e)
      (hle : ∀ l ∈ entries, counts l → l.pc ≤ e.pc)
      (hlast : ∀ l ∈ entries.drop (k + 1), counts l → l.pc < e.pc) :
      LatestLine counts entries e.line
  | none (h : ∀ l ∈ entries, ¬counts l) : LatestLine counts entries 0

namespace LatestLine

variable {counts counts' : LineEntry → Prop} {entries : List LineEntry} {line line' : Int}

theorem congr (h : LatestLine counts entries line)
    (hcounts : ∀ e ∈ entries, counts e ↔ counts' e) : LatestLine counts' entries line := by
  cases h with
  | entry hk he hle hlast =>
      refine .entry hk ((hcounts _ (List.mem_of_getElem? hk)).mp he) ?_ ?_
      · exact fun l hl hl' => hle l hl ((hcounts l hl).mpr hl')
      · exact fun l hl hl' => hlast l hl ((hcounts l (List.mem_of_mem_drop hl)).mpr hl')
  | none hnone => exact .none fun e he he' => hnone e he ((hcounts e he).mpr he')

/-- There is only one such line. -/
theorem unique (h : LatestLine counts entries line) (h' : LatestLine counts entries line') :
    line = line' := by
  cases h with
  | none hnone =>
      cases h' with
      | none => rfl
      | entry hk he => exact absurd he (hnone _ (List.mem_of_getElem? hk))
  | @entry k e hk he hle hlast =>
      cases h' with
      | none hnone => exact absurd he (hnone e (List.mem_of_getElem? hk))
      | @entry k' e' hk' he' hle' hlast' =>
          rcases Nat.lt_trichotomy k k' with hlt | rfl | hlt
          · have hback := hlast e' (mem_drop_of_getElem? hlt hk') he'
            have hmax := hle' e (List.mem_of_getElem? hk) he
            omega
          · rw [Option.some.inj (hk.symm.trans hk')]
          · have hback := hlast' e (mem_drop_of_getElem? hlt hk) he
            have hmax := hle e' (List.mem_of_getElem? hk') he'
            omega

/-- Let the entries at a position behind all those that count so far count too: the last of them
is the latest, and if there is none, nothing changes. -/
theorem extend {positions : List Nat} {pc : Nat} (hpc : ∀ p ∈ positions, p < pc)
    (h : LatestLine (·.pc ∈ positions) entries line) :
    LatestLine (·.pc ∈ positions ++ [pc]) entries
      (((entries.filter (·.pc == pc)).getLast?.map fun l => (l.line : Int)).getD line) := by
  cases hlast : (entries.filter (·.pc == pc)).getLast? with
  | none =>
      have hnone := List.filter_eq_nil_iff.mp (List.getLast?_eq_none_iff.mp hlast)
      refine h.congr fun e he => ?_
      have hne : e.pc ≠ pc := by simpa using hnone e he
      simp [hne]
  | some e =>
      obtain ⟨hpc', k, hk, hafter⟩ := exists_of_getLast?_filter hlast
      obtain rfl := eq_of_beq hpc'
      refine .entry hk (by simp) (fun l _ hl => ?_) fun l hmem hl => ?_
      · obtain hl | hl := List.mem_append.mp hl
        · exact (hpc _ hl).le
        · exact (List.mem_singleton.mp hl).le
      · have hne := hafter l hmem
        obtain hl | hl := List.mem_append.mp hl
        · exact hpc _ hl
        · exact absurd (List.mem_singleton.mp hl) (by simpa using hne)

end LatestLine

/-! ### Lines in a body -/

namespace Body

/-- Of two pieces, the second tells the last line if it holds any. -/
theorem lastLine?_append (first second : List Instruction) :
    lastLine? (first ++ second) = (lastLine? second).or (lastLine? first) := by
  rw [lastLine?, List.reverse_append, List.findSome?_append]
  rfl

theorem lastLine?_map_line (entries : List LineEntry) (pc : Nat) :
    lastLine? (entries.map fun l => { action := .line l.line, pc }) =
      entries.getLast?.map fun l => (l.line : Int) := by
  rw [lastLine?, ← List.map_reverse, List.getLast?_eq_head?_reverse]
  cases entries.reverse with
  | nil => rfl
  | cons l rest => rfl

theorem lastLine?_singleton {i : Instruction} (h : i.isMarker = false) : lastLine? [i] = none := by
  cases hi : i.action with
  | line n =>
      rw [Instruction.isMarker, hi] at h
      exact absurd h Bool.noConfusion
  | _ => simp [lastLine?, hi, Action.line?]

end Body

namespace Code

open Body (lastLine? lastLine?_append lastLine?_map_line lastLine?_singleton)

/-- The last line before an instruction is that of the last entry at its position. -/
theorem lastLine?_markersAt (labels frames : List Nat) (lines : List LineEntry) (pc : Nat) :
    lastLine? (markersAt labels lines frames pc) =
      (lines.filter (·.pc == pc)).getLast?.map fun l => (l.line : Int) := by
  have hframe : lastLine? (if frames.contains pc then [{ action := .frame, pc }] else []) =
      none := by
    split <;> rfl
  rw [markersAt, lastLine?_append, hframe, Option.none_or, lastLine?_append, lastLine?_map_line]
  cases labels.idxOf? pc with
  | none => exact Option.or_none
  | some id => exact Option.or_none

/-- An element that is no marker is an instruction, and up to it stand the instructions before it
with their markers. -/
theorem take_of_interleaved {before : Instruction → List Instruction} {last : List Instruction}
    (hbefore : ∀ i, ∀ j ∈ before i, j.isMarker = true) (hlast : ∀ j ∈ last, j.isMarker = true)
    {body : List Instruction} {n : Nat} {i : Instruction} (hi : i.isMarker = false)
    (h : ((body.flatMap fun i => before i ++ [i]) ++ last)[n]? = some i) :
    ∃ l₁ l₂, body = l₁ ++ i :: l₂ ∧
      ((body.flatMap fun i => before i ++ [i]) ++ last).take (n + 1) =
        (l₁ ++ [i]).flatMap fun i => before i ++ [i] := by
  induction body generalizing n with
  | nil =>
      have hmarker := hlast i (List.mem_of_getElem? h)
      exact absurd hmarker (by simp [hi])
  | cons j body ih =>
      rw [List.flatMap_cons, List.append_assoc, List.append_assoc] at h ⊢
      rcases Nat.lt_trichotomy n (before j).length with hlt | rfl | hlt
      · rw [List.getElem?_append_left hlt] at h
        have hmarker := hbefore j i (List.mem_of_getElem? h)
        exact absurd hmarker (by simp [hi])
      · rw [List.getElem?_append_right le_rfl] at h
        obtain rfl : j = i := by simpa using h
        refine ⟨[], body, rfl, ?_⟩
        rw [List.take_length_add_append]
        simp
      · obtain ⟨m, rfl⟩ : ∃ m, n = (before j).length + (m + 1) :=
          ⟨n - (before j).length - 1, by omega⟩
        rw [List.getElem?_append_right (by omega), Nat.add_sub_cancel_left, List.singleton_append,
          List.getElem?_cons_succ] at h
        obtain ⟨l₁, l₂, rfl, htake⟩ := ih h
        refine ⟨j :: l₁, l₂, rfl, ?_⟩
        rw [Nat.add_assoc, List.take_length_add_append, List.singleton_append, List.take_succ_cons,
          htake]
        simp

namespace Content.Sound

variable {c : Content}

/-- The line in force after some of the instructions, with their markers, is that of the latest
entry at one of them. -/
theorem latestLine_of_append (h : c.Sound) {is rest : List Instruction}
    (his : c.instructions = is ++ rest) :
    LatestLine (·.pc ∈ is.map (·.pc)) c.tables.lines
      ((lastLine? (is.flatMap fun i =>
        markersAt c.labels c.lines c.tables.frames i.pc ++ [i])).getD 0) := by
  -- each instruction lies behind those before it, so only the entries at its position are new
  induction is using List.reverseRecOn generalizing rest with
  | nil => exact .none fun l _ hl => nomatch hl
  | append_singleton is i ih =>
      have hsplit : c.instructions = is ++ i :: rest := by rw [his]; simp
      have hi : i ∈ c.instructions := by rw [hsplit]; simp
      have hpc : ∀ p ∈ is.map (·.pc), p < i.pc := by
        have hascending := h.ascending.pairwise
        rw [hsplit, List.pairwise_append] at hascending
        intro p hp
        obtain ⟨j, hj, rfl⟩ := List.mem_map.mp hp
        exact hascending.2.2 j hj i List.mem_cons_self
      have hstep := (ih hsplit).extend hpc
      rw [List.flatMap_append, List.flatMap_singleton, lastLine?_append, lastLine?_append,
        lastLine?_singleton (h.ascending.isMarker_eq_false hi), Option.none_or,
        lastLine?_markersAt, h.filter_lines ⟨i, hi, rfl⟩, List.map_append, List.map_singleton]
      convert hstep using 1
      cases (c.tables.lines.filter (·.pc == i.pc)).getLast? with
      | none => rfl
      | some e => rfl

/-- **The line of an instruction** is that of the latest entry at an instruction that is not behind
it. -/
theorem latestLine (h : c.Sound) {n : Nat} {i : Instruction}
    (hn : c.body.elements[n]? = some i) (hi : i.isMarker = false) :
    LatestLine (fun e => c.Begins e.pc ∧ e.pc ≤ i.pc) c.tables.lines (c.body.lineAt n) := by
  obtain ⟨l₁, l₂, hsplit, htake⟩ := take_of_interleaved (fun _ _ => isMarker_of_mem_markersAt)
    (isMarker_of_mem_last c.labels c.codeLength) hi hn
  have hsplit' : c.instructions = (l₁ ++ [i]) ++ l₂ := by rw [hsplit]; simp
  have hlatest := h.latestLine_of_append hsplit'
  rw [← htake] at hlatest
  refine LatestLine.congr hlatest fun e _ => ?_
  have hascending := h.ascending.pairwise
  rw [hsplit', List.pairwise_append] at hascending
  obtain ⟨hbefore, -, hbehind⟩ := hascending
  rw [List.mem_map]
  constructor
  · rintro ⟨j, hj, hpc⟩
    refine ⟨⟨j, by rw [hsplit']; exact List.mem_append_left _ hj, hpc⟩, ?_⟩
    rw [← hpc]
    obtain hj | hj := List.mem_append.mp hj
    · exact ((List.pairwise_append.mp hbefore).2.2 j hj i List.mem_cons_self).le
    · rw [List.mem_singleton.mp hj]
  · rintro ⟨⟨j, hj, hpc⟩, hle⟩
    rw [hsplit'] at hj
    obtain hj | hj := List.mem_append.mp hj
    · exact ⟨j, hj, hpc⟩
    · have hlt := hbehind i (by simp) j hj
      omega

end Content.Sound

/-! ### Stored line tables -/

/-- The code array of a code attribute, and its attributes. -/
structure StoredCode where
  code : List UInt8
  attributes : List (String × List UInt8)

/-- Steps over an entry of the exception table. -/
def skipHandler : Read Unit := do
  let item := "exception_table entry"
  discard (Read.u2 item)
  discard (Read.u2 item)
  discard (Read.u2 item)
  discard (Read.u2 item)

/-- Reads a code attribute without a look into its attributes. -/
def readStored (pool : ConstantPool) : Read StoredCode := do
  Read.skip 4 "max_stack/max_locals"
  let codeLength ← Read.u4 "code_length"
  let code ← Read.bytes codeLength "code"
  let handlerCount ← Read.u2 "exception_table_length"
  discard (Read.times handlerCount skipHandler)
  let attributeCount ← Read.u2 "code attributes_count"
  let attributes ← Read.times attributeCount (readAttribute pool)
  return { code, attributes }

/-- The entries of all line tables among some attributes, one after the other. -/
def lineEntries : List (String × List UInt8) → Except Malformed (List LineEntry)
  | [] => return []
  | (name, content) :: rest =>
    if name == "LineNumberTable" then do
      let entries ← Read.runOn content lineTable
      return entries ++ (← lineEntries rest)
    else lineEntries rest

theorem shadows_handler (pool : ConstantPool) (starts : List Nat) (codeLength : Nat) :
    (handler pool starts codeLength).Shadows skipHandler fun _ _ => True := by
  refine (Read.shadows_self _).discard.bind fun start _ _ => ?_
  refine (Read.shadows_self _).discard.bind fun stop _ _ => ?_
  refine (Read.shadows_self _).discard.bind fun target _ _ => ?_
  refine (Read.shadows_self _).discard.bind_last fun type _ _ => ?_
  refine .ite (fun _ => Read.shadows_fail _ _) fun _ => .ite (fun _ => ?_) fun _ => ?_
  · have hlookup : (discard (Decode.lookup (pool.className type))).Shadows (pure ())
        fun _ _ => True :=
      (Read.shadows_lookup fun _ _ => trivial).map fun _ _ h => h
    exact hlookup.bind_idle fun _ _ => Read.shadows_pure trivial
  · exact Read.shadows_pure trivial

/-- Only line tables say something about lines. -/
theorem exists_lineEntries_cons {pool : ConstantPool} {t t₁ : Tables} {name : String}
    {content : List UInt8} (h : t.add pool name content = .ok t₁)
    {rest : List (String × List UInt8)} {entries : List LineEntry}
    (hrest : lineEntries rest = .ok entries) :
    ∃ entries', lineEntries ((name, content) :: rest) = .ok entries' ∧
      t₁.lines ++ entries = t.lines ++ entries' := by
  rw [Tables.add] at h
  rw [lineEntries]
  split at h
  · rename_i hname
    obtain ⟨first, hfirst, heq⟩ := except_bind_eq_ok.mp h
    obtain rfl := Except.ok.inj heq
    refine ⟨first ++ entries, ?_, List.append_assoc _ _ _⟩
    rw [if_pos hname, hfirst, hrest]
    rfl
  · rename_i hname
    rw [if_neg hname]
    refine ⟨entries, hrest, congrArg (· ++ entries) ?_⟩
    split at h
    · obtain ⟨locals, -, heq⟩ := except_bind_eq_ok.mp h
      rw [← Except.ok.inj heq]
    split at h
    · obtain ⟨frames, -, heq⟩ := except_bind_eq_ok.mp h
      rw [← Except.ok.inj heq]
    · rw [Except.ok.inj h]

/-- What the attributes of a body say about lines is what their line tables say. -/
theorem shadows_readTables (pool : ConstantPool) (n : Nat) (t : Tables) :
    (readTables pool n t).Shadows (Read.times n (readAttribute pool)) fun t' attributes =>
      ∃ entries, lineEntries attributes = .ok entries ∧ t'.lines = t.lines ++ entries := by
  induction n generalizing t with
  | zero => exact Read.shadows_pure ⟨[], rfl, (List.append_nil _).symm⟩
  | succ n ih =>
      refine .bind_self fun a => Read.shadows_bind_lookup fun t₁ ht₁ => (ih t₁).then_pure ?_
      rintro t' attributes ⟨entries, hentries, hlines⟩
      obtain ⟨entries', hentries', hsame⟩ := exists_lineEntries_cons ht₁ hentries
      exact ⟨entries', hentries', hlines.trans hsame⟩

theorem shadows_readContent (pool : ConstantPool) :
    (readContent pool).Shadows (readStored pool) fun content stored =>
      Decode.body pool stored.code = .ok content.instructions ∧
        lineEntries stored.attributes = .ok content.tables.lines := by
  refine .bind_self fun _ => Read.shadows_bind_position fun _ => .bind_self fun codeLength => ?_
  refine .ite (fun _ => Read.shadows_fail _ _) fun _ => .bind_self fun code => ?_
  refine Read.shadows_bind_lookup fun instructions hbody => ?_
  rw [readTablesOf]
  split
  · exact Read.shadows_fail _ _
  refine .bind_self fun handlerCount => ?_
  refine ((shadows_handler pool _ codeLength).times _).discard.bind fun handlers _ _ => ?_
  refine .bind_self fun attributeCount => ?_
  refine (shadows_readTables pool attributeCount {}).bind fun tables attributes htables => ?_
  obtain ⟨entries, hentries, hlines⟩ := htables
  refine Read.shadows_pure ⟨hbody, ?_⟩
  rw [hentries, hlines]
  rfl

end Code

/-! ### Lines of a class -/

/-- What a method stores about source lines: where its instructions begin, and the entries of all
its line tables in their order. -/
structure LineSource where
  starts : List Nat := []
  entries : List LineEntry := []
deriving DecidableEq, Repr

/-- The line at a position is that of the latest entry at an instruction that is not behind it. -/
def LineSource.Gives (s : LineSource) (pc : Nat) (line : Int) : Prop :=
  LatestLine (fun e => e.pc ∈ s.starts ∧ e.pc ≤ pc) s.entries line

/-- What a code attribute stores about source lines. -/
def Code.lineSource (pool : ConstantPool) (content : List UInt8) : Except Malformed LineSource := do
  let stored ← Read.runOn content (Code.readStored pool)
  let instructions ← Decode.body pool stored.code
  let entries ← Code.lineEntries stored.attributes
  return { starts := instructions.map (·.pc), entries }

namespace ClassModel

/-- What a method stores about source lines; without a body it stores nothing. -/
def MemberInfo.lineSource (pool : ConstantPool) (info : MemberInfo) : Except Malformed LineSource :=
  match info.attributes.lookup "Code" with
  | none => return {}
  | some content => Code.lineSource pool content

/-- What the methods of a class file store about source lines. -/
def lineSources (data : List UInt8) : Except Malformed (List LineSource) := do
  let stored ← Read.runOn data readStored
  stored.methods.mapM (MemberInfo.lineSource stored.pool)

end ClassModel

/-- The instructions of the method are at the lines that the line tables give them. -/
def MethodModel.FollowsLines (m : MethodModel) (s : LineSource) : Prop :=
  ∀ (n : Nat) (i : Instruction), m.code.elements[n]? = some i → i.isMarker = false →
    ∀ line, s.Gives i.pc line ↔ m.code.lineAt n = line

theorem Code.exists_lineSource {pool : ConstantPool} {content : List UInt8} {body : Body}
    {names : List (Nat × String)} (h : Code.read pool content = .ok (body, names)) :
    ∃ s, Code.lineSource pool content = .ok s ∧ ∀ (n : Nat) (i : Instruction),
      body.elements[n]? = some i → i.isMarker = false → s.Gives i.pc (body.lineAt n) := by
  obtain ⟨c, hcontent, hbody⟩ := except_map_eq_ok.mp h
  obtain ⟨rfl, -⟩ := Prod.mk.inj hbody
  obtain ⟨stored, hstored, hinstructions, hentries⟩ := (shadows_readContent pool).runOn hcontent
  refine ⟨⟨c.instructions.map (·.pc), c.tables.lines⟩, ?_, fun n i hn hi => ?_⟩
  · rw [lineSource, hstored]
    show (Decode.body pool stored.code >>= _) = _
    rw [hinstructions]
    show (lineEntries stored.attributes >>= _) = _
    rw [hentries]
    rfl
  · refine ((sound_of_readContent hcontent).latestLine hn hi).congr fun e _ => ?_
    rw [List.mem_map]
    rfl

namespace ClassModel

theorem exists_lineSource {pool : ConstantPool} {m : MethodModel} {info : MemberInfo}
    (h : m.StoredAs pool info) :
    ∃ s, m.FollowsLines s ∧ info.lineSource pool = .ok s := by
  cases hcode : info.attributes.lookup "Code" with
  | none =>
      refine ⟨{}, fun n i hn => ?_, by rw [MemberInfo.lineSource, hcode]; rfl⟩
      rw [h.code_eq hcode] at hn
      exact nomatch hn
  | some content =>
      obtain ⟨s, hs, hgives⟩ := Code.exists_lineSource (h.read_eq content hcode)
      refine ⟨s, fun n i hn hi line => ?_, by rw [MemberInfo.lineSource, hcode]; exact hs⟩
      have hline := hgives n i hn hi
      exact ⟨hline.unique, fun heq => heq ▸ hline⟩

/-- **Lines follow the line tables.** The methods of an accepted class file are, one for one, those
that it stores. The line of an instruction is that of the last entry at the latest position, not
behind the instruction, at which both an instruction begins and an entry stands, all line tables of
the method taken one after the other, and 0 if there is no such entry. -/
theorem parse_attributes_lines {data : List UInt8} {c : ClassModel} (h : parse data = .ok c) :
    ∃ sources, lineSources data = .ok sources ∧
      List.Forall₂ MethodModel.FollowsLines c.methods sources := by
  obtain ⟨stored, hstored, hmembers⟩ := exists_stored h
  obtain ⟨sources, hfollows, hsources⟩ := exists_forall₂ hmembers.methods
    fun m info hm => exists_lineSource hm
  refine ⟨sources, ?_, hfollows⟩
  rw [lineSources, hstored]
  exact mapM_eq_ok_of_forall₂ hsources

/-- The class file of a class `A` with a method `m` of three instructions, at the positions 0, 1
and 4. It has two line tables, which name position 4 twice and position 2 once. -/
def sampleFile : List UInt8 :=
  [0xca, 0xfe, 0xba, 0xbe, 0, 0, 0, 52, 0, 7,
    1, 0, 1, 0x41, 7, 0, 1, 1, 0, 1, 0x6d, 1, 0, 3, 0x28, 0x29, 0x56,
    1, 0, 4, 0x43, 0x6f, 0x64, 0x65,
    1, 0, 15, 0x4c, 0x69, 0x6e, 0x65, 0x4e, 0x75, 0x6d, 0x62, 0x65, 0x72, 0x54, 0x61, 0x62, 0x6c,
    0x65, 0, 1, 0, 2, 0, 0, 0, 0, 0, 0, 0, 1,
    0, 1, 0, 3, 0, 4, 0, 1, 0, 5, 0, 0, 0, 49,
    0, 0, 0, 0, 0, 0, 0, 5, 0x00, 0xa7, 0, 3, 0xb1, 0, 0, 0, 2,
    0, 6, 0, 0, 0, 10, 0, 2, 0, 4, 0, 9, 0, 2, 0, 7,
    0, 6, 0, 0, 0, 10, 0, 2, 0, 0, 0, 3, 0, 4, 0, 8,
    0, 0]

/-- Of the two lines at position 4 the last one counts, and the line at position 2 does not. -/
theorem sampleFile_attributes_lines :
    ∃ c m, parse sampleFile = .ok c ∧ c.methods = [m] ∧ ∀ (n : Nat) (i : Instruction),
      m.code.elements[n]? = some i → i.isMarker = false →
        (i.pc = 1 → m.code.lineAt n = 3) ∧ (i.pc = 4 → m.code.lineAt n = 8) := by
  obtain ⟨c, hparse⟩ := exists_eq_ok_of_isOk
    (show (parse sampleFile).isOk = true by decide +kernel)
  have hsources : lineSources sampleFile =
      .ok [⟨[0, 1, 4], [⟨4, 9⟩, ⟨2, 7⟩, ⟨0, 3⟩, ⟨4, 8⟩]⟩] := by
    decide +kernel
  obtain ⟨sources, hsame, hfollows⟩ := parse_attributes_lines hparse
  obtain rfl := Except.ok.inj (hsources.symm.trans hsame)
  obtain ⟨m, _, hm, hrest, hmethods⟩ := List.forall₂_cons_right_iff.mp hfollows
  obtain rfl := List.forall₂_nil_right_iff.mp hrest
  refine ⟨c, m, hparse, hmethods, fun n i hn hi => ⟨fun hpc => ?_, fun hpc => ?_⟩⟩
  · refine (hm n i hn hi 3).mp ?_
    rw [hpc]
    exact LatestLine.entry (k := 2) (e := ⟨0, 3⟩) rfl (by decide) (by decide) (by decide)
  · refine (hm n i hn hi 8).mp ?_
    rw [hpc]
    exact LatestLine.entry (k := 3) (e := ⟨4, 8⟩) rfl (by decide) (by decide) (by decide)

end ClassModel

end ClassAudit
