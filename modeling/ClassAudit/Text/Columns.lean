import ClassAudit.Text.Grapheme
import ClassAudit.Text.Utf8

/-!
# Columns on a screen

How many columns a text takes on a screen. Ordinary characters take one, those of East Asian scripts
and most emoji take two, marks and controls take none. A grapheme cluster is measured as a whole.
Control sequences that steer a screen take no column; a text is read byte by byte as far as it
belongs to one.

## Main definitions

* `charColumns`, `clusterColumns` - the columns of a character and of a cluster.
* `ControlState` - where in a control sequence a reader is; `ControlState.next` - after a byte.
* `columns` - the columns of a text.
-/

namespace ClassAudit.Text

/-! ### Characters and clusters -/

/-- Emoji that are shown in colour by themselves. -/
def emojiRanges : CodeRanges :=
  [(0x231a, 0x231b), (0x23e9, 0x23ec), (0x23f0, 0x23f0), (0x23f3, 0x23f3), (0x25fd, 0x25fe),
   (0x2614, 0x2615), (0x2648, 0x2653), (0x267f, 0x267f), (0x2693, 0x2693), (0x26a1, 0x26a1),
   (0x26aa, 0x26ab), (0x26bd, 0x26be), (0x26c4, 0x26c5), (0x26ce, 0x26ce), (0x26d4, 0x26d4),
   (0x26ea, 0x26ea), (0x26f2, 0x26f3), (0x26f5, 0x26f5), (0x26fa, 0x26fa), (0x26fd, 0x26fd),
   (0x2705, 0x2705), (0x270a, 0x270b), (0x2728, 0x2728), (0x274c, 0x274c), (0x274e, 0x274e),
   (0x2753, 0x2755), (0x2757, 0x2757), (0x2795, 0x2797), (0x27b0, 0x27b0), (0x27bf, 0x27bf),
   (0x2b1b, 0x2b1c), (0x2b50, 0x2b50), (0x2b55, 0x2b55), (0x1f004, 0x1f004), (0x1f0cf, 0x1f0cf),
   (0x1f18e, 0x1f18e), (0x1f191, 0x1f19a), (0x1f1e6, 0x1f1ff), (0x1f201, 0x1f201),
   (0x1f21a, 0x1f21a), (0x1f22f, 0x1f22f), (0x1f232, 0x1f236), (0x1f238, 0x1f23a),
   (0x1f250, 0x1f251), (0x1f300, 0x1f320), (0x1f32d, 0x1f335), (0x1f337, 0x1f37c),
   (0x1f37e, 0x1f393), (0x1f3a0, 0x1f3ca), (0x1f3cf, 0x1f3d3), (0x1f3e0, 0x1f3f0),
   (0x1f3f4, 0x1f3f4), (0x1f3f8, 0x1f43e), (0x1f440, 0x1f440), (0x1f442, 0x1f4fc),
   (0x1f4ff, 0x1f53d), (0x1f54b, 0x1f54e), (0x1f550, 0x1f567), (0x1f57a, 0x1f57a),
   (0x1f595, 0x1f596), (0x1f5a4, 0x1f5a4), (0x1f5fb, 0x1f64f), (0x1f680, 0x1f6c5),
   (0x1f6cc, 0x1f6cc), (0x1f6d0, 0x1f6d2), (0x1f6d5, 0x1f6d7), (0x1f6dc, 0x1f6df),
   (0x1f6eb, 0x1f6ec), (0x1f6f4, 0x1f6fc), (0x1f7e0, 0x1f7eb), (0x1f7f0, 0x1f7f0),
   (0x1f90c, 0x1f93a), (0x1f93c, 0x1f945), (0x1f947, 0x1f9ff), (0x1fa70, 0x1fa7c),
   (0x1fa80, 0x1fa88), (0x1fa90, 0x1fabd), (0x1fabf, 0x1fac5), (0x1face, 0x1fadb),
   (0x1fae0, 0x1fae8), (0x1faf0, 0x1faf8)]

/-- Wide characters. -/
def wideRanges : CodeRanges :=
  [(0x1100, 0x115f), (0x231a, 0x231b), (0x2329, 0x232a), (0x23e9, 0x23ec), (0x23f0, 0x23f0),
   (0x23f3, 0x23f3), (0x25fd, 0x25fe), (0x2614, 0x2615), (0x2648, 0x2653), (0x267f, 0x267f),
   (0x2693, 0x2693), (0x26a1, 0x26a1), (0x26aa, 0x26ab), (0x26bd, 0x26be), (0x26c4, 0x26c5),
   (0x26ce, 0x26ce), (0x26d4, 0x26d4), (0x26ea, 0x26ea), (0x26f2, 0x26f3), (0x26f5, 0x26f5),
   (0x26fa, 0x26fa), (0x26fd, 0x26fd), (0x2705, 0x2705), (0x270a, 0x270b), (0x2728, 0x2728),
   (0x274c, 0x274c), (0x274e, 0x274e), (0x2753, 0x2755), (0x2757, 0x2757), (0x2795, 0x2797),
   (0x27b0, 0x27b0), (0x27bf, 0x27bf), (0x2b1b, 0x2b1c), (0x2b50, 0x2b50), (0x2b55, 0x2b55),
   (0x2e80, 0x2e99), (0x2e9b, 0x2ef3), (0x2f00, 0x2fd5), (0x2ff0, 0x2ffb), (0x3000, 0x303e),
   (0x3041, 0x3096), (0x3099, 0x30ff), (0x3105, 0x312f), (0x3131, 0x318e), (0x3190, 0x31e3),
   (0x31f0, 0x321e), (0x3220, 0x3247), (0x3250, 0x4dbf), (0x4e00, 0xa48c), (0xa490, 0xa4c6),
   (0xa960, 0xa97c), (0xac00, 0xd7a3), (0xf900, 0xfaff), (0xfe10, 0xfe19), (0xfe30, 0xfe52),
   (0xfe54, 0xfe66), (0xfe68, 0xfe6b), (0xff01, 0xff60), (0xffe0, 0xffe6), (0x16fe0, 0x16fe4),
   (0x16ff0, 0x16ff1), (0x17000, 0x187f7), (0x18800, 0x18cd5), (0x18d00, 0x18d08),
   (0x1aff0, 0x1aff3), (0x1aff5, 0x1affb), (0x1affd, 0x1affe), (0x1b000, 0x1b122),
   (0x1b132, 0x1b132), (0x1b150, 0x1b152), (0x1b155, 0x1b155), (0x1b164, 0x1b167),
   (0x1b170, 0x1b2fb), (0x1f004, 0x1f004), (0x1f0cf, 0x1f0cf), (0x1f18e, 0x1f18e),
   (0x1f191, 0x1f19a), (0x1f200, 0x1f202), (0x1f210, 0x1f23b), (0x1f240, 0x1f248),
   (0x1f250, 0x1f251), (0x1f260, 0x1f265), (0x1f300, 0x1f320), (0x1f32d, 0x1f335),
   (0x1f337, 0x1f37c), (0x1f37e, 0x1f393), (0x1f3a0, 0x1f3ca), (0x1f3cf, 0x1f3d3),
   (0x1f3e0, 0x1f3f0), (0x1f3f4, 0x1f3f4), (0x1f3f8, 0x1f43e), (0x1f440, 0x1f440),
   (0x1f442, 0x1f4fc), (0x1f4ff, 0x1f53d), (0x1f54b, 0x1f54e), (0x1f550, 0x1f567),
   (0x1f57a, 0x1f57a), (0x1f595, 0x1f596), (0x1f5a4, 0x1f5a4), (0x1f5fb, 0x1f64f),
   (0x1f680, 0x1f6c5), (0x1f6cc, 0x1f6cc), (0x1f6d0, 0x1f6d2), (0x1f6d5, 0x1f6d7),
   (0x1f6dc, 0x1f6df), (0x1f6eb, 0x1f6ec), (0x1f6f4, 0x1f6fc), (0x1f7e0, 0x1f7eb),
   (0x1f7f0, 0x1f7f0), (0x1f90c, 0x1f93a), (0x1f93c, 0x1f945), (0x1f947, 0x1f9ff),
   (0x1fa70, 0x1fa7c), (0x1fa80, 0x1fa88), (0x1fa90, 0x1fabd), (0x1fabf, 0x1fac5),
   (0x1face, 0x1fadb), (0x1fae0, 0x1fae8), (0x1faf0, 0x1faf8), (0x20000, 0x2fffd),
   (0x30000, 0x3fffd)]

/-- The columns of a character of a given class. -/
def charColumns (c : Char) : ClusterClass → Nat
  | .control => 0
  | .carriageReturn => 0
  | .lineFeed => 0
  | .extend => 0
  | .joiner => 0
  | .regional => 2
  | .pictograph => if emojiRanges.holds c.toNat then 2 else 1
  | _ =>
    if c.toNat = 0x2e3a then 3
    else if c.toNat = 0x2e3b then 4
    else if wideRanges.holds c.toNat then 2
    else 1

/-- The columns of a cluster that begins with `c` and goes on with `rest`. The last selector of a
presentation decides about an emoji; flags and Hangul syllables are as wide as their first part. -/
def clusterColumns (c : Char) (rest : List Char) : Nat :=
  let kind := ClusterClass.of c
  let first := charColumns c kind
  match kind with
  | .pictograph =>
    rest.foldl (fun w d => if d.toNat = 0xfe0e then 1 else if d.toNat = 0xfe0f then 2 else w) first
  | .regional => first
  | .leading => first
  | _ => rest.foldl (fun w d => w + charColumns d (ClusterClass.of d)) first

/-! ### Control sequences -/

/-- Where in a control sequence a reader is. -/
inductive ControlState where
  /-- Outside of any sequence. -/
  | ground
  /-- After an escape character. -/
  | escape
  | escapeIntermediate
  | sequenceEntry
  | sequenceParameter
  | sequenceIntermediate
  | deviceEntry
  | deviceParameter
  | deviceIntermediate
  /-- Inside a string for the device. -/
  | deviceText
  /-- Inside a string for the system. -/
  | systemText
  /-- Inside a string that nobody reads. -/
  | idleText
deriving DecidableEq, Repr

namespace ControlState

/-- Is a byte a control that neither begins nor ends a sequence? -/
def isPlainControl (b : UInt8) : Bool := b < 0x18 || b == 0x19 || (0x1c ≤ b && b < 0x20)

/-- The state after a byte that means the same nearly everywhere. -/
def afterCommon (b : UInt8) : ControlState :=
  if b = 0x1b then escape
  else if b = 0x90 then deviceEntry
  else if b = 0x98 || b = 0x9e || b = 0x9f then idleText
  else if b = 0x9b then sequenceEntry
  else if b = 0x9d then systemText
  else ground

/-- The state after an escape character and a byte. -/
def afterEscape (b : UInt8) : ControlState :=
  if b = 0x50 then deviceEntry
  else if b = 0x58 || b = 0x5e || b = 0x5f then idleText
  else if b = 0x5b then sequenceEntry
  else if b = 0x5d then systemText
  else if b < 0x30 then escapeIntermediate
  else ground

/-- The state after a byte. Strings for the device and the system take every byte but those that
end them. -/
def next (state : ControlState) (b : UInt8) : ControlState :=
  match state with
  | systemText =>
    if b = 0x1b then escape
    else if b = 0x07 || b = 0x18 || b = 0x1a || b = 0x9c then ground
    else systemText
  | deviceText =>
    if b = 0x1b then escape
    else if b = 0x18 || b = 0x1a || b = 0x9c then ground
    else deviceText
  | deviceEntry =>
    if b = 0x1b || (0x08 ≤ b && b ≤ 0x0d) || (0x40 ≤ b && b < 0x7f) then deviceText
    else if b = 0x7f || isPlainControl b then deviceEntry
    else if 0x20 ≤ b && b < 0x30 then deviceIntermediate
    else if 0x30 ≤ b && b < 0x40 then deviceParameter
    else afterCommon b
  | ground => afterCommon b
  | idleText => if b = 0x1b || b ≥ 0x80 || b = 0x18 || b = 0x1a then afterCommon b else idleText
  | escape =>
    if b = 0x7f || isPlainControl b then escape
    else if 0x20 ≤ b && b < 0x7f then afterEscape b
    else afterCommon b
  | escapeIntermediate =>
    if b = 0x7f || isPlainControl b || (0x20 ≤ b && b < 0x30) then escapeIntermediate
    else afterCommon b
  | sequenceEntry =>
    if b = 0x7f || isPlainControl b then sequenceEntry
    else if 0x20 ≤ b && b < 0x30 then sequenceIntermediate
    else if 0x30 ≤ b && b < 0x40 then sequenceParameter
    else afterCommon b
  | sequenceParameter =>
    if b = 0x7f || isPlainControl b || (0x30 ≤ b && b < 0x40) then sequenceParameter
    else if 0x20 ≤ b && b < 0x30 then sequenceIntermediate
    else afterCommon b
  | sequenceIntermediate =>
    if b = 0x7f || isPlainControl b || (0x20 ≤ b && b < 0x30) then sequenceIntermediate
    else afterCommon b
  | deviceParameter =>
    if b = 0x7f || isPlainControl b || (0x30 ≤ b && b < 0x40) then deviceParameter
    else if 0x20 ≤ b && b < 0x30 then deviceIntermediate
    else if 0x40 ≤ b && b < 0x7f then deviceText
    else afterCommon b
  | deviceIntermediate =>
    if b = 0x7f || isPlainControl b || (0x20 ≤ b && b < 0x30) then deviceIntermediate
    else if 0x30 ≤ b && b < 0x7f then deviceText
    else afterCommon b

/-- Does the state take the bytes of any character without a look at them? -/
def takesBytes (state : ControlState) : Bool := state == systemText || state == deviceText

end ControlState

/-! ### Texts -/

/-- Does a character begin with a byte that can begin a character of several bytes? -/
def isMultiByte (c : Char) : Bool :=
  match (charBytes c).head? with
  | some b => 0xc2 ≤ b && b ≤ 0xf4
  | none => false

/-- The columns of a text in a state. The next `skipped` characters were measured before, as parts
of a cluster. -/
def columnsFrom (state : ControlState) (skipped : Nat) : List Char → Nat
  | [] => 0
  | c :: rest =>
    if 0 < skipped then columnsFrom state (skipped - 1) rest
    else if isMultiByte c && !state.takesBytes then
      let tail := clusterTail (ClusterState.start (ClusterClass.of c)) rest
      clusterColumns c tail + columnsFrom .ground tail.length rest
    else
      let here := if state == .ground && 0x20 ≤ c.toNat && c.toNat < 0x7f then 1 else 0
      here + columnsFrom ((charBytes c).foldl ControlState.next state) 0 rest

/-- The columns that a text takes on a screen. -/
def columns (s : List Char) : Nat := columnsFrom .ground 0 s

end ClassAudit.Text
