import ClassAudit.Binary
import ClassAudit.Text.Utf8
import ClassAudit.Yaml.Cursor

/-!
# The characters of a YAML text

A text is written in UTF-8, or in UTF-16 if it begins with a byte order mark that says so. It is
read in parts of 512 bytes; a character that a part cuts belongs to the next one. A part with a
character that no text may hold, or with bytes that are no character, cannot be read at all.

## Main definitions

* `Yaml.Encoding` - an encoding; `Yaml.Encoding.leading` - the character that bytes begin with.
* `Yaml.Source` - the characters of a text, with its parts; `Yaml.Source.ofBytes` - those of a byte
  string.
* `Yaml.Cursor.ofBytes` - the beginning of a byte string.
-/

namespace ClassAudit.Yaml

/-- How the characters of a text are written. -/
inductive Encoding where
  | utf8
  /-- Pairs of bytes, the higher one first or last. -/
  | utf16 (highFirst : Bool)
deriving DecidableEq, Repr

/-- What a byte string begins with. -/
inductive Leading where
  | char (value width : Nat)
  /-- A character that more bytes may complete, and what is told if none follow. -/
  | cut (problem : String)
  | invalid (problem : String)
deriving DecidableEq, Repr

/-- The number of bytes of the character that a byte begins; 0 if it begins none. -/
def octetWidth (b : UInt8) : Nat :=
  if b < 0x80 then 1
  else if 0xc0 ≤ b && b < 0xe0 then 2
  else if 0xe0 ≤ b && b < 0xf0 then 3
  else if 0xf0 ≤ b && b < 0xf8 then 4
  else 0

/-- The least code point that needs a number of bytes. -/
def leastOfWidth (width : Nat) : Nat :=
  if width ≤ 1 then 0 else if width == 2 then 0x80 else if width == 3 then 0x800 else 0x10000

/-- Is the number a code point of a character? -/
def isScalarValue (n : Nat) : Bool := n < 0xd800 || (0xdfff < n && n ≤ 0x10ffff)

/-- What a byte string in UTF-8 begins with. -/
def leadingUtf8 : List UInt8 → Leading
  | [] => .cut "incomplete UTF-8 octet sequence"
  | first :: rest =>
    let width := octetWidth first
    let tail := rest.take (width - 1)
    if width == 0 then .invalid "invalid leading UTF-8 octet"
    else if tail.length + 1 < width then .cut "incomplete UTF-8 octet sequence"
    else if !tail.all Text.isTail then .invalid "invalid trailing UTF-8 octet"
    else
      let bits := if width == 1 then first.toNat else first.toNat % Binary.span (7 - width)
      let value := tail.foldl (fun n b => 64 * n + Text.tailBits b) bits
      if value < leastOfWidth width then .invalid "invalid length of a UTF-8 sequence"
      else if !isScalarValue value then .invalid "invalid Unicode character"
      else .char value width

/-- The number that two bytes write. -/
def pairValue (highFirst : Bool) (a b : UInt8) : Nat :=
  if highFirst then 256 * a.toNat + b.toNat else 256 * b.toNat + a.toNat

/-- What a byte string in UTF-16 begins with. -/
def leadingUtf16 (highFirst : Bool) : List UInt8 → Leading
  | a :: b :: rest =>
    let high := pairValue highFirst a b
    if high / 0x400 == 0x37 then .invalid "unexpected low surrogate area"
    else if high / 0x400 == 0x36 then
      match rest with
      | c :: d :: _ =>
        let low := pairValue highFirst c d
        if low / 0x400 != 0x37 then .invalid "expected low surrogate area"
        else .char (0x10000 + (high % 0x400) * 0x400 + low % 0x400) 4
      | _ => .cut "incomplete UTF-16 surrogate pair"
    else .char high 2
  | _ => .cut "incomplete UTF-16 character"

/-- What a byte string begins with. -/
def Encoding.leading : Encoding → List UInt8 → Leading
  | utf8, bytes => leadingUtf8 bytes
  | utf16 highFirst, bytes => leadingUtf16 highFirst bytes

/-- The encoding that the mark at the beginning of a text tells, and what follows the mark. -/
def Encoding.detect : List UInt8 → Encoding × List UInt8
  | 0xff :: 0xfe :: rest => (utf16 false, rest)
  | 0xfe :: 0xff :: rest => (utf16 true, rest)
  | 0xef :: 0xbb :: 0xbf :: rest => (utf8, rest)
  | bytes => (utf8, bytes)

/-- Is the number the code point of a character that a text may hold? -/
def isAllowed (n : Nat) : Bool :=
  n == 0x09 || n == 0x0a || n == 0x0d || (0x20 ≤ n && n ≤ 0x7e) || n == 0x85 ||
    (0xa0 ≤ n && n ≤ 0xfffd) || 0x10000 ≤ n

/-- The characters of a part in reverse order, and the bytes of a character that it cuts. -/
def readPart (e : Encoding) :
    Nat → List UInt8 → List Char → Except Fault (List Char × List UInt8)
  | 0, bytes, chars => .ok (chars, bytes)
  | fuel + 1, bytes, chars =>
    if bytes.isEmpty then .ok (chars, [])
    else
      match e.leading bytes with
      | .cut _ => .ok (chars, bytes)
      | .invalid problem => .error { problem }
      | .char value width =>
        if isAllowed value then
          readPart e fuel (bytes.drop width) (Char.ofNat value :: chars)
        else .error { problem := "control characters are not allowed" }

/-- The characters of a text. -/
structure Source where
  chars : List Char
  /-- The numbers of characters of its parts. -/
  parts : List Nat
  /-- Why nothing can be read behind those parts, unless the text ends there. -/
  ending : Option Fault
deriving Repr

namespace Source

/-- The number of bytes of a part. -/
def partLength : Nat := 512

/-- Reads part after part, each of which begins with the character that the one before it cut. The
characters and the lengths that came before are in reverse order. -/
def readParts (e : Encoding) :
    Nat → Nat → List UInt8 → List UInt8 → List Char → List Nat → Source
  | 0, _, _, _, chars, parts => { chars := chars.reverse, parts := parts.reverse, ending := none }
  | fuel + 1, room, cut, bytes, chars, parts =>
    let stop (ending : Option Fault) : Source :=
      { chars := chars.reverse, parts := parts.reverse, ending }
    if bytes.isEmpty then
      match cut, e.leading cut with
      | _ :: _, .cut problem => stop (some { problem })
      | _, _ => stop none
    else
      let window := cut ++ bytes.take (room - cut.length)
      match readPart e window.length window [] with
      | .error fault => stop (some fault)
      | .ok (read, cut') =>
        readParts e fuel partLength cut' (bytes.drop (room - cut.length)) (read ++ chars)
          (read.length :: parts)

/-- The characters of a byte string. A byte order mark counts to the first part. -/
def ofBytes (bytes : List UInt8) : Source :=
  let (e, rest) := Encoding.detect bytes
  readParts e (bytes.length + 1) (partLength - (bytes.length - rest.length)) [] rest [] []

end Source

/-- The beginning of a byte string. -/
def Cursor.ofBytes (bytes : List UInt8) : Cursor :=
  let source := Source.ofBytes bytes
  { rest := source.chars, size := source.chars.length + 1, parts := source.parts
    ending := source.ending }

end ClassAudit.Yaml
