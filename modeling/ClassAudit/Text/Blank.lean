import ClassAudit.Text.Basic

/-!
# Blank characters and words

Blanks are the characters with Unicode's White_Space property. Texts are trimmed and split into
words at blanks.

## Main definitions

* `isBlank` - the blank characters; `isAsciiBlank` - the five that patterns know.
* `words` - the words of a text; `trim` - a text without its outer blanks.
-/

namespace ClassAudit.Text

/-- A character with the White_Space property. -/
def isBlank (c : Char) : Bool :=
  let n := c.toNat
  (9 ≤ n && n ≤ 13) || n == 0x20 || n == 0x85 || n == 0xa0 || n == 0x1680 ||
    (0x2000 ≤ n && n ≤ 0x200a) || n == 0x2028 || n == 0x2029 || n == 0x202f || n == 0x205f ||
    n == 0x3000

/-- A blank of a pattern: tab, line feed, form feed, carriage return or space. -/
def isAsciiBlank (c : Char) : Bool :=
  c == '\t' || c == '\n' || c == '\x0c' || c == '\r' || c == ' '

/-- The maximal runs of characters that are not blank. -/
def words (s : List Char) : List (List Char) :=
  (splitWhere isBlank s).filter (!·.isEmpty)

/-- A text without its outer blanks. -/
def trim (s : String) : String := String.ofList (trimEnds isBlank s.toList)

end ClassAudit.Text
