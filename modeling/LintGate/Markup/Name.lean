/-!
The characters of XML documents and names, and names with a namespace prefix.
-/

namespace LintGate.Markup

/-- White space between the parts of a tag. -/
def isSpace (c : Char) : Bool :=
  c == ' ' || c == '\t' || c == '\n' || c == '\r'

/-- Characters that may stand in a document. -/
def isAllowed (c : Char) : Bool :=
  let n := c.toNat
  (0x20 ≤ n || n == 0x9 || n == 0xA || n == 0xD) && n != 0xFFFE && n != 0xFFFF

/-- Characters with which a name may start; the colon is one. -/
def isNameStart (c : Char) : Bool :=
  let n := c.toNat
  c.isAlpha || c == ':' || c == '_' || (0xC0 ≤ n && n ≤ 0xD6) || (0xD8 ≤ n && n ≤ 0xF6) ||
    (0xF8 ≤ n && n ≤ 0x2FF) || (0x370 ≤ n && n ≤ 0x37D) || (0x37F ≤ n && n ≤ 0x1FFF) ||
    (0x200C ≤ n && n ≤ 0x200D) || (0x2070 ≤ n && n ≤ 0x218F) || (0x2C00 ≤ n && n ≤ 0x2FEF) ||
    (0x3001 ≤ n && n ≤ 0xD7FF) || (0xF900 ≤ n && n ≤ 0xFDCF) || (0xFDF0 ≤ n && n ≤ 0xFFFD) ||
    (0x10000 ≤ n && n ≤ 0xEFFFF)

/-- Characters of which a name may consist. -/
def isNameChar (c : Char) : Bool :=
  let n := c.toNat
  isNameStart c || c == '-' || c == '.' || c.isDigit || n == 0xB7 || (0x300 ≤ n && n ≤ 0x36F) ||
    (0x203F ≤ n && n ≤ 0x2040)

/-- A name with its prefix, which is empty when there is none. -/
structure QName where
  space : List Char
  label : List Char
  deriving DecidableEq, Repr

/-- Whether the text is empty or starts as a name does. -/
def startsAsName (cs : List Char) : Bool :=
  cs.head?.all isNameStart

/-- The name with at most one colon at the start of the text. -/
def qname? (cs : List Char) : Option (QName × List Char) :=
  let rest := cs.dropWhile isNameChar
  match (cs.takeWhile isNameChar).splitOn ':' with
  | [label] => if !label.isEmpty && startsAsName label then some (⟨[], label⟩, rest) else none
  | [space, label] =>
    if startsAsName space && !label.isEmpty && startsAsName label then some (⟨space, label⟩, rest)
    else none
  | _ => none

/-- The name at the start of the text, in which colons have no meaning. -/
def name? (cs : List Char) : Option (List Char × List Char) :=
  match cs with
  | c :: _ =>
    if isNameStart c then some (cs.takeWhile isNameChar, cs.dropWhile isNameChar) else none
  | [] => none

end LintGate.Markup
