/-!
Blank characters and what depends on them: trimming, splitting into words, collapsing runs of
blanks. A character is blank when it has the Unicode property White_Space.
-/

namespace LintGate.Text

/-- The Unicode property White_Space: 25 code points, the zero-width space not among them. -/
def isBlank (c : Char) : Bool :=
  let n := c.toNat
  (0x9 ≤ n && n ≤ 0xD) || n == 0x20 || n == 0x85 || n == 0xA0 || n == 0x1680 ||
    (0x2000 ≤ n && n ≤ 0x200A) || n == 0x2028 || n == 0x2029 || n == 0x202F ||
    n == 0x205F || n == 0x3000

/-- The text without its leading blanks. -/
def trimStart (cs : List Char) : List Char :=
  cs.dropWhile isBlank

/-- The text without its trailing blanks. -/
def trimEnd (cs : List Char) : List Char :=
  (cs.reverse.dropWhile isBlank).reverse

/-- The text without blanks at either end. -/
def trim (cs : List Char) : List Char :=
  trimEnd (trimStart cs)

/-- A text of blanks only; the empty text is one. -/
def isBlankText (cs : List Char) : Bool :=
  cs.all isBlank

/-- The maximal runs of characters that are not blank, in order. -/
def words : List Char → List (List Char)
  | [] => []
  | c :: rest =>
    if isBlank c then words rest
    else
      match rest, words rest with
      | [], _ => [[c]]
      | d :: _, found =>
        if isBlank d then [c] :: found
        else
          match found with
          | [] => [[c]]
          | word :: others => (c :: word) :: others

/-- Every run of blanks becomes one space, and the ends are trimmed. -/
def collapse (cs : List Char) : List Char :=
  [' '].intercalate (words cs)

/-- A string without blanks at either end. -/
def trimmed (s : String) : String :=
  String.ofList (trim s.toList)

/-- Letters `A` to `Z` become small ones; nothing else changes. -/
def lower (s : String) : String :=
  String.ofList (s.toList.map Char.toLower)

/-- Letters `a` to `z` become capitals; nothing else changes. -/
def upper (s : String) : String :=
  String.ofList (s.toList.map Char.toUpper)

end LintGate.Text
