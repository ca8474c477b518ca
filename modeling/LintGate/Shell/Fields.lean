import LintGate.Shell.Pattern

/-!
Fields: an expanded word is cut at separators where it came from parameters, and only there.
-/

namespace LintGate.Shell

/-- One step of an expanded word. -/
inductive Glyph
  /-- An octet that no separator can be, and whether it is quoted. -/
  | solid (c : Char) (quoted : Bool)
  /-- An octet that may be a separator. The null character always is one. -/
  | loose (c : Char)
  /-- Here begin octets from a parameter. In those of quoted arguments, only null characters
  separate. -/
  | edge (arguments : Bool)
  /-- Here were quotes: there is a field, even if nothing is in it. -/
  | mark
  deriving DecidableEq, Repr

namespace Glyph

/-- Glyphs of a text that is not cut. -/
def ofText (quoted : Bool) (cs : List Char) : List Glyph :=
  cs.map fun c => solid c quoted

/-- Glyphs of a text from a parameter. -/
def ofValue (quoted : Bool) (cs : List Char) : List Glyph :=
  if quoted then ofText true cs else edge false :: cs.map loose

/-- The octets of glyphs. -/
def marked (gs : List Glyph) : Marked :=
  gs.filterMap fun
    | solid c quoted => some (c, quoted)
    | loose c => some (c, false)
    | _ => none

end Glyph

/-- How far glyphs have been cut. -/
structure Cutter where
  /-- What separates fields; none where blanks do. -/
  separators : List Char
  /-- How many more fields may be begun; no limit where there is none. -/
  room : Option Nat := none
  /-- The fields that are complete, the last first. -/
  complete : List (List Glyph) := []
  /-- The glyphs of the field that is not, the last first. -/
  current : List Glyph := []
  /-- Blanks have ended a field, and more separators would add to them. -/
  afterBlank : Bool := false
  inArguments : Bool := false
  afterArguments : Bool := false
  /-- How much of the last field is to stay, unless more comes. -/
  keep : Option Nat := none

namespace Cutter

/-- A separator that counts as none at the start, and of which many count as one. -/
def isBlank (c : Char) : Bool :=
  c == ' ' || c == '\t' || c == '\n' || c == '\x00'

/-- The cutter after a glyph that belongs to the field. -/
def keepGlyph (k : Cutter) (g : Glyph) : Cutter :=
  { k with current := g :: k.current }

/-- The cutter after an octet that may be a separator. -/
def loose (k : Cutter) (c : Char) : Cutter :=
  let separates := c == '\x00' || (!k.inArguments && k.separators.contains c)
  let blank := separates && isBlank c
  let kept := k.keepGlyph (.loose c)
  if k.room == some 0 then
    if blank then { kept with keep := k.keep <|> some k.current.length }
    else if separates && k.afterBlank then { kept with afterBlank := false }
    else { kept with keep := none, afterBlank := false }
  else if k.afterBlank then
    if blank then k
    else if separates then { k with afterBlank := false }
    else { kept with afterBlank := false }
  else if separates then
    let joins := blank && !(k.afterArguments || k.inArguments)
    if k.current.isEmpty && joins then k
    else if k.room == some 1 then
      { kept with room := some 0, keep := some k.current.length, afterBlank := joins }
    else
      { k with
        complete := k.current.reverse :: k.complete
        current := []
        afterBlank := joins
        room := k.room.map (· - 1) }
  else kept

/-- The cutter after one glyph. -/
def step (k : Cutter) : Glyph → Cutter
  | .loose c => k.loose c
  | .edge arguments =>
    { k with afterBlank := false, afterArguments := k.inArguments, inArguments := arguments }
  | g => k.keepGlyph g

/-- The fields. -/
def fields (k : Cutter) : List (List Glyph) :=
  let last := match k.keep with
    | some count => k.current.reverse.take count
    | none => k.current.reverse
  if k.current.isEmpty && !k.inArguments then k.complete.reverse else (last :: k.complete).reverse

end Cutter

/-- The fields of an expanded word. -/
def fieldsOf (separators : List Char) (gs : List Glyph) : List (List Glyph) :=
  (gs.foldl Cutter.step { separators := separators }).fields

end LintGate.Shell
