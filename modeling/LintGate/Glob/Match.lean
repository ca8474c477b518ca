import LintGate.Glob.Basic

/-!
Matching names against patterns, byte by byte. For every place in a name a front says whether the
tokens so far can end there; each token moves the front on. A name matches when the last token can
end where the name ends.
-/

namespace LintGate

/-- A pattern that was read. -/
structure Glob where
  tokens : List Glob.Token
  /-- Whether `*` and `?` stop at slashes. -/
  stopsAtSlash : Bool

namespace Glob

/-- A mark for each place in a name: before its first byte, and after every byte. -/
abbrev Front := List Bool

namespace Front

/-- The front before the first token. -/
def start (name : List UInt8) : Front :=
  true :: name.map fun _ => false

/-- The front after one byte with a property; `entering` says whether such a byte leads here. -/
def step (p : UInt8 → Bool) (entering : Bool) : List UInt8 → Front → Front
  | b :: name, here :: front => entering :: step p (here && p b) name front
  | _, _ => [entering]

/-- The front after any number of bytes with a property. -/
def spread (p : UInt8 → Bool) (entering : Bool) : List UInt8 → Front → Front
  | b :: name, here :: front =>
    (entering || here) :: spread p ((entering || here) && p b) name front
  | _, front => [entering || front.headD false]

/-- The places of both fronts. -/
def either (f g : Front) : Front :=
  List.zipWith (· || ·) f g

/-- Whether the end of the name is reached. -/
def atEnd (f : Front) : Bool :=
  f.getLastD false

end Front

/-- Whether a byte is a slash. -/
def isSlash (b : UInt8) : Bool :=
  b == 47

/-- The lowest and highest byte of each range; a character of several bytes stands for each of
them, and a range for the bytes from the last of its lower end to the first of its upper end. -/
def byteRanges (range : Char × Char) : List (UInt8 × UInt8) :=
  let low := String.utf8EncodeChar range.1
  let high := String.utf8EncodeChar range.2
  let single (bytes : List UInt8) := bytes.map fun b => (b, b)
  if range.1 = range.2 then single low
  else
    single low.dropLast ++ [(low.getLastD 0, high.headD 0)] ++ single high.tail

/-- Whether a byte is one that a class stands for. -/
def isOneOf (negated : Bool) (ranges : List (Char × Char)) (b : UInt8) : Bool :=
  ((ranges.flatMap byteRanges).any fun r => r.1 ≤ b && b ≤ r.2) != negated

mutual
/-- Whether a token stands for nothing at all: braces whose branches are all empty. -/
def isVoid : Token → Bool
  | .alternatives branches => areVoid branches
  | _ => false

/-- Whether all tokens stand for nothing at all. -/
def allVoid : List Token → Bool
  | [] => true
  | t :: rest => isVoid t && allVoid rest

/-- Whether all branches stand for nothing at all. -/
def areVoid : List (List Token) → Bool
  | [] => true
  | branch :: rest => allVoid branch && areVoid rest
end

mutual
/-- The front after one token. -/
def afterToken (stops : Bool) (name : List UInt8) : Token → Front → Front
  | .literal c, f =>
    (String.utf8EncodeChar c).foldl (fun f b => Front.step (· == b) false name f) f
  | .any, f => Front.step (fun b => !(stops && isSlash b)) false name f
  | .star, f => Front.spread (fun b => !(stops && isSlash b)) false name f
  | .anyDirectories, f =>
    f.either (Front.step isSlash false name (Front.spread (fun _ => true) false name f))
  | .anyBelow, f => Front.spread (fun _ => true) false name (Front.step isSlash false name f)
  | .anyBetween, f =>
    let g := Front.step isSlash false name f
    g.either (Front.step isSlash false name (Front.spread (fun _ => true) false name g))
  | .oneOf negated ranges, f => Front.step (isOneOf negated ranges) false name f
  | .alternatives branches, f =>
    if areVoid branches then f else afterBranches stops name branches f

/-- The front after all tokens. -/
def afterTokens (stops : Bool) (name : List UInt8) : List Token → Front → Front
  | [], f => f
  | t :: rest, f => afterTokens stops name rest (afterToken stops name t f)

/-- The front after one of the branches; empty branches do not count. -/
def afterBranches (stops : Bool) (name : List UInt8) : List (List Token) → Front → Front
  | [], f => f.map fun _ => false
  | branch :: rest, f =>
    let others := afterBranches stops name rest f
    if allVoid branch then others else (afterTokens stops name branch f).either others
end

/-- Whether the whole name matches. A pattern of two stars alone matches everything. -/
def isMatch (g : Glob) (name : List UInt8) : Bool :=
  match g.tokens with
  | [.anyDirectories] => true
  | tokens => (afterTokens g.stopsAtSlash name tokens (Front.start name)).atEnd

end Glob

end LintGate
