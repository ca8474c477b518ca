import LintGate.Diff.Basic
import LintGate.Diff.Lines

/-!
The shortest edit script between two sequences of lines. `conquer` splits the sequences at the
middle of a shortest path until one of them is empty; `compact` moves deletions and insertions along
equal lines and joins neighbours; `merge` turns the operations into entries.
-/

namespace LintGate.Diff

/-- The sequences that are compared. -/
structure Texts where
  old : Array (List Char)
  new : Array (List Char)

namespace Texts

/-- Whether a line of the old text equals one of the new text. -/
def agree (t : Texts) (i j : Nat) : Bool :=
  match t.old[i]?, t.new[j]? with
  | some a, some b => a == b
  | _, _ => false

/-- How many lines agree from `i` and `j` onwards, `limit` at most. -/
def prefixLength (t : Texts) (i j : Nat) : (limit : Nat) → Nat
  | 0 => 0
  | limit + 1 => if t.agree i j then prefixLength t (i + 1) (j + 1) limit + 1 else 0

/-- How many lines agree before `i` and `j`, `limit` at most. -/
def suffixLength (t : Texts) (i j : Nat) : (limit : Nat) → Nat
  | 0 => 0
  | limit + 1 => if t.agree (i - 1) (j - 1) then suffixLength t (i - 1) (j - 1) limit + 1 else 0

end Texts

/-- Lines that stay, go or come. -/
inductive Tag
  | equal
  | delete
  | insert
  deriving DecidableEq, Repr

/-- `oldLength` lines from `old` on, and `newLength` lines from `new` on. -/
structure Operation where
  tag : Tag
  old : Nat
  oldLength : Nat
  new : Nat
  newLength : Nat
  deriving DecidableEq, Repr

namespace Operation

def equal (old new length : Nat) : Operation := ⟨.equal, old, length, new, length⟩

def delete (old length new : Nat) : Operation := ⟨.delete, old, length, new, 0⟩

def insert (old new length : Nat) : Operation := ⟨.insert, old, 0, new, length⟩

def isEmpty (o : Operation) : Bool := o.oldLength == 0 && o.newLength == 0

/-- The operation `s` lines further down. -/
def moveDown (o : Operation) (s : Nat) : Operation :=
  { o with old := o.old + s, new := o.new + s }

/-- The operation `s` lines further up. -/
def moveUp (o : Operation) (s : Nat) : Operation :=
  { o with old := o.old - s, new := o.new - s }

/-- An equal operation with `s` more lines at its end. -/
def lengthen (o : Operation) (s : Nat) : Operation :=
  { o with oldLength := o.oldLength + s, newLength := o.newLength + s }

/-- An equal operation with `s` lines fewer at its end. -/
def shorten (o : Operation) (s : Nat) : Operation :=
  { o with oldLength := o.oldLength - s, newLength := o.newLength - s }

/-- The operation followed by one of the same tag. -/
def join (a b : Operation) : Operation :=
  { a with oldLength := a.oldLength + b.oldLength, newLength := a.newLength + b.newLength }

end Operation

/-- The part of the texts that is looked at. -/
structure Box where
  old : Span
  new : Span
  deriving DecidableEq, Repr

/-- How far the paths along the diagonals have come; diagonal `k` is kept at `k + middle`. -/
structure Reach where
  middle : Nat
  furthest : Array Nat

namespace Reach

/-- Room for the diagonals from `-limit - 1` to `limit + 1`, none of which has been walked. -/
def start (limit : Nat) : Reach :=
  ⟨limit + 1, Array.replicate (2 * limit + 3) 0⟩

def get (r : Reach) (k : Int) : Nat :=
  r.furthest.getD (k + r.middle).toNat 0

def set (r : Reach) (k : Int) (x : Nat) : Reach :=
  { r with furthest := r.furthest.setIfInBounds (k + r.middle).toNat x }

/-- Where the path of `d` changes on diagonal `k` begins: on the better of its two neighbours. -/
def next (r : Reach) (d : Nat) (k : Int) : Nat :=
  if k = -(d : Int) ∨ (k ≠ d ∧ r.get (k - 1) < r.get (k + 1)) then r.get (k + 1)
  else r.get (k - 1) + 1

end Reach

/-- Walks paths of `d` changes from the start of the box: one on every other diagonal, of which
`count` are left, down to diagonal `-d`. Gives the point where a path meets one that came from the
end. -/
def walkForward (t : Texts) (box : Box) (d : Nat) (backward : Reach) :
    (count : Nat) → Reach → Reach × Option (Nat × Nat)
  | 0, forward => (forward, none)
  | count + 1, forward =>
    let n := box.old.stop - box.old.start
    let m := box.new.stop - box.new.start
    let delta : Int := n - m
    let k : Int := 2 * count - d
    let x := forward.next d k
    let y := (x - k).toNat
    let far :=
      if x < n ∧ y < m then
        x + t.prefixLength (box.old.start + x) (box.new.start + y) (min (n - x) (m - y))
      else x
    let forward := forward.set k far
    if delta % 2 ≠ 0 ∧ (k - delta).natAbs + 1 ≤ d ∧ n ≤ far + backward.get (delta - k) then
      (forward, some (box.old.start + x, box.new.start + y))
    else walkForward t box d backward count forward

/-- Walks from the end of the box in the same way. -/
def walkBackward (t : Texts) (box : Box) (d : Nat) (forward : Reach) :
    (count : Nat) → Reach → Reach × Option (Nat × Nat)
  | 0, backward => (backward, none)
  | count + 1, backward =>
    let n := box.old.stop - box.old.start
    let m := box.new.stop - box.new.start
    let delta : Int := n - m
    let k : Int := 2 * count - d
    let x := backward.next d k
    let y := (x - k).toNat
    let s :=
      if x < n ∧ y < m then
        t.suffixLength (box.old.stop - x) (box.new.stop - y) (min (n - x) (m - y))
      else 0
    let backward := backward.set k (x + s)
    if delta % 2 = 0 ∧ (k - delta).natAbs ≤ d ∧ n ≤ x + s + forward.get (delta - k) then
      (backward, some (box.old.stop - (x + s), box.new.stop - (y + s)))
    else walkBackward t box d forward count backward

/-- The point where paths of `d`, `d + 1`, … changes from both ends meet. -/
def meetFrom (t : Texts) (box : Box) : (rounds d : Nat) → (forward backward : Reach) →
    Option (Nat × Nat)
  | 0, _, _, _ => none
  | rounds + 1, d, forward, backward =>
    match walkForward t box d backward (d + 1) forward with
    | (_, some point) => some point
    | (forward, none) =>
      match walkBackward t box d forward (d + 1) backward with
      | (_, some point) => some point
      | (backward, none) => meetFrom t box rounds (d + 1) forward backward

/-- A point in the middle of a shortest path through the box. -/
def meet? (t : Texts) (box : Box) : Option (Nat × Nat) :=
  let limit := (box.old.stop - box.old.start + (box.new.stop - box.new.start) + 1) / 2
  meetFrom t box (limit + 1) 0 (.start limit) (.start limit)

/-- The operations that lead through the box: what agrees at either end, and between them a
deletion, an insertion, or two smaller boxes. -/
def conquer (t : Texts) : (fuel : Nat) → Box → List Operation
  | 0, _ => []
  | fuel + 1, box =>
    let n := box.old.stop - box.old.start
    let m := box.new.stop - box.new.start
    let p := t.prefixLength box.old.start box.new.start (min n m)
    let s := t.suffixLength box.old.stop box.new.stop (min (n - p) (m - p))
    let inner : Box :=
      ⟨⟨box.old.start + p, box.old.stop - s⟩, ⟨box.new.start + p, box.new.stop - s⟩⟩
    let deleted := Operation.delete inner.old.start (n - p - s) inner.new.start
    let inserted := Operation.insert inner.old.start inner.new.start (m - p - s)
    let between :=
      if m - p - s = 0 then if n - p - s = 0 then [] else [deleted]
      else if n - p - s = 0 then [inserted]
      else
        match meet? t inner with
        | none => [deleted, inserted]
        | some (x, y) =>
          conquer t fuel ⟨⟨inner.old.start, x⟩, ⟨inner.new.start, y⟩⟩ ++
            conquer t fuel ⟨⟨x, inner.old.stop⟩, ⟨y, inner.new.stop⟩⟩
    (if p = 0 then [] else [Operation.equal box.old.start box.new.start p]) ++ between ++
      (if s = 0 then [] else [Operation.equal inner.old.stop inner.new.stop s])

/-- A place in a list of operations: what stands before it, the nearest first, the operation there,
and what follows. -/
structure Place where
  before : List Operation
  here : Operation
  after : List Operation

/-- The place with an equal operation of `s` lines after it, joined to one that stands there. -/
def Place.followedBy (p : Place) (old new s : Nat) : List Operation :=
  match p.after with
  | q :: rest => if q.tag = .equal then (q.moveUp s).lengthen s :: rest
    else .equal old new s :: p.after
  | [] => [.equal old new s]

/-- The place with an equal operation of `s` lines before it, joined to one that stands there. -/
def Place.precededBy (p : Place) (old new s : Nat) : List Operation :=
  match p.before with
  | q :: rest => if q.tag = .equal then q.lengthen s :: rest else .equal old new s :: p.before
  | [] => [.equal old new s]

/-- Moves a deletion or insertion up along equal lines, past operations of the other kind, and joins
it to one of its own kind. -/
def Place.up (t : Texts) : (fuel : Nat) → Place → Place
  | 0, p => p
  | fuel + 1, p =>
    match p.before with
    | [] => p
    | q :: rest =>
      if q.tag = .equal then
        let s := t.suffixLength (q.old + q.oldLength) (p.here.new + p.here.newLength)
          (min q.oldLength p.here.newLength)
        if 0 < s then
          let shorter := q.shorten s
          let after := p.followedBy (q.old + q.oldLength - s) (p.here.new + p.here.newLength - s) s
          up t fuel ⟨if shorter.isEmpty then rest else shorter :: rest, p.here.moveUp s, after⟩
        else if q.isEmpty then up t fuel { p with before := rest }
        else p
      else if q.tag = p.here.tag then up t fuel { p with before := rest, here := q.join p.here }
      else up t fuel { p with before := rest, after := q :: p.after }

/-- Moves a deletion or insertion down in the same way. -/
def Place.down (t : Texts) : (fuel : Nat) → Place → Place
  | 0, p => p
  | fuel + 1, p =>
    match p.after with
    | [] => p
    | q :: rest =>
      if q.tag = .equal then
        let s := t.prefixLength q.old p.here.new (min q.oldLength p.here.newLength)
        if 0 < s then
          let shorter := (q.moveDown s).shorten s
          let before := p.precededBy q.old p.here.new s
          down t fuel ⟨before, p.here.moveDown s, if shorter.isEmpty then rest else shorter :: rest⟩
        else if q.isEmpty then down t fuel { p with after := rest }
        else p
      else if q.tag = p.here.tag then down t fuel { p with here := p.here.join q, after := rest }
      else down t fuel { p with before := q :: p.before, after := rest }

/-- Moves each operation with this tag up and down, one after another. -/
def shiftFrom (t : Texts) (tag : Tag) (room : Nat) :
    (fuel : Nat) → (before after : List Operation) → List Operation
  | 0, before, after => before.reverse ++ after
  | _, before, [] => before.reverse
  | fuel + 1, before, o :: rest =>
    if o.tag = tag then
      let p := ((Place.mk before o rest).up t room).down t room
      shiftFrom t tag room fuel (p.here :: p.before) p.after
    else shiftFrom t tag room fuel (o :: before) rest

/-- Moves the deletions, and then the insertions. -/
def compact (t : Texts) (operations : List Operation) : List Operation :=
  let room := 2 * (operations.length + t.old.size + t.new.size) + 2
  let shift (tag : Tag) (ops : List Operation) := shiftFrom t tag room (room * room) [] ops
  shift .insert (shift .delete operations)

/-- The entry for deleted and inserted lines without equal ones between them. -/
def changeEntry : (deleted inserted : Option Operation) → List EditEntry
  | none, none => []
  | some d, none => [⟨⟨d.old, d.old + d.oldLength⟩, ⟨d.new, d.new⟩, .delete⟩]
  | none, some i => [⟨⟨i.old, i.old⟩, ⟨i.new, i.new + i.newLength⟩, .insert⟩]
  | some d, some i =>
    [⟨⟨d.old, d.old + d.oldLength⟩, ⟨i.new, i.new + i.newLength⟩, .replace⟩]

/-- The entry for equal lines. -/
def equalEntry : Option Operation → List EditEntry
  | none => []
  | some e => [⟨⟨e.old, e.old + e.oldLength⟩, ⟨e.new, e.new + e.newLength⟩, .equal⟩]

/-- The operation with another of its kind at its end. -/
def joinTo (found : Option Operation) (o : Operation) : Option Operation :=
  some (match found with
    | some f => f.join o
    | none => o)

/-- Joins operations of one kind; what has been joined so far is still to be written. -/
def mergeFrom (same deleted inserted : Option Operation) : List Operation → List EditEntry
  | [] => changeEntry deleted inserted ++ equalEntry same
  | o :: rest =>
    match o.tag with
    | .equal => changeEntry deleted inserted ++ mergeFrom (joinTo same o) none none rest
    | .delete => equalEntry same ++ mergeFrom none (joinTo deleted o) inserted rest
    | .insert => equalEntry same ++ mergeFrom none deleted (joinTo inserted o) rest

/-- The entries of a list of operations. -/
def merge (operations : List Operation) : List EditEntry :=
  mergeFrom none none none operations

/-- The edit script between two sequences of lines. -/
def ofLines (old new : List (List Char)) : EditScript :=
  let t : Texts := ⟨old.toArray, new.toArray⟩
  let box : Box := ⟨⟨0, t.old.size⟩, ⟨0, t.new.size⟩⟩
  ⟨merge (compact t (conquer t (t.old.size + t.new.size + 1) box))⟩

end LintGate.Diff

namespace LintGate.EditScript

/-- The edit script from a reference to a text. Line ends and a missing last one do not count. -/
def between (reference current : String) : EditScript :=
  Diff.ofLines (Diff.lines (Diff.normalize reference)) (Diff.lines (Diff.normalize current))

end LintGate.EditScript
