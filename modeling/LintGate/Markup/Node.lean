import LintGate.Markup.Token

/-!
The element tree of an XML document. `Node.ofDocument?` is the root element of a well-formed
document: tags nest, every prefix is declared where it is used, and no element has two attributes of
one name.
-/

namespace LintGate.Markup

/-- An attribute with its value; `space` is the namespace its prefix stands for. -/
structure Attribute where
  space : Option String
  label : String
  value : String
  deriving DecidableEq, Repr

inductive Node
  | element (label : String) (attributes : List Attribute) (children : List Node)
  | text (content : List Char)
  /-- A comment or a processing instruction. -/
  | aside

namespace Node

/-- The characters of an attribute value: white space that is not referred to becomes spaces, the
two characters of a line end one space. -/
def valueOf : List Piece → List Char
  | [] => []
  | .reference c :: rest => c :: valueOf rest
  | .plain '\r' :: .plain '\n' :: rest => ' ' :: valueOf rest
  | .plain c :: rest => (if isSpace c then ' ' else c) :: valueOf rest

/-- The characters of a text. A carriage return ends a line, alone or with the line feed after it,
when a character that is not referred to follows, or when it is the last one and stands there
itself. `held` says that a carriage return has just been read. -/
def textFrom (held : Bool) : List Piece → List Char
  | [] => if held then ['\r'] else []
  | .reference c :: rest =>
    let before := if held then ['\r'] else []
    if c = '\r' then before ++ textFrom true rest else before ++ c :: textFrom false rest
  | .plain c :: rest =>
    let before := if held then ['\n'] else []
    if c = '\r' then
      if rest.isEmpty then before ++ ['\n'] else before ++ textFrom true rest
    else if held && c = '\n' then before ++ textFrom false rest
    else before ++ c :: textFrom false rest

/-- The pieces of a text, a character right after a reference counting as referred to as well. -/
def sheltered : List Piece → List Piece
  | [] => []
  | .reference c :: .plain d :: rest => .reference c :: .reference d :: sheltered rest
  | p :: rest => p :: sheltered rest

/-- The characters of a text from its start. -/
def textOf (pieces : List Piece) : List Char :=
  textFrom false (sheltered pieces)

/-- The prefixes in force, the innermost declaration of each first, with their namespaces. -/
abbrev Scope := List (List Char × List Char)

/-- The namespace of the prefix `xml`. -/
def xmlSpace : List Char := "http://www.w3.org/XML/1998/namespace".toList

/-- The namespace of the prefix `xmlns`. -/
def xmlnsSpace : List Char := "http://www.w3.org/2000/xmlns/".toList

/-- The declarations of one tag, in front of those in force around it. The two reserved namespaces
are declared for no other prefix, and no prefix twice. -/
def declarations? : List WrittenAttribute → Option Scope
  | [] => some []
  | a :: rest => do
    let declared ← declarations? rest
    let value := valueOf a.value
    if a.name.space = "xmlns".toList then
      if value = xmlnsSpace then none
      else if a.name.label = "xml".toList then
        if value = xmlSpace then some declared else none
      else if value = xmlSpace || declared.any (·.1 == a.name.label) then none
      else some ((a.name.label, value) :: declared)
    else if a.name.label = "xmlns".toList then
      if value = xmlSpace || value = xmlnsSpace then none else some declared
    else some declared

/-- Whether an attribute declares a namespace. -/
def declares (a : WrittenAttribute) : Bool :=
  a.name.space == "xmlns".toList || a.name.label == "xmlns".toList

/-- The attribute with its prefix resolved, if that is declared. -/
def resolve? (scope : Scope) (a : WrittenAttribute) : Option Attribute :=
  let named (space : Option (List Char)) : Attribute :=
    ⟨space.map String.ofList, String.ofList a.name.label, String.ofList (valueOf a.value)⟩
  if a.name.space.isEmpty then some (named none)
  else if a.name.space = "xml".toList then some (named (some xmlSpace))
  else (scope.find? (·.1 == a.name.space)).map fun entry => named (some entry.2)

/-- No two of the attributes have one namespace and one name. -/
def distinct : List Attribute → Bool
  | [] => true
  | a :: rest => rest.all (fun b => !(a.space == b.space && a.label == b.label)) && distinct rest

/-- The scope inside a tag and its attributes. -/
def enter? (scope : Scope) (name : QName) (written : List WrittenAttribute) :
    Option (Scope × List Attribute) := do
  let declared ← declarations? written
  let scope := declared ++ scope
  let attributes ← (written.filter (!declares ·)).mapM (resolve? scope)
  if distinct attributes && (name.space.isEmpty || scope.any (·.1 == name.space)) &&
      name.space != "xmlns".toList then
    some (scope, attributes)
  else none

/-- An element whose closing tag is still to come; its children so far, the last one first. -/
structure Pending where
  name : QName
  attributes : List Attribute
  scope : Scope
  children : List Node

/-- The children with one more; text joins the text before it. -/
def push (child : Node) (children : List Node) : List Node :=
  match child, children with
  | .text t, .text s :: rest => .text (s ++ t) :: rest
  | child, children => child :: children

/-- A document as far as it has been read. -/
structure Draft where
  root : Option Node
  /-- The elements that are open, the innermost one first. -/
  pending : List Pending

/-- The draft with one more complete node: a child of the innermost element, or the root. -/
def Draft.add? (d : Draft) (n : Node) : Option Draft :=
  match d.pending, n with
  | p :: outer, n => some { d with pending := { p with children := push n p.children } :: outer }
  | [], .aside => some d
  | [], .text _ => none
  | [], n => if d.root.isSome then none else some { d with root := some n }

/-- The draft after one more token. -/
def Draft.step? (d : Draft) : Token → Option Draft
  | .opening name written selfClosing => do
    let scope := match d.pending with
      | p :: _ => p.scope
      | [] => []
    let (scope, attributes) ← enter? scope name written
    if selfClosing then d.add? (.element (String.ofList name.label) attributes [])
    else if d.pending.isEmpty && d.root.isSome then none
    else some { d with pending := ⟨name, attributes, scope, []⟩ :: d.pending }
  | .closing name =>
    match d.pending with
    | p :: outer =>
      if p.name = name then
        Draft.add? { d with pending := outer }
          (.element (String.ofList name.label) p.attributes p.children.reverse)
      else none
    | [] => none
  | .text pieces =>
    if d.pending.isEmpty then
      if pieces.all fun p => match p with
        | .plain c => isSpace c
        | .reference _ => false
      then some d
      else none
    else d.add? (.text (textOf pieces))
  | .verbatim chars => d.add? (.text (textOf (chars.map .plain)))
  | .aside => d.add? .aside

/-- The root element the tokens make up, all of its elements closed. -/
def ofTokens? (tokens : List Token) : Option Node := do
  let draft ← tokens.foldlM Draft.step? ⟨none, []⟩
  if draft.pending.isEmpty then draft.root else none

/-- The root element of a well-formed document. -/
def ofDocument? (text : String) : Option Node :=
  (Token.ofDocument? text.toList).bind ofTokens?

/-- Whether the node is an element with this name, in whatever namespace. -/
def isNamed (name : String) : Node → Bool
  | .element label _ _ => label == name
  | _ => false

def children : Node → List Node
  | .element _ _ children => children
  | _ => []

/-- The value of the attribute with this name and without a prefix. -/
def attribute? (name : String) : Node → Option String
  | .element _ attributes _ =>
    (attributes.find? fun a => a.space.isNone && a.label == name).map (·.value)
  | _ => none

/-- The text with which the content of an element starts, empty if it starts with something else. -/
def content : Node → List Char
  | .element _ _ (.text t :: _) => t
  | _ => []

/-- The first child with this name. -/
def child? (name : String) (n : Node) : Option Node :=
  n.children.find? (isNamed name)

/-- The children with this name, in order. -/
def childrenNamed (name : String) (n : Node) : List Node :=
  n.children.filter (isNamed name)

/-- The text of the first child with this name, empty if there is none. -/
def childContent (name : String) (n : Node) : List Char :=
  match n.child? name with
  | some c => c.content
  | none => []

mutual
/-- The node and everything below it, an element before its children. -/
def descendants : Node → List Node
  | .element label attributes children =>
    .element label attributes children :: descendantsOfAll children
  | n => [n]

def descendantsOfAll : List Node → List Node
  | [] => []
  | n :: rest => n.descendants ++ descendantsOfAll rest
end

/-- The elements with this name, in document order. -/
def elementsNamed (name : String) (n : Node) : List Node :=
  n.descendants.filter (isNamed name)

end Node

end LintGate.Markup
