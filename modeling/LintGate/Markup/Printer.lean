import LintGate.Markup.Node

/-!
Element trees as they are printed. What may not stand for itself is referred to, and nothing is
added to a tree: between two elements there is only the text the tree has there.
-/

namespace LintGate.Markup

/-- How a character is referred to. -/
inductive ReferenceForm
  | named
  | decimal
  | hexadecimal

/-- What stands between `&` and `;`. A character without a name is referred to by its code. -/
def ReferenceForm.body (form : ReferenceForm) (c : Char) : List Char :=
  match form with
  | .named =>
    if c = '<' then "lt".toList
    else if c = '>' then "gt".toList
    else if c = '&' then "amp".toList
    else if c = '"' then "quot".toList
    else '#' :: Text.digits c.toNat
  | .decimal => '#' :: Text.digits c.toNat
  | .hexadecimal => '#' :: 'x' :: Nat.toDigits 16 c.toNat

/-- The form in which each character is referred to. -/
abbrev Style := Char → ReferenceForm

/-- The characters that are referred to in a value. -/
def isMarkedInValue (c : Char) : Bool :=
  ['&', '<', '>', '"', '\t', '\n', '\r'].contains c

/-- The characters that are referred to in a text. -/
def isMarkedInText (c : Char) : Bool :=
  ['&', '<', '>', '\r'].contains c

/-- A reference to the character. -/
def Style.reference (style : Style) (c : Char) : List Char :=
  '&' :: ((style c).body c ++ [';'])

/-- The text with references to the characters that are marked. -/
def Style.escape (style : Style) (isMarked : Char → Bool) (cs : List Char) : List Char :=
  cs.flatMap fun c => if isMarked c then style.reference c else [c]

def Style.attribute (style : Style) (a : Attribute) : List Char :=
  ' ' :: (a.label.toList ++ '=' :: '"' :: (style.escape isMarkedInValue a.value.toList ++ ['"']))

namespace Node

variable (style : Style)

mutual
/-- The node as it is printed. An element without children is one tag. -/
def print : Node → List Char
  | .element label attributes children =>
    '<' :: (label.toList ++ (attributes.flatMap style.attribute ++
      if children.isEmpty then ['/', '>']
      else '>' :: (printAll children ++ '<' :: '/' :: (label.toList ++ ['>']))))
  | .text content => style.escape isMarkedInText content
  | .aside => []

def printAll : List Node → List Char
  | [] => []
  | n :: rest => print n ++ printAll rest
end

/-- The declaration that stands before the root element. -/
def declaration : List Char :=
  "<?xml version=\"1.0\" encoding=\"UTF-8\"?>\n".toList

/-- The document with this root element. -/
def document (root : Node) : String :=
  String.ofList (declaration ++ root.print style)

def isText : Node → Bool
  | .text _ => true
  | _ => false

/-- The nodes on lines of their own. -/
def onLines (nodes : List Node) : List Node :=
  .text ['\n'] :: nodes.flatMap fun n => [n, .text ['\n']]

/-- An element that holds a text and nothing else. -/
def leaf (label : String) (content : List Char) : Node :=
  .element label [] (if content.isEmpty then [] else [.text content])

/-- No two texts are next to each other. -/
def areApart : List Node → Bool
  | [] => true
  | n :: rest => !(n.isText && rest.head?.any isText) && areApart rest

end Node

/-- A text that a document can hold. -/
structure DocumentText where
  text : String
  allowed : ∀ c ∈ text.toList, isAllowed c = true

/-- The attribute with this name and without a prefix. -/
def Attribute.plain (label value : String) : Attribute :=
  ⟨none, label, value⟩

/-- A name without a prefix. -/
def isLabel (cs : List Char) : Bool :=
  cs.head?.any isNameStart && cs.all fun c => isNameChar c && c != ':'

/-- An attribute without a prefix that declares no namespace. -/
structure Attribute.Printable (a : Attribute) : Prop where
  space : a.space = none
  label : isLabel a.label.toList = true
  label_ne : a.label ≠ "xmlns"
  value : ∀ c ∈ a.value.toList, isAllowed c = true

/-- Trees that a document can hold as they are: names have no prefixes, and texts are neither empty
nor next to each other. -/
inductive Node.Printable : Node → Prop
  | element {label : String} {attributes : List Attribute} {children : List Node}
      (label_isLabel : isLabel label.toList = true)
      (attributes_printable : ∀ a ∈ attributes, a.Printable)
      (attributes_nodup : (attributes.map (·.label)).Nodup)
      (children_printable : ∀ n ∈ children, Printable n)
      (children_apart : areApart children = true) :
      Printable (.element label attributes children)
  | text {content : List Char} (content_ne : content ≠ [])
      (content_allowed : ∀ c ∈ content, isAllowed c = true) :
      Printable (.text content)

end LintGate.Markup
