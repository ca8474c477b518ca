import LintGate.Proofs.Fields
import LintGate.Proofs.PrintedTree
import LintGate.Report.Document

/-!
Reports that are printed as documents: cut out of their lines and read, they give the elements that
were printed.
-/

namespace LintGate.Proofs.PrintedReport

open LintGate.Markup
open LintGate.Proofs.PrintedTokens
open LintGate.Proofs.PrintedTree

theorem isAllowed_of_isDigit {c : Char} (h : c.isDigit = true) : isAllowed c = true :=
  isAllowed_of_isNameChar (by simp [isNameChar, h])

/-- The digits of a line number. -/
def lineText (line : UInt32) : DocumentText where
  text := String.ofList (Text.digits line.toNat)
  allowed := by
    intro c hc
    rw [String.toList_ofList] at hc
    exact isAllowed_of_isDigit (Fields.isDigit_of_mem_digits hc)

theorem readLineNumber_lineText (line : UInt32) :
    readLineNumber (lineText line).text.toList = .ok line := by
  rw [lineText, String.toList_ofList, Fields.readLineNumber_digits]

theorem printable_plain {label : String} (hlabel : isLabel label.toList = true)
    (hne : label ≠ "xmlns") (value : DocumentText) : (Attribute.plain label value.text).Printable :=
  ⟨rfl, hlabel, hne, value.allowed⟩

theorem joined_pieces (s : String) : Text.joined "\n" (Text.pieces '\n' s) = s := by
  apply String.toList_injective
  simp [Text.joined, Text.pieces]

theorem pieces_ne_nil (s : String) : Text.pieces '\n' s ≠ [] := by
  simp [Text.pieces]

/-- A text from an opening to a closing angle bracket is all document. -/
theorem extract?_pieces {s : String} {inner : List Char} (h : s.toList = '<' :: (inner ++ ['>'])) :
    Report.extract? (Text.pieces '\n' s) = some s := by
  have hs : String.ofList ('<' :: (inner ++ ['>'])) = s := by rw [← h, String.ofList_toList]
  simp [Report.extract?, joined_pieces, h, hs]

theorem document_eq (style : Style) {root : Node} (helement : root.isText = false)
    (h : root.Printable) :
    ∃ inner, (root.document style).toList = '<' :: (inner ++ ['>']) := by
  obtain ⟨tail, htail⟩ : ∃ tail, Node.declaration = '<' :: tail := ⟨_, declaration_eq⟩
  cases h with
  | text => cases helement
  | @element label attributes children =>
      rw [Node.document, String.toList_ofList, htail, Node.print]
      cases children.isEmpty with
      | true =>
          exact ⟨tail ++ '<' :: (label.toList ++ (attributes.flatMap style.attribute ++ ['/'])),
            by simp⟩
      | false =>
          exact ⟨tail ++ '<' :: (label.toList ++ (attributes.flatMap style.attribute ++
            '>' :: (Node.printAll style children ++ '<' :: '/' :: label.toList))), by simp⟩

/-- The lines of a printed report are read record by record. -/
theorem read_pieces (title record : String) (convert : Node → Reading) (style : Style)
    {root : Node} (h : root.Printable) (helement : root.isText = false) :
    Report.read title record convert (Text.pieces '\n' (root.document style)) =
      .concat ((root.elementsNamed record).map convert) := by
  obtain ⟨inner, hinner⟩ := document_eq style helement h
  simp [Report.read, pieces_ne_nil, extract?_pieces hinner, ofDocument?_document style h helement]

theorem elementsNamed_element (name label : String) (attributes : List Attribute)
    (children : List Node) :
    (Node.element label attributes children).elementsNamed name =
      (if label = name then [.element label attributes children] else []) ++
        children.flatMap (Node.elementsNamed name) := by
  have hall (nodes : List Node) : (Node.descendantsOfAll nodes).filter (Node.isNamed name) =
      nodes.flatMap (Node.elementsNamed name) := by
    induction nodes with
    | nil => rfl
    | cons n nodes ih =>
        rw [Node.descendantsOfAll, List.filter_append, ih, List.flatMap_cons, Node.elementsNamed]
  rw [Node.elementsNamed, Node.descendants, List.filter_cons, hall]
  by_cases hlabel : label = name <;> simp [Node.isNamed, hlabel]

theorem elementsNamed_text (name : String) (content : List Char) :
    (Node.text content).elementsNamed name = [] :=
  rfl

section

variable {nodes : List Node}

@[simp] theorem flatMap_onLines (name : String) :
    (Node.onLines nodes).flatMap (Node.elementsNamed name) =
      nodes.flatMap (Node.elementsNamed name) := by
  rw [Node.onLines, List.flatMap_cons, elementsNamed_text, List.nil_append, List.flatMap_assoc]
  simp [elementsNamed_text]

@[simp] theorem filter_onLines (name : String) :
    (Node.onLines nodes).filter (Node.isNamed name) = nodes.filter (Node.isNamed name) := by
  have hline : Node.isNamed name (.text ['\n']) = false := rfl
  rw [Node.onLines, List.filter_cons_of_neg (by simp [hline])]
  induction nodes with
  | nil => rfl
  | cons n nodes ih => simp [List.filter_cons, hline, ih]

@[simp] theorem find?_onLines (name : String) :
    (Node.onLines nodes).find? (Node.isNamed name) = nodes.find? (Node.isNamed name) := by
  rw [← List.head?_filter, ← List.head?_filter, filter_onLines]

theorem areApart_onLines (h : ∀ n ∈ nodes, n.isText = false) :
    Node.areApart (Node.onLines nodes) = true := by
  rw [Node.onLines]
  induction nodes with
  | nil => rfl
  | cons n nodes ih =>
      obtain ⟨hn, hrest⟩ := List.forall_mem_cons.mp h
      have ih := ih hrest
      simp_all [Node.areApart]

theorem printable_of_mem_onLines (h : ∀ n ∈ nodes, n.Printable) :
    ∀ n ∈ Node.onLines nodes, n.Printable := by
  have hline : Node.Printable (.text ['\n']) := .text (by simp) (by simp [isAllowed])
  intro n hn
  simp only [Node.onLines, List.mem_cons, List.mem_flatMap, List.not_mem_nil, or_false] at hn
  rcases hn with rfl | ⟨m, hm, rfl | rfl⟩
  · exact hline
  · exact h n hm
  · exact hline

/-- An element whose children stand on lines of their own. -/
theorem printable_onLines {label : String} {attributes : List Attribute}
    (hlabel : isLabel label.toList = true) (hattributes : ∀ a ∈ attributes, a.Printable)
    (hnodup : (attributes.map (·.label)).Nodup) (h : ∀ n ∈ nodes, n.Printable)
    (helements : ∀ n ∈ nodes, n.isText = false) :
    Node.Printable (.element label attributes (Node.onLines nodes)) :=
  .element hlabel hattributes hnodup (printable_of_mem_onLines h) (areApart_onLines helements)

end

section

variable {α : Type} {read : α → Reading} {issues : α → List Issue} {entries : List α}

/-- Readings without skipped entries, one after another. -/
theorem concat_map (h : ∀ a ∈ entries, read a = ⟨issues a, []⟩) :
    Reading.concat (entries.map read) = ⟨entries.flatMap issues, []⟩ := by
  induction entries with
  | nil => rfl
  | cons a entries ih =>
      obtain ⟨ha, hrest⟩ := List.forall_mem_cons.mp h
      have ih := ih hrest
      simp only [Reading.concat, Reading.mk.injEq] at ih
      simp [Reading.concat, ha, ih]

/-- Entries that count for nothing leave no trace. -/
theorem concat_map_filter {counts : α → Bool}
    (h : ∀ a ∈ entries, read a = ⟨if counts a then issues a else [], []⟩) :
    Reading.concat (entries.map read) = ⟨(entries.filter counts).flatMap issues, []⟩ := by
  have hfilter : entries.flatMap (fun a => if counts a then issues a else []) =
      (entries.filter counts).flatMap issues := by
    clear h
    induction entries with
    | nil => rfl
    | cons a entries ih => by_cases ha : counts a <;> simp [ha, ih]
  rw [concat_map h, hfilter]

/-- A report with an element for every entry. -/
theorem read_entries (title record : String) {convert : Node → Reading} {node : α → Node}
    {counts : α → Bool} (hconvert : ∀ a, convert (node a) = ⟨if counts a then issues a else [], []⟩)
    (style : Style) {root : Node} (h : root.Printable) (helement : root.isText = false)
    (hentries : root.elementsNamed record = entries.map node) :
    Report.read title record convert (Text.pieces '\n' (root.document style)) =
      ⟨(entries.filter counts).flatMap issues, []⟩ := by
  rw [read_pieces title record convert style h helement, hentries, List.map_map]
  exact concat_map_filter fun a _ => hconvert a

/-- Elements of one name with none of that name inside are found as they are. -/
theorem flatMap_elementsNamed {name : String} {node : α → Node}
    (h : ∀ a, (node a).elementsNamed name = [node a]) (entries : List α) :
    (entries.map node).flatMap (Node.elementsNamed name) = entries.map node := by
  simp only [List.flatMap_map, h]
  exact List.map_eq_flatMap.symm

end

end LintGate.Proofs.PrintedReport
