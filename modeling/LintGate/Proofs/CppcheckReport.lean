import LintGate.Linter.Basic
import LintGate.Proofs.PrintedReport

/-!
Reports of cppcheck as they are printed, in both layouts, are read back record by record: every
record is a finding, but those of the check that is dropped.
-/

namespace LintGate.Proofs.CppcheckReport

open LintGate.Markup
open LintGate.Proofs.PrintedReport

/-- A place in a source. -/
structure Place where
  file : DocumentText
  line : UInt32

/-- Where a record names its place: on the record, or in the first of its locations. -/
inductive Layout
  | onRecord
  | inLocations (further : List Place)

/-- What cppcheck reports once. -/
structure Record where
  id : DocumentText
  id_ne : id.text ≠ ""
  message : DocumentText
  place : Place
  layout : Layout

namespace Place

def attributes (p : Place) : List Attribute :=
  [.plain "file" p.file.text, .plain "line" (lineText p.line).text]

/-- The location element of the place. -/
def node (p : Place) : Node :=
  .element "location" p.attributes []

end Place

namespace Record

/-- The attributes that a record has in either layout. -/
def attributes (r : Record) : List Attribute :=
  [.plain "id" r.id.text, .plain "msg" r.message.text]

def node (r : Record) : Node :=
  match r.layout with
  | .onRecord => .element "error" (r.attributes ++ r.place.attributes) []
  | .inLocations further =>
    .element "error" r.attributes (Node.onLines ((r.place :: further).map Place.node))

/-- The finding of the record. -/
def issue (r : Record) : Issue :=
  .reported ("cppcheck." ++ r.id.text) r.message.text r.place.line r.place.file.text

end Record

/-- The report with these records. -/
def report (records : List Record) : Node :=
  .element "results" [.plain "version" "2"]
    (Node.onLines [.element "errors" [] (Node.onLines (records.map Record.node))])

theorem printable_placeAttributes (p : Place) : ∀ a ∈ p.attributes, a.Printable := by
  intro a ha
  simp only [Place.attributes, List.mem_cons, List.not_mem_nil, or_false] at ha
  rcases ha with rfl | rfl
  · exact printable_plain (by decide +kernel) (by decide) p.file
  · exact printable_plain (by decide +kernel) (by decide) (lineText p.line)

theorem printable_recordAttributes (r : Record) : ∀ a ∈ r.attributes, a.Printable := by
  intro a ha
  simp only [Record.attributes, List.mem_cons, List.not_mem_nil, or_false] at ha
  rcases ha with rfl | rfl
  · exact printable_plain (by decide +kernel) (by decide) r.id
  · exact printable_plain (by decide +kernel) (by decide) r.message

theorem printable_placeNode (p : Place) : p.node.Printable :=
  .element (by decide +kernel) (printable_placeAttributes p)
    (by simp [Place.attributes, Attribute.plain]) (by simp) rfl

theorem printable_recordNode (r : Record) : r.node.Printable := by
  obtain ⟨id, _, message, place, layout⟩ := r
  cases layout with
  | onRecord =>
      refine .element (by decide +kernel) (List.forall_mem_append.mpr ⟨?_, ?_⟩) ?_ (by simp) rfl
      · exact printable_recordAttributes _
      · exact printable_placeAttributes place
      · simp [Record.attributes, Place.attributes, Attribute.plain]
  | inLocations further =>
      refine printable_onLines (by decide +kernel) (printable_recordAttributes _) ?_ ?_ ?_
      · simp [Record.attributes, Attribute.plain]
      · exact List.forall_mem_map.mpr fun p _ => printable_placeNode p
      · exact List.forall_mem_map.mpr fun p _ => rfl

theorem isText_recordNode (r : Record) : r.node.isText = false := by
  rw [Record.node]
  cases r.layout <;> rfl

theorem printable_report (records : List Record) : (report records).Printable := by
  have hversion : (Attribute.plain "version" "2").Printable :=
    ⟨rfl, by decide +kernel, by decide, List.all_eq_true.mp (by decide +kernel)⟩
  have herrors : Node.Printable
      (.element "errors" [] (Node.onLines (records.map Record.node))) :=
    printable_onLines (by decide +kernel) (by simp) (by simp)
      (List.forall_mem_map.mpr fun r _ => printable_recordNode r)
      (List.forall_mem_map.mpr fun r _ => isText_recordNode r)
  exact printable_onLines (by decide +kernel) (by simpa using hversion) (by simp)
    (by simpa using herrors) (by simp [Node.isText])

theorem elementsNamed_recordNode (r : Record) : r.node.elementsNamed "error" = [r.node] := by
  have hplace (p : Place) : p.node.elementsNamed "error" = [] := by
    simp [Place.node, elementsNamed_element]
  rw [Record.node]
  cases r.layout with
  | onRecord => simp [elementsNamed_element]
  | inLocations further =>
      simp [elementsNamed_element, List.flatMap_map, hplace]

/-- The records of a report are all its error elements. -/
theorem elementsNamed_report (records : List Record) :
    (report records).elementsNamed "error" = records.map Record.node := by
  simp [report, elementsNamed_element, flatMap_elementsNamed elementsNamed_recordNode]

theorem attribute?_recordNode (r : Record) :
    r.node.attribute? "id" = some r.id.text ∧ r.node.attribute? "msg" = some r.message.text := by
  rw [Record.node]
  cases r.layout <;> exact ⟨rfl, rfl⟩

/-- In both layouts the place is found. -/
theorem placeAttribute?_recordNode (r : Record) :
    Report.Cppcheck.placeAttribute? "file" r.node = some r.place.file.text ∧
      Report.Cppcheck.placeAttribute? "line" r.node = some (lineText r.place.line).text := by
  rw [Record.node]
  cases r.layout with
  | onRecord => exact ⟨rfl, rfl⟩
  | inLocations further => exact ⟨rfl, rfl⟩

/-- A record is one finding, or none if it is dropped. -/
theorem convert_recordNode (r : Record) :
    Report.Cppcheck.convert r.node =
      ⟨if r.id.text ≠ "unusedFunction" then [r.issue] else [], []⟩ := by
  obtain ⟨hid, hmessage⟩ := attribute?_recordNode r
  obtain ⟨hfile, hline⟩ := placeAttribute?_recordNode r
  have hfilter : (some r.id.text).filter (!·.isEmpty) = some r.id.text := by
    simp [Option.filter, r.id_ne]
  have hrule : Tool.cppcheck.ruleId r.id.text = "cppcheck." ++ r.id.text := rfl
  have hread : Report.Cppcheck.line r.node = .ok r.place.line := by
    simp only [Report.Cppcheck.line, hline, readLineNumber_lineText]
  simp only [Report.Cppcheck.convert, hid, hmessage, hfile, hread, hfilter, hrule,
    Report.Cppcheck.dropped, Record.issue, Option.getD_some, ne_eq, ite_not]
  split <;> rfl

/-- However records are laid out and characters are referred to, the lines of a report are read as
the findings of its records in their order. Records of unused functions are dropped, and nothing is
skipped. -/
theorem read_results (style : Style) (settings : ToolSettings) (key : Option String)
    (records : List Record) :
    (Linter.make .cppcheck settings key).read (Text.pieces '\n' ((report records).document style)) =
      ⟨(records.filter fun r => r.id.text ≠ "unusedFunction").map Record.issue, []⟩ := by
  have hread : (Linter.make .cppcheck settings key).read = Report.Cppcheck.read := rfl
  have hconvert (r : Record) : Report.Cppcheck.convert r.node =
      ⟨if decide (r.id.text ≠ "unusedFunction") = true then [r.issue] else [], []⟩ := by
    simp only [convert_recordNode, decide_eq_true_eq]
  rw [hread, Report.Cppcheck.read, read_entries _ _ hconvert style (printable_report records) rfl
    (elementsNamed_report records), List.map_eq_flatMap]

/-- A record whose place is in a location. -/
example :
    Node.print (fun _ => .named)
      (Record.node {
        id := ⟨"nullPointer", List.all_eq_true.mp (by decide +kernel)⟩
        id_ne := by decide
        message := ⟨"if (p < 0)", List.all_eq_true.mp (by decide +kernel)⟩
        place := ⟨⟨"/src/a.cpp", List.all_eq_true.mp (by decide +kernel)⟩, 12⟩
        layout := .inLocations [] }) =
      ("<error id=\"nullPointer\" msg=\"if (p &lt; 0)\">\n" ++
        "<location file=\"/src/a.cpp\" line=\"12\"/>\n</error>").toList := by
  decide +kernel

end LintGate.Proofs.CppcheckReport
