import LintGate.Linter.Basic
import LintGate.Proofs.Blanks
import LintGate.Proofs.PrintedReport

/-!
Reports of RATS as they are printed are read back: a finding for every line of every file of every
record without a type.
-/

namespace LintGate.Proofs.RatsReport

open LintGate.Markup
open LintGate.Text
open LintGate.Proofs.Blanks
open LintGate.Proofs.PrintedReport

/-- A file with the lines of it where something was met. -/
structure SourceFile where
  name : DocumentText
  name_ne : isBlankText name.text.toList = false
  lines : List UInt32

/-- What RATS reports once. -/
structure Vulnerability where
  kind : Option DocumentText
  message : DocumentText
  files : List SourceFile

/-- The leaf that holds the text. -/
def leafOf (label : String) (content : DocumentText) : Node :=
  .leaf label content.text.toList

namespace SourceFile

def nodes (f : SourceFile) : List Node :=
  leafOf "name" f.name :: f.lines.map fun line => leafOf "line" (lineText line)

def node (f : SourceFile) : Node :=
  .element "file" [] (Node.onLines f.nodes)

/-- The findings in the file, for a record with this message. -/
def issues (message : List Char) (f : SourceFile) : List Issue :=
  f.lines.map fun line =>
    .reported "rats." (String.ofList (squeeze (trim message))) line
      (String.ofList (trim f.name.text.toList))

end SourceFile

namespace Vulnerability

def nodes (v : Vulnerability) : List Node :=
  (v.kind.map (leafOf "type")).toList ++ leafOf "message" v.message :: v.files.map SourceFile.node

def node (v : Vulnerability) : Node :=
  .element "vulnerability" [] (Node.onLines v.nodes)

/-- The record has no type, or one that says nothing. -/
def isUntyped (v : Vulnerability) : Bool :=
  v.kind.all fun kind => isBlankText kind.text.toList

/-- The findings of the record, if it has no type. -/
def issues (v : Vulnerability) : List Issue :=
  v.files.flatMap (SourceFile.issues v.message.text.toList)

end Vulnerability

/-- The report with these records. -/
def report (vulnerabilities : List Vulnerability) : Node :=
  .element "rats_output" [] (Node.onLines (vulnerabilities.map Vulnerability.node))

section Leaf

variable {label : String} (content : DocumentText)

theorem isText_leafOf : (leafOf label content).isText = false :=
  rfl

@[simp] theorem isNamed_leafOf (name : String) :
    (leafOf label content).isNamed name = (label == name) :=
  rfl

theorem printable_leafOf (h : isLabel label.toList = true) : (leafOf label content).Printable := by
  rw [leafOf, Node.leaf]
  split
  · exact .element h (by simp) (by simp) (by simp) rfl
  · rename_i hne
    have htext : Node.Printable (.text content.text.toList) :=
      .text (by simpa using hne) content.allowed
    exact .element h (by simp) (by simp) (by simpa using htext) rfl

/-- A leaf is read as the text it holds, the empty text too. -/
@[simp] theorem content_leafOf : (leafOf label content).content = content.text.toList := by
  rw [leafOf, Node.leaf]
  cases content.text.toList <;> rfl

theorem elementsNamed_leafOf {name : String} (h : label ≠ name) :
    (leafOf label content).elementsNamed name = [] := by
  rw [leafOf, Node.leaf, elementsNamed_element, if_neg h]
  split <;> simp [elementsNamed_text]

end Leaf

theorem isText_fileNodes (f : SourceFile) : ∀ n ∈ f.nodes, n.isText = false := by
  refine List.forall_mem_cons.mpr ⟨isText_leafOf f.name, List.forall_mem_map.mpr fun line _ => ?_⟩
  exact isText_leafOf (lineText line)

theorem isText_vulnerabilityNodes (v : Vulnerability) : ∀ n ∈ v.nodes, n.isText = false := by
  refine List.forall_mem_append.mpr ⟨?_, List.forall_mem_cons.mpr ⟨isText_leafOf v.message, ?_⟩⟩
  · cases v.kind with
    | none => simp
    | some kind => simpa using isText_leafOf kind
  · exact List.forall_mem_map.mpr fun f _ => rfl

theorem printable_fileNode (f : SourceFile) : f.node.Printable := by
  refine printable_onLines (by decide +kernel) (by simp) (by simp) ?_ (isText_fileNodes f)
  refine List.forall_mem_cons.mpr ⟨?_, List.forall_mem_map.mpr fun line _ => ?_⟩
  · exact printable_leafOf f.name (by decide +kernel)
  · exact printable_leafOf (lineText line) (by decide +kernel)

theorem printable_vulnerabilityNode (v : Vulnerability) : v.node.Printable := by
  refine printable_onLines (by decide +kernel) (by simp) (by simp) ?_ (isText_vulnerabilityNodes v)
  refine List.forall_mem_append.mpr ⟨?_, List.forall_mem_cons.mpr ⟨?_, ?_⟩⟩
  · cases v.kind with
    | none => simp
    | some kind => simpa using printable_leafOf kind (by decide +kernel)
  · exact printable_leafOf v.message (by decide +kernel)
  · exact List.forall_mem_map.mpr fun f _ => printable_fileNode f

theorem printable_report (vulnerabilities : List Vulnerability) :
    (report vulnerabilities).Printable :=
  printable_onLines (by decide +kernel) (by simp) (by simp)
    (List.forall_mem_map.mpr fun v _ => printable_vulnerabilityNode v)
    (List.forall_mem_map.mpr fun _ _ => rfl)

theorem elementsNamed_fileNode (f : SourceFile) : f.node.elementsNamed "vulnerability" = [] := by
  have hname : (leafOf "name" f.name).elementsNamed "vulnerability" = [] :=
    elementsNamed_leafOf _ (by decide)
  have hline (line : UInt32) :
      (leafOf "line" (lineText line)).elementsNamed "vulnerability" = [] :=
    elementsNamed_leafOf _ (by decide)
  simp [SourceFile.node, SourceFile.nodes, elementsNamed_element, List.flatMap_map, hname, hline]

theorem elementsNamed_vulnerabilityNode (v : Vulnerability) :
    v.node.elementsNamed "vulnerability" = [v.node] := by
  have hkind : (v.kind.map (leafOf "type")).toList.flatMap (Node.elementsNamed "vulnerability") =
      [] := by
    cases v.kind with
    | none => rfl
    | some kind => simp [elementsNamed_leafOf]
  have hmessage : (leafOf "message" v.message).elementsNamed "vulnerability" = [] :=
    elementsNamed_leafOf _ (by decide)
  simp [Vulnerability.node, Vulnerability.nodes, elementsNamed_element, List.flatMap_append,
    List.flatMap_map, hkind, hmessage, elementsNamed_fileNode]

/-- The records of a report are all its vulnerability elements. -/
theorem elementsNamed_report (vulnerabilities : List Vulnerability) :
    (report vulnerabilities).elementsNamed "vulnerability" =
      vulnerabilities.map Vulnerability.node := by
  simp [report, elementsNamed_element, flatMap_elementsNamed elementsNamed_vulnerabilityNode]

theorem childContent_fileNode (f : SourceFile) :
    f.node.childContent "name" = f.name.text.toList := by
  simp [Node.childContent, Node.child?, Node.children, SourceFile.node, SourceFile.nodes]

theorem childrenNamed_fileNode (f : SourceFile) :
    f.node.childrenNamed "line" = f.lines.map fun line => leafOf "line" (lineText line) := by
  simp [Node.childrenNamed, Node.children, SourceFile.node, SourceFile.nodes]

theorem childContent_vulnerabilityNode (v : Vulnerability) :
    v.node.childContent "message" = v.message.text.toList := by
  rw [Node.childContent, Node.child?, Vulnerability.node, Node.children, find?_onLines,
    Vulnerability.nodes]
  cases v.kind <;> simp

/-- A record without a type is read as one whose type is empty. -/
theorem isBlankText_kind (v : Vulnerability) :
    isBlankText (v.node.childContent "type") = v.isUntyped := by
  have hfile (f : SourceFile) : f.node.isNamed "type" = false := rfl
  rw [Node.childContent, Node.child?, Vulnerability.node, Node.children, find?_onLines,
    Vulnerability.nodes, Vulnerability.isUntyped]
  cases v.kind with
  | none =>
      have hnone : (v.files.map SourceFile.node).find? (Node.isNamed "type") = none := by
        simp [hfile]
      simp [hnone, isBlankText]
  | some kind => simp

theorem childrenNamed_vulnerabilityNode (v : Vulnerability) :
    v.node.childrenNamed "file" = v.files.map SourceFile.node := by
  have hfile (f : SourceFile) : f.node.isNamed "file" = true := rfl
  rw [Node.childrenNamed, Vulnerability.node, Node.children, filter_onLines, Vulnerability.nodes]
  cases v.kind <;> simp [hfile]

theorem convertFile_fileNode (message : List Char) (f : SourceFile) :
    Report.Rats.convertFile (String.ofList (collapse message)) f.node =
      ⟨f.issues message, []⟩ := by
  obtain ⟨c, hc, hblank⟩ : ∃ c ∈ f.name.text.toList, isBlank c = false := by
    simpa [isBlankText] using f.name_ne
  have hname : trim f.name.text.toList ≠ [] := List.ne_nil_of_mem (Fields.mem_trim hc hblank)
  have hline : ∀ line ∈ f.lines,
      (Report.Rats.convertLine (String.ofList (collapse message))
          (String.ofList (trim f.name.text.toList)) ∘
        fun line => leafOf "line" (lineText line)) line =
      ⟨[.reported "rats." (String.ofList (squeeze (trim message))) line
        (String.ofList (trim f.name.text.toList))], []⟩ := by
    intro line _
    have hrule : Tool.rats.ruleId "" = "rats." := rfl
    rw [Function.comp_apply, Report.Rats.convertLine, content_leafOf, readLineNumber_lineText,
      collapse_eq]
    simp only [hrule, Reading.found]
  rw [Report.Rats.convertFile, childContent_fileNode]
  split
  · rename_i hnil
    exact absurd hnil hname
  · rw [childrenNamed_fileNode, List.map_map, concat_map hline]
    simp [SourceFile.issues, List.map_eq_flatMap]

theorem convert_vulnerabilityNode (v : Vulnerability) :
    Report.Rats.convert v.node = ⟨if v.isUntyped then v.issues else [], []⟩ := by
  have hfile : ∀ f ∈ v.files,
      (Report.Rats.convertFile (String.ofList (collapse v.message.text.toList)) ∘
        SourceFile.node) f = ⟨f.issues v.message.text.toList, []⟩ :=
    fun f _ => convertFile_fileNode _ f
  rw [Report.Rats.convert, isBlankText_kind]
  cases v.isUntyped with
  | true =>
      simp only [childContent_vulnerabilityNode, childrenNamed_vulnerabilityNode, List.map_map,
        concat_map hfile, if_true, Vulnerability.issues]
  | false => rfl

/-- The lines of a report are read as a finding for every line of every file of every record without
a type, in their order. Records with a type are dropped, and nothing is skipped. -/
theorem read_vulnerabilities (style : Style) (settings : ToolSettings) (key : Option String)
    (vulnerabilities : List Vulnerability) :
    (Linter.make .rats settings key).read
        (Text.pieces '\n' ((report vulnerabilities).document style)) =
      ⟨(vulnerabilities.filter Vulnerability.isUntyped).flatMap Vulnerability.issues, []⟩ := by
  have hread : (Linter.make .rats settings key).read = Report.Rats.read := rfl
  rw [hread, Report.Rats.read]
  exact read_entries _ _ convert_vulnerabilityNode style (printable_report vulnerabilities) rfl
    (elementsNamed_report vulnerabilities)

end LintGate.Proofs.RatsReport
