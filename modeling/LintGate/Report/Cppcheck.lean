import LintGate.Report.Document
import LintGate.Tool

/-!
The report of cppcheck: one `error` element for each finding. Its place is given on the element
itself, or on the first `location` inside it.
-/

namespace LintGate.Report.Cppcheck

/-- A check that means nothing for one file on its own. -/
def dropped : String := "unusedFunction"

/-- An attribute of a record, or else of its first location. -/
def placeAttribute? (name : String) (record : Markup.Node) : Option String :=
  match record.attribute? name with
  | some value => some value
  | none => (record.child? "location").bind (·.attribute? name)

/-- The line of a record, 0 when it has none. -/
def line (record : Markup.Node) : Except SkipReason UInt32 :=
  match placeAttribute? "line" record with
  | some value => readLineNumber value.toList
  | none => .ok 0

/-- What one record says. -/
def convert (record : Markup.Node) : Reading :=
  match (record.attribute? "id").filter (!·.isEmpty) with
  | none => .skip "<error> without id" (.missingField "id")
  | some id =>
    if id = dropped then {}
    else
      match line record with
      | .error reason => .skip ("<error id=\"" ++ id ++ "\">") reason
      | .ok line =>
        let message := (record.attribute? "msg").getD ""
        let file := (placeAttribute? "file" record).getD ""
        .found (.reported (Tool.cppcheck.ruleId id) message line file)

/-- Reads the output of cppcheck. -/
def read (lines : List String) : Reading :=
  Report.read "cppcheck report" "error" convert lines

end LintGate.Report.Cppcheck
