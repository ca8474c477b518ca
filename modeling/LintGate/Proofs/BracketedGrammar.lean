import LintGate.Linter.Basic
import LintGate.Proofs.Fields
import LintGate.Proofs.LineReadings

/-!
The grammar `path(line): message [id]`, to the letter. A line is a finding just when it can be cut
at the four delimiters into pieces that hold one, and there is no second way to cut it. What a tool
printed in this grammar falls into the findings of the lines that are one and all the other lines.
-/

namespace LintGate.Proofs.BracketedGrammar

open LintGate.Text
open LintGate.Proofs.Fields
open LintGate.Proofs.LineReadings

/-- The pieces of a line that is cut at the first occurrences of its delimiters. A colon right
behind the closing parenthesis is a delimiter too. -/
structure Pieces where
  path : List Char
  number : List Char
  hasColon : Bool
  message : List Char
  id : List Char
  tail : List Char
  path_plain : '(' ∉ path
  number_plain : ')' ∉ number
  message_plain : '[' ∉ message
  id_plain : ']' ∉ id
  colon_taken : hasColon = false → message.head? ≠ some ':'

namespace Pieces

/-- The line behind the colon. -/
def remark (p : Pieces) : List Char :=
  p.message ++ '[' :: (p.id ++ ']' :: p.tail)

/-- The line behind the closing parenthesis. -/
def ending (p : Pieces) : List Char :=
  if p.hasColon then ':' :: p.remark else p.remark

/-- The whole line. -/
def text (p : Pieces) : List Char :=
  p.path ++ '(' :: (p.number ++ ')' :: p.ending)

/-- The pieces hold the parts of a finding. -/
structure Hold (p : Pieces) (f : FindingLine) : Prop where
  file : trim p.path = f.file.toList
  line : IsLineNumber p.number f.line
  message : trim p.message = f.message.toList
  rule : trim p.id = f.rule.toList
  file_ne : f.file ≠ ""
  rule_ne : f.rule ≠ ""

theorem head?_remark {p : Pieces} (h : p.hasColon = false) : p.remark.head? ≠ some ':' := by
  have hhead := p.colon_taken h
  rw [remark]
  cases hmessage : p.message with
  | nil => exact nofun
  | cons c rest => simpa [hmessage] using hhead

theorem dropOne_of_head? {d : Char} {cs : List Char} (h : cs.head? ≠ some d) :
    dropOne d cs = cs := by
  cases cs with
  | nil => rfl
  | cons c rest =>
      have hc : c ≠ d := by simpa using h
      rw [dropOne, if_neg hc]

theorem dropOne_ending (p : Pieces) : dropOne ':' p.ending = p.remark := by
  rw [ending]
  cases h : p.hasColon with
  | true => rfl
  | false => exact dropOne_of_head? (head?_remark h)

theorem hasColon_iff (p : Pieces) : p.hasColon = true ↔ p.ending.head? = some ':' := by
  rw [ending]
  cases h : p.hasColon with
  | true => simp
  | false => simpa using head?_remark h

/-- A line can be cut in one way only. -/
theorem text_injective : Function.Injective text := by
  intro p q h
  obtain ⟨hpath, hrest⟩ := cut_unique h p.path_plain q.path_plain
  obtain ⟨hnumber, hending⟩ := cut_unique hrest p.number_plain q.number_plain
  have hcolon : p.hasColon = q.hasColon := by
    rw [Bool.eq_iff_iff, hasColon_iff, hasColon_iff, hending]
  have hremark : p.remark = q.remark := by
    rw [← dropOne_ending, ← dropOne_ending, hending]
  obtain ⟨hmessage, hrest⟩ := cut_unique hremark p.message_plain q.message_plain
  obtain ⟨hid, htail⟩ := cut_unique hrest p.id_plain q.id_plain
  cases p
  cases q
  simp_all only

theorem bracketed_text {p : Pieces} {f : FindingLine} (h : p.Hold f) :
    FindingLine.bracketed p.text = .ok f := by
  have hfile : requireField "file" p.path = .ok f.file :=
    requireField_eq_ok_iff.mpr ⟨h.file, h.file_ne⟩
  have hrule : requireField "id" p.id = .ok f.rule :=
    requireField_eq_ok_iff.mpr ⟨h.rule, h.rule_ne⟩
  simp only [FindingLine.bracketed, text, cutAt_append p.path_plain, cutAt_append p.number_plain,
    readLineNumber_eq_ok_iff.mpr h.line, dropOne_ending, remark, cutAt_append p.message_plain,
    cutAt_append p.id_plain, hfile, hrule, h.message, String.ofList_toList, bind, Except.bind]
  rfl

/-- A colon in front is dropped, and only one. -/
theorem exists_colon (cs : List Char) : ∃ hasColon : Bool,
    cs = (if hasColon then ':' :: dropOne ':' cs else dropOne ':' cs) ∧
      (hasColon = false → (dropOne ':' cs).head? ≠ some ':') := by
  by_cases h : cs.head? = some ':'
  · obtain ⟨rest, rfl⟩ := List.head?_eq_some_iff.mp h
    exact ⟨true, rfl, nofun⟩
  · rw [dropOne_of_head? h]
    exact ⟨false, rfl, fun _ => h⟩

/-- Where a finding is read, the line can be cut. -/
theorem exists_of_bracketed {line : List Char} {f : FindingLine}
    (h : FindingLine.bracketed line = .ok f) : ∃ p : Pieces, p.text = line ∧ p.Hold f := by
  rw [FindingLine.bracketed] at h
  obtain ⟨⟨path, rest⟩, hcutPath, h⟩ := bind_eq_ok h
  obtain ⟨⟨number, ending⟩, hcutNumber, h⟩ := bind_eq_ok h
  obtain ⟨value, hvalue, h⟩ := bind_eq_ok h
  obtain ⟨⟨message, rest'⟩, hcutMessage, h⟩ := bind_eq_ok h
  obtain ⟨⟨id, tail⟩, hcutId, h⟩ := bind_eq_ok h
  obtain ⟨file, hfile, h⟩ := bind_eq_ok h
  obtain ⟨rule, hrule, h⟩ := bind_eq_ok h
  obtain rfl := Except.ok.inj h
  obtain ⟨rfl, hpath⟩ := cutAt_eq_ok_iff.mp hcutPath
  obtain ⟨rfl, hnumber⟩ := cutAt_eq_ok_iff.mp hcutNumber
  obtain ⟨hremark, hmessage⟩ := cutAt_eq_ok_iff.mp hcutMessage
  obtain ⟨rfl, hid⟩ := cutAt_eq_ok_iff.mp hcutId
  obtain ⟨hfile, hfile_ne⟩ := requireField_eq_ok_iff.mp hfile
  obtain ⟨hrule, hrule_ne⟩ := requireField_eq_ok_iff.mp hrule
  obtain ⟨hasColon, hending, hcolon⟩ := exists_colon ending
  rw [hremark] at hending hcolon
  have hhead : hasColon = false → message.head? ≠ some ':' := by
    intro hfalse hsome
    obtain ⟨rest, rfl⟩ := List.head?_eq_some_iff.mp hsome
    exact hcolon hfalse rfl
  refine ⟨⟨path, number, hasColon, message, id, tail, hpath, hnumber, hmessage, hid, hhead⟩, ?_,
    ⟨hfile, readLineNumber_eq_ok_iff.mp hvalue, String.toList_ofList.symm, hrule, hfile_ne,
      hrule_ne⟩⟩
  rw [text, hending]
  rfl

theorem bracketed_eq_ok_iff {line : List Char} {f : FindingLine} :
    FindingLine.bracketed line = .ok f ↔ ∃ p : Pieces, p.text = line ∧ p.Hold f := by
  constructor
  · exact exists_of_bracketed
  · rintro ⟨p, rfl, hhold⟩
    exact bracketed_text hhold

end Pieces

/-- The line is a finding. -/
def IsFinding (line : String) : Prop :=
  ∃ (p : Pieces) (f : FindingLine), p.text = line.toList ∧ p.Hold f

theorem isFinding_iff {line : String} :
    IsFinding line ↔ (FindingLine.bracketed line.toList).isOk = true := by
  constructor
  · rintro ⟨p, f, htext, hhold⟩
    rw [← htext, Pieces.bracketed_text hhold]
    rfl
  · intro h
    cases hline : FindingLine.bracketed line.toList with
    | error reason =>
        rw [hline] at h
        cases h
    | ok f =>
        obtain ⟨p, htext, hhold⟩ := Pieces.exists_of_bracketed hline
        exact ⟨p, f, htext, hhold⟩

instance : DecidablePred IsFinding := fun _ => decidable_of_iff _ isFinding_iff.symm

/-- The issue is what the line says, in the words of the tool. -/
def IsIssueOf (l : Linter) (line : String) (i : Issue) : Prop :=
  ∃ (p : Pieces) (f : FindingLine), p.text = line.toList ∧ p.Hold f ∧
    i = .reported (l.ruleId f.rule) f.message f.line f.file

/-- The reading has the issues of the lines that are findings, and the other lines as they are, each
in the order of the lines. -/
structure IsPartition (l : Linter) (lines : List String) (r : Reading) : Prop where
  issues : List.Forall₂ (IsIssueOf l) (lines.filter (IsFinding ·)) r.issues
  skipped : r.skipped.map (·.entry) = lines.filter (¬ IsFinding ·)
  length : r.issues.length + r.skipped.length = lines.length

theorem isPartition_readAll (l : Linter) (lines : List String) :
    IsPartition l lines (FindingLine.readAll FindingLine.bracketed l.ruleId lines) := by
  constructor
  case issues =>
      refine (issues_readAll_of_iff _ (fun _ => isFinding_iff) lines).imp fun line i hline => ?_
      obtain ⟨f, hline, rfl⟩ := hline
      obtain ⟨p, htext, hhold⟩ := Pieces.exists_of_bracketed hline
      exact ⟨p, f, htext, hhold, rfl⟩
  case skipped =>
      have hskipped := skipped_readAll_of_iff l.ruleId (fun _ => isFinding_iff) lines
      rw [← List.forall₂_eq_eq_eq, List.forall₂_map_left_iff]
      exact hskipped.flip.imp fun s line hs => hs.1
  case length => exact length_readAll _ _ lines

/-- A line is read as a finding just when it can be cut into pieces that hold the finding, and it
can be cut in one way only. The tools that print in this grammar report the findings of the lines
that are one and leave the others as they are. -/
theorem bracketed_grammar :
    (∀ (line : List Char) (f : FindingLine),
      FindingLine.bracketed line = .ok f ↔ ∃ p : Pieces, p.text = line ∧ p.Hold f) ∧
    Function.Injective Pieces.text ∧
    ∀ (l : Linter) (lines : List String), l.tool = .pclint ∨ l.tool = .other →
      IsPartition l lines (l.read lines) := by
  refine ⟨fun _ _ => Pieces.bracketed_eq_ok_iff, Pieces.text_injective, ?_⟩
  intro l lines h
  rw [read_of_bracketed h]
  exact isPartition_readAll l lines

/-- Two lines that are findings, with every delimiter where it does not count, and two that miss one
or hold no line number. -/
def mixedLines : List String :=
  ["a)].cpp (\t+007 ):: x) (y]: [ T[1 ] [z]", "done", "b.cpp(4294967295)[T]",
    "b.cpp(4294967296): x [T]"]

def namedLinter : Linter :=
  .make .other { executable := Path.ofString "lint" } (some "key")

theorem bracketed_grammar_mixed :
    (namedLinter.tool = .pclint ∨ namedLinter.tool = .other) ∧
      namedLinter.read mixedLines =
        ⟨[.reported "other.key.T[1" ": x) (y]:" 7 "a)].cpp",
            .reported "other.key.T" "" 4294967295 "b.cpp"],
          [⟨"done", .missingDelimiter '('⟩,
            ⟨"b.cpp(4294967296): x [T]", .invalidLineNumber "4294967296"⟩]⟩ ∧
      IsPartition namedLinter mixedLines (namedLinter.read mixedLines) :=
  ⟨.inr rfl, by decide +kernel, bracketed_grammar.2.2 namedLinter mixedLines (.inr rfl)⟩

end LintGate.Proofs.BracketedGrammar
