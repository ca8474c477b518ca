import LintGate.Linter.Basic
import LintGate.Proofs.Blanks
import LintGate.Proofs.Fields
import LintGate.Proofs.LineReadings

/-!
The grammar `path:line[:column]:(rule)message`, to the letter. A colon may stand in a drive, behind
the path, behind the line, behind the column and anywhere in the message; a line is a finding just
when it can be cut into pieces that hold one, and it can be so cut in one way only.
-/

namespace LintGate.Proofs.LocatedGrammar

open LintGate.Text
open LintGate.Proofs.Blanks
open LintGate.Proofs.Fields
open LintGate.Proofs.LineReadings

/-- Digits, with or without blanks around them. -/
def IsColumn (field : List Char) : Prop :=
  ∃ before digits after, field = before ++ digits ++ after ∧ digits ≠ [] ∧
    (∀ c ∈ digits, c.isDigit = true) ∧ (∀ c ∈ before, isBlank c = true) ∧
    ∀ c ∈ after, isBlank c = true

def drivePart : Option Char → List Char
  | some letter => [letter, ':']
  | none => []

def columnPart : Option (List Char) → List Char
  | some field => field ++ [':']
  | none => []

/-- The line from the end of the last colon that counts. -/
def remark (gap rule message : List Char) : List Char :=
  gap ++ '(' :: (rule ++ ')' :: message)

/-- A path as it stands before a colon: without one, but for that of its drive. A slash of either
kind follows a drive. -/
structure SourcePath where
  drive : Option Char
  rest : List Char
  rest_plain : ':' ∉ rest
  drive_letter : ∀ letter ∈ drive, letter.isAlpha = true ∧
    ∃ separator ∈ rest.head?, separator = '\\' ∨ separator = '/'

def SourcePath.text (p : SourcePath) : List Char :=
  drivePart p.drive ++ p.rest

/-- The pieces of a line. What stands before the next colon after the line number is a column
whenever it can be one. -/
structure Pieces where
  path : SourcePath
  number : List Char
  column : Option (List Char)
  gap : List Char
  rule : List Char
  message : List Char
  number_plain : ':' ∉ number
  column_isColumn : ∀ field ∈ column, IsColumn field
  column_taken : column = none →
    ∀ field rest, remark gap rule message = field ++ ':' :: rest → ¬ IsColumn field
  gap_plain : '(' ∉ gap
  rule_plain : ')' ∉ rule

namespace Pieces

def remark (p : Pieces) : List Char :=
  LocatedGrammar.remark p.gap p.rule p.message

/-- The line behind the line number. -/
def ending (p : Pieces) : List Char :=
  columnPart p.column ++ p.remark

def text (p : Pieces) : List Char :=
  p.path.text ++ ':' :: (p.number ++ ':' :: p.ending)

/-- The pieces hold the parts of a finding. -/
structure Hold (p : Pieces) (f : FindingLine) : Prop where
  file : trim p.path.text = f.file.toList
  line : IsLineNumber p.number f.line
  rule : trim p.rule = f.rule.toList
  message : trim p.message = f.message.toList
  file_ne : f.file ≠ ""
  rule_ne : f.rule ≠ ""

end Pieces

section Column

variable {field rest : List Char}

theorem isColumn_iff : FindingLine.isColumn field = true ↔ IsColumn field := by
  simp only [FindingLine.isColumn, Bool.and_eq_true, Bool.not_eq_true', List.isEmpty_eq_false_iff,
    List.all_eq_true]
  constructor
  · rintro ⟨hne, hdigits⟩
    obtain ⟨before, after, heq, hbefore, hafter⟩ := exists_trim field
    exact ⟨before, trim field, after, heq, hne, hdigits, hbefore, hafter⟩
  · rintro ⟨before, digits, after, rfl, hne, hdigits, hbefore, hafter⟩
    have htrim : trim digits = digits :=
      trim_eq_self fun c hc => isBlank_eq_false_of_isDigit (hdigits c hc)
    rw [trim_surrounded hbefore hafter, htrim]
    exact ⟨hne, hdigits⟩

theorem IsColumn.not_mem {d : Char} (h : IsColumn field) (hdigit : d.isDigit = false)
    (hblank : isBlank d = false) : d ∉ field := by
  obtain ⟨before, digits, after, rfl, -, hdigits, hbefore, hafter⟩ := h
  intro hd
  rcases List.mem_append.mp hd with hd | hd
  · rcases List.mem_append.mp hd with hd | hd
    · simp [hbefore d hd] at hblank
    · simp [hdigits d hd] at hdigit
  · simp [hafter d hd] at hblank

theorem dropColumn_of_isColumn (h : IsColumn field) (rest : List Char) :
    FindingLine.dropColumn (field ++ ':' :: rest) = rest := by
  have hcut : cut ':' (field ++ ':' :: rest) = some (field, rest) :=
    cut_eq_some_iff.mpr ⟨rfl, h.not_mem rfl rfl⟩
  rw [FindingLine.dropColumn, hcut]
  exact if_pos (isColumn_iff.mpr h)

theorem dropColumn_of_none {cs : List Char}
    (h : ∀ field rest, cs = field ++ ':' :: rest → ¬ IsColumn field) :
    FindingLine.dropColumn cs = cs := by
  rw [FindingLine.dropColumn]
  split
  · rename_i field rest hcut
    refine if_neg fun hcolumn => ?_
    exact h field rest (cut_eq_some_iff.mp hcut).1 (isColumn_iff.mp hcolumn)
  · rfl

theorem dropColumn_ending (p : Pieces) : FindingLine.dropColumn p.ending = p.remark := by
  rw [Pieces.ending]
  cases hcolumn : p.column with
  | none => exact dropColumn_of_none (p.column_taken hcolumn)
  | some field =>
      rw [columnPart, List.append_assoc]
      exact dropColumn_of_isColumn (p.column_isColumn field hcolumn) p.remark

/-- What is dropped is a column, and what is left does not start with one unless one was dropped. -/
theorem exists_column (cs : List Char) : ∃ column,
    cs = columnPart column ++ FindingLine.dropColumn cs ∧ (∀ field ∈ column, IsColumn field) ∧
      (column = none →
        ∀ field rest, FindingLine.dropColumn cs = field ++ ':' :: rest → ¬ IsColumn field) := by
  by_cases h : ∃ field rest, cs = field ++ ':' :: rest ∧ IsColumn field
  · obtain ⟨field, rest, rfl, hfield⟩ := h
    rw [dropColumn_of_isColumn hfield]
    exact ⟨some field, by simp [columnPart], by simpa using hfield, nofun⟩
  · have hnone : ∀ field rest, cs = field ++ ':' :: rest → ¬ IsColumn field :=
      fun field rest heq hfield => h ⟨field, rest, heq, hfield⟩
    rw [dropColumn_of_none hnone]
    exact ⟨none, rfl, nofun, fun _ => hnone⟩

end Column

section Path

variable {number rest : List Char} {line : UInt32}

theorem mem_isLineNumber {c : Char} (h : IsLineNumber number line) (hc : c ∈ number) :
    isBlank c = true ∨ c.isDigit = true ∨ c = '+' := by
  by_cases hblank : isBlank c = true
  · exact .inl hblank
  · obtain ⟨digits, ⟨_, hdigits, _⟩, htrim⟩ := h
    have hmem : c ∈ trim number := mem_trim hc (Bool.eq_false_iff.mpr hblank)
    rcases htrim with htrim | htrim <;> rw [htrim] at hmem
    · exact .inr (.inl (hdigits c hmem))
    · rcases List.mem_cons.mp hmem with rfl | hmem
      · exact .inr (.inr rfl)
      · exact .inr (.inl (hdigits c hmem))

theorem not_mem_isLineNumber {d : Char} (h : IsLineNumber number line) (hblank : isBlank d = false)
    (hdigit : d.isDigit = false) (hplus : d ≠ '+') : d ∉ number := by
  intro hd
  rcases mem_isLineNumber h hd with hd | hd | hd
  · simp [hd] at hblank
  · simp [hd] at hdigit
  · exact hplus hd

theorem isLineNumber_ne_nil (h : IsLineNumber number line) : number ≠ [] := by
  rintro rfl
  obtain ⟨digits, ⟨hne, _⟩, htrim | htrim⟩ := h
  · exact hne htrim.symm
  · cases htrim

theorem splitDrive_of_drive {letter separator : Char} (hletter : letter.isAlpha = true)
    (hseparator : separator = '\\' ∨ separator = '/') (rest : List Char) :
    FindingLine.splitDrive (letter :: ':' :: separator :: rest) =
      ([letter, ':'], separator :: rest) := by
  rcases hseparator with rfl | rfl <;> simp [FindingLine.splitDrive, hletter]

theorem splitDrive_of_none {cs : List Char}
    (h : ∀ letter separator rest, cs = letter :: ':' :: separator :: rest →
      letter.isAlpha = true → separator ≠ '\\' ∧ separator ≠ '/') :
    FindingLine.splitDrive cs = ([], cs) := by
  unfold FindingLine.splitDrive
  split
  · rename_i letter separator rest
    refine if_neg fun hdrive => ?_
    simp only [Bool.and_eq_true, Bool.or_eq_true, beq_iff_eq] at hdrive
    obtain ⟨hback, hforward⟩ := h letter separator rest rfl hdrive.1
    rcases hdrive.2 with hseparator | hseparator
    · exact hback hseparator
    · exact hforward hseparator
  · rfl

/-- What is split off is a drive. -/
theorem exists_drive (cs : List Char) : ∃ drive rest, FindingLine.splitDrive cs =
    (drivePart drive, rest) ∧ cs = drivePart drive ++ rest ∧
      ∀ letter ∈ drive, letter.isAlpha = true ∧
        ∃ separator ∈ rest.head?, separator = '\\' ∨ separator = '/' := by
  by_cases h : ∃ letter separator rest, cs = letter :: ':' :: separator :: rest ∧
      letter.isAlpha = true ∧ (separator = '\\' ∨ separator = '/')
  · obtain ⟨letter, separator, rest, rfl, hletter, hseparator⟩ := h
    refine ⟨some letter, separator :: rest, splitDrive_of_drive hletter hseparator rest, rfl, ?_⟩
    simpa using ⟨hletter, hseparator⟩
  · refine ⟨none, cs, splitDrive_of_none ?_, rfl, nofun⟩
    rintro letter separator rest rfl hletter
    rw [← not_or]
    exact fun hseparator => h ⟨letter, separator, rest, rfl, hletter, hseparator⟩

/-- In front of a line number a path without a drive cannot be taken for a drive. -/
theorem splitDrive_text (p : SourcePath) (h : IsLineNumber number line) (rest : List Char) :
    FindingLine.splitDrive (p.text ++ ':' :: (number ++ rest)) =
      (drivePart p.drive, p.rest ++ ':' :: (number ++ rest)) := by
  obtain ⟨drive, path, hplain, hdrive⟩ := p
  cases drive with
  | some letter =>
      obtain ⟨hletter, separator, hhead, hseparator⟩ := hdrive letter rfl
      obtain ⟨tail, rfl⟩ := List.head?_eq_some_iff.mp hhead
      exact splitDrive_of_drive hletter hseparator _
  | none =>
      refine splitDrive_of_none fun letter separator tail heq hletter => ?_
      have hcolon : ':' ∉ [letter] := by
        rw [List.mem_singleton]
        rintro rfl
        cases hletter
      obtain ⟨_, htail⟩ := cut_unique heq hplain hcolon
      obtain ⟨c, number, rfl⟩ := List.exists_cons_of_ne_nil (isLineNumber_ne_nil h)
      obtain ⟨rfl, _⟩ := List.cons.inj htail
      constructor
      · rintro rfl
        exact not_mem_isLineNumber h rfl rfl (by decide) List.mem_cons_self
      · rintro rfl
        exact not_mem_isLineNumber h rfl rfl (by decide) List.mem_cons_self

end Path

namespace Pieces

variable {p q : Pieces} {f g : FindingLine}

theorem located_text (h : p.Hold f) : FindingLine.located p.text = .ok f := by
  have hfile : requireField "file" (drivePart p.path.drive ++ p.path.rest) = .ok f.file :=
    requireField_eq_ok_iff.mpr ⟨h.file, h.file_ne⟩
  have hrule : requireField "rule" p.rule = .ok f.rule :=
    requireField_eq_ok_iff.mpr ⟨h.rule, h.rule_ne⟩
  simp only [FindingLine.located, text, splitDrive_text p.path h.line,
    cutAt_append p.path.rest_plain, hfile, cutAt_append p.number_plain,
    readLineNumber_eq_ok_iff.mpr h.line, dropColumn_ending, remark, LocatedGrammar.remark,
    cutAt_append p.gap_plain, cutAt_append p.rule_plain, hrule, h.message, String.ofList_toList,
    bind, Except.bind]
  rfl

/-- Where a finding is read, the line can be cut. -/
theorem exists_of_located {line : List Char} (h : FindingLine.located line = .ok f) :
    ∃ p : Pieces, p.text = line ∧ p.Hold f := by
  obtain ⟨drive, rest, hsplit, rfl, hdrive⟩ := exists_drive line
  rw [FindingLine.located, hsplit] at h
  obtain ⟨⟨path, afterPath⟩, hcutPath, h⟩ := bind_eq_ok h
  obtain ⟨file, hfile, h⟩ := bind_eq_ok h
  obtain ⟨⟨number, afterNumber⟩, hcutNumber, h⟩ := bind_eq_ok h
  obtain ⟨value, hvalue, h⟩ := bind_eq_ok h
  obtain ⟨⟨gap, afterGap⟩, hcutGap, h⟩ := bind_eq_ok h
  obtain ⟨⟨rule, message⟩, hcutRule, h⟩ := bind_eq_ok h
  obtain ⟨ruleName, hrule, h⟩ := bind_eq_ok h
  obtain rfl := Except.ok.inj h
  obtain ⟨rfl, hpath⟩ := cutAt_eq_ok_iff.mp hcutPath
  obtain ⟨rfl, hnumber⟩ := cutAt_eq_ok_iff.mp hcutNumber
  obtain ⟨hremark, hgap⟩ := cutAt_eq_ok_iff.mp hcutGap
  obtain ⟨rfl, hruleName⟩ := cutAt_eq_ok_iff.mp hcutRule
  obtain ⟨hfile, hfile_ne⟩ := requireField_eq_ok_iff.mp hfile
  obtain ⟨hrule, hrule_ne⟩ := requireField_eq_ok_iff.mp hrule
  obtain ⟨column, hending, hcolumn, htaken⟩ := exists_column afterNumber
  rw [hremark] at hending htaken
  -- the slash after a drive belongs to the path, which the colon ends
  have hdrive' : ∀ letter ∈ drive, letter.isAlpha = true ∧
      ∃ separator ∈ path.head?, separator = '\\' ∨ separator = '/' := by
    intro letter hletter
    obtain ⟨halpha, separator, hhead, hseparator⟩ := hdrive letter hletter
    refine ⟨halpha, separator, ?_, hseparator⟩
    cases path with
    | nil =>
        obtain rfl : ':' = separator := by simpa using hhead
        simp at hseparator
    | cons c path => simpa using hhead
  refine ⟨⟨⟨drive, path, hpath, hdrive'⟩, number, column, gap, rule, message, hnumber, hcolumn,
    htaken, hgap, hruleName⟩, ?_, ⟨hfile, readLineNumber_eq_ok_iff.mp hvalue, hrule,
      String.toList_ofList.symm, hfile_ne, hrule_ne⟩⟩
  rw [text, SourcePath.text, List.append_assoc, hending]
  rfl

theorem located_eq_ok_iff {line : List Char} :
    FindingLine.located line = .ok f ↔ ∃ p : Pieces, p.text = line ∧ p.Hold f := by
  constructor
  · exact exists_of_located
  · rintro ⟨p, rfl, hhold⟩
    exact located_text hhold

theorem drivePart_injective : Function.Injective drivePart := by
  rintro (_ | a) (_ | b) h
  · rfl
  · cases h
  · cases h
  · exact congrArg some (List.cons.inj h).1

theorem columnPart_injective : Function.Injective columnPart := by
  rintro (_ | a) (_ | b) h
  · rfl
  · simp [columnPart] at h
  · simp [columnPart] at h
  · exact congrArg some (List.append_cancel_right h)

/-- A line that is a finding can be cut in one way only: no column can be taken for a part of the
rule, and no path for a drive. -/
theorem eq_of_text_eq (hp : p.Hold f) (hq : q.Hold g) (h : p.text = q.text) : p = q := by
  have hsplit := splitDrive_text p.path hp.line (':' :: p.ending)
  rw [← text, h, text, splitDrive_text q.path hq.line] at hsplit
  obtain ⟨hdrive, hrest⟩ := Prod.mk.inj hsplit
  have hdrive := drivePart_injective hdrive
  obtain ⟨hpath, hrest⟩ := cut_unique hrest q.path.rest_plain p.path.rest_plain
  obtain ⟨hnumber, hending⟩ := cut_unique hrest q.number_plain p.number_plain
  have hremark : p.remark = q.remark := by
    rw [← dropColumn_ending, ← dropColumn_ending, hending]
  obtain ⟨hgap, hrest⟩ := cut_unique hremark p.gap_plain q.gap_plain
  obtain ⟨hrule, hmessage⟩ := cut_unique hrest p.rule_plain q.rule_plain
  have hcolumn : p.column = q.column := by
    rw [ending, ending, hremark] at hending
    exact columnPart_injective (List.append_cancel_right hending.symm)
  obtain ⟨⟨_, _, _, _⟩, _⟩ := p
  obtain ⟨⟨_, _, _, _⟩, _⟩ := q
  simp_all only

end Pieces

/-- A finding that can be printed as it is. -/
structure IsPrintable (f : FindingLine) : Prop where
  file : ∃ path : SourcePath, path.text = f.file.toList
  file_ne : f.file ≠ ""
  file_trimmed : trim f.file.toList = f.file.toList
  rule_plain : ')' ∉ f.rule.toList
  rule_ne : f.rule ≠ ""
  rule_trimmed : trim f.rule.toList = f.rule.toList
  message_trimmed : trim f.message.toList = f.message.toList

/-- The finding as it is printed, with its line number written in this way, and with this column or
none. -/
def printed (f : FindingLine) (number : List Char) (column : Option (List Char)) : List Char :=
  f.file.toList ++ ':' :: (number ++ ':' :: (columnPart column ++
    '(' :: (f.rule.toList ++ ')' :: f.message.toList)))

/-- No column is seen where none was printed, whatever colons the message has. -/
theorem not_isColumn_of_parenthesis {field rest cs : List Char}
    (h : '(' :: cs = field ++ ':' :: rest) : ¬ IsColumn field := by
  intro hcolumn
  cases field with
  | nil => cases h
  | cons c field =>
      obtain ⟨rfl, _⟩ := List.cons.inj h
      exact hcolumn.not_mem rfl rfl List.mem_cons_self

theorem located_printed {f : FindingLine} (h : IsPrintable f) {number : List Char}
    (hnumber : IsLineNumber number f.line) {column : Option (List Char)}
    (hcolumn : ∀ field ∈ column, IsColumn field) :
    FindingLine.located (printed f number column) = .ok f := by
  obtain ⟨path, hpath⟩ := h.file
  let p : Pieces := {
    path := path
    number := number
    column := column
    gap := []
    rule := f.rule.toList
    message := f.message.toList
    number_plain := not_mem_isLineNumber hnumber rfl rfl (by decide)
    column_isColumn := hcolumn
    column_taken := fun _ _ _ heq => not_isColumn_of_parenthesis heq
    gap_plain := List.not_mem_nil
    rule_plain := h.rule_plain }
  have htext : p.text = printed f number column := by
    rw [printed, ← hpath]
    rfl
  rw [← htext]
  exact Pieces.located_text ⟨hpath ▸ h.file_trimmed, hnumber, h.rule_trimmed, h.message_trimmed,
    h.file_ne, h.rule_ne⟩

def IsFinding (line : String) : Prop :=
  ∃ (p : Pieces) (f : FindingLine), p.text = line.toList ∧ p.Hold f

theorem isFinding_iff {line : String} :
    IsFinding line ↔ (FindingLine.located line.toList).isOk = true := by
  constructor
  · rintro ⟨p, f, htext, hhold⟩
    rw [← htext, Pieces.located_text hhold]
    rfl
  · intro h
    cases hline : FindingLine.located line.toList with
    | error reason =>
        rw [hline] at h
        cases h
    | ok f =>
        obtain ⟨p, htext, hhold⟩ := Pieces.exists_of_located hline
        exact ⟨p, f, htext, hhold⟩

instance : DecidablePred IsFinding := fun _ => decidable_of_iff _ isFinding_iff.symm

/-- The issue is what the line says. -/
def IsIssueOf (line : String) (i : Issue) : Prop :=
  ∃ (p : Pieces) (f : FindingLine), p.text = line.toList ∧ p.Hold f ∧
    i = .reported ("vera++:" ++ f.rule) f.message f.line f.file

/-- The line is skipped as it is, with what is wrong with it. -/
def IsSkipped (line : String) (s : Skipped) : Prop :=
  s.entry = line ∧ FindingLine.located line.toList = .error s.reason

/-- The reading has the issues of the lines that are findings, and skips the other lines, each in
the order of the lines. -/
structure IsPartition (lines : List String) (r : Reading) : Prop where
  issues : List.Forall₂ IsIssueOf (lines.filter (IsFinding ·)) r.issues
  skipped : List.Forall₂ IsSkipped (lines.filter (¬ IsFinding ·)) r.skipped
  length : r.issues.length + r.skipped.length = lines.length

theorem isPartition_read (settings : ToolSettings) (key : Option String) (lines : List String) :
    IsPartition lines ((Linter.make .vera settings key).read lines) := by
  have hread : (Linter.make .vera settings key).read =
      FindingLine.readAll FindingLine.located fun rule => "vera++:" ++ rule := rfl
  rw [hread]
  constructor
  case issues =>
      refine (issues_readAll_of_iff _ (fun _ => isFinding_iff) lines).imp fun line i hline => ?_
      obtain ⟨f, hline, rfl⟩ := hline
      obtain ⟨p, htext, hhold⟩ := Pieces.exists_of_located hline
      exact ⟨p, f, htext, hhold, rfl⟩
  case skipped => exact skipped_readAll_of_iff _ (fun _ => isFinding_iff) lines
  case length => exact length_readAll _ _ lines

/-- A line is read as a finding just when it can be cut into pieces that hold the finding, and it
can be cut in one way only. What was printed in this form is read as it was, whatever the message
holds, and the tool that prints in it reports the findings of the lines that are one and leaves the
others as they are. -/
theorem located_grammar :
    (∀ (line : List Char) (f : FindingLine),
      FindingLine.located line = .ok f ↔ ∃ p : Pieces, p.text = line ∧ p.Hold f) ∧
    (∀ (p q : Pieces) (f g : FindingLine), p.Hold f → q.Hold g → p.text = q.text → p = q) ∧
    (∀ (f : FindingLine) (number : List Char) (column : Option (List Char)), IsPrintable f →
      IsLineNumber number f.line → (∀ field ∈ column, IsColumn field) →
      FindingLine.located (printed f number column) = .ok f) ∧
    ∀ (settings : ToolSettings) (key : Option String) (lines : List String),
      IsPartition lines ((Linter.make .vera settings key).read lines) := by
  refine ⟨fun _ _ => Pieces.located_eq_ok_iff, ?_, ?_, isPartition_read⟩
  · intro p q f g hp hq h
    exact Pieces.eq_of_text_eq hp hq h
  · intro f number column hf hnumber hcolumn
    exact located_printed hf hnumber hcolumn

/-- A finding with a delimiter wherever one may stand. -/
def drivenFinding : FindingLine :=
  ⟨"C:/a(1).cpp", 7, "T:[(013", "a: (b):12:"⟩

def drivenPath : SourcePath where
  drive := some 'C'
  rest := "/a(1).cpp".toList
  rest_plain := by decide +kernel
  drive_letter := by
    rintro _ ⟨⟩
    exact ⟨rfl, '/', rfl, .inr rfl⟩

/-- The finding with a column and without one, and lines that miss a delimiter or a field. -/
def drivenLines : List String :=
  ["C:/a(1).cpp:\t+007 : 12 :(T:[(013)a: (b):12:", "C:/a(1).cpp:7:(T:[(013)a: (b):12:",
    "C:/a.cpp:7", "C:7:(T013)", "b.cpp:4294967296:(T013)", ":7:(T013)", "b.cpp:7:( )"]

theorem located_grammar_driven :
    (IsPrintable drivenFinding ∧ IsLineNumber "\t+007 ".toList drivenFinding.line ∧
        ∀ field ∈ some " 12 ".toList, IsColumn field) ∧
      drivenLines.head?.map String.toList =
        some (printed drivenFinding "\t+007 ".toList (some " 12 ".toList)) ∧
      FindingLine.located (printed drivenFinding "\t+007 ".toList (some " 12 ".toList)) =
        .ok drivenFinding ∧
      IsPartition drivenLines
        ((Linter.make .vera { executable := Path.ofString "vera++" } none).read drivenLines) ∧
      (Linter.make .vera { executable := Path.ofString "vera++" } none).read drivenLines =
        ⟨[.reported "vera++:T:[(013" "a: (b):12:" 7 "C:/a(1).cpp",
            .reported "vera++:T:[(013" "a: (b):12:" 7 "C:/a(1).cpp",
            .reported "vera++:T013" "" 7 "C"],
          [⟨"C:/a.cpp:7", .missingDelimiter ':'⟩,
            ⟨"b.cpp:4294967296:(T013)", .invalidLineNumber "4294967296"⟩,
            ⟨":7:(T013)", .missingField "file"⟩, ⟨"b.cpp:7:( )", .missingField "rule"⟩]⟩ := by
  have hprintable : IsPrintable drivenFinding :=
    ⟨⟨drivenPath, by decide +kernel⟩, by decide, by decide +kernel, by decide +kernel, by decide,
      by decide +kernel, by decide +kernel⟩
  have hnumber : IsLineNumber "\t+007 ".toList drivenFinding.line :=
    readLineNumber_eq_ok_iff.mp (by decide +kernel)
  have hcolumn : ∀ field ∈ some " 12 ".toList, IsColumn field := by
    rintro _ ⟨⟩
    exact isColumn_iff.mp (by decide +kernel)
  obtain ⟨_, _, hprinted, hread⟩ := located_grammar
  exact ⟨⟨hprintable, hnumber, hcolumn⟩, by decide +kernel,
    hprinted drivenFinding _ _ hprintable hnumber hcolumn, hread _ none drivenLines,
    by decide +kernel⟩

end LintGate.Proofs.LocatedGrammar
