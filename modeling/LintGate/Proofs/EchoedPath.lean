import LintGate.Analysis.Report
import LintGate.Proofs.Blanks
import LintGate.Proofs.Fields
import LintGate.Proofs.LineReadings
import LintGate.Proofs.PathComponents
import LintGate.Proofs.PrintedLines

/-!
Tools that print the path they were given. A finding that is printed on one line is read back, and
kept for the file, unless the path has the character that ends a path in the grammar of the line.
-/

namespace LintGate.Proofs.EchoedPath

open LintGate.Text
open LintGate.Proofs.Blanks
open LintGate.Proofs.Fields
open LintGate.Proofs.LineReadings
open LintGate.Proofs.PathComponents
open LintGate.Proofs.PrintedLines

/-- The characters between the parts of a line. -/
def delimiters : List Char :=
  [':', '(', ')', '[', ']']

/-- A text without blanks at its ends that holds no delimiter. -/
structure PlainText where
  text : String
  ne : text ≠ ""
  trimmed : trim text.toList = text.toList
  plain : delimiters.all (!text.toList.contains ·) = true

/-- A finding as a tool has it. -/
structure Remark where
  line : UInt32
  rule : PlainText
  message : PlainText

/-- The forms in which a finding is printed. -/
inductive Form
  /-- `path:line:(rule)message`, with or without a column after the line. -/
  | located (column : Option Nat)
  /-- `path(line): message [rule]`, whatever comes after on the line. -/
  | bracketed (tail : String) (oneLine : '\n' ∉ tail.toList)

namespace Form

/-- The tools that print in the form. -/
def tools : Form → List Tool
  | .located _ => [.vera]
  | .bracketed _ _ => [.pclint, .other]

/-- The character that ends the path. -/
def delimiter : Form → Char
  | .located _ => ':'
  | .bracketed _ _ => '('

def grammar : Form → List Char → Except SkipReason FindingLine
  | .located _ => FindingLine.located
  | .bracketed _ _ => FindingLine.bracketed

/-- What comes after the finding. -/
def rest : Form → List Char
  | .located _ => []
  | .bracketed tail _ => tail.toList

theorem not_mem_rest (form : Form) : '\n' ∉ form.rest := by
  cases form with
  | located column => exact List.not_mem_nil
  | bracketed tail oneLine => exact oneLine

/-- The form without the carriage returns at the end of the line. -/
def read : Form → Form
  | .located column => .located column
  | .bracketed tail oneLine =>
    .bracketed (String.ofList (tail.toList.rdropWhile (· == '\r'))) (by
      rw [String.toList_ofList]
      exact fun h => oneLine ((List.rdropWhile_prefix _ _).subset h))

end Form

namespace Remark

/-- The line after the character that ends the path. -/
def ending (r : Remark) : Form → List Char
  | .located column =>
    digits r.line.toNat ++ ':' :: ((column.map fun n => digits n ++ [':']).getD [] ++
      '(' :: (r.rule.text.toList ++ ')' :: r.message.text.toList))
  | .bracketed tail _ =>
    digits r.line.toNat ++ ')' :: ':' :: ' ' :: (r.message.text.toList ++
      ' ' :: '[' :: (r.rule.text.toList ++ ']' :: tail.toList))

/-- The line that is printed with this path. -/
def printed (r : Remark) (path : String) (form : Form) : String :=
  String.ofList (path.toList ++ form.delimiter :: r.ending form)

/-- What is written when the line is printed. -/
def output (r : Remark) (path : String) (form : Form) : List UInt8 :=
  Utf8.encode (r.printed path form ++ "\n")

/-- The issue that the finding is for the tool. -/
def issue (r : Remark) (l : Linter) (path : String) : Issue :=
  .reported (l.ruleId r.rule.text) r.message.text r.line path

end Remark

/-- The path of the file as it is given to the tool, the last of its arguments. -/
def givenPath (l : Linter) (cwd file : Path) : String :=
  (l.command cwd file).arguments.getLastD ""

/-- What is read of the output that has the finding with this path. -/
def readOf (l : Linter) (r : Remark) (path : String) (form : Form) : Reading :=
  l.read (ProcessOutput.linesOf (r.output path form))

/-- The finding, printed with the path that was given, is read as it was printed, nothing is
skipped, and the finding is kept whenever its rule is enabled. -/
structure IsHeard (l : Linter) (cwd file : Path) (r : Remark) (form : Form) : Prop where
  read_eq : readOf l r (givenPath l cwd file) form = ⟨[r.issue l (givenPath l cwd file)], []⟩
  kept : ∀ (request : AnalysisRequest) (rule : Rule), request.file = file →
    request.profile.resolve (l.ruleId r.rule.text) = some rule →
    correlate cwd request (readOf l r (givenPath l cwd file) form).issues =
      [{ r.issue l (givenPath l cwd file) with
          component := request.component
          severity := some rule.severity
          debt := rule.debt }]

theorem givenPath_eq (l : Linter) (cwd file : Path) :
    givenPath l cwd file = (Path.absolute cwd file).text := by
  simp [givenPath, Linter.command]

theorem toLower_of_isBlank {c : Char} (h : isBlank c = true) : c.toLower = c := by
  refine dif_neg fun hrange => ?_
  have hcode : 65 ≤ c.toNat ∧ c.toNat ≤ 90 := by
    simpa [UInt32.le_iff_toNat_le] using hrange
  simp only [isBlank, Bool.or_eq_true, Bool.and_eq_true, decide_eq_true_eq, beq_iff_eq] at h
  omega

/-- The extension of a source consists of letters. -/
theorem extension?_of_isSource {p : Path} (h : p.isSource = true) :
    ∃ extension, p.extension? = some extension ∧ extension ≠ [] ∧
      ∀ c ∈ extension, isBlank c = false := by
  rw [Path.isSource] at h
  split at h
  · rename_i extension hextension
    obtain ⟨known, hknown, hsame⟩ := List.any_eq_true.mp h
    have hlower : known.toList = extension.map Char.toLower := by simpa using hsame
    have hletters : ∀ known ∈ Path.sourceExtensions,
        known.toList ≠ [] ∧ known.toList.all (!isBlank ·) = true := by decide +kernel
    obtain ⟨hne, hplain⟩ := hletters known hknown
    refine ⟨extension, hextension, ?_, fun c hc => Bool.eq_false_iff.mpr fun hblank => ?_⟩
    · rintro rfl
      exact hne hlower
    · have hmem : c ∈ known.toList := by
        rw [hlower, List.mem_map]
        exact ⟨c, hc, toLower_of_isBlank hblank⟩
      have hletter := List.all_eq_true.mp hplain c hmem
      rw [hblank] at hletter
      cases hletter
  · cases h

theorem suffix_of_extension? {p : Path} {extension : List Char}
    (h : p.extension? = some extension) :
    ∃ label, p.fileName? = some label ∧ extension <:+ label := by
  obtain ⟨label, hlabel, h⟩ := Option.bind_eq_some_iff.mp h
  refine ⟨label, hlabel, ?_⟩
  simp only at h
  split at h
  · cases h
  · obtain rfl := Option.some.inj h
    exact List.reverse_prefix.mp (by simpa using List.takeWhile_prefix _)

theorem isEmpty_of_isSource {p : Path} (h : p.isSource = true) : p.isEmpty = false := by
  obtain ⟨_, hextension, _⟩ := extension?_of_isSource h
  obtain ⟨_, hname, _⟩ := suffix_of_extension? hextension
  exact isEmpty_of_fileName? hname

section

variable {cwd file : Path} (hcwd : cwd.isAbsolute = true) (hfile : file.isSource = true)

include hcwd hfile

/-- What is given starts with a slash and does not end with a blank. -/
theorem ends_absolute :
    ∃ after before d, (Path.absolute cwd file).chars = '/' :: after ∧
      (Path.absolute cwd file).chars = before ++ [d] ∧ isBlank d = false := by
  obtain ⟨extension, hextension, hne, hplain⟩ := extension?_of_isSource hfile
  obtain ⟨label, hname, start, rfl⟩ := suffix_of_extension? hextension
  obtain ⟨slash, hslash, front, hfront⟩ := suffix_absolute hcwd hname
  have habsolute := isAbsolute_absolute hcwd (isEmpty_of_fileName? hname)
  obtain ⟨after, hafter⟩ := isAbsolute_iff.mp habsolute
  refine ⟨after, ?_⟩
  rw [← hfront] at hafter ⊢
  rcases hslash with rfl | rfl
  · obtain ⟨before, d, rfl⟩ := (List.eq_nil_or_concat extension).resolve_left hne
    exact ⟨front ++ (start ++ before), d, hafter, by simp, hplain d (by simp)⟩
  · exact ⟨front ++ (start ++ extension), '/', hafter, by simp, rfl⟩

theorem trim_absolute : trim (Path.absolute cwd file).chars = (Path.absolute cwd file).chars := by
  obtain ⟨after, before, d, hstart, hend, hd⟩ := ends_absolute hcwd hfile
  exact trim_of_ends hstart rfl hend hd

end

section

variable {path : List Char} (r : Remark) {form : Form}

theorem requireField_plain (name : String) (field : PlainText) :
    requireField name field.text.toList = .ok field.text :=
  requireField_eq_ok_iff.mpr ⟨field.trimmed, field.ne⟩

theorem not_mem_field {d : Char} (hd : d ∈ delimiters) (field : PlainText) :
    d ∉ field.text.toList := by
  simpa using List.all_eq_true.mp field.plain d hd

theorem trim_spaced (field : PlainText) :
    trim (' ' :: (field.text.toList ++ [' '])) = field.text.toList := by
  rw [trim_cons_of_blank rfl, trim_concat_of_blank rfl, field.trimmed]

theorem splitDrive_slash (cs : List Char) :
    FindingLine.splitDrive ('/' :: cs) = ([], '/' :: cs) := by
  unfold FindingLine.splitDrive
  split
  · rename_i heq
    obtain ⟨rfl, rfl⟩ := List.cons.inj heq
    rfl
  · rfl

/-- A column is dropped, and where there is none nothing is. -/
theorem dropColumn_ending (column : Option Nat) :
    FindingLine.dropColumn ((column.map fun n => digits n ++ [':']).getD [] ++
        '(' :: (r.rule.text.toList ++ ')' :: r.message.text.toList)) =
      '(' :: (r.rule.text.toList ++ ')' :: r.message.text.toList) := by
  have hcolon : ':' ∈ delimiters := by decide
  cases column with
  | none =>
      have hnone : ':' ∉ '(' :: (r.rule.text.toList ++ ')' :: r.message.text.toList) := by
        simp [not_mem_field hcolon]
      simp [FindingLine.dropColumn, cut_eq_none_iff.mpr hnone]
  | some n =>
      have hdigits : ∀ c ∈ digits n, c.isDigit = true := fun c hc => isDigit_of_mem_digits hc
      have htrim : trim (digits n) = digits n :=
        trim_eq_self fun c hc => isBlank_eq_false_of_isDigit (hdigits c hc)
      have hcolumn : FindingLine.isColumn (digits n) = true := by
        simpa [FindingLine.isColumn, htrim, digits_ne_nil] using hdigits
      have hcut : cut ':' (digits n ++ ':' ::
            ('(' :: (r.rule.text.toList ++ ')' :: r.message.text.toList))) =
          some (digits n, '(' :: (r.rule.text.toList ++ ')' :: r.message.text.toList)) :=
        cut_eq_some_iff.mpr ⟨rfl, not_mem_digits rfl⟩
      simp [FindingLine.dropColumn, hcut, hcolumn]

theorem grammar_printed {path : String} (hstart : ∃ after, path.toList = '/' :: after)
    (htrim : trim path.toList = path.toList) (hpath : form.delimiter ∉ path.toList) :
    form.grammar (r.printed path form).toList =
      .ok ⟨path, r.line, r.rule.text, r.message.text⟩ := by
  obtain ⟨after, hafter⟩ := hstart
  have hfile : requireField "file" path.toList = .ok path :=
    requireField_eq_ok_iff.mpr ⟨htrim, by rintro rfl; cases hafter⟩
  have hrule {d : Char} (hd : d ∈ delimiters) := not_mem_field hd r.rule
  rw [Remark.printed, String.toList_ofList]
  cases form with
  | located column =>
      have hpath : ':' ∉ path.toList := hpath
      have hdrive (cs : List Char) :
          FindingLine.splitDrive (path.toList ++ cs) = ([], path.toList ++ cs) := by
        rw [hafter, List.cons_append, splitDrive_slash]
      have hopen (cs : List Char) : cutAt '(' ('(' :: cs) = .ok ([], cs) :=
        cutAt_append List.not_mem_nil cs
      simp only [Form.grammar, Form.delimiter, Remark.ending, FindingLine.located, hdrive,
        cutAt_append hpath, List.nil_append, hfile, cutAt_append (not_mem_digits (d := ':') rfl),
        readLineNumber_digits, dropColumn_ending, hopen,
        cutAt_append (hrule (d := ')') (by decide)), requireField_plain, r.message.trimmed,
        String.ofList_toList, bind, Except.bind]
      rfl
  | bracketed tail oneLine =>
      have hpath : '(' ∉ path.toList := hpath
      have hdrop (cs : List Char) : dropOne ':' (':' :: cs) = cs := rfl
      have hmessage : '[' ∉ ' ' :: (r.message.text.toList ++ [' ']) := by
        simp [not_mem_field (d := '[') (by decide) r.message]
      have hcut := cutAt_append hmessage (r.rule.text.toList ++ ']' :: tail.toList)
      simp only [List.cons_append, List.append_assoc, List.nil_append] at hcut
      simp only [Form.grammar, Form.delimiter, Remark.ending, FindingLine.bracketed,
        cutAt_append hpath, cutAt_append (not_mem_digits (d := ')') rfl), readLineNumber_digits,
        hdrop, hcut, cutAt_append (hrule (d := ']') (by decide)), hfile, requireField_plain,
        trim_spaced, String.ofList_toList, bind, Except.bind]
      rfl

/-- The path on a line that is read ends at the first character that can end it. -/
theorem file_of_grammar {before after : List Char} (hbefore : form.delimiter ∉ before)
    (hstart : ∃ rest, before ++ form.delimiter :: after = '/' :: rest) {found : FindingLine}
    (h : form.grammar (before ++ form.delimiter :: after) = .ok found) :
    found.file.toList = trim before := by
  have hcut := cutAt_append hbefore after
  cases form with
  | located column =>
      obtain ⟨rest, hrest⟩ := hstart
      have hdrive := splitDrive_slash rest
      rw [← hrest] at hdrive
      rw [Form.grammar, FindingLine.located, hdrive] at h
      obtain ⟨path, hpath, h⟩ := bind_eq_ok h
      obtain rfl := Except.ok.inj (hcut.symm.trans hpath)
      obtain ⟨file, hfile, h⟩ := bind_eq_ok h
      obtain ⟨number, _, h⟩ := bind_eq_ok h
      obtain ⟨line, _, h⟩ := bind_eq_ok h
      obtain ⟨between, _, h⟩ := bind_eq_ok h
      obtain ⟨message, _, h⟩ := bind_eq_ok h
      obtain ⟨rule, _, h⟩ := bind_eq_ok h
      obtain rfl := Except.ok.inj h
      exact (requireField_eq_ok_iff.mp hfile).1.symm
  | bracketed tail oneLine =>
      rw [Form.grammar, FindingLine.bracketed] at h
      obtain ⟨path, hpath, h⟩ := bind_eq_ok h
      obtain rfl := Except.ok.inj (hcut.symm.trans hpath)
      obtain ⟨number, _, h⟩ := bind_eq_ok h
      obtain ⟨line, _, h⟩ := bind_eq_ok h
      obtain ⟨message, _, h⟩ := bind_eq_ok h
      obtain ⟨id, _, h⟩ := bind_eq_ok h
      obtain ⟨file, hfile, h⟩ := bind_eq_ok h
      obtain ⟨rule, _, h⟩ := bind_eq_ok h
      obtain rfl := Except.ok.inj h
      exact (requireField_eq_ok_iff.mp hfile).1.symm

/-- A path in which a character stands that ends it is not read whole. -/
theorem file_ne_of_grammar {path : String} (hstart : ∃ after, path.toList = '/' :: after)
    (hpath : form.delimiter ∈ path.toList) {found : FindingLine}
    (h : form.grammar (r.printed path form).toList = .ok found) : found.file ≠ path := by
  obtain ⟨before, rest, hsplit, hbefore⟩ := List.eq_append_cons_of_mem hpath
  obtain ⟨after, hafter⟩ := hstart
  have hprinted : (r.printed path form).toList =
      before ++ form.delimiter :: (rest ++ form.delimiter :: r.ending form) := by
    rw [Remark.printed, String.toList_ofList, hsplit, List.append_assoc, List.cons_append]
  have hslash : ∃ line, before ++ form.delimiter :: (rest ++ form.delimiter :: r.ending form) =
      '/' :: line := by
    refine ⟨after ++ form.delimiter :: r.ending form, ?_⟩
    rw [← hprinted, Remark.printed, String.toList_ofList, hafter, List.cons_append]
  rw [hprinted] at h
  rintro rfl
  -- what is read is no longer than what stands before the delimiter
  have hlength := trim_length_le before
  rw [← file_of_grammar hbefore hslash h, hsplit, List.length_append, List.length_cons] at hlength
  omega

end

section

variable {tool : Tool} {form : Form} (htool : tool ∈ form.tools) (settings : ToolSettings)
  (key : Option String)

include htool

theorem read_eq_readAll (lines : List String) :
    (Linter.make tool settings key).read lines =
      FindingLine.readAll form.grammar (Linter.make tool settings key).ruleId lines := by
  cases form with
  | located column =>
      obtain rfl : tool = .vera := by simpa [Form.tools] using htool
      rfl
  | bracketed tail oneLine =>
      have htools : tool = .pclint ∨ tool = .other := by simpa [Form.tools] using htool
      exact read_of_bracketed htools lines

/-- A finding is read back just when its path does not have the character that ends a path. -/
theorem read_printed_iff_not_mem {path : String} (hstart : ∃ after, path.toList = '/' :: after)
    (htrim : trim path.toList = path.toList) (r : Remark) :
    (Linter.make tool settings key).read [r.printed path form] =
        ⟨[r.issue (Linter.make tool settings key) path], []⟩ ↔
      form.delimiter ∉ path.toList := by
  rw [read_eq_readAll htool, readAll_singleton]
  constructor
  · intro hread hmem
    cases hgrammar : form.grammar (r.printed path form).toList with
    | error reason =>
        rw [hgrammar] at hread
        cases hread
    | ok found =>
        rw [hgrammar] at hread
        have hissue := List.singleton_inj.mp (congrArg Reading.issues hread)
        exact file_ne_of_grammar r hstart hmem hgrammar (congrArg Issue.component hissue)
  · intro hpath
    rw [grammar_printed r hstart htrim hpath]
    rfl

end

section Output

variable (r : Remark)

/-- The last character of a text without blanks at its ends is none. -/
theorem exists_concat (field : PlainText) :
    ∃ before d, field.text.toList = before ++ [d] ∧ isBlank d = false := by
  obtain ⟨before, d, htext⟩ := (List.eq_nil_or_concat field.text.toList).resolve_left
    (mt String.toList_eq_nil_iff.mp field.ne)
  rw [List.concat_eq_append] at htext
  refine ⟨before, d, htext, Bool.eq_false_iff.mpr fun hd => ?_⟩
  have htrimmed := field.trimmed
  rw [htext, trim_concat_of_blank hd] at htrimmed
  have hlength := trim_length_le before
  rw [htrimmed, List.length_append, List.length_singleton] at hlength
  omega

/-- A finding ends with a character that ends no line. -/
theorem exists_ending (form : Form) : ∃ before d, d ≠ '\n' ∧ d ≠ '\r' ∧
    r.ending form = before ++ d :: form.rest ∧
    r.ending form.read = before ++ d :: form.rest.rdropWhile (· == '\r') := by
  cases form with
  | located column =>
      obtain ⟨before, d, hmessage, hd⟩ := exists_concat r.message
      refine ⟨digits r.line.toNat ++ ':' :: ((column.map fun n => digits n ++ [':']).getD [] ++
        '(' :: (r.rule.text.toList ++ ')' :: before)), d, ?_, ?_, ?_, ?_⟩
      · rintro rfl
        cases hd
      · rintro rfl
        cases hd
      · simp [Remark.ending, Form.rest, hmessage]
      · simp [Remark.ending, Form.rest, Form.read, hmessage]
  | bracketed tail oneLine =>
      refine ⟨digits r.line.toNat ++ ')' :: ':' :: ' ' :: (r.message.text.toList ++
        ' ' :: '[' :: r.rule.text.toList), ']', by decide, by decide, ?_, ?_⟩
      · simp [Remark.ending, Form.rest]
      · simp [Remark.ending, Form.rest, Form.read]

theorem linesOf_output (path : String) (form : Form) :
    ProcessOutput.linesOf (r.output path form) = linesOf (r.printed path form).toList := by
  rw [Remark.output, linesOf_encode, String.toList_append]
  exact (linesOf_append _ []).trans (List.append_nil _)

/-- What is printed on one line is read as one line. -/
theorem linesOf_printed {path : String} {form : Form}
    (h : '\n' ∉ (r.printed path form).toList) :
    linesOf (r.printed path form).toList = [r.printed path form.read] := by
  obtain ⟨before, d, _, hreturn, hending, hread⟩ := exists_ending r form
  have hdelimiter : form.read.delimiter = form.delimiter := by cases form <;> rfl
  have hline : lineOf (r.printed path form).toList = r.printed path form.read := by
    have hassoc := lineOf_append_cons hreturn (path.toList ++ form.delimiter :: before) form.rest
    rw [← String.toList_inj, Remark.printed, Remark.printed, String.toList_ofList,
      String.toList_ofList, hdelimiter, hread, hending]
    simpa using hassoc
  have hne : r.printed path form.read ≠ "" := by
    simp [Remark.printed]
  rw [linesOf_of_not_mem h (hline ▸ hne), hline]

/-- What is printed on several lines is read as several lines. -/
theorem two_le_length_linesOf {path : String} {form : Form}
    (hstart : ∃ after, path.toList = '/' :: after) (h : '\n' ∈ (r.printed path form).toList) :
    2 ≤ (linesOf (r.printed path form).toList).length := by
  obtain ⟨after, hafter⟩ := hstart
  obtain ⟨before, d, hfeed, hreturn, hending, _⟩ := exists_ending r form
  have hprinted : (r.printed path form).toList =
      '/' :: (after ++ form.delimiter :: before) ++ d :: form.rest := by
    simp [Remark.printed, hafter, hending]
  have hmem : '\n' ∈ '/' :: (after ++ form.delimiter :: before) := by
    rw [hprinted] at h
    refine (List.mem_append.mp h).resolve_right fun h => ?_
    rcases List.mem_cons.mp h with rfl | h
    · exact hfeed rfl
    · exact form.not_mem_rest h
  obtain ⟨first, second, hsplit⟩ :=
    List.append_of_mem ((List.mem_cons.mp hmem).resolve_left (by decide))
  have hfirst : linesOf ('/' :: first) ≠ [] :=
    linesOf_ne_nil List.mem_cons_self (by decide) (by decide)
  have hsecond : linesOf (second ++ d :: form.rest) ≠ [] :=
    linesOf_ne_nil (by simp) hfeed hreturn
  have hlines : linesOf (r.printed path form).toList =
      linesOf ('/' :: first) ++ linesOf (second ++ d :: form.rest) := by
    rw [hprinted, hsplit, ← linesOf_append]
    simp
  rw [hlines, List.length_append]
  have hone := List.length_pos_iff.mpr hfirst
  have htwo := List.length_pos_iff.mpr hsecond
  omega

end Output

/-- An issue of the file is kept with what the profile says of its rule. -/
theorem correlate_singleton {cwd : Path} {request : AnalysisRequest} {i : Issue} {rule : Rule}
    (hne : i.component ≠ "")
    (hsame : Path.sameFile cwd (Path.ofString i.component) request.file = true)
    (hrule : request.profile.resolve i.ruleId = some rule) :
    correlate cwd request [i] =
      [{ i with
          component := request.component
          severity := some rule.severity
          debt := rule.debt }] := by
  simp [correlate, hne, hsame, Profile.annotate, hrule]

section

variable {tool : Tool} {form : Form} (htool : tool ∈ form.tools) (settings : ToolSettings)
  (key : Option String) (r : Remark)

include htool

/-- The output is read as the finding just when the path does not have the character that ends a
path, and all of it is one line. -/
theorem readOf_iff {path : String} (hstart : ∃ after, path.toList = '/' :: after)
    (htrim : trim path.toList = path.toList) :
    readOf (Linter.make tool settings key) r path form =
        ⟨[r.issue (Linter.make tool settings key) path], []⟩ ↔
      form.delimiter ∉ path.toList ∧ '\n' ∉ (r.printed path form).toList := by
  rw [readOf, linesOf_output]
  by_cases hfeed : '\n' ∈ (r.printed path form).toList
  · -- every line gives something, and there are two of them
    refine iff_of_false (fun hread => ?_) (fun h => h.2 hfeed)
    have hlength := length_readAll form.grammar (Linter.make tool settings key).ruleId
      (linesOf (r.printed path form).toList)
    have htwo := two_le_length_linesOf r hstart hfeed
    rw [← read_eq_readAll htool, hread] at hlength
    simp only [List.length_cons, List.length_nil] at hlength
    omega
  · have hread : tool ∈ form.read.tools := by cases form <;> exact htool
    have hdelimiter : form.read.delimiter = form.delimiter := by cases form <;> rfl
    rw [linesOf_printed r hfeed, ← hdelimiter, and_iff_left hfeed]
    exact read_printed_iff_not_mem hread settings key hstart htrim r

end

/-- What a tool says of a file with the path it was given is heard just when that path does not have
the character that ends a path on a line, and it is said on one line. -/
theorem isHeard_iff {cwd file : Path} (hcwd : cwd.isAbsolute = true) (hfile : file.isSource = true)
    {tool : Tool} {form : Form} (htool : tool ∈ form.tools) (settings : ToolSettings)
    (key : Option String) (r : Remark) :
    IsHeard (Linter.make tool settings key) cwd file r form ↔
      form.delimiter ∉ (givenPath (Linter.make tool settings key) cwd file).toList ∧
        '\n' ∉ (r.printed (givenPath (Linter.make tool settings key) cwd file) form).toList := by
  have hgiven := givenPath_eq (Linter.make tool settings key) cwd file
  have hchars : (givenPath (Linter.make tool settings key) cwd file).toList =
      (Path.absolute cwd file).chars := by
    rw [hgiven, Path.text, String.toList_ofList]
  obtain ⟨after, _, _, hafter, _⟩ := ends_absolute hcwd hfile
  have hstart : ∃ after, (givenPath (Linter.make tool settings key) cwd file).toList =
      '/' :: after := ⟨after, hchars.trans hafter⟩
  have htrim : trim (givenPath (Linter.make tool settings key) cwd file).toList =
      (givenPath (Linter.make tool settings key) cwd file).toList := by
    rw [hchars, trim_absolute hcwd hfile]
  have hread := readOf_iff htool settings key r hstart htrim
  refine ⟨fun h => hread.mp h.read_eq, fun hpath => ⟨hread.mpr hpath, ?_⟩⟩
  rintro request rule rfl hrule
  rw [hread.mpr hpath]
  refine correlate_singleton ?_ ?_ hrule
  · intro hempty
    obtain ⟨_, hslash⟩ := hstart
    rw [show givenPath (Linter.make tool settings key) cwd request.file = "" from hempty] at hslash
    cases hslash
  · have hpath : Path.ofString (givenPath (Linter.make tool settings key) cwd request.file) =
        Path.absolute cwd request.file := by
      rw [Path.ofString, hchars]
    rw [Remark.issue, Issue.reported, hpath]
    exact sameFile_absolute hcwd (isEmpty_of_isSource hfile)

/-- A text of letters. -/
def plainRule : PlainText :=
  ⟨"T013", by decide, by decide +kernel, by decide +kernel⟩

/-- A text with a blank in it. -/
def plainMessage : PlainText :=
  ⟨"no copyright", by decide, by decide +kernel, by decide +kernel⟩

theorem isHeard_spaced :
    (Path.ofString "/work dir").isAbsolute = true ∧
      (Path.ofString "./x(1)/../a [b].cpp").isSource = true ∧
      Tool.vera ∈ (Form.located (some 3)).tools ∧
      IsHeard (Linter.make .vera { executable := Path.ofString "vera++" } none)
        (Path.ofString "/work dir") (Path.ofString "./x(1)/../a [b].cpp")
        ⟨4294967295, plainRule, plainMessage⟩ (.located (some 3)) :=
  ⟨rfl, by decide +kernel, by decide,
    (isHeard_iff rfl (by decide +kernel) (by decide) _ none _).mpr
      ⟨by decide +kernel, by decide +kernel⟩⟩

/-- A file of that name is taken for another one, and the number in it for a line. -/
theorem not_isHeard_parenthesis :
    (Path.ofString "/").isAbsolute = true ∧ (Path.ofString "/src/a(1).cpp").isSource = true ∧
      Tool.other ∈ (Form.bracketed "" (by decide)).tools ∧
      Remark.printed ⟨12, plainRule, plainMessage⟩ "/src/a(1).cpp" (.bracketed "" (by decide)) =
        "/src/a(1).cpp(12): no copyright [T013]" ∧
      ¬ IsHeard (Linter.make .other { executable := Path.ofString "cpplint" } none)
        (Path.ofString "/") (Path.ofString "/src/a(1).cpp")
        ⟨12, plainRule, plainMessage⟩ (.bracketed "" (by decide)) := by
  refine ⟨rfl, by decide +kernel, by decide, by decide +kernel, fun h => ?_⟩
  have hread : readOf (Linter.make .other { executable := Path.ofString "cpplint" } none)
      ⟨12, plainRule, plainMessage⟩ (givenPath (Linter.make .other
        { executable := Path.ofString "cpplint" } none) (Path.ofString "/")
        (Path.ofString "/src/a(1).cpp")) (.bracketed "" (by decide)) =
      .found (.reported "other.T013" ".cpp(12): no copyright" 1 "/src/a") := by decide +kernel
  exact absurd (hread.symm.trans h.read_eq) (by decide +kernel)

end LintGate.Proofs.EchoedPath
