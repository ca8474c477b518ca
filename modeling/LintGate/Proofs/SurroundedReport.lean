import LintGate.Linter.Basic
import Mathlib.Data.List.TakeWhile

/-!
Reports with other lines around them. A report is cut out of the text of all lines at the first
opening bracket and at the last closing one, so lines before it must not open and lines after it
must not close anything; what else they hold does not count.
-/

namespace LintGate.Proofs.SurroundedReport

/-- The characters of the lines, with line ends between them. -/
def textOf (lines : List String) : List Char :=
  (Text.joined "\n" lines).toList

/-- The text starts with an opening bracket and ends with a closing one. -/
def IsBracketed (text : List Char) : Prop :=
  text.head? = some '<' ∧ text.getLast? = some '>'

instance (text : List Char) : Decidable (IsBracketed text) :=
  inferInstanceAs (Decidable (_ ∧ _))

/-- A closing bracket comes after an opening one. -/
def Closes (text : List Char) : Prop :=
  ∃ before inner after, text = before ++ '<' :: inner ++ '>' :: after

section Text

theorem textOf_nil : textOf [] = [] := by
  simp [textOf, Text.joined]

theorem textOf_singleton (line : String) : textOf [line] = line.toList := by
  simp [textOf, Text.joined]

theorem textOf_cons (line : String) {lines : List String} (h : lines ≠ []) :
    textOf (line :: lines) = line.toList ++ '\n' :: textOf lines := by
  obtain ⟨next, rest, rfl⟩ := List.exists_cons_of_ne_nil h
  simp [textOf, Text.joined, List.intercalate]

theorem textOf_append {lines others : List String} (h : lines ≠ []) (hothers : others ≠ []) :
    textOf (lines ++ others) = textOf lines ++ '\n' :: textOf others := by
  induction lines with
  | nil => exact absurd rfl h
  | cons line lines ih =>
      rw [List.cons_append]
      cases lines with
      | nil => rw [List.nil_append, textOf_cons line hothers, textOf_singleton]
      | cons next rest =>
          rw [textOf_cons line (by simp), ih (by simp), textOf_cons line (by simp)]
          simp

theorem not_mem_textOf {c : Char} (hc : c ≠ '\n') {lines : List String}
    (h : ∀ line ∈ lines, c ∉ line.toList) : c ∉ textOf lines := by
  induction lines with
  | nil => simp [textOf_nil]
  | cons line lines ih =>
      obtain ⟨hline, hrest⟩ := List.forall_mem_cons.mp h
      by_cases hlines : lines = []
      · subst hlines
        rwa [textOf_singleton]
      · simp [textOf_cons line hlines, hline, hc, ih hrest]

/-- Lines without a character other than the line end add text without it in front. -/
theorem exists_text_before {c : Char} (hc : c ≠ '\n') {before lines : List String}
    (h : ∀ line ∈ before, c ∉ line.toList) (hlines : lines ≠ []) :
    ∃ front, textOf (before ++ lines) = front ++ textOf lines ∧ c ∉ front := by
  by_cases hbefore : before = []
  · exact ⟨[], by simp [hbefore]⟩
  · refine ⟨textOf before ++ ['\n'], ?_, by simp [not_mem_textOf hc h, hc]⟩
    rw [textOf_append hbefore hlines, List.append_assoc, List.singleton_append]

/-- They do the same behind. -/
theorem exists_text_after {c : Char} (hc : c ≠ '\n') {lines after : List String}
    (h : ∀ line ∈ after, c ∉ line.toList) (hlines : lines ≠ []) :
    ∃ back, textOf (lines ++ after) = textOf lines ++ back ∧ c ∉ back := by
  by_cases hafter : after = []
  · exact ⟨[], by simp [hafter]⟩
  · exact ⟨'\n' :: textOf after, textOf_append hlines hafter,
      by simp [not_mem_textOf hc h, hc]⟩

end Text

section Extraction

variable {lines : List String}

/-- What stands before the first occurrence of a character is dropped, whatever it is. -/
theorem dropWhile_ne_append {c : Char} {front text : List Char} (hfront : c ∉ front)
    (htext : text.head? = some c) : (front ++ text).dropWhile (· != c) = text := by
  obtain ⟨rest, rfl⟩ := List.head?_eq_some_iff.mp htext
  have hdropped : ∀ a ∈ front, (a != c) = true := by
    intro a ha
    rw [bne_iff_ne]
    rintro rfl
    exact hfront ha
  rw [List.dropWhile_append_of_pos hdropped, List.dropWhile_cons_of_neg (by simp)]

theorem closes_iff {text : List Char} : Closes text ↔ '>' ∈ text.dropWhile (· != '<') := by
  constructor
  · rintro ⟨before, inner, after, rfl⟩
    induction before with
    | nil => simp
    | cons c before ih =>
        by_cases hc : c = '<'
        · simp [hc]
        · simpa [hc] using ih
  · intro h
    obtain ⟨opening, rest, hstart⟩ := List.exists_cons_of_ne_nil (List.ne_nil_of_mem h)
    obtain rfl : opening = '<' := by
      have hopening := List.head?_dropWhile_not (· != '<') text
      simpa [hstart] using hopening
    have hclosing : '>' ∈ rest := by simpa [hstart] using h
    obtain ⟨inner, after, rfl⟩ := List.append_of_mem hclosing
    refine ⟨text.takeWhile (· != '<'), inner, after, ?_⟩
    rw [List.append_assoc, List.cons_append, ← hstart, List.takeWhile_append_dropWhile]

instance (text : List Char) : Decidable (Closes text) :=
  decidable_of_iff _ closes_iff.symm

theorem extract?_eq_some {front text back : List Char} (h : textOf lines = front ++ text ++ back)
    (htext : IsBracketed text) (hfront : '<' ∉ front) (hback : '>' ∉ back) :
    Report.extract? lines = some (String.ofList text) := by
  obtain ⟨hopens, hcloses⟩ := htext
  obtain ⟨rest, htext⟩ := List.head?_eq_some_iff.mp hopens
  have hstart : (textOf lines).dropWhile (· != '<') = text ++ back := by
    rw [h, List.append_assoc]
    exact dropWhile_ne_append hfront (by simp [htext])
  have hdocument : (((text ++ back).reverse).dropWhile (· != '>')).reverse = text := by
    rw [List.reverse_append, dropWhile_ne_append (by simpa using hback) (by simpa using hcloses),
      List.reverse_reverse]
  have hne : text.isEmpty = false := by simp [htext]
  rw [textOf] at hstart
  simp only [Report.extract?, hstart, hdocument, hne, Bool.false_eq_true, if_false]

/-- Without a closing bracket behind an opening one there is nothing to cut out. -/
theorem extract?_eq_none (h : ¬ Closes (textOf lines)) : Report.extract? lines = none := by
  rw [closes_iff, ← List.mem_reverse] at h
  have hnone : ((textOf lines).dropWhile (· != '<')).reverse.dropWhile (· != '>') = [] := by
    rw [List.dropWhile_eq_nil_iff]
    intro c hc
    rw [bne_iff_ne]
    rintro rfl
    exact h hc
  rw [textOf] at hnone
  simp [Report.extract?, hnone]

end Extraction

section Reading

variable {before report after : List String}

theorem ne_nil_of_isBracketed (h : IsBracketed (textOf report)) : report ≠ [] := by
  rintro rfl
  simp [IsBracketed, textOf_nil] at h

/-- The same report is cut out with the lines around it and without them. -/
theorem extract?_surrounded (hreport : IsBracketed (textOf report))
    (hbefore : ∀ line ∈ before, '<' ∉ line.toList) (hafter : ∀ line ∈ after, '>' ∉ line.toList) :
    Report.extract? (before ++ report ++ after) = Report.extract? report := by
  have hne := ne_nil_of_isBracketed hreport
  obtain ⟨front, hfront, hopens⟩ := exists_text_before (by decide) hbefore hne
  have hlines : before ++ report ≠ [] := by simp [hne]
  obtain ⟨back, hback, hcloses⟩ := exists_text_after (by decide) hafter hlines
  rw [hfront] at hback
  rw [extract?_eq_some hback hreport hopens hcloses,
    extract?_eq_some (by simp) hreport List.not_mem_nil List.not_mem_nil]

theorem read_surrounded (title record : String) (convert : Markup.Node → Reading)
    (hreport : IsBracketed (textOf report))
    (hbefore : ∀ line ∈ before, '<' ∉ line.toList) (hafter : ∀ line ∈ after, '>' ∉ line.toList) :
    Report.read title record convert (before ++ report ++ after) =
      Report.read title record convert report := by
  have hne := ne_nil_of_isBracketed hreport
  have hextract : Report.extract? report = some (String.ofList (textOf report)) :=
    extract?_eq_some (by simp) hreport List.not_mem_nil List.not_mem_nil
  have hsurrounded := extract?_surrounded hreport hbefore hafter
  have hne' : before ++ report ++ after ≠ [] := by simp [hne]
  simp only [Report.read, List.isEmpty_iff, hne, hne', if_false, hsurrounded, hextract]

theorem read_of_not_closes (title record : String) (convert : Markup.Node → Reading)
    {lines : List String} (hne : lines ≠ []) (h : ¬ Closes (textOf lines)) :
    Report.read title record convert lines =
      .skip s!"{lines.length} line(s) of output" .noReport := by
  simp [Report.read, hne, extract?_eq_none h]

end Reading

/-- Where a tool reports in a document, lines without an opening bracket before it and lines without
a closing bracket after it make no difference to what is read, be the document well-formed or not.
Lines in which nothing is closed that was opened are one skipped entry and no finding, and no lines
are nothing at all. -/
theorem linter_read_surrounded (l : Linter) (htool : l.tool = .cppcheck ∨ l.tool = .rats) :
    (∀ before report after : List String, IsBracketed (textOf report) →
      (∀ line ∈ before, '<' ∉ line.toList) → (∀ line ∈ after, '>' ∉ line.toList) →
      l.read (before ++ report ++ after) = l.read report) ∧
    (∀ lines : List String, lines ≠ [] → ¬ Closes (textOf lines) →
      l.read lines = ⟨[], [⟨s!"{lines.length} line(s) of output", .noReport⟩]⟩) ∧
    l.read [] = ⟨[], []⟩ := by
  obtain ⟨title, record, convert, hread⟩ : ∃ title record convert,
      l.read = Report.read title record convert := by
    rcases htool with htool | htool
    · exact ⟨_, _, _, by funext lines; rw [Linter.read, htool, Report.Cppcheck.read]⟩
    · exact ⟨_, _, _, by funext lines; rw [Linter.read, htool, Report.Rats.read]⟩
  rw [hread]
  refine ⟨fun before report after hreport hbefore hafter => ?_, fun lines hne h => ?_, rfl⟩
  · exact read_surrounded title record convert hreport hbefore hafter
  · exact read_of_not_closes title record convert hne h

/-- Lines around a report that hold blank lines, other alphabets and the opposite brackets. -/
theorem linter_read_surrounded_talkative :
    let l : Linter := ⟨.cppcheck, { executable := Path.ofString "cppcheck" }, none⟩
    let before := ["Prüfe größe.cpp ...", "", "1/1 -> 100%"]
    let report := ["<results>", "<error id=\"nullPointer\" file=\"größe.cpp\" line=\"3\"/>",
      "</results>"]
    let after := ["", "fertig, 1 < 2"]
    IsBracketed (textOf report) ∧ ¬ Closes (textOf (before ++ after)) ∧
      (l.read (before ++ report ++ after)).issues.map (·.ruleId) = ["cppcheck.nullPointer"] ∧
      l.read (before ++ ["<results>", "<error>"] ++ ["</results>"] ++ after) =
        ⟨[], [⟨"cppcheck report", .malformedReport⟩]⟩ ∧
      l.read (before ++ after) = ⟨[], [⟨"5 line(s) of output", .noReport⟩]⟩ := by
  intro l before report after
  have hreport : IsBracketed (textOf report) := by decide +kernel
  have hbefore : ∀ line ∈ before, '<' ∉ line.toList := by decide +kernel
  have hafter : ∀ line ∈ after, '>' ∉ line.toList := by decide +kernel
  have hcloses : ¬ Closes (textOf (before ++ after)) := by decide +kernel
  obtain ⟨hsurrounded, hnone, _⟩ := linter_read_surrounded l (.inl rfl)
  refine ⟨hreport, hcloses, ?_, ?_, ?_⟩
  · rw [hsurrounded before report after hreport hbefore hafter]
    decide +kernel
  · rw [List.append_assoc before,
      hsurrounded before _ after (by decide +kernel) hbefore hafter]
    decide +kernel
  · rw [hnone (before ++ after) (by decide) hcloses]
    decide +kernel

end LintGate.Proofs.SurroundedReport
