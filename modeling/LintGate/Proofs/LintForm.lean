import LintGate.Linter.Basic
import LintGate.Proofs.Fields
import LintGate.Proofs.LineReadings

/-!
The form in which PC-lint is told to print, and the grammar its lines are read by. A line is read
back as what was printed unless the message has an opening bracket, where the grammar looks for the
number.
-/

namespace LintGate.Proofs.LintForm

open LintGate.Proofs.Fields
open LintGate.Proofs.LineReadings

/-- A finding as PC-lint has it. -/
structure LintFinding where
  file : String
  line : UInt32
  /-- The type of the message, such as `Warning`. -/
  kind : String
  message : String
  number : String

namespace LintFinding

/-- What a directive of the form stands for. The two that enclose the place print nothing. -/
def directive (f : LintFinding) (d : Char) : List Char :=
  if d = 'F' then f.file.toList
  else if d = 'l' then Text.digits f.line.toNat
  else if d = 't' then f.kind.toList
  else if d = 'm' then f.message.toList
  else if d = 'n' then f.number.toList
  else []

/-- A form with its directives replaced. -/
def fill (f : LintFinding) : List Char → List Char
  | '%' :: d :: rest => f.directive d ++ fill f rest
  | c :: rest => c :: fill f rest
  | [] => []

@[simp] theorem fill_nil (f : LintFinding) : f.fill [] = [] :=
  rfl

@[simp] theorem fill_directive (f : LintFinding) (d : Char) (rest : List Char) :
    f.fill ('%' :: d :: rest) = f.directive d ++ f.fill rest :=
  rfl

@[simp] theorem fill_plain (f : LintFinding) {c : Char} (h : c ≠ '%') (rest : List Char) :
    f.fill (c :: rest) = c :: f.fill rest := by
  rw [fill]
  rintro d rest' rfl
  exact absurd rfl h

/-- The line that PC-lint prints, told to by the option. -/
def printed (f : LintFinding) : String :=
  String.ofList (f.fill (Linter.formatOption.toList.drop "-format=".length))

/-- The path has no blanks at its ends and no parenthesis, the type is a word, and the number is
one. -/
structure WellFormed (f : LintFinding) : Prop where
  file_ne : f.file ≠ ""
  file_trimmed : Text.trim f.file.toList = f.file.toList
  file_plain : '(' ∉ f.file.toList
  kind_plain : '[' ∉ f.kind.toList
  number_ne : f.number ≠ ""
  number_digits : f.number.toList.all Char.isDigit = true

instance (f : LintFinding) : Decidable f.WellFormed :=
  decidable_of_iff (f.file ≠ "" ∧ Text.trim f.file.toList = f.file.toList ∧
      '(' ∉ f.file.toList ∧ '[' ∉ f.kind.toList ∧ f.number ≠ "" ∧
      f.number.toList.all Char.isDigit = true)
    ⟨fun ⟨hf, ht, hp, hk, hn, hd⟩ => ⟨hf, ht, hp, hk, hn, hd⟩,
      fun ⟨hf, ht, hp, hk, hn, hd⟩ => ⟨hf, ht, hp, hk, hn, hd⟩⟩

/-- One finding has been read, with the rule, the line and the file that were printed, and nothing
was skipped. -/
def IsReadAs (f : LintFinding) (r : Reading) : Prop :=
  ∃ i, r.issues = [i] ∧ i.ruleId = "pclint:" ++ f.number ∧ i.line = f.line ∧
    i.component = f.file ∧ r.skipped = []

/-- What stands between the colon and the message. -/
def opening (f : LintFinding) : List Char :=
  [' ', 'e', 'r', 'r', 'o', 'r', ' ', ':', ' ', '('] ++ f.kind.toList ++ [' ', '-', '-', ' ']

/-- What stands after the message. -/
def ending (f : LintFinding) : List Char :=
  [')', ' ', ':', ' '] ++ '[' :: (f.number.toList ++ [']'])

theorem form_eq : Linter.formatOption.toList.drop "-format=".length =
    ['%', '(', '%', 'F', '(', '%', 'l', ')', ':', '%', ')', ' ', 'e', 'r', 'r', 'o', 'r', ' ',
      ':', ' ', '(', '%', 't', ' ', '-', '-', ' ', '%', 'm', ')', ' ', ':', ' ', '[', '%', 'n',
      ']'] := by
  decide +kernel

theorem toList_printed (f : LintFinding) :
    f.printed.toList =
      f.file.toList ++ '(' :: (Text.digits f.line.toNat ++
        ')' :: ':' :: (f.opening ++ (f.message.toList ++ f.ending))) := by
  rw [printed, String.toList_ofList, form_eq]
  simp [directive, opening, ending]

theorem not_mem_opening {f : LintFinding} (h : f.WellFormed) : '[' ∉ f.opening := by
  simp [opening, h.kind_plain]

end LintFinding

open LintFinding

section

variable {f : LintFinding}

theorem not_mem_number (h : f.WellFormed) {d : Char} (hd : d.isDigit = false) :
    d ∉ f.number.toList :=
  fun hmem => ne_of_isDigit (List.all_eq_true.mp h.number_digits d hmem) hd rfl

theorem trim_number (h : f.WellFormed) : Text.trim f.number.toList = f.number.toList :=
  trim_eq_self fun c hc => isBlank_eq_false_of_isDigit (List.all_eq_true.mp h.number_digits c hc)

theorem bracketed_printed (h : f.WellFormed) {message id tail : List Char}
    (hcut : f.message.toList ++ f.ending = message ++ '[' :: (id ++ ']' :: tail))
    (hmessage : '[' ∉ message) (hid : ']' ∉ id) :
    FindingLine.bracketed f.printed.toList = (requireField "id" id).map fun id =>
      ⟨f.file, f.line, id, String.ofList (Text.trim (f.opening ++ message))⟩ := by
  have hopening : '[' ∉ f.opening ++ message := by
    simp [not_mem_opening h, hmessage]
  have hfile : requireField "file" f.file.toList = .ok f.file :=
    requireField_eq_ok_iff.mpr ⟨h.file_trimmed, h.file_ne⟩
  have hcuts : f.opening ++ (f.message.toList ++ f.ending) =
      (f.opening ++ message) ++ '[' :: (id ++ ']' :: tail) := by
    rw [hcut, List.append_assoc]
  simp only [FindingLine.bracketed, toList_printed, cutAt_append h.file_plain,
    cutAt_append (not_mem_digits (d := ')') rfl), readLineNumber_digits, Text.dropOne, hcuts,
    cutAt_append hopening, cutAt_append hid, hfile, if_true, bind, Except.bind]
  cases requireField "id" id <;> rfl

theorem read_make (settings : ToolSettings) (key : Option String) (line : String) :
    (Linter.make .pclint settings key).read [line] =
      match FindingLine.bracketed line.toList with
      | .ok found =>
        .found (.reported ("pclint:" ++ found.rule) found.message found.line found.file)
      | .error reason => .skip line reason :=
  readAll_singleton _ _ line

/-- A line is read as it was printed just when the number is where it is looked for. -/
theorem isReadAs_iff (h : f.WellFormed) (settings : ToolSettings) (key : Option String)
    {message id tail : List Char}
    (hcut : f.message.toList ++ f.ending = message ++ '[' :: (id ++ ']' :: tail))
    (hmessage : '[' ∉ message) (hid : ']' ∉ id) :
    f.IsReadAs ((Linter.make .pclint settings key).read [f.printed]) ↔
      Text.trim id = f.number.toList := by
  rw [read_make, bracketed_printed h hcut hmessage hid]
  constructor
  · rintro ⟨i, hissues, hrule, _, _, _⟩
    cases hfield : requireField "id" id with
    | error reason => simp [hfield, Except.map, Reading.skip] at hissues
    | ok rule =>
        obtain rfl : _ = i := by simpa [hfield, Except.map, Reading.found] using hissues
        obtain rfl : rule = f.number := by simpa [Issue.reported] using hrule
        exact (requireField_eq_ok_iff.mp hfield).1
  · intro htrim
    have hfield : requireField "id" id = .ok f.number :=
      requireField_eq_ok_iff.mpr ⟨htrim, h.number_ne⟩
    rw [hfield]
    exact ⟨_, rfl, rfl, rfl, rfl, rfl⟩

/-- A line that PC-lint prints as it is told to is read as one finding with its file, line and
number, unless the message has an opening bracket. Then what is read as the number stands between
that bracket and the next closing one. -/
theorem read_printed_iff (f : LintFinding) (h : f.WellFormed) (settings : ToolSettings)
    (key : Option String) :
    f.IsReadAs ((Linter.make .pclint settings key).read [f.printed]) ↔
      '[' ∉ f.message.toList ∨
        ∃ before id after, f.message.toList = before ++ '[' :: (id ++ ']' :: after) ∧
          '[' ∉ before ∧ ']' ∉ id ∧ Text.trim id = f.number.toList := by
  cases hopen : Text.cut '[' f.message.toList with
  | none =>
      have hnone : '[' ∉ f.message.toList := Text.cut_eq_none_iff.mp hopen
      have hcut : f.message.toList ++ f.ending = (f.message.toList ++ [')', ' ', ':', ' ']) ++
          '[' :: (f.number.toList ++ ']' :: []) := by
        simp [ending]
      rw [isReadAs_iff h settings key hcut (by simp [hnone]) (not_mem_number h rfl)]
      exact iff_of_true (trim_number h) (.inl hnone)
  | some parts =>
      obtain ⟨before, rest⟩ := parts
      obtain ⟨hmessage, hbefore⟩ := Text.cut_eq_some_iff.mp hopen
      have hsome : '[' ∈ f.message.toList := by simp [hmessage]
      cases hclose : Text.cut ']' rest with
      | none =>
          have hrest : ']' ∉ rest := Text.cut_eq_none_iff.mp hclose
          have hcut : f.message.toList ++ f.ending = before ++
              '[' :: ((rest ++ [')', ' ', ':', ' ', '['] ++ f.number.toList) ++ ']' :: []) := by
            simp [ending, hmessage]
          rw [isReadAs_iff h settings key hcut hbefore (by simp [hrest, not_mem_number h])]
          apply iff_of_false
          · intro htrim
            have hparen : ')' ∈ Text.trim (rest ++ [')', ' ', ':', ' ', '['] ++ f.number.toList) :=
              mem_trim (by simp) rfl
            exact not_mem_number h rfl (htrim ▸ hparen)
          · rintro (hnone | ⟨before', id, after, hmessage', hbefore', _, _⟩)
            · exact hnone hsome
            · rw [Text.cut_eq_some_iff.mpr ⟨hmessage', hbefore'⟩] at hopen
              cases hopen
              simp at hrest
      | some parts =>
          obtain ⟨id, after⟩ := parts
          obtain ⟨rfl, hid⟩ := Text.cut_eq_some_iff.mp hclose
          have hcut : f.message.toList ++ f.ending =
              before ++ '[' :: (id ++ ']' :: (after ++ f.ending)) := by
            simp [hmessage]
          rw [isReadAs_iff h settings key hcut hbefore hid]
          constructor
          · intro htrim
            exact .inr ⟨before, id, after, hmessage, hbefore, hid, htrim⟩
          · rintro (hnone | ⟨before', id', after', hmessage', hbefore', hid', htrim⟩)
            · exact absurd hsome hnone
            · have hsame := Text.cut_eq_some_iff.mpr ⟨hmessage', hbefore'⟩
              rw [hopen] at hsame
              obtain ⟨_, hrest⟩ := Prod.mk.inj (Option.some.inj hsame)
              have hfirst := Text.cut_eq_some_iff.mpr ⟨hrest, hid'⟩
              rw [hclose] at hfirst
              obtain ⟨rfl, _⟩ := Prod.mk.inj (Option.some.inj hfirst)
              exact htrim

end

/-- A message with every character that delimits something but an opening bracket. -/
def plainFinding : LintFinding :=
  ⟨"/src/a [x].cpp", 4294967295, "Info", "call f(int): result of (a] -- b) ignored", "0534"⟩

theorem read_printed_plain :
    plainFinding.WellFormed ∧
      plainFinding.IsReadAs ((Linter.make .pclint { executable := Path.ofString "lint-nt" }
        none).read [plainFinding.printed]) :=
  ⟨by decide +kernel,
    (read_printed_iff plainFinding (by decide +kernel) _ none).mpr (.inl (by decide +kernel))⟩

/-- A message that names an element of an array. -/
def indexedFinding : LintFinding :=
  ⟨"/src/a.cpp", 12, "Warning", "Suspicious use of 'arr[0]' here", "534"⟩

/-- The index is taken for the number. -/
theorem read_printed_indexed :
    indexedFinding.WellFormed ∧
      indexedFinding.printed =
        "/src/a.cpp(12): error : (Warning -- Suspicious use of 'arr[0]' here) : [534]" ∧
      ¬ indexedFinding.IsReadAs ((Linter.make .pclint { executable := Path.ofString "lint-nt" }
        none).read [indexedFinding.printed]) := by
  refine ⟨by decide +kernel, by decide +kernel, ?_⟩
  have hread : (Linter.make .pclint { executable := Path.ofString "lint-nt" } none).read
      [indexedFinding.printed] = .found (.reported "pclint:0"
        "error : (Warning -- Suspicious use of 'arr" 12 "/src/a.cpp") := by decide +kernel
  rw [hread]
  rintro ⟨i, hissues, hrule, _⟩
  obtain rfl := List.singleton_inj.mp hissues
  exact absurd hrule (by decide +kernel)

end LintGate.Proofs.LintForm
