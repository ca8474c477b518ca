import LintGate.Linter.Basic
import LintGate.Proofs.PathComponents

/-!
Commands on one line. A line is split back into the program and the arguments it was written from
just when none of them has a quote in it, for quotes are the one thing that splitting takes away.
-/

namespace LintGate.Proofs.QuotedLine

open LintGate.Command
open LintGate.Path (Component absolute extend innerComponent? pieces)
open LintGate.Proofs.PathComponents

/-- The line of the command is split into its program and its arguments. -/
def SplitsBack (c : Command) : Prop :=
  split c.line = c.program.text :: c.arguments

section Split

variable {quoted : Bool} {word : List Char} {part : String}

/-- An argument that has begun goes on with what is no quote, and with blanks only between
quotes. -/
theorem splitFrom_word (h : ∀ c ∈ word, c ≠ '"' ∧ (Text.isBlank c = true → quoted = true))
    (found rest : List Char) :
    splitFrom quoted (some found) (word ++ rest) =
      splitFrom quoted (some (found ++ word)) rest := by
  induction word generalizing found with
  | nil => rw [List.nil_append, List.append_nil]
  | cons c word ih =>
      obtain ⟨⟨hquote, hblank⟩, hword⟩ := List.forall_mem_cons.mp h
      have hgoes : ¬ (Text.isBlank c && !quoted) = true := by
        intro hends
        obtain ⟨hc, hopen⟩ := Bool.and_eq_true_iff.mp hends
        rw [hblank hc] at hopen
        cases hopen
      rw [List.cons_append, splitFrom, if_neg hquote, if_neg hgoes, Option.getD_some,
        ih hword, List.append_assoc, List.singleton_append]

/-- A part of a line that has no quote in it is one argument, with quotes around it or without. -/
theorem splitFrom_quote (h : '"' ∉ part.toList) (rest : List Char) :
    splitFrom false none ((quote part).toList ++ rest) =
      splitFrom false (some part.toList) rest := by
  have hquote : ∀ c ∈ part.toList, c ≠ '"' := fun c hc heq => h (heq ▸ hc)
  rw [quote]
  split
  · have hword : splitFrom true (some []) (part.toList ++ '"' :: rest) =
        splitFrom true (some part.toList) ('"' :: rest) :=
      splitFrom_word (fun c hc => ⟨hquote c hc, fun _ => rfl⟩) [] ('"' :: rest)
    calc splitFrom false none (("\"" ++ part ++ "\"").toList ++ rest)
        = splitFrom true (some []) (part.toList ++ '"' :: rest) := by simp [splitFrom]
      _ = splitFrom true (some part.toList) ('"' :: rest) := hword
      _ = splitFrom false (some part.toList) rest := by simp [splitFrom]
  · rename_i hplain
    obtain ⟨hne, hplain⟩ : part ≠ "" ∧ ∀ c ∈ part.toList, Text.isBlank c = false := by
      simpa using hplain
    obtain ⟨c, word, hchars⟩ := List.exists_cons_of_ne_nil (mt String.toList_eq_nil_iff.mp hne)
    rw [hchars, List.forall_mem_cons] at hquote hplain
    have hword : splitFrom false (some [c]) (word ++ rest) =
        splitFrom false (some (c :: word)) rest :=
      splitFrom_word
        (fun d hd => ⟨hquote.2 d hd, fun hblank => by simp [hplain.2 d hd] at hblank⟩) [c] rest
    rw [hchars, List.cons_append, splitFrom, if_neg hquote.1, hplain.1]
    exact hword

theorem splitFrom_parts {parts : List String} (h : ∀ part ∈ parts, '"' ∉ part.toList) :
    splitFrom false none (Text.joined " " (parts.map quote)).toList =
      parts.map String.toList := by
  induction parts with
  | nil => rfl
  | cons part rest ih =>
      obtain ⟨hpart, hrest⟩ := List.forall_mem_cons.mp h
      have ih := ih hrest
      have hlast := splitFrom_quote hpart []
      cases rest with
      | nil => simpa [Text.joined, splitFrom] using hlast
      | cons next rest =>
          have hjoined : (Text.joined " " ((part :: next :: rest).map quote)).toList =
              (quote part).toList ++
                ' ' :: (Text.joined " " ((next :: rest).map quote)).toList := by
            simp [Text.joined]
          rw [hjoined, splitFrom_quote hpart, splitFrom, if_neg (by decide), if_pos (by decide), ih]
          rfl

/-- Quotes are taken away, so none is left in an argument. -/
theorem not_mem_splitFrom {current : Option (List Char)} (h : ∀ found ∈ current, '"' ∉ found)
    (cs : List Char) : ∀ a ∈ splitFrom quoted current cs, '"' ∉ a := by
  induction cs generalizing quoted current with
  | nil => simpa [splitFrom] using h
  | cons c cs ih =>
      have hcurrent : '"' ∉ current.getD [] := by
        cases current with
        | none => exact List.not_mem_nil
        | some found => exact h found rfl
      rw [splitFrom]
      split
      · exact ih (by simpa using hcurrent)
      · rename_i hc
        split
        · intro a ha
          rcases List.mem_append.mp ha with ha | ha
          · exact h a (Option.mem_toList.mp ha)
          · exact ih (by simp) a ha
        · exact ih (by simpa [hcurrent] using Ne.symm hc)

theorem not_mem_split (text : String) : ∀ a ∈ split text, '"' ∉ a.toList := by
  intro a ha
  obtain ⟨cs, hcs, rfl⟩ := List.mem_map.mp ha
  rw [String.toList_ofList]
  exact not_mem_splitFrom (by simp) _ cs hcs

/-- A line is split back just when no part of it has a quote in it. -/
theorem splitsBack_iff {c : Command} :
    SplitsBack c ↔ ∀ part ∈ c.program.text :: c.arguments, '"' ∉ part.toList := by
  constructor
  · intro h part hpart
    rw [← h] at hpart
    exact not_mem_split c.line part hpart
  · intro h
    have hparts := congrArg (List.map String.ofList) (splitFrom_parts h)
    rw [List.map_map] at hparts
    exact hparts.trans (List.map_id'' (fun _ => String.ofList_toList) _)

end Split

section Absolute

variable {c : Char} {cwd p : Path}

theorem mem_pieces_iff (hslash : c ≠ '/') (cs : List Char) :
    c ∈ (pieces ⟨cs⟩).flatten ↔ c ∈ cs := by
  rw [← Text.mem_intercalate_iff hslash, pieces, List.intercalate_splitOn]

/-- A character that is no slash and no dot is one of a component. -/
theorem mem_components_iff (hslash : c ≠ '/') (hdot : c ≠ '.') :
    c ∈ p.components.flatMap (·.chars) ↔ c ∈ p.chars := by
  have hinner (piece : List Char) :
      c ∈ (innerComponent? piece).toList.flatMap (·.chars) ↔ c ∈ piece := by
    unfold innerComponent?
    split <;> simp [Component.chars, hdot]
  have hfirst (piece : List Char) (isLast : Bool) :
      c ∈ (Path.firstComponents piece isLast).flatMap (·.chars) ↔ c ∈ piece := by
    unfold Path.firstComponents
    split
    · cases isLast <;> simp [Component.chars, hslash]
    · simp [Component.chars]
    · exact hinner piece
  have hrest (rest : List (List Char)) :
      c ∈ (rest.filterMap innerComponent?).flatMap (·.chars) ↔ c ∈ rest.flatten := by
    induction rest with
    | nil => rfl
    | cons piece rest ih =>
        rw [List.flatten_cons, List.mem_append, ← hinner piece, ← ih, List.filterMap_cons]
        cases innerComponent? piece <;> simp
  rw [← mem_pieces_iff hslash p.chars, Path.components]
  change _ ↔ c ∈ p.pieces.flatten
  split
  · rename_i hpieces
    simp [hpieces]
  · rename_i first rest hpieces
    rw [hpieces, List.flatMap_append, List.mem_append, hfirst, hrest, List.flatten_cons,
      List.mem_append]

/-- A quote stands in an absolute form when it stands in the path, or in the directory from which a
relative path is seen. -/
theorem quote_mem_absolute_iff (hcwd : cwd.isAbsolute = true) :
    '"' ∈ (absolute cwd p).chars ↔
      '"' ∈ p.chars ∨ p.isEmpty = false ∧ p.isAbsolute = false ∧ '"' ∈ cwd.chars := by
  cases hp : p.isEmpty with
  | true => simp [absolute, hp]
  | false =>
      have hsteps : '"' ∈ p.steps.flatMap (·.chars) ↔ '"' ∈ p.components.flatMap (·.chars) := by
        simp only [Path.steps, List.mem_flatMap, List.mem_filter]
        constructor
        · rintro ⟨x, ⟨hx, _⟩, hquote⟩
          exact ⟨x, hx, hquote⟩
        · rintro ⟨x, hx, hquote⟩
          refine ⟨x, ⟨hx, bne_iff_ne.mpr ?_⟩, hquote⟩
          rintro rfl
          simp [Component.chars] at hquote
      have hslash : '"' ≠ '/' := by decide
      have hdot : '"' ≠ '.' := by decide
      rw [← mem_components_iff hslash hdot, components_absolute hcwd hp, List.flatMap_append,
        List.mem_append, hsteps, mem_components_iff hslash hdot, or_comm]
      cases p.isAbsolute with
      | true => simp
      | false =>
          simp only [Bool.false_eq_true, if_false, true_and, mem_components_iff hslash hdot]

theorem trimPieces_sublist (parts : List (List Char)) : (Path.trimPieces parts).Sublist parts := by
  cases parts with
  | nil => exact List.Sublist.slnil
  | cons first rest =>
      refine List.Sublist.cons_cons first ?_
      rw [← List.reverse_sublist, List.reverse_reverse]
      exact List.dropWhile_sublist _

/-- The directory of a program is written with pieces of the path of the program. -/
theorem mem_of_mem_parent {q : Path} (hslash : c ≠ '/') (h : p.parent? = some q)
    (hc : c ∈ q.chars) : c ∈ p.chars := by
  have hsublist : (Path.trimPieces (Path.trimPieces p.pieces).dropLast).Sublist p.pieces :=
    ((trimPieces_sublist _).trans (List.dropLast_sublist _)).trans (trimPieces_sublist _)
  rw [Path.parent?] at h
  split at h
  · cases h
  · cases h
  · obtain rfl := Option.some.inj h
    cases hc
  · split at h
    · obtain rfl := Option.some.inj h
      simp [hslash] at hc
    · obtain rfl := Option.some.inj h
      rw [Text.mem_intercalate_iff hslash] at hc
      obtain ⟨piece, hpiece, hc⟩ := List.mem_flatten.mp hc
      rw [← mem_pieces_iff hslash]
      exact List.mem_flatten.mpr ⟨piece, hsublist.subset hpiece, hc⟩

end Absolute

section Linter

variable {l : Linter}

/-- What a tool is told before the arguments of its settings has a quote only where the path of its
program has one. -/
theorem not_mem_leadingArguments (h : '"' ∉ l.settings.executable.chars) :
    ∀ a ∈ l.leadingArguments, '"' ∉ a.toList := by
  have hoptions : ∀ a ∈ Linter.formatOption :: Linter.optionFiles, '"' ∉ a.toList := by
    decide +kernel
  rw [Linter.leadingArguments]
  split
  · obtain ⟨hformat, hfiles⟩ := List.forall_mem_cons.mp hoptions
    refine List.forall_mem_cons.mpr ⟨hformat, List.forall_mem_append.mpr ⟨?_, hfiles⟩⟩
    split
    · rename_i parent hparent
      split
      · exact List.forall_mem_nil _
      · have hchars : '"' ∉ parent.chars := fun hc => h (mem_of_mem_parent (by decide) hparent hc)
        simpa [Path.text] using hchars
    · exact List.forall_mem_nil _
  · exact List.forall_mem_nil _

theorem splitsBack_command_iff (cwd file : Path) :
    SplitsBack (l.command cwd file) ↔
      '"' ∉ l.settings.executable.chars ∧ '"' ∉ (absolute cwd file).chars := by
  rw [splitsBack_iff]
  simp only [Linter.command, List.forall_mem_cons, List.forall_mem_append, Path.text,
    String.toList_ofList]
  constructor
  · rintro ⟨hprogram, _, hfile, _⟩
    exact ⟨hprogram, hfile⟩
  · rintro ⟨hprogram, hfile⟩
    exact ⟨hprogram, ⟨not_mem_leadingArguments hprogram, not_mem_split _⟩, hfile,
      List.forall_mem_nil _⟩

end Linter

/-- The line of a command is split back into its program and its arguments just when none of them
has a quote in it. No argument that comes from splitting has one, so the command of a tool is split
back just when there is none in the path of its program and in the path it is given: in the path of
the file, or in the directory from which that is seen. -/
theorem line_splitsBack (c : Command) (text : String) (l : Linter) (cwd file : Path) :
    (SplitsBack c ↔ ∀ part ∈ c.program.text :: c.arguments, '"' ∉ part.toList) ∧
    (∀ a ∈ split text, '"' ∉ a.toList) ∧
    (SplitsBack (l.command cwd file) ↔
      '"' ∉ l.settings.executable.chars ∧ '"' ∉ (absolute cwd file).chars) ∧
    (cwd.isAbsolute = true → ('"' ∈ (absolute cwd file).chars ↔
      '"' ∈ file.chars ∨ file.isEmpty = false ∧ file.isAbsolute = false ∧ '"' ∈ cwd.chars)) :=
  ⟨splitsBack_iff, not_mem_split text, splitsBack_command_iff cwd file, quote_mem_absolute_iff⟩

/-- Blanks of several kinds, an argument without a character, and quotes in the settings. -/
theorem line_splitsBack_blanks :
    let c : Command :=
      ⟨Path.ofString "/opt/my tools/lint", ["", "-x", "a\u00a0b", "\n"], [], none, none⟩
    let text := "-i\"C:\\Program Files\" +f\"f\"n \"\""
    let l := Linter.make .pclint
      { executable := Path.ofString "/opt/my tools/lint", arguments := text } none
    let cwd := Path.ofString "/work dir"
    let file := Path.ofString "./a b.cpp"
    SplitsBack c ∧ split text = ["-iC:\\Program Files", "+ffn", ""] ∧
      (∀ a ∈ split text, '"' ∉ a.toList) ∧ cwd.isAbsolute = true ∧
      '"' ∉ (absolute cwd file).chars ∧ SplitsBack (l.command cwd file) := by
  intro c text l cwd file
  obtain ⟨hline, htext, hcommand, habsolute⟩ := line_splitsBack c text l cwd file
  have hcwd : cwd.isAbsolute = true := rfl
  have hfile : '"' ∉ (absolute cwd file).chars := by
    rw [habsolute hcwd]
    decide +kernel
  exact ⟨hline.mpr (by decide +kernel), by decide +kernel, htext, hcwd, hfile,
    hcommand.mpr ⟨by decide +kernel, hfile⟩⟩

end LintGate.Proofs.QuotedLine
