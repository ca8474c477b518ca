/-!
Cutting a text at the first occurrence of a character, and dividing it at every occurrence.
-/

namespace LintGate.Text

/-- The parts before and after the first `d`, if the text has one. -/
def cut (d : Char) : List Char → Option (List Char × List Char)
  | [] => none
  | c :: rest =>
    if c = d then some ([], rest)
    else (cut d rest).map fun parts => (c :: parts.1, parts.2)

/-- A cut takes the first occurrence and loses only that character. -/
theorem cut_eq_some_iff {d : Char} {s before after : List Char} :
    cut d s = some (before, after) ↔ s = before ++ d :: after ∧ d ∉ before := by
  induction s generalizing before with
  | nil => simp [cut]
  | cons c rest ih =>
    by_cases hc : c = d
    · subst hc
      cases before with
      | nil => simp [cut]
      | cons b bs => simp [cut]; grind
    · cases before with
      | nil => simp [cut, hc]
      | cons b bs =>
        simp only [cut, hc, if_false, Option.map_eq_some_iff, Prod.exists, Prod.mk.injEq,
          List.cons.injEq, List.cons_append, List.mem_cons, not_or]
        grind

theorem cut_eq_none_iff {d : Char} {s : List Char} : cut d s = none ↔ d ∉ s := by
  induction s with
  | nil => simp [cut]
  | cons c rest ih =>
    by_cases hc : c = d
    · simp [cut, hc]
    · simp [cut, hc, ih, Ne.symm hc]

/-- A piece between the occurrences of a character has none of them. -/
theorem not_mem_of_mem_splitOn {d : Char} {cs piece : List Char} (h : piece ∈ cs.splitOn d) :
    d ∉ piece := by
  induction cs generalizing piece with
  | nil =>
      obtain rfl : piece = [] := by simpa using h
      exact List.not_mem_nil
  | cons c cs ih =>
      rw [List.splitOn_cons_eq_if_modifyHead] at h
      split at h
      · rcases List.mem_cons.mp h with rfl | hrest
        · exact List.not_mem_nil
        · exact ih hrest
      · rename_i hc
        obtain ⟨first, rest, hpieces⟩ := List.exists_cons_of_ne_nil (List.splitOn_ne_nil d cs)
        rw [hpieces, List.modifyHead_cons] at h
        rcases List.mem_cons.mp h with rfl | hrest
        · have hfirst : d ∉ first := ih (by simp [hpieces])
          have hne : c ≠ d := by simpa using hc
          simp [hfirst, hne.symm]
        · exact ih (by simp [hpieces, hrest])

/-- A character that does not stand between the pieces stands in one of them. -/
theorem mem_intercalate_iff {c d : Char} (hne : c ≠ d) (pieces : List (List Char)) :
    c ∈ [d].intercalate pieces ↔ c ∈ pieces.flatten := by
  induction pieces with
  | nil => rfl
  | cons first rest ih =>
      cases rest with
      | nil => simp [List.intercalate]
      | cons next rest => simp_all [List.intercalate]

/-- The text without one leading `d`, or as it is when it starts otherwise. -/
def dropOne (d : Char) : List Char → List Char
  | [] => []
  | c :: rest => if c = d then rest else c :: rest

/-- The text up to and without the first character for which `stop` holds. -/
def upTo (stop : Char → Bool) (cs : List Char) : List Char :=
  cs.takeWhile fun c => !stop c

/-- The pieces between the occurrences of `d`; a text without `d` is one piece. -/
def pieces (d : Char) (s : String) : List String :=
  (s.toList.splitOn d).map String.ofList

/-- The strings with `separator` between them. -/
def joined (separator : String) (parts : List String) : String :=
  separator.intercalate parts

end LintGate.Text
