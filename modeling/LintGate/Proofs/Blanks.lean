import LintGate.Text.Blank
import Mathlib.Data.List.DropRight
import Mathlib.Data.List.Induction
import Mathlib.Data.List.TakeWhile

/-!
Blanks at the ends of a text and inside it: what trimming leaves, and the words of a text with one
space between them.
-/

namespace LintGate.Proofs.Blanks

open LintGate.Text

theorem trimEnd_eq_nil_iff {cs : List Char} : trimEnd cs = [] ↔ ∀ c ∈ cs, isBlank c = true := by
  simp [trimEnd, List.dropWhile_eq_nil_iff]

theorem trimEnd_cons {c : Char} {cs : List Char} (h : isBlank c = false ∨ trimEnd cs ≠ []) :
    trimEnd (c :: cs) = c :: trimEnd cs := by
  have hcons : trimEnd (c :: cs) = ((cs.reverse ++ [c]).dropWhile isBlank).reverse := by
    rw [trimEnd, List.reverse_cons]
  rw [hcons, List.dropWhile_append]
  by_cases hnil : trimEnd cs = []
  · have hc : isBlank c = false := h.resolve_right fun hne => hne hnil
    have hempty : cs.reverse.dropWhile isBlank = [] := List.reverse_eq_nil_iff.mp hnil
    simp [trimEnd, hempty, hc]
  · have hempty : cs.reverse.dropWhile isBlank ≠ [] := fun he => hnil (by simp [trimEnd, he])
    simp [trimEnd, hempty]

theorem trim_cons_of_blank {c : Char} (h : isBlank c = true) (cs : List Char) :
    trim (c :: cs) = trim cs := by
  simp [trim, trimStart, h]

theorem trim_cons {c : Char} (h : isBlank c = false) (cs : List Char) :
    trim (c :: cs) = c :: trimEnd cs := by
  simp [trim, trimStart, h, trimEnd_cons (.inl h)]

theorem trimEnd_concat {c : Char} (h : isBlank c = false) (cs : List Char) :
    trimEnd (cs ++ [c]) = cs ++ [c] := by
  simp [trimEnd, h]

theorem trimEnd_concat_of_blank {c : Char} (h : isBlank c = true) (cs : List Char) :
    trimEnd (cs ++ [c]) = trimEnd cs := by
  simp [trimEnd, h]

theorem trim_concat_of_blank {b : Char} (h : isBlank b = true) (cs : List Char) :
    trim (cs ++ [b]) = trim cs := by
  induction cs with
  | nil => rw [List.nil_append, trim_cons_of_blank h]
  | cons c cs ih =>
      rw [List.cons_append]
      by_cases hc : isBlank c = true
      · rw [trim_cons_of_blank hc, trim_cons_of_blank hc, ih]
      · have hc : isBlank c = false := Bool.eq_false_iff.mpr hc
        rw [trim_cons hc, trim_cons hc, trimEnd_concat_of_blank h]

/-- Nothing is trimmed when there are no blanks at the ends. -/
theorem trim_of_ends {c d : Char} {cs after before : List Char} (hstart : cs = c :: after)
    (hc : isBlank c = false) (hend : cs = before ++ [d]) (hd : isBlank d = false) :
    trim cs = cs := by
  have htrimStart : trimStart cs = cs := by simp [trimStart, hstart, hc]
  rw [trim, htrimStart, hend, trimEnd_concat hd]

theorem trim_surrounded {before field after : List Char} (hbefore : ∀ c ∈ before, isBlank c = true)
    (hafter : ∀ c ∈ after, isBlank c = true) : trim (before ++ field ++ after) = trim field := by
  induction before with
  | nil =>
      induction after using List.reverseRecOn with
      | nil => simp
      | append_singleton after c ih =>
          obtain ⟨hafter, hc⟩ := List.forall_mem_append.mp hafter
          rw [← List.append_assoc, trim_concat_of_blank (hc c (by simp))]
          exact ih hafter
  | cons c before ih =>
      obtain ⟨hc, hbefore⟩ := List.forall_mem_cons.mp hbefore
      rw [List.cons_append, List.cons_append, trim_cons_of_blank hc]
      exact ih hbefore

/-- Nothing is trimmed at the end up to a character that is not blank. -/
theorem trimEnd_append_cons {d : Char} (hd : isBlank d = false) (cs rest : List Char) :
    trimEnd (cs ++ d :: rest) = cs ++ d :: trimEnd rest := by
  induction cs with
  | nil => exact trimEnd_cons (.inl hd)
  | cons c cs ih =>
      rw [List.cons_append, trimEnd_cons (.inr (by simp [ih])), ih, List.cons_append]

theorem trimEnd_trimEnd (cs : List Char) : trimEnd (trimEnd cs) = trimEnd cs := by
  rw [trimEnd, trimEnd, List.reverse_reverse, List.dropWhile_idempotent]

theorem exists_trimEnd (cs : List Char) :
    ∃ after, cs = trimEnd cs ++ after ∧ ∀ c ∈ after, isBlank c = true := by
  refine ⟨(cs.reverse.takeWhile isBlank).reverse, ?_, fun c hc => ?_⟩
  · rw [trimEnd, ← List.reverse_append, List.takeWhile_append_dropWhile, List.reverse_reverse]
  · exact List.mem_takeWhile_imp (List.mem_reverse.mp hc)

/-- Trimming takes blanks away at both ends. -/
theorem exists_trim (cs : List Char) : ∃ before after, cs = before ++ trim cs ++ after ∧
    (∀ c ∈ before, isBlank c = true) ∧ ∀ c ∈ after, isBlank c = true := by
  obtain ⟨after, hend, hafter⟩ := exists_trimEnd (trimStart cs)
  refine ⟨cs.takeWhile isBlank, after, ?_, fun c hc => List.mem_takeWhile_imp hc, hafter⟩
  rw [trim, List.append_assoc, ← hend, trimStart, List.takeWhile_append_dropWhile]

theorem trim_trim (cs : List Char) : trim (trim cs) = trim cs := by
  obtain ⟨before, after, hcs, hbefore, hafter⟩ := exists_trim cs
  have hsurrounded : trim (before ++ trim cs ++ after) = trim (trim cs) :=
    trim_surrounded hbefore hafter
  rw [← hsurrounded, ← hcs]

theorem mem_of_mem_trim {c : Char} {cs : List Char} (h : c ∈ trim cs) : c ∈ cs := by
  obtain ⟨before, after, hcs, _⟩ := exists_trim cs
  rw [hcs]
  simp [h]

theorem trim_length_le (cs : List Char) : (trim cs).length ≤ cs.length := by
  have hstart : (trimStart cs).length ≤ cs.length := (List.dropWhile_sublist _).length_le
  have hend : (trimEnd (trimStart cs)).length ≤ (trimStart cs).length := by
    rw [trimEnd, List.length_reverse]
    exact ((List.dropWhile_sublist _).length_le).trans_eq List.length_reverse
  exact hend.trans hstart

/-- The text with every run of blanks as one space. -/
def squeeze : List Char → List Char
  | [] => []
  | c :: rest =>
    if isBlank c then if rest.head?.any isBlank then squeeze rest else ' ' :: squeeze rest
    else c :: squeeze rest

theorem words_cons (c : Char) (cs : List Char) : words (c :: cs) =
    if isBlank c then words cs
    else
      match cs, words cs with
      | [], _ => [[c]]
      | d :: _, found =>
        if isBlank d then [c] :: found
        else
          match found with
          | [] => [[c]]
          | word :: others => (c :: word) :: others :=
  rfl

theorem words_cons_of_blank {c : Char} (h : isBlank c = true) (cs : List Char) :
    words (c :: cs) = words cs := by
  rw [words_cons, if_pos h]

theorem words_ne_nil {c : Char} (h : isBlank c = false) (cs : List Char) :
    words (c :: cs) ≠ [] := by
  rw [words_cons, if_neg (by simp [h])]
  split
  · exact List.cons_ne_nil _ _
  · split
    · exact List.cons_ne_nil _ _
    · split <;> exact List.cons_ne_nil _ _

theorem words_eq_nil {cs : List Char} (h : ∀ c ∈ cs, isBlank c = true) : words cs = [] := by
  induction cs with
  | nil => rfl
  | cons c cs ih =>
      obtain ⟨hc, hcs⟩ := List.forall_mem_cons.mp h
      rw [words_cons_of_blank hc, ih hcs]

theorem words_ne_nil_of_trimEnd {cs : List Char} (h : trimEnd cs ≠ []) : words cs ≠ [] := by
  induction cs with
  | nil => exact absurd rfl h
  | cons c cs ih =>
      by_cases hc : isBlank c = true
      · rw [words_cons_of_blank hc]
        refine ih fun hnil => h (trimEnd_eq_nil_iff.mpr ?_)
        exact List.forall_mem_cons.mpr ⟨hc, trimEnd_eq_nil_iff.mp hnil⟩
      · exact words_ne_nil (Bool.eq_false_iff.mpr hc) cs

theorem collapse_cons_of_blank {c : Char} (h : isBlank c = true) (cs : List Char) :
    collapse (c :: cs) = collapse cs := by
  rw [collapse, words_cons_of_blank h, collapse]

/-- A character goes on with the word after it, if that follows at once. -/
theorem collapse_cons_cons {c d : Char} (hc : isBlank c = false) (hd : isBlank d = false)
    (cs : List Char) : collapse (c :: d :: cs) = c :: collapse (d :: cs) := by
  obtain ⟨word, others, hwords⟩ := List.exists_cons_of_ne_nil (words_ne_nil hd cs)
  have hall : words (c :: d :: cs) = (c :: word) :: others := by
    rw [words_cons, if_neg (by simp [hc])]
    simp [hwords, hd]
  rw [collapse, collapse, hall, hwords]
  cases others <;> simp [List.intercalate]

/-- A character before a blank is the end of a word. -/
theorem collapse_cons_blank {c d : Char} (hc : isBlank c = false) (hd : isBlank d = true)
    (cs : List Char) :
    collapse (c :: d :: cs) = if words cs = [] then [c] else c :: ' ' :: collapse cs := by
  have hall : words (c :: d :: cs) = [c] :: words cs := by
    rw [words_cons, if_neg (by simp [hc])]
    simp [words_cons_of_blank hd, hd]
  rw [collapse, collapse, hall]
  cases hwords : words cs <;> simp [List.intercalate]

theorem squeeze_cons {c : Char} (h : isBlank c = false) (cs : List Char) :
    squeeze (c :: cs) = c :: squeeze cs := by
  simp [squeeze, h]

/-- By induction on the text, after a character of a word and after a blank at once. -/
theorem collapse_cons (cs : List Char) :
    (∀ c, isBlank c = false → collapse (c :: cs) = c :: squeeze (trimEnd cs)) ∧
      (trimEnd cs ≠ [] → ∀ b, isBlank b = true →
        squeeze (b :: trimEnd cs) = ' ' :: collapse cs) := by
  induction cs with
  | nil =>
      refine ⟨fun c hc => ?_, fun h => absurd rfl h⟩
      simp [collapse, words_cons, hc, List.intercalate, trimEnd, squeeze]
  | cons d cs ih =>
      obtain ⟨hword, hblank⟩ := ih
      by_cases hd : isBlank d = true
      · by_cases hnil : trimEnd cs = []
        · have hblanks := trimEnd_eq_nil_iff.mp hnil
          have hend : trimEnd (d :: cs) = [] :=
            trimEnd_eq_nil_iff.mpr (List.forall_mem_cons.mpr ⟨hd, hblanks⟩)
          refine ⟨fun c hc => ?_, fun h => absurd hend h⟩
          rw [collapse_cons_blank hc hd, if_pos (words_eq_nil hblanks), hend]
          rfl
        · have hwords := words_ne_nil_of_trimEnd hnil
          rw [trimEnd_cons (.inr hnil)]
          refine ⟨fun c hc => ?_, fun _ b hb => ?_⟩
          · rw [collapse_cons_blank hc hd, if_neg hwords, hblank hnil d hd]
          · rw [collapse_cons_of_blank hd, ← hblank hnil d hd]
            simp [squeeze, hb, hd]
      · have hd : isBlank d = false := Bool.eq_false_iff.mpr hd
        rw [trimEnd_cons (.inl hd), squeeze_cons hd]
        refine ⟨fun c hc => ?_, fun _ b hb => ?_⟩
        · rw [collapse_cons_cons hc hd, hword d hd]
        · rw [hword d hd]
          simp [squeeze, hb, hd]

/-- The words of a text with a space between each two are the text without the blanks at its ends,
and with one space for every run of them inside. -/
theorem collapse_eq (cs : List Char) : collapse cs = squeeze (trim cs) := by
  induction cs with
  | nil => rfl
  | cons c cs ih =>
      by_cases hc : isBlank c = true
      · rw [collapse_cons_of_blank hc, trim_cons_of_blank hc, ih]
      · have hc : isBlank c = false := Bool.eq_false_iff.mpr hc
        rw [(collapse_cons cs).1 c hc, trim_cons hc, squeeze_cons hc]

end LintGate.Proofs.Blanks
