import LintGate.Linter.Command

/-!
Splitting a text into arguments. A blank ends an argument just when it stands outside quotes, so the
text can be split on both sides of it alone; and nothing is lost of the text but its quotes and
those blanks.
-/

namespace LintGate.Proofs.ArgumentSplitting

open LintGate.Command

/-- What follows the text stands between quotes: the text has an odd number of quotes. -/
def endsQuoted (cs : List Char) : Bool :=
  cs.count '"' % 2 == 1

/-- A character and its place in the text: it is no quote, and no blank outside quotes. -/
def isKept (cs : List Char) (placed : Char × Nat) : Bool :=
  placed.1 != '"' && (!Text.isBlank placed.1 || endsQuoted (cs.take placed.2))

/-- The text without its quotes and without its blanks outside quotes. -/
def unquoted (cs : List Char) : List Char :=
  (cs.zipIdx.filter (isKept cs)).map Prod.fst

section Parity

variable {c : Char} {cs : List Char}

theorem endsQuoted_append (a b : List Char) :
    endsQuoted (a ++ b) = (endsQuoted a ^^ endsQuoted b) := by
  rw [endsQuoted, List.count_append, Nat.add_mod, endsQuoted, endsQuoted]
  rcases Nat.mod_two_eq_zero_or_one (a.count '"') with ha | ha <;>
    rcases Nat.mod_two_eq_zero_or_one (b.count '"') with hb | hb <;> rw [ha, hb] <;> rfl

/-- A quote opens what is closed, and closes what is open. -/
theorem xor_endsQuoted_quote (quoted : Bool) : (quoted ^^ endsQuoted ['"']) = !quoted :=
  Bool.xor_true quoted

theorem xor_endsQuoted_of_ne (h : c ≠ '"') (quoted : Bool) :
    (quoted ^^ endsQuoted [c]) = quoted := by
  have hc : endsQuoted [c] = false := by simp [endsQuoted, h]
  rw [hc, Bool.xor_false]

theorem endsQuoted_eq_false_iff : endsQuoted cs = false ↔ cs.count '"' % 2 = 0 := by
  rw [endsQuoted, beq_eq_false_iff_ne, Nat.mod_two_ne_one]

end Parity

section Compositional

variable {quoted : Bool} {current : Option (List Char)} {w : Char}

/-- Splitting goes through a part of the text before it comes to the rest. Some arguments are
finished then, and one may have begun; one has where a quote is open. -/
theorem exists_splitFrom_append (h : quoted = true → current.isSome = true) (a : List Char) :
    ∃ finished opened, ((quoted ^^ endsQuoted a) = true → opened.isSome = true) ∧
      ∀ rest, splitFrom quoted current (a ++ rest) =
        finished ++ splitFrom (quoted ^^ endsQuoted a) opened rest := by
  induction a generalizing quoted current with
  | nil => exact ⟨[], current, by simpa [endsQuoted] using h, fun rest => by simp [endsQuoted]⟩
  | cons c a ih =>
      have hparity : (quoted ^^ endsQuoted (c :: a)) =
          ((quoted ^^ endsQuoted [c]) ^^ endsQuoted a) := by
        rw [← List.singleton_append, endsQuoted_append, Bool.xor_assoc]
      by_cases hquote : c = '"'
      · obtain ⟨finished, opened, hopened, hsplit⟩ :=
          @ih (!quoted) (some (current.getD [])) (fun _ => rfl)
        rw [hparity, hquote, xor_endsQuoted_quote]
        refine ⟨finished, opened, hopened, fun rest => ?_⟩
        rw [List.cons_append, splitFrom, if_pos rfl, hsplit]
      · rw [hparity, xor_endsQuoted_of_ne hquote]
        by_cases hends : (Text.isBlank c && !quoted) = true
        · obtain rfl : quoted = false := by simpa using (Bool.and_eq_true_iff.mp hends).2
          obtain ⟨finished, opened, hopened, hsplit⟩ := @ih false none nofun
          refine ⟨current.toList ++ finished, opened, hopened, fun rest => ?_⟩
          rw [List.cons_append, splitFrom, if_neg hquote, if_pos hends, hsplit, List.append_assoc]
        · obtain ⟨finished, opened, hopened, hsplit⟩ :=
            @ih quoted (some (current.getD [] ++ [c])) (fun _ => rfl)
          refine ⟨finished, opened, hopened, fun rest => ?_⟩
          rw [List.cons_append, splitFrom, if_neg hquote, if_neg hends, hsplit]

/-- An argument that has begun is the first one, and can only go on. -/
theorem exists_splitFrom_some (found cs : List Char) :
    ∃ more rest, splitFrom quoted (some found) cs = (found ++ more) :: rest := by
  induction cs generalizing quoted found with
  | nil => exact ⟨[], [], by simp [splitFrom]⟩
  | cons c cs ih =>
      rw [splitFrom, Option.getD_some]
      split
      · exact ih found
      · split
        · exact ⟨[], splitFrom false none cs, by simp⟩
        · obtain ⟨more, rest, hsplit⟩ := @ih quoted (found ++ [c])
          exact ⟨c :: more, rest, by simp [hsplit]⟩

theorem splitFrom_append_blank_iff (hw : Text.isBlank w = true) (a b : List Char) :
    splitFrom false none (a ++ w :: b) = splitFrom false none a ++ splitFrom false none b ↔
      endsQuoted a = false := by
  have hquote : w ≠ '"' := by
    rintro rfl
    exact absurd hw (by decide)
  obtain ⟨finished, opened, hopened, hsplit⟩ :=
    @exists_splitFrom_append false none nofun a
  rw [Bool.false_xor] at hopened hsplit
  have hleft : splitFrom false none a = finished ++ opened.toList := by
    rw [← List.append_nil a, hsplit, splitFrom]
  rw [hleft, hsplit, List.append_assoc, List.append_cancel_left_eq, splitFrom, if_neg hquote, hw]
  cases hends : endsQuoted a with
  | false => simp
  | true =>
      -- The blank belongs to the argument that `a` has begun, which is no argument of `a` then.
      obtain ⟨found, rfl⟩ := Option.isSome_iff_exists.mp (hopened hends)
      obtain ⟨more, rest, hmore⟩ := @exists_splitFrom_some true (found ++ [w]) b
      simp [hmore]

end Compositional

section Lossless

variable {c : Char} {before cs : List Char}

theorem isKept_append_cons :
    isKept (before ++ c :: cs) (c, before.length) =
      (c != '"' && (!Text.isBlank c || endsQuoted before)) := by
  simp [isKept]

/-- From any place of the text on, the arguments together are what is kept of the text from there,
after what the first of them had already. -/
theorem flatten_splitFrom (before cs : List Char) (current : Option (List Char)) :
    (splitFrom (endsQuoted before) current cs).flatten =
      current.getD [] ++
        ((cs.zipIdx before.length).filter (isKept (before ++ cs))).map Prod.fst := by
  induction cs generalizing before current with
  | nil => cases current <;> simp [splitFrom]
  | cons c cs ih =>
      have ih := ih (before ++ [c])
      rw [endsQuoted_append, List.append_assoc, List.singleton_append, List.length_append,
        List.length_singleton] at ih
      rw [List.zipIdx_cons, List.filter_cons, isKept_append_cons, splitFrom]
      by_cases hquote : c = '"'
      · subst hquote
        rw [xor_endsQuoted_quote] at ih
        rw [if_pos rfl, ih, if_neg (by simp), Option.getD_some]
      · rw [xor_endsQuoted_of_ne hquote] at ih
        have hkept : (c != '"' && (!Text.isBlank c || endsQuoted before)) =
            !(Text.isBlank c && !endsQuoted before) := by
          rw [bne_iff_ne.mpr hquote, Bool.true_and, Bool.not_and, Bool.not_not]
        rw [if_neg hquote, hkept]
        cases hends : Text.isBlank c && !endsQuoted before with
        | true =>
            have hopen : endsQuoted before = false := by
              simpa using (Bool.and_eq_true_iff.mp hends).2
            rw [hopen] at ih
            rw [if_pos rfl, List.flatten_append, ih]
            cases current <;> simp
        | false => simp [ih]

theorem flatten_splitFrom_none (cs : List Char) :
    (splitFrom false none cs).flatten = unquoted cs :=
  flatten_splitFrom [] cs none

end Lossless

/-- A text with a blank in it is split into the arguments of what stands before the blank and those
of what stands after it just when no quote is open at the blank. The arguments of a text put
together are the text without its quotes and its blanks outside quotes; a quote that is not closed
reaches to the end. -/
theorem split_append_blank_iff (a b text : String) (w : Char) :
    (Text.isBlank w = true →
      (split (a ++ String.singleton w ++ b) = split a ++ split b ↔
        a.toList.count '"' % 2 = 0)) ∧
      (String.join (split text)).toList = unquoted text.toList := by
  constructor
  · intro hw
    rw [← endsQuoted_eq_false_iff, ← splitFrom_append_blank_iff hw a.toList b.toList]
    simp only [split, String.toList_append, String.toList_singleton, List.append_assoc,
      List.singleton_append, ← List.map_append]
    exact List.map_inj_right fun _ _ h => String.ofList_inj.mp h
  · rw [String.toList_join, split, List.flatMap_map, ← flatten_splitFrom_none]
    simp only [String.toList_ofList, List.flatMap_id']

/-- Quotes inside an argument and around none, blanks of two kinds, and a quote that is not
closed. -/
theorem split_append_blank_iff_open :
    let a := "-i\"C:\\Program Files\"  \"\""
    let b := "+f\"f n \u00a0"
    Text.isBlank '\t' = true ∧ a.toList.count '"' % 2 = 0 ∧
      split (a ++ "\t" ++ b) = ["-iC:\\Program Files", "", "+ff n \u00a0"] ∧
      split (b ++ "\t" ++ a) ≠ split b ++ split a ∧
      (String.join (split b)).toList = "+ff n \u00a0".toList := by
  intro a b
  have hw : Text.isBlank '\t' = true := by decide
  have heven : a.toList.count '"' % 2 = 0 := by decide
  obtain ⟨hsplit, hjoin⟩ := split_append_blank_iff a b b '\t'
  have hopen := (split_append_blank_iff b a a '\t').1
  refine ⟨hw, heven, ?_, ?_, ?_⟩
  · exact ((hsplit hw).mpr heven).trans (by decide +kernel)
  · exact mt (hopen hw).mp (by decide)
  · rw [hjoin]
    decide +kernel

end LintGate.Proofs.ArgumentSplitting
