import LintGate.Discovery.IgnoreChain
import LintGate.Proofs.SamePlace

/-!
What an ignore file sees of a path. The text of its own directory is taken from the front, and a dot
with a slash before that; what is left is what stands behind the directory, however that is written.
-/

namespace LintGate.Proofs.NameBelow

open LintGate.Path (Component components)
open LintGate.Proofs.PathComponents
open LintGate.Proofs.SamePlace

theorem withoutStart_append (start text : List Char) :
    withoutStart start (start ++ text) = text := by
  simp [withoutStart]

theorem withoutStart_eq_self {start text : List Char} (h : ¬ start <+: text) :
    withoutStart start text = text := by
  rw [withoutStart, if_neg]
  simpa using h

/-- A single dot as components is written as a dot, with nothing or a slash behind it. -/
theorem eq_dot_of_components {p : Path} (h : p.components = [.current]) :
    p.chars = ['.'] ∨ "./".toList <+: p.chars := by
  have hleading {label : List Char} (hne : label ≠ []) (hmem : leading label = [.current]) :
      label = ['.'] := by
    refine Decidable.byContradiction fun hdot => ?_
    rw [leading, if_neg hdot] at hmem
    unfold Path.innerComponent? at hmem
    split at hmem <;> cases hmem
  obtain ⟨chars⟩ := p
  cases chars with
  | nil => cases h
  | cons c chars =>
      by_cases hc : c = '/'
      · subst hc
        rw [components_root] at h
        cases h
      · obtain ⟨first, rest, hpieces⟩ := pieces_cons hc chars
        obtain ⟨x, hx, _⟩ := leading_cons c first
        rw [components_of_pieces hpieces, hx, List.singleton_append] at h
        obtain rfl : x = .current := (List.cons.inj h).1
        have hchars : ['/'].intercalate ((c :: first) :: rest) = c :: chars := by
          rw [← hpieces]
          exact List.intercalate_splitOn '/'
        rw [← hchars, hleading (List.cons_ne_nil c first) hx]
        cases rest with
        | nil => exact .inl (@List.intercalate_singleton _ ['/'] ['.'])
        | cons next rest =>
            refine .inr ⟨['/'].intercalate (next :: rest), ?_⟩
            rw [List.intercalate_cons_cons]
            rfl

/-- Whether no more than one dot with a slash stands in front of the directory. -/
def DottedOnce (d : Path) : Prop :=
  ¬ "./".toList <+: withoutStart "./".toList (slashed d)

instance (d : Path) : Decidable (DottedOnce d) :=
  inferInstanceAs (Decidable (¬ _))

/-- Whether a directory that is no more than a dot is written as a dot, with a slash perhaps. -/
def DotAlone (d : Path) : Prop :=
  d.components = [.current] → d.chars = ['.'] ∨ d.chars = "./".toList

instance (d : Path) : Decidable (DotAlone d) :=
  inferInstanceAs (Decidable (_ → _))

/-- What can stand behind the slash of a directory: it starts with neither a slash nor a dot with
one. -/
structure IsTail (tail : List Char) : Prop where
  noSlash : ¬ ['/'] <+: tail
  noDot : ¬ "./".toList <+: tail

theorem isTail_append {label : List Char} (h : IsStep (.name label)) (rest : List Char) :
    IsTail (label ++ rest) := by
  obtain ⟨hslash, hinner⟩ := h
  rcases label with _ | ⟨c, _ | ⟨c', label⟩⟩
  · cases hinner
  · refine ⟨?_, ?_⟩
    · rintro ⟨rest, hrest⟩
      cases hrest
      exact hslash List.mem_cons_self
    · rintro ⟨rest, hrest⟩
      cases hrest
      cases hinner
  · refine ⟨?_, ?_⟩
    · rintro ⟨rest, hrest⟩
      cases hrest
      exact hslash List.mem_cons_self
    · rintro ⟨rest, hrest⟩
      cases hrest
      exact hslash (List.mem_cons_of_mem _ List.mem_cons_self)

variable {d : Path} {tail : List Char}

/-- A text that is empty or ends with a slash. -/
def EndsOpen (text : List Char) : Prop :=
  text = [] ∨ ∃ before, text = before ++ ['/']

theorem prefix_append_iff {text : List Char} (h : EndsOpen text) (hne : text ≠ [])
    (tail : List Char) : "./".toList <+: text ++ tail ↔ "./".toList <+: text := by
  obtain rfl | ⟨before, rfl⟩ := h
  · exact absurd rfl hne
  · rcases before with _ | ⟨c, _ | ⟨c', before⟩⟩ <;> simp

theorem endsOpen_slashed (d : Path) : EndsOpen (slashed d) :=
  let ⟨before, hbefore, _⟩ := slashed_eq d
  .inr ⟨before, hbefore⟩

theorem withoutStart_slashed (d : Path) (tail : List Char) :
    withoutStart "./".toList (slashed d ++ tail) =
      withoutStart "./".toList (slashed d) ++ tail := by
  by_cases h : "./".toList <+: slashed d
  · obtain ⟨rest, hrest⟩ := h
    rw [← hrest, List.append_assoc, withoutStart_append, withoutStart_append]
  · have htail : ¬ "./".toList <+: slashed d ++ tail := by
      rwa [prefix_append_iff (endsOpen_slashed d) (slashed_ne_nil d)]
    rw [withoutStart_eq_self h, withoutStart_eq_self htail]

theorem endsOpen_withoutStart (d : Path) : EndsOpen (withoutStart "./".toList (slashed d)) := by
  obtain ⟨before, hbefore, _⟩ := slashed_eq d
  by_cases h : "./".toList <+: slashed d
  · obtain ⟨rest, hrest⟩ := h
    rw [← hrest, withoutStart_append]
    rcases List.eq_nil_or_concat rest with rfl | ⟨front, c, rfl⟩
    · exact .inl rfl
    · rw [hbefore, List.concat_eq_append, ← List.append_assoc] at hrest
      obtain ⟨_, hc⟩ := List.append_inj' hrest rfl
      exact .inr ⟨front, by rw [List.concat_eq_append, hc]⟩
  · rw [withoutStart_eq_self h]
    exact endsOpen_slashed d

theorem not_prefix_withoutStart (hd : DottedOnce d) (htail : IsTail tail) :
    ¬ "./".toList <+: withoutStart "./".toList (slashed d) ++ tail := by
  by_cases hnil : withoutStart "./".toList (slashed d) = []
  · rw [hnil]
    exact htail.noDot
  · rwa [prefix_append_iff (endsOpen_withoutStart d) hnil]

/-- Without the dot in front a directory is written as its slashed form is, which may have a slash
more. -/
theorem withoutStart_chars (hdot : d.chars ≠ ['.']) :
    withoutStart "./".toList (slashed d) = withoutStart "./".toList d.chars ∨
      withoutStart "./".toList (slashed d) = withoutStart "./".toList d.chars ++ ['/'] := by
  by_cases h : "./".toList <+: d.chars
  · obtain ⟨rest, hrest⟩ := h
    rw [← hrest, withoutStart_append]
    rcases slashed_eq_or d with hslashed | hslashed
    · rw [hslashed, ← hrest, withoutStart_append]
      exact .inl rfl
    · rw [hslashed, ← hrest, List.append_assoc, withoutStart_append]
      exact .inr rfl
  · have hslash : ¬ "./".toList <+: slashed d := by
      rcases slashed_eq_or d with hslashed | hslashed
      · rwa [hslashed]
      · rw [hslashed, List.prefix_concat_iff]
        rintro (heq | hprefix)
        · exact hdot (List.append_inj' (heq.symm : _ = ['.'] ++ ['/']) rfl).1
        · exact h hprefix
    rw [withoutStart_eq_self h, withoutStart_eq_self hslash]
    exact slashed_eq_or d

theorem components_withoutStart (hd : DottedOnce d) (hdot : d.chars ≠ ['.']) :
    components ⟨withoutStart "./".toList d.chars⟩ ≠ [.current] := by
  intro hcurrent
  have hforms := withoutStart_chars hdot
  rcases eq_dot_of_components hcurrent with heq | hprefix
  · replace heq : withoutStart "./".toList d.chars = ['.'] := heq
    rw [heq] at hforms
    rcases hforms with hform | hform
    · rcases endsOpen_withoutStart d with hopen | ⟨before, hopen⟩
      · rw [hform] at hopen
        cases hopen
      · rw [hform] at hopen
        have hlast : '.' = '/' := by simpa using congrArg List.getLast? hopen
        cases hlast
    · exact hd (hform ▸ List.prefix_rfl)
  · rcases hforms with hform | hform
    · exact hd (hform ▸ hprefix)
    · exact hd (hform ▸ hprefix.trans (List.prefix_append _ _))

theorem withoutStart_directory (htail : IsTail tail) (hdot : d.chars ≠ ['.']) :
    withoutStart ['/'] (withoutStart (withoutStart "./".toList d.chars)
      (withoutStart "./".toList (slashed d) ++ tail)) = tail := by
  rcases withoutStart_chars hdot with hform | hform
  · rw [hform, withoutStart_append, withoutStart_eq_self htail.noSlash]
  · rw [hform, List.append_assoc, withoutStart_append, withoutStart_append]

/-- An ignore file sees of a path what stands behind its directory. -/
theorem nameBelow_slashed (hd : DottedOnce d) (htail : IsTail tail) (bytes : List UInt8) :
    (IgnoreFile.ofBytes d bytes).nameBelow ⟨withoutStart "./".toList (slashed d ++ tail)⟩ =
      tail := by
  have hname : withoutStart "./".toList (withoutStart "./".toList (slashed d ++ tail)) =
      withoutStart "./".toList (slashed d) ++ tail := by
    rw [withoutStart_slashed, withoutStart_eq_self (not_prefix_withoutStart hd htail)]
  have hbase : (IgnoreFile.ofBytes d bytes).base = withoutStart "./".toList d.chars := rfl
  rw [IgnoreFile.nameBelow, hbase, hname]
  -- A directory that is written as a dot is taken off together with its slash, as a dot in front.
  by_cases hdot : d.chars = ['.']
  · have hslashed : slashed d = "./".toList ++ [] := by
      rw [slashed, hdot]
      rfl
    rw [if_pos (by rw [hdot]; rfl), hslashed, withoutStart_append, List.nil_append]
  · have hdirectory := withoutStart_directory htail hdot
    have hprefix : withoutStart "./".toList d.chars <+:
        withoutStart "./".toList (slashed d) ++ tail := by
      rcases withoutStart_chars hdot with hform | hform
      · exact hform ▸ List.prefix_append _ _
      · exact hform ▸ (List.prefix_append _ _).trans (List.prefix_append _ _)
    rw [← List.isPrefixOf_iff_prefix] at hprefix
    rw [withoutStart.eq_1 (withoutStart _ d.chars), if_pos hprefix] at hdirectory
    split
    · rename_i hplain
      rcases endsOpen_withoutStart d with hnil | ⟨before, hopen⟩
      · rw [hnil, List.nil_append]
      · rw [Bool.or_eq_true, beq_iff_eq] at hplain
        rcases hplain with hcurrent | hslash
        · exact absurd hcurrent (components_withoutStart hd hdot)
        · rw [hopen] at hslash
          simp at hslash
    · exact hdirectory

/-- The levels above the start of a walk see of a path what stands behind the start, from where the
start lies. -/
theorem anchored_slashed {c : IgnoreChain} (halone : DotAlone c.start) (htail : IsTail tail)
    (anchor : Path) :
    c.anchored anchor ⟨withoutStart "./".toList (slashed c.start ++ tail)⟩ =
      anchor.join ⟨tail⟩ := by
  rw [IgnoreChain.anchored]
  split
  · rename_i hcurrent
    have hslashed : slashed c.start = "./".toList ++ [] := by
      rcases halone (eq_of_beq hcurrent) with hstart | hstart <;> rw [slashed, hstart] <;> rfl
    rw [hslashed, List.append_assoc, List.nil_append, withoutStart_append]
  · rename_i hcurrent
    have hdot : c.start.chars ≠ ['.'] := by
      intro hdot
      exact hcurrent (by rw [show c.start = ⟨['.']⟩ from congrArg Path.mk hdot]; rfl)
    rw [withoutStart_slashed]
    exact congrArg (fun text => anchor.join ⟨text⟩) (withoutStart_directory htail hdot)

end LintGate.Proofs.NameBelow
