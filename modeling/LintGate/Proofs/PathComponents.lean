import LintGate.Path.Absolute

/-!
The components of a path that is written after another one, and of absolute forms: the absolute form
of a path has the components of the directory it is seen from and its own, so it names the same
file.
-/

namespace LintGate.Proofs.PathComponents

open LintGate.Path

/-- A component that can stand behind a slash: a name, or the step to the directory above. -/
def IsStep (c : Component) : Prop :=
  '/' ∉ c.chars ∧ innerComponent? c.chars = some c

theorem not_mem_of_mem_pieces {cs piece : List Char} (h : piece ∈ pieces ⟨cs⟩) : '/' ∉ piece :=
  Text.not_mem_of_mem_splitOn h

theorem isStep_of_innerComponent? {piece : List Char} {c : Component} (hslash : '/' ∉ piece)
    (h : innerComponent? piece = some c) : IsStep c := by
  have hchars : c.chars = piece := by
    unfold innerComponent? at h
    split at h <;> cases h <;> rfl
  rw [IsStep, hchars]
  exact ⟨hslash, h⟩

theorem isStep_of_mem_filterMap {cs : List Char} {c : Component}
    (h : c ∈ (pieces ⟨cs⟩).filterMap innerComponent?) : IsStep c := by
  obtain ⟨piece, hpiece, hc⟩ := List.mem_filterMap.mp h
  exact isStep_of_innerComponent? (not_mem_of_mem_pieces hpiece) hc

theorem pieces_append (before after : List Char) :
    pieces ⟨before ++ '/' :: after⟩ = pieces ⟨before⟩ ++ pieces ⟨after⟩ :=
  List.splitOn_append_cons_self before after

theorem pieces_of_not_mem {cs : List Char} (h : '/' ∉ cs) : pieces ⟨cs⟩ = [cs] :=
  List.splitOn_eq_singleton h

/-- A path that starts at the root goes on with the steps behind the slash. -/
theorem components_root (cs : List Char) :
    components ⟨'/' :: cs⟩ = .root :: (pieces ⟨cs⟩).filterMap innerComponent? := by
  have hpieces : pieces ⟨'/' :: cs⟩ = [] :: pieces ⟨cs⟩ := pieces_append [] cs
  obtain ⟨first, rest, hrest⟩ := List.exists_cons_of_ne_nil (List.splitOn_ne_nil '/' cs)
  have hne : (pieces ⟨cs⟩).isEmpty = false := by simp [pieces, hrest]
  simp [components, hpieces, firstComponents, hne]

/-- The first component of a path that does not start at the root. -/
def leading (label : List Char) : List Component :=
  if label = ['.'] then [.current] else (innerComponent? label).toList

theorem pieces_cons {c : Char} (h : c ≠ '/') (cs : List Char) :
    ∃ first rest, pieces ⟨c :: cs⟩ = (c :: first) :: rest := by
  obtain ⟨first, rest, hrest⟩ := List.exists_cons_of_ne_nil (List.splitOn_ne_nil '/' cs)
  refine ⟨first, rest, ?_⟩
  rw [pieces, List.splitOn_cons_eq_if_modifyHead, if_neg (by simpa using h), hrest,
    List.modifyHead_cons]

theorem components_of_pieces {p : Path} {c : Char} {first : List Char} {rest : List (List Char)}
    (h : p.pieces = (c :: first) :: rest) :
    p.components = leading (c :: first) ++ rest.filterMap innerComponent? := by
  have hfirst (isLast : Bool) : firstComponents (c :: first) isLast = leading (c :: first) := by
    unfold firstComponents leading
    split <;> simp_all
  rw [components, h]
  exact congrArg (· ++ rest.filterMap innerComponent?) (hfirst rest.isEmpty)

/-- A first piece that is not empty is one component, and not the root. -/
theorem leading_cons (c : Char) (first : List Char) :
    ∃ x, leading (c :: first) = [x] ∧ x ≠ .root := by
  unfold leading
  split
  · exact ⟨.current, rfl, nofun⟩
  · unfold innerComponent?
    split
    · contradiction
    · contradiction
    · exact ⟨.parent, rfl, nofun⟩
    · exact ⟨.name _, rfl, nofun⟩

/-- Whether a path is absolute, or empty, is seen from its components. -/
theorem isAbsolute_and_isEmpty_eq (p : Path) :
    p.isAbsolute = (p.components.head? == some .root) ∧ p.isEmpty = p.components.isEmpty := by
  obtain ⟨chars⟩ := p
  cases chars with
  | nil => exact ⟨rfl, rfl⟩
  | cons c chars =>
      by_cases hc : c = '/'
      · subst hc
        rw [components_root]
        exact ⟨rfl, rfl⟩
      · obtain ⟨first, rest, hpieces⟩ := pieces_cons hc chars
        obtain ⟨x, hx, hroot⟩ := leading_cons c first
        have hrelative : isAbsolute ⟨c :: chars⟩ = false := by simp [isAbsolute, hc]
        rw [components_of_pieces hpieces, hx, hrelative]
        refine ⟨?_, rfl⟩
        simpa using hroot

/-- What is written behind a slash adds its steps. -/
theorem components_append {before : List Char} (h : before ≠ []) (after : List Char) :
    components ⟨before ++ '/' :: after⟩ =
      components ⟨before⟩ ++ (pieces ⟨after⟩).filterMap innerComponent? := by
  cases before with
  | nil => exact absurd rfl h
  | cons c before =>
      by_cases hc : c = '/'
      · subst hc
        rw [List.cons_append, components_root, components_root, pieces_append,
          List.filterMap_append, List.cons_append]
      · obtain ⟨first, rest, hpieces⟩ := pieces_cons hc before
        have hall : pieces ⟨(c :: before) ++ '/' :: after⟩ =
            (c :: first) :: (rest ++ pieces ⟨after⟩) := by
          rw [pieces_append, hpieces, List.cons_append]
        rw [components_of_pieces hpieces, components_of_pieces hall, List.filterMap_append,
          List.append_assoc]

theorem components_slash {before : List Char} (h : before ≠ []) :
    components ⟨before ++ ['/']⟩ = components ⟨before⟩ := by
  have hnil : (pieces ⟨[]⟩).filterMap innerComponent? = [] := rfl
  rw [components_append h, hnil, List.append_nil]

theorem isAbsolute_iff {p : Path} : p.isAbsolute = true ↔ ∃ cs, p.chars = '/' :: cs := by
  rw [isAbsolute, beq_iff_eq, List.head?_eq_some_iff]

theorem filter_of_isStep {cs : List Component} (h : ∀ c ∈ cs, IsStep c) :
    cs.filter (· != .current) = cs := by
  refine List.filter_eq_self.mpr fun c hc => ?_
  have hstep := (h c hc).2
  cases c <;> first | rfl | cases hstep

theorem steps_of_isAbsolute {p : Path} (h : p.isAbsolute = true) :
    ∃ cs : List Component, (∀ c ∈ cs, IsStep c) ∧ p.steps = .root :: cs := by
  obtain ⟨chars⟩ := p
  obtain ⟨after, rfl⟩ := isAbsolute_iff.mp h
  have hsteps : ∀ c ∈ (pieces ⟨after⟩).filterMap innerComponent?, IsStep c :=
    fun c hc => isStep_of_mem_filterMap hc
  refine ⟨_, hsteps, ?_⟩
  rw [steps, components_root, List.filter_cons_of_pos rfl, filter_of_isStep hsteps]

theorem isStep_of_mem_steps {p : Path} (h : p.isAbsolute = false) :
    ∀ c ∈ p.steps, IsStep c := by
  obtain ⟨chars⟩ := p
  intro c hc
  cases chars with
  | nil => cases hc
  | cons d chars =>
      have hd : d ≠ '/' := by
        rintro rfl
        cases h
      obtain ⟨first, rest, hpieces⟩ := pieces_cons hd chars
      rw [steps, components_of_pieces hpieces, List.mem_filter, List.mem_append] at hc
      obtain ⟨hfirst | hrest, hcurrent⟩ := hc
      · rw [leading] at hfirst
        split at hfirst
        · obtain rfl := List.mem_singleton.mp hfirst
          cases hcurrent
        · have hmem : d :: first ∈ pieces ⟨d :: chars⟩ := by simp [hpieces]
          exact isStep_of_innerComponent? (not_mem_of_mem_pieces hmem) (Option.mem_toList.mp hfirst)
      · obtain ⟨piece, hpiece, hinner⟩ := List.mem_filterMap.mp hrest
        have hmem : piece ∈ pieces ⟨d :: chars⟩ := by simp [hpieces, hpiece]
        exact isStep_of_innerComponent? (not_mem_of_mem_pieces hmem) hinner

/-- A name among the components is a step. -/
theorem isStep_of_mem_components {p : Path} {label : List Char}
    (h : .name label ∈ p.components) : IsStep (.name label) := by
  have hsteps : .name label ∈ p.steps := List.mem_filter.mpr ⟨h, rfl⟩
  cases habs : p.isAbsolute with
  | true =>
      obtain ⟨cs, hcs, heq⟩ := steps_of_isAbsolute habs
      rw [heq] at hsteps
      rcases List.mem_cons.mp hsteps with hroot | hmem
      · cases hroot
      · exact hcs _ hmem
  | false => exact isStep_of_mem_steps habs _ hsteps

/-- A path with several components has a slash. -/
theorem slash_mem_of_components {p : Path} (h : 1 < p.components.length) : '/' ∈ p.chars := by
  refine Decidable.byContradiction fun hnone => ?_
  have hpieces : p.pieces = [p.chars] := pieces_of_not_mem hnone
  have hfirst : (firstComponents p.chars true).length ≤ 1 := by
    unfold firstComponents
    split
    · exact Nat.zero_le 1
    · exact Nat.le_refl 1
    · cases innerComponent? p.chars <;> simp
  rw [components, hpieces] at h
  simp only [List.filterMap_nil, List.append_nil, List.isEmpty_nil] at h
  omega

section Extend

variable {base : List Char} {c : Component} {cs : List Component}

theorem isAbsolute_of_isStep (hc : IsStep c) : isAbsolute ⟨c.chars⟩ = false := by
  rw [Bool.eq_false_iff, ne_eq, isAbsolute_iff]
  rintro ⟨after, hafter⟩
  have hchars : c.chars = '/' :: after := hafter
  exact hc.1 (by rw [hchars]; exact List.mem_cons_self)

theorem prefix_join (hc : IsStep c) : base <+: (join ⟨base⟩ ⟨c.chars⟩).chars := by
  cases base with
  | nil => exact List.nil_prefix
  | cons b base =>
      rw [join, isAbsolute_of_isStep hc, if_neg (by simp [isEmpty])]
      split <;> exact List.prefix_append _ _

theorem suffix_join (p : Path) (q : Path) : q.chars <:+ (join p q).chars := by
  rw [join]
  split
  · exact List.suffix_rfl
  · split
    · exact List.suffix_append _ _
    · exact (List.suffix_cons '/' q.chars).trans (List.suffix_append _ _)

/-- A relative path behind another one is as absolute as that one. -/
theorem isAbsolute_join {base p : Path} (hbase : base.isEmpty = false)
    (hp : p.isAbsolute = false) : (base.join p).isAbsolute = base.isAbsolute := by
  obtain ⟨cs⟩ := base
  cases cs with
  | nil => cases hbase
  | cons c cs =>
      rw [join, if_neg (by simp [hp, hbase])]
      split <;> rfl

/-- One more step behind a path is one more component. -/
theorem components_join (h : base ≠ []) (hc : IsStep c) :
    components (join ⟨base⟩ ⟨c.chars⟩) = components ⟨base⟩ ++ [c] := by
  have hstep : (pieces ⟨c.chars⟩).filterMap innerComponent? = [c] := by
    rw [pieces_of_not_mem hc.1, List.filterMap_cons_some hc.2, List.filterMap_nil]
  have hempty : base.isEmpty = false := by simpa using h
  rw [join]
  simp only [isAbsolute_of_isStep hc, isEmpty, hempty, Bool.or_false, Bool.false_eq_true, if_false]
  split
  · rename_i hlast
    obtain ⟨before, rfl⟩ := List.getLast?_eq_some_iff.mp (eq_of_beq hlast)
    rw [List.append_assoc, List.singleton_append]
    cases before with
    | nil =>
        rw [List.nil_append, List.nil_append, components_root, components_root, hstep]
        rfl
    | cons b before =>
        rw [components_append (List.cons_ne_nil b before), hstep,
          components_slash (List.cons_ne_nil b before)]
  · rw [components_append h, hstep]

theorem prefix_extend (base : List Char) (h : ∀ c ∈ cs, IsStep c) : base <+: extend base cs := by
  induction cs generalizing base with
  | nil => exact List.prefix_rfl
  | cons c cs ih =>
      obtain ⟨hc, hrest⟩ := List.forall_mem_cons.mp h
      exact (prefix_join hc).trans (ih _ hrest)

theorem suffix_extend (base : List Char) (cs : List Component) (c : Component) :
    c.chars <:+ extend base (cs ++ [c]) := by
  rw [extend, List.foldl_append, List.foldl_cons, List.foldl_nil]
  exact suffix_join _ _

theorem components_extend (hbase : base ≠ []) (h : ∀ c ∈ cs, IsStep c) :
    components ⟨extend base cs⟩ = components ⟨base⟩ ++ cs := by
  induction cs generalizing base with
  | nil => simp [extend]
  | cons c cs ih =>
      obtain ⟨hc, hrest⟩ := List.forall_mem_cons.mp h
      have hne : (join ⟨base⟩ ⟨c.chars⟩).chars ≠ [] := (prefix_join hc).ne_nil hbase
      have ih := ih hne hrest
      rw [components_join hbase hc] at ih
      simpa [extend] using ih

end Extend

section Absolute

variable {cwd p : Path}

/-- What the absolute form is written as before a slash is put at its end. -/
def written (cwd p : Path) : List Char :=
  if !p.isAbsolute then extend cwd.chars p.steps
  else if "//".toList.isPrefixOf p.chars && !"///".toList.isPrefixOf p.chars then
    extend "//".toList (p.steps.drop 1)
  else extend [] p.steps

theorem chars_absolute (cwd : Path) (hp : p.isEmpty = false) :
    ∃ slash, (slash = [] ∨ slash = ['/']) ∧ (absolute cwd p).chars = written cwd p ++ slash := by
  have habsolute : absolute cwd p =
      if p.chars.getLast? == some '/' && (written cwd p).getLast? != some '/' then
        ⟨written cwd p ++ ['/']⟩ else ⟨written cwd p⟩ := by
    rw [absolute, hp]
    rfl
  rw [habsolute]
  split
  · exact ⟨['/'], .inr rfl, rfl⟩
  · exact ⟨[], .inl rfl, by simp⟩

/-- The absolute form is written from an absolute path on, step by step. -/
theorem written_eq (hcwd : cwd.isAbsolute = true) :
    ∃ (base : List Char) (cs : List Component),
      isAbsolute ⟨base⟩ = true ∧ (∀ c ∈ cs, IsStep c) ∧
      (p.steps = cs ∨ p.steps = .root :: cs) ∧
      components ⟨base⟩ ++ cs = (if p.isAbsolute then [] else cwd.components) ++ p.steps ∧
      written cwd p = extend base cs := by
  cases habs : p.isAbsolute with
  | false =>
      refine ⟨cwd.chars, p.steps, hcwd, isStep_of_mem_steps habs, .inl rfl, rfl, ?_⟩
      simp [written, habs]
  | true =>
      obtain ⟨cs, hcs, hsteps⟩ := steps_of_isAbsolute habs
      by_cases hdouble : "//".toList.isPrefixOf p.chars && !"///".toList.isPrefixOf p.chars
      · refine ⟨"//".toList, cs, rfl, hcs, .inr hsteps, by rw [hsteps]; rfl, ?_⟩
        rw [written, habs, if_neg (by simp), if_pos hdouble, hsteps, List.drop_one, List.tail_cons]
      · have hroot : extend [] (.root :: cs) = extend ['/'] cs := rfl
        refine ⟨['/'], cs, rfl, hcs, .inr hsteps, by rw [hsteps]; rfl, ?_⟩
        rw [written, habs, if_neg (by simp), if_neg hdouble, hsteps, hroot]

theorem isAbsolute_absolute (hcwd : cwd.isAbsolute = true) (hp : p.isEmpty = false) :
    (absolute cwd p).isAbsolute = true := by
  obtain ⟨slash, _, hchars⟩ := chars_absolute cwd hp
  obtain ⟨base, cs, hbase, hcs, _, _, hwritten⟩ := written_eq (p := p) hcwd
  obtain ⟨after, rfl⟩ := isAbsolute_iff.mp hbase
  obtain ⟨tail, htail⟩ := prefix_extend ('/' :: after) hcs
  exact isAbsolute_iff.mpr ⟨after ++ tail ++ slash, by rw [hchars, hwritten, ← htail]; simp⟩

theorem components_absolute (hcwd : cwd.isAbsolute = true) (hp : p.isEmpty = false) :
    (absolute cwd p).components =
      (if p.isAbsolute then [] else cwd.components) ++ p.steps := by
  obtain ⟨slash, hslash, hchars⟩ := chars_absolute cwd hp
  obtain ⟨base, cs, hbase, hcs, _, hcomponents, hwritten⟩ := written_eq (p := p) hcwd
  have hne : base ≠ [] := by
    rintro rfl
    cases hbase
  have hextend : extend base cs ≠ [] := (prefix_extend base hcs).ne_nil hne
  have hpath : absolute cwd p = ⟨extend base cs ++ slash⟩ := by rw [← hwritten, ← hchars]
  rw [hpath, ← hcomponents, ← components_extend hne hcs]
  rcases hslash with rfl | rfl
  · rw [List.append_nil]
  · rw [components_slash hextend]

theorem walk_filter (names : List (List Char)) (cs : List Component) :
    walk names (cs.filter (· != .current)) = walk names cs := by
  induction cs generalizing names with
  | nil => rfl
  | cons c cs ih => cases c <;> exact ih _

/-- The absolute form leads the same way. -/
theorem names_absolute (hcwd : cwd.isAbsolute = true) (hp : p.isEmpty = false) :
    names cwd (absolute cwd p) = names cwd p := by
  rw [names, names, isAbsolute_absolute hcwd hp, components_absolute hcwd hp, if_pos rfl,
    List.nil_append, ← walk_filter, ← walk_filter [] (_ ++ p.components), List.filter_append,
    List.filter_append, steps, List.filter_filter]
  simp

theorem isEmpty_of_components (h : p.components ≠ []) : p.isEmpty = false := by
  obtain ⟨chars⟩ := p
  cases chars with
  | nil => exact absurd rfl h
  | cons c chars => rfl

theorem isEmpty_absolute (hcwd : cwd.isAbsolute = true) (hp : p.isEmpty = false) :
    (absolute cwd p).isEmpty = false := by
  obtain ⟨after, hafter⟩ := isAbsolute_iff.mp (isAbsolute_absolute hcwd hp)
  simp [isEmpty, hafter]

theorem sameFile_absolute (hcwd : cwd.isAbsolute = true) (hp : p.isEmpty = false) :
    sameFile cwd (absolute cwd p) p = true := by
  simp [sameFile, normalComponents, isEmpty_absolute hcwd hp, hp, names_absolute hcwd hp]

theorem getLast?_of_fileName? {label : List Char} (h : p.fileName? = some label) :
    p.components.getLast? = some (.name label) := by
  rw [fileName?] at h
  split at h
  · rename_i hlast
    rw [hlast, Option.some.inj h]
  · cases h

theorem isEmpty_of_fileName? {label : List Char} (h : p.fileName? = some label) :
    p.isEmpty = false := by
  refine isEmpty_of_components ?_
  intro hnil
  have hlast := getLast?_of_fileName? h
  rw [hnil] at hlast
  cases hlast

/-- The absolute form of a file ends with the name of the file, and perhaps a slash. -/
theorem suffix_absolute (hcwd : cwd.isAbsolute = true) {label : List Char}
    (hname : p.fileName? = some label) :
    ∃ slash, (slash = [] ∨ slash = ['/']) ∧ label ++ slash <:+ (absolute cwd p).chars := by
  have hp := isEmpty_of_fileName? hname
  obtain ⟨before, hbefore⟩ := List.getLast?_eq_some_iff.mp (getLast?_of_fileName? hname)
  have hsteps : p.steps = before.filter (· != .current) ++ [.name label] := by
    rw [steps, hbefore, List.filter_append]
    rfl
  obtain ⟨slash, hslash, hchars⟩ := chars_absolute cwd hp
  obtain ⟨base, cs, _, _, hcs, _, hwritten⟩ := written_eq (p := p) hcwd
  have hend : cs.getLast? = some (.name label) := by
    rw [hsteps] at hcs
    rcases hcs with rfl | hroot
    · exact List.getLast?_concat
    · cases hrest : before.filter (· != .current) with
      | nil => simp [hrest] at hroot
      | cons c rest =>
          rw [hrest, List.cons_append] at hroot
          rw [← (List.cons.inj hroot).2, List.getLast?_concat]
  obtain ⟨front, rfl⟩ := List.getLast?_eq_some_iff.mp hend
  obtain ⟨start, hstart⟩ := suffix_extend base front (.name label)
  exact ⟨slash, hslash, start, by rw [hchars, hwritten, ← hstart]; simp [Component.chars]⟩

end Absolute

end LintGate.Proofs.PathComponents
