import LintGate.Analysis.Report
import LintGate.Proofs.SamePlace

/-!
Normal forms of paths, and which paths have the same one: those that are spelled from one another by
a few rules about slashes, dots and the current directory. The normal form decides which findings
belong to a file.
-/

namespace LintGate.Proofs.NormalForms

open LintGate.Path
open LintGate.Proofs.FilePlace
open LintGate.Proofs.PathComponents
open LintGate.Proofs.SamePlace

section Onward

variable {cwd base p : Path} {labels : List (List Char)} {label u v : List Char}

/-- The names that are left when a text is followed from these. -/
def onward (labels : List (List Char)) (v : List Char) : List (List Char) :=
  (walk labels.reverse ((pieces ⟨v⟩).filterMap innerComponent?)).reverse

/-- The names from which a text behind a slash leads on, with `u` before the slash. -/
def namesBefore (cwd : Path) (u : List Char) : List (List Char) :=
  if u.isEmpty then [] else names cwd ⟨u⟩

theorem onward_slash (labels : List (List Char)) (u v : List Char) :
    onward labels (u ++ '/' :: v) = onward (onward labels u) v := by
  rw [onward, pieces_append, List.filterMap_append, walk_append, onward, onward,
    List.reverse_reverse]

theorem onward_nil (labels : List (List Char)) : onward labels [] = labels :=
  List.reverse_reverse labels

theorem onward_dot (labels : List (List Char)) : onward labels ['.'] = labels :=
  List.reverse_reverse labels

theorem onward_dots (labels : List (List Char)) : onward labels ['.', '.'] = labels.dropLast := by
  have hwalk : onward labels ['.', '.'] = labels.reverse.tail.reverse := rfl
  rw [hwalk, List.tail_reverse, List.reverse_reverse]

theorem onward_label (labels : List (List Char)) (h : IsStep (.name label)) :
    onward labels label = labels ++ [label] := by
  have hpieces : pieces ⟨label⟩ = [label] := pieces_of_not_mem h.1
  have hinner : innerComponent? label = some (.name label) := h.2
  rw [onward, hpieces, List.filterMap_cons_some hinner, List.filterMap_nil, walk, walk,
    List.reverse_cons, List.reverse_reverse]

/-- A text behind a slash is followed from what stands before the slash. -/
theorem names_slash (cwd : Path) (u v : List Char) :
    names cwd ⟨u ++ '/' :: v⟩ = onward (namesBefore cwd u) v := by
  cases u with
  | nil =>
      rw [names_of_isAbsolute rfl, List.nil_append, components_root]
      rfl
  | cons c u =>
      have habs : isAbsolute ⟨c :: u ++ '/' :: v⟩ = isAbsolute ⟨c :: u⟩ := rfl
      rw [names, habs, components_append (List.cons_ne_nil c u), ← List.append_assoc, walk_append,
        onward, namesBefore, List.isEmpty_cons, if_neg Bool.false_ne_true, names,
        List.reverse_reverse]

theorem namesBefore_of_ne_nil (h : u ≠ []) : namesBefore cwd u = names cwd ⟨u⟩ :=
  if_neg (by simpa using h)

/-- A relative path is followed from the current directory. -/
theorem names_eq_onward (h : p.isAbsolute = false) :
    names cwd p = onward (names cwd ⟨[]⟩) p.chars := by
  rw [names, h, if_neg Bool.false_ne_true, walk_append, walk_components, names, onward,
    List.reverse_reverse]
  exact congrArg (fun cs => (walk (walk [] cs) _).reverse) (List.append_nil _).symm

/-- The current directory is where the empty path leads. -/
theorem names_cwd (hcwd : cwd.isAbsolute = true) : names cwd cwd = names cwd ⟨[]⟩ := by
  have hempty : names cwd ⟨[]⟩ = (walk [] (cwd.components ++ [])).reverse := rfl
  rw [hempty, List.append_nil, names_of_isAbsolute hcwd]

theorem eq_of_isEmpty (hp : p.isEmpty = true) : p = ⟨[]⟩ := by
  obtain ⟨chars⟩ := p
  exact congrArg Path.mk (List.isEmpty_iff.mp hp)

/-- A relative path behind another one is followed from there. -/
theorem names_join (cwd base : Path) (h : p.isAbsolute = false) :
    names cwd (base.join p) = onward (names cwd base) p.chars := by
  cases hbase : base.isEmpty with
  | true =>
      rw [join, hbase, Bool.or_true, if_pos rfl, eq_of_isEmpty hbase]
      exact names_eq_onward h
  | false =>
      obtain ⟨before, hslashed, hchars⟩ := slashed_eq base
      have hbefore : names cwd base = namesBefore cwd before := by
        obtain ⟨chars⟩ := base
        rcases hchars with rfl | rfl
        · rw [names_slash, onward_nil]
        · exact (namesBefore_of_ne_nil (by simpa [isEmpty] using hbase)).symm
      rw [join_eq hbase h, hslashed, List.append_assoc, List.singleton_append, names_slash, hbefore]

end Onward

section Normal

variable {cwd p q : Path} {labels : List (List Char)} {label : List Char}

theorem mem_walk {names : List (List Char)} {cs : List Component} (h : label ∈ walk names cs) :
    label ∈ names ∨ .name label ∈ cs := by
  induction cs generalizing names with
  | nil => exact .inl h
  | cons c cs ih =>
      cases c with
      | root | current =>
          exact (ih h).imp_right (List.mem_cons_of_mem _)
      | parent =>
          exact (ih h).imp List.mem_of_mem_tail (List.mem_cons_of_mem _)
      | name first =>
          rcases ih h with hmem | hmem
          · rcases List.mem_cons.mp hmem with rfl | hmem
            · exact .inr List.mem_cons_self
            · exact .inl hmem
          · exact .inr (List.mem_cons_of_mem _ hmem)

/-- The names that are left of a path are steps. -/
theorem isStep_of_mem_names (h : label ∈ names cwd p) : IsStep (.name label) := by
  rcases mem_walk (List.mem_reverse.mp h) with hnil | hmem
  · cases hnil
  · rcases List.mem_append.mp hmem with hcwd | hp
    · split at hcwd
      · cases hcwd
      · exact isStep_of_mem_components hcwd
    · exact isStep_of_mem_components hp

theorem filterMap_of_isStep (h : ∀ label ∈ labels, IsStep (.name label)) :
    labels.filterMap innerComponent? = labels.map .name := by
  have hsteps : labels.filterMap innerComponent? = labels.filterMap (some ∘ Component.name) :=
    List.filterMap_congr fun label hlabel => (h label hlabel).2
  rw [hsteps, List.filterMap_eq_map]

/-- Names with a slash between them are the pieces of the text. -/
theorem pieces_intercalate (h : ∀ label ∈ labels, IsStep (.name label)) (hne : labels ≠ []) :
    pieces ⟨['/'].intercalate labels⟩ = labels :=
  List.splitOn_intercalate '/' (fun label hlabel => (h label hlabel).1) hne

theorem steps_intercalate (h : ∀ label ∈ labels, IsStep (.name label)) :
    (pieces ⟨['/'].intercalate labels⟩).filterMap innerComponent? = labels.map .name := by
  cases labels with
  | nil => rfl
  | cons label rest =>
      rw [pieces_intercalate h (List.cons_ne_nil label rest), filterMap_of_isStep h]

theorem components_normalize (cwd p : Path) :
    (normalize cwd p).components = normalComponents cwd p := by
  obtain ⟨chars⟩ := p
  cases chars with
  | nil => rfl
  | cons c chars =>
      rw [Path.normalize, normalComponents, isEmpty, List.isEmpty_cons, if_neg Bool.false_ne_true,
        if_neg Bool.false_ne_true, components_root, steps_intercalate fun _ => isStep_of_mem_names]

/-- There is no dot in a normal form. -/
theorem exists_components_normalize (hp : p.isEmpty = false) : ∃ labels : List (List Char),
    (∀ label ∈ labels, IsStep (.name label)) ∧
      (normalize cwd p).components = .root :: labels.map .name := by
  refine ⟨names cwd p, fun _ => isStep_of_mem_names, ?_⟩
  rw [components_normalize, normalComponents_of_ne_nil hp]

theorem normalize_of_ne_nil (hp : p.isEmpty = false) :
    normalize cwd p = ⟨'/' :: ['/'].intercalate (names cwd p)⟩ :=
  if_neg (by simp [hp])

/-- There is nothing above the root. -/
example : normalize ⟨"/work".toList⟩ ⟨"src//./lib/../../../../a.cpp/".toList⟩ =
    ⟨"/a.cpp".toList⟩ := by
  decide +kernel

theorem normalize_eq (hp : p.isEmpty = false) (hq : q.isEmpty = false)
    (h : names cwd p = names cwd q) : normalize cwd p = normalize cwd q := by
  rw [normalize_of_ne_nil hp, normalize_of_ne_nil hq, h]

theorem isAbsolute_normalize (hp : p.isEmpty = false) : (normalize cwd p).isAbsolute = true := by
  rw [normalize_of_ne_nil hp]
  rfl

theorem names_normalize (hp : p.isEmpty = false) : names cwd (normalize cwd p) = names cwd p := by
  have hroot (cs : List Component) : walk [] (.root :: cs) = walk [] cs := rfl
  rw [names_of_isAbsolute (isAbsolute_normalize hp), components_normalize,
    normalComponents_of_ne_nil hp, hroot, walk_names, List.append_nil, List.reverse_reverse]

theorem sameFile_iff_normalize :
    sameFile cwd p q = true ↔ normalize cwd p = normalize cwd q := by
  constructor
  · intro h
    obtain ⟨hempty, hnames⟩ := sameFile_iff.mp h
    cases hp : p.isEmpty with
    | true => rw [eq_of_isEmpty hp, eq_of_isEmpty (hempty.symm.trans hp)]
    | false => exact normalize_eq hp (hempty ▸ hp) (hnames hp)
  · intro h
    rw [sameFile_iff_normalComponents, ← components_normalize, ← components_normalize, h]

theorem normalize_normalize (cwd p : Path) :
    normalize cwd (normalize cwd p) = normalize cwd p := by
  cases hp : p.isEmpty with
  | true =>
      have hself : normalize cwd p = p := if_pos hp
      rw [hself, hself]
  | false =>
      have hne : (normalize cwd p).isEmpty = false := by
        rw [normalize_of_ne_nil hp]
        rfl
      exact normalize_eq hne hp (names_normalize hp)

end Normal

/-- Paths that are spelled from one another by rules that keep the file. -/
inductive Respelled (cwd : Path) : Path → Path → Prop
  | refl (p : Path) : Respelled cwd p p
  | symm {p q : Path} : Respelled cwd p q → Respelled cwd q p
  | trans {p q r : Path} : Respelled cwd p q → Respelled cwd q r → Respelled cwd p r
  /-- A relative path is seen from the current directory. -/
  | anchor {p : Path} (hp : p.isEmpty = false) (h : p.isAbsolute = false) :
      Respelled cwd p (cwd.join p)
  /-- Repeated slashes are one slash. -/
  | slashes (u v : List Char) : Respelled cwd ⟨u ++ '/' :: '/' :: v⟩ ⟨u ++ '/' :: v⟩
  /-- A slash at the end does not count. -/
  | trailing {u : List Char} (h : u ≠ []) : Respelled cwd ⟨u ++ ['/']⟩ ⟨u⟩
  /-- A dot does not lead anywhere. -/
  | dot (u v : List Char) : Respelled cwd ⟨u ++ '/' :: '.' :: '/' :: v⟩ ⟨u ++ '/' :: v⟩
  /-- Two dots take back the name before them. -/
  | back {label : List Char} (h : IsStep (.name label)) (u v : List Char) :
      Respelled cwd ⟨u ++ '/' :: (label ++ '/' :: '.' :: '.' :: '/' :: v)⟩ ⟨u ++ '/' :: v⟩
  /-- There is nothing above the root. -/
  | top (v : List Char) : Respelled cwd ⟨'/' :: '.' :: '.' :: '/' :: v⟩ ⟨'/' :: v⟩

section Respelling

variable {cwd p q : Path}

theorem sameFile_of_names (hp : p.isEmpty = false) (hq : q.isEmpty = false)
    (h : names cwd p = names cwd q) : sameFile cwd p q = true :=
  sameFile_iff.mpr ⟨hp.trans hq.symm, fun _ => h⟩

theorem isEmpty_slash (u v : List Char) : isEmpty ⟨u ++ '/' :: v⟩ = false := by
  simp [isEmpty]

theorem sameFile_slash {u u' v v' : List Char}
    (h : onward (namesBefore cwd u) v = onward (namesBefore cwd u') v') :
    sameFile cwd ⟨u ++ '/' :: v⟩ ⟨u' ++ '/' :: v'⟩ = true := by
  refine sameFile_of_names (isEmpty_slash u v) (isEmpty_slash u' v') ?_
  rw [names_slash, names_slash, h]

theorem isAbsolute_join_of_isAbsolute (hcwd : cwd.isAbsolute = true) (p : Path) :
    (cwd.join p).isAbsolute = true := by
  cases hp : p.isAbsolute with
  | true => rwa [join, hp, Bool.true_or, if_pos rfl]
  | false =>
      have hempty : cwd.isEmpty = false := by
        obtain ⟨after, hafter⟩ := isAbsolute_iff.mp hcwd
        rw [isEmpty, hafter, List.isEmpty_cons]
      rw [isAbsolute_join hempty hp, hcwd]

theorem isEmpty_join (base p : Path) : (base.join p).isEmpty = (base.isEmpty && p.isEmpty) := by
  cases hp : p.isAbsolute with
  | true =>
      obtain ⟨after, hafter⟩ := isAbsolute_iff.mp hp
      have hne : p.isEmpty = false := by rw [isEmpty, hafter, List.isEmpty_cons]
      rw [join, hp, Bool.true_or, if_pos rfl, hne, Bool.and_false]
  | false =>
      cases hbase : base.isEmpty with
      | true => rw [join, hbase, Bool.or_true, if_pos rfl, Bool.true_and]
      | false =>
          have hne : slashed base ≠ [] := slashed_ne_nil base
          rw [join_eq hbase hp, Bool.false_and]
          simp [isEmpty, hne]

/-- The rules keep the file. -/
theorem Respelled.sameFile (h : Respelled cwd p q) (hcwd : cwd.isAbsolute = true) :
    sameFile cwd p q = true := by
  induction h with
  | refl p => exact (sameFile_equivalence cwd).refl p
  | symm _ ih => exact (sameFile_equivalence cwd).symm ih
  | trans _ _ ih ih' => exact (sameFile_equivalence cwd).trans ih ih'
  | anchor hp h =>
      refine sameFile_of_names hp (by rw [isEmpty_join, hp, Bool.and_false]) ?_
      rw [names_join cwd cwd h, names_eq_onward h, names_cwd hcwd]
  | slashes u v =>
      refine sameFile_slash ?_
      rw [← List.nil_append ('/' :: v), onward_slash, onward_nil]
  | trailing h =>
      refine sameFile_of_names (isEmpty_slash _ []) (by simpa [isEmpty] using h) ?_
      rw [names_slash, onward_nil, namesBefore_of_ne_nil h]
  | dot u v =>
      refine sameFile_slash ?_
      rw [← List.singleton_append, onward_slash, onward_dot]
  | @back label h u v =>
      refine sameFile_slash ?_
      have hup (labels : List (List Char)) :
          onward labels ('.' :: '.' :: '/' :: v) = onward (onward labels ['.', '.']) v :=
        onward_slash labels ['.', '.'] v
      rw [onward_slash, onward_label _ h, hup, onward_dots, List.dropLast_concat]
  | top v =>
      refine @sameFile_slash cwd [] [] ('.' :: '.' :: '/' :: v) v ?_
      exact onward_slash [] ['.', '.'] v

theorem Respelled.normalize_eq (h : Respelled cwd p q) (hcwd : cwd.isAbsolute = true) :
    normalize cwd p = normalize cwd q :=
  sameFile_iff_normalize.mp (h.sameFile hcwd)

end Respelling

section Spelling

variable {cwd p q : Path} {labels : List (List Char)} {piece : List Char}

/-- Names with a slash before each. -/
def chain (labels : List (List Char)) : List Char :=
  labels.flatMap ('/' :: ·)

theorem chain_concat (labels : List (List Char)) (label : List Char) :
    chain (labels ++ [label]) = chain labels ++ '/' :: label := by
  simp [chain]

theorem chain_eq (h : labels ≠ []) : chain labels = '/' :: ['/'].intercalate labels := by
  induction labels with
  | nil => exact absurd rfl h
  | cons label rest ih =>
      cases rest with
      | nil => simp [chain]
      | cons next rest =>
          have ih := ih (List.cons_ne_nil next rest)
          rw [List.intercalate_cons_cons, List.append_assoc, List.singleton_append, ← ih]
          rfl

theorem piece_cases (h : '/' ∉ piece) :
    piece = [] ∨ piece = ['.'] ∨ piece = ['.', '.'] ∨ IsStep (.name piece) := by
  cases hinner : innerComponent? piece with
  | none =>
      unfold innerComponent? at hinner
      split at hinner <;> simp_all
  | some c =>
      have hc : IsStep c := isStep_of_innerComponent? h hinner
      unfold innerComponent? at hinner
      split at hinner <;> cases hinner <;> simp [hc]

/-- A piece between slashes goes into the names before it. -/
theorem respelled_piece (hlabels : ∀ label ∈ labels, IsStep (.name label)) (hpiece : '/' ∉ piece)
    (v : List Char) :
    Respelled cwd ⟨chain labels ++ '/' :: (piece ++ '/' :: v)⟩
      ⟨chain (onward labels piece) ++ '/' :: v⟩ := by
  rcases piece_cases hpiece with rfl | rfl | rfl | hstep
  · rw [onward_nil]
    exact .slashes _ v
  · rw [onward_dot]
    exact .dot _ v
  · rw [onward_dots]
    rcases labels.eq_nil_or_concat with rfl | ⟨before, label, rfl⟩
    · exact .top v
    · have hlabel : IsStep (.name label) := hlabels label (by simp)
      rw [List.concat_eq_append, List.dropLast_concat, chain_concat, List.append_assoc]
      exact .back hlabel (chain before) v
  · rw [onward_label labels hstep, chain_concat, List.append_assoc]
    exact .refl _

theorem isStep_of_mem_onward (hlabels : ∀ label ∈ labels, IsStep (.name label)) (v : List Char) :
    ∀ label ∈ onward labels v, IsStep (.name label) := by
  intro label hlabel
  rcases mem_walk (List.mem_reverse.mp hlabel) with hmem | hmem
  · exact hlabels label (List.mem_reverse.mp hmem)
  · exact isStep_of_mem_filterMap hmem

/-- A text behind names goes into them, piece by piece. -/
theorem respelled_onward {labels : List (List Char)}
    (hlabels : ∀ label ∈ labels, IsStep (.name label)) (v : List Char) :
    Respelled cwd ⟨chain labels ++ '/' :: v⟩ ⟨chain (onward labels v) ++ ['/']⟩ := by
  by_cases hslash : '/' ∈ v
  · obtain ⟨piece, rest, hv, hpiece⟩ := List.eq_append_cons_of_mem hslash
    have hshorter : rest.length < v.length := by
      rw [hv, List.length_append, List.length_cons]
      omega
    have hrest := respelled_onward (isStep_of_mem_onward hlabels piece) rest
    rw [hv, onward_slash]
    exact (respelled_piece hlabels hpiece rest).trans hrest
  · have hne : chain labels ++ '/' :: v ≠ [] := by simp
    have hclosed :
        Respelled cwd ⟨chain labels ++ '/' :: v⟩ ⟨chain labels ++ '/' :: (v ++ ['/'])⟩ := by
      have htrailing : Respelled cwd ⟨chain labels ++ '/' :: v ++ ['/']⟩ _ := .trailing hne
      rw [List.append_assoc, List.cons_append] at htrailing
      exact htrailing.symm
    exact hclosed.trans (respelled_piece hlabels hslash [])
termination_by v.length

theorem respelled_chain (labels : List (List Char)) :
    Respelled cwd ⟨chain labels ++ ['/']⟩ ⟨'/' :: ['/'].intercalate labels⟩ := by
  by_cases h : labels = []
  · subst h
    exact .refl _
  · rw [chain_eq h]
    exact .trailing (List.cons_ne_nil _ _)

theorem respelled_normalize_of_isAbsolute (hp : p.isAbsolute = true) :
    Respelled cwd p (normalize cwd p) := by
  obtain ⟨chars⟩ := p
  obtain ⟨v, rfl⟩ := isAbsolute_iff.mp hp
  have hnames : names cwd ⟨'/' :: v⟩ = onward [] v := names_slash cwd [] v
  rw [normalize_of_ne_nil rfl, hnames]
  exact (respelled_onward (List.forall_mem_nil _) v).trans (respelled_chain _)

/-- Every path can be brought to its normal form by the rules. -/
theorem respelled_normalize (hcwd : cwd.isAbsolute = true) (hp : p.isEmpty = false) :
    Respelled cwd p (normalize cwd p) := by
  cases habs : p.isAbsolute with
  | true => exact respelled_normalize_of_isAbsolute habs
  | false =>
      have hanchor : Respelled cwd p (cwd.join p) := .anchor hp habs
      rw [hanchor.normalize_eq hcwd]
      exact hanchor.trans (respelled_normalize_of_isAbsolute (isAbsolute_join_of_isAbsolute hcwd p))

theorem sameFile_iff_respelled (hcwd : cwd.isAbsolute = true) :
    sameFile cwd p q = true ↔ Respelled cwd p q := by
  refine ⟨fun h => ?_, fun h => h.sameFile hcwd⟩
  have hnormal := sameFile_iff_normalize.mp h
  cases hp : p.isEmpty with
  | true =>
      obtain rfl := (eq_of_isEmpty hp).trans (eq_of_isEmpty ((sameFile_iff.mp h).1 ▸ hp)).symm
      exact .refl p
  | false =>
      have hq : q.isEmpty = false := (sameFile_iff.mp h).1 ▸ hp
      have hp := respelled_normalize hcwd hp
      rw [hnormal] at hp
      exact hp.trans (respelled_normalize hcwd hq).symm

end Spelling

section Join

variable {cwd a b : Path} {label : List Char}

theorem isEmpty_join_join (b : Path) {p : Path} (hp : p.isEmpty = false) :
    ((a.join p).join b).isEmpty = false := by
  rw [isEmpty_join, isEmpty_join, hp, Bool.and_false, Bool.false_and]

/-- What is written behind a path is followed from the names of the path. -/
theorem normalize_join {base base' : Path} (h : names cwd base = names cwd base')
    (hne : (base.join b).isEmpty = false) (hne' : (base'.join b).isEmpty = false) :
    normalize cwd (base.join b) = normalize cwd (base'.join b) := by
  refine normalize_eq hne hne' ?_
  cases hb : b.isAbsolute with
  | true =>
      have hjoin (base : Path) : base.join b = b := by rw [join, hb, Bool.true_or, if_pos rfl]
      rw [hjoin, hjoin]
  | false => rw [names_join cwd base hb, names_join cwd base' hb, h]

theorem normalize_join_dot (h : (a.join b).isEmpty = false) :
    normalize cwd ((a.join ⟨['.']⟩).join b) = normalize cwd (a.join b) := by
  refine normalize_join ?_ (isEmpty_join_join b rfl) h
  rw [names_join cwd a rfl, onward_dot]

theorem normalize_join_back (hlabel : IsStep (.name label)) (h : (a.join b).isEmpty = false) :
    normalize cwd (((a.join ⟨label⟩).join ⟨['.', '.']⟩).join b) = normalize cwd (a.join b) := by
  refine normalize_join ?_ (isEmpty_join_join b rfl) h
  have hrelative : isAbsolute ⟨label⟩ = false := isAbsolute_of_isStep hlabel
  rw [names_join cwd _ rfl, names_join cwd a hrelative, onward_label _ hlabel, onward_dots,
    List.dropLast_concat]

end Join

section Correlate

variable {cwd : Path} {request : AnalysisRequest} {issues : List Issue}

theorem correlate_eq_filterMap (cwd : Path) (request : AnalysisRequest) (issues : List Issue) :
    correlate cwd request issues = issues.filterMap fun i =>
      if !i.component.isEmpty && sameFile cwd (ofString i.component) request.file then
        request.profile.annotate { i with component := request.component }
      else none :=
  List.filterMap_filter

/-- A finding is kept when its component is the file of the request, and its rule counts. -/
theorem mem_correlate_iff {j : Issue} : j ∈ correlate cwd request issues ↔
    ∃ i ∈ issues, i.component ≠ "" ∧ sameFile cwd (ofString i.component) request.file = true ∧
      ∃ rule, request.profile.resolve i.ruleId = some rule ∧
        j = { i with
          component := request.component
          severity := some rule.severity
          debt := rule.debt } := by
  rw [correlate_eq_filterMap, List.mem_filterMap]
  simp [Profile.annotate, and_assoc, @eq_comm _ j]

theorem isEmpty_ofString (s : String) : (ofString s).isEmpty = s.isEmpty := by
  rw [Bool.eq_iff_iff, String.isEmpty_iff, isEmpty, List.isEmpty_iff, ofString,
    String.toList_eq_nil_iff]

/-- How the components of findings and the file of the request are spelled does not matter. -/
theorem correlate_respelled (hcwd : cwd.isAbsolute = true) {file : Path} {spell : Issue → String}
    (hfile : Respelled cwd request.file file)
    (hspell : ∀ i ∈ issues, Respelled cwd (ofString i.component) (ofString (spell i)))
    (hcomponent : AnalysisRequest.component { request with file := file } = request.component) :
    correlate cwd { request with file := file }
        (issues.map fun i => { i with component := spell i }) = correlate cwd request issues := by
  rw [correlate_eq_filterMap, correlate_eq_filterMap, List.filterMap_map, hcomponent]
  refine List.filterMap_congr fun i hi => ?_
  have hsame := (hspell i hi).sameFile hcwd
  have hempty : (spell i).isEmpty = i.component.isEmpty := by
    rw [← isEmpty_ofString, ← isEmpty_ofString, (sameFile_iff.mp hsame).1]
  have hforms : sameFile cwd (ofString (spell i)) file =
      sameFile cwd (ofString i.component) request.file := by
    rw [sameFile, sameFile, sameFile_iff_normalComponents.mp hsame,
      sameFile_iff_normalComponents.mp (hfile.sameFile hcwd)]
  rw [Function.comp_apply, hempty, hforms]

end Correlate

/-- What normal forms are, the paths that share one, and the findings that are kept by them. -/
structure Identified (cwd : Path) : Prop where
  isAbsolute {p : Path} : p.isEmpty = false → (normalize cwd p).isAbsolute = true
  /-- There is no dot in a normal form. -/
  components {p : Path} : p.isEmpty = false → ∃ labels : List (List Char),
    (∀ label ∈ labels, IsStep (.name label)) ∧
      (normalize cwd p).components = .root :: labels.map .name
  fixed (p : Path) : normalize cwd (normalize cwd p) = normalize cwd p
  anchor {p : Path} : p.isEmpty = false → p.isAbsolute = false →
    normalize cwd (cwd.join p) = normalize cwd p
  back {a b : Path} {label : List Char} : (a.join b).isEmpty = false → IsStep (.name label) →
    normalize cwd (((a.join ⟨label⟩).join ⟨['.', '.']⟩).join b) = normalize cwd (a.join b)
  dot {a b : Path} : (a.join b).isEmpty = false →
    normalize cwd ((a.join ⟨['.']⟩).join b) = normalize cwd (a.join b)
  slashes (u v : List Char) :
    normalize cwd ⟨u ++ '/' :: '/' :: v⟩ = normalize cwd ⟨u ++ '/' :: v⟩
  trailing {u : List Char} : u ≠ [] → normalize cwd ⟨u ++ ['/']⟩ = normalize cwd ⟨u⟩
  top (v : List Char) : normalize cwd ⟨'/' :: '.' :: '.' :: '/' :: v⟩ = normalize cwd ⟨'/' :: v⟩
  equivalence : Equivalence fun p q => sameFile cwd p q = true
  sameFile_iff {p q : Path} : sameFile cwd p q = true ↔ normalize cwd p = normalize cwd q
  /-- Paths name one file just when the rules lead from one to the other. -/
  sameFile_iff_respelled {p q : Path} : sameFile cwd p q = true ↔ Respelled cwd p q
  mem_correlate_iff {request : AnalysisRequest} {issues : List Issue} {j : Issue} :
    j ∈ correlate cwd request issues ↔
      ∃ i ∈ issues, i.component ≠ "" ∧ sameFile cwd (ofString i.component) request.file = true ∧
        ∃ rule, request.profile.resolve i.ruleId = some rule ∧
          j = { i with
            component := request.component
            severity := some rule.severity
            debt := rule.debt }
  /-- How components and files are spelled does not matter for what is kept. -/
  correlate {request : AnalysisRequest} {issues : List Issue} {file : Path}
    {spell : Issue → String} : Respelled cwd request.file file →
    (∀ i ∈ issues, Respelled cwd (ofString i.component) (ofString (spell i))) →
    AnalysisRequest.component { request with file := file } = request.component →
    correlate cwd { request with file := file }
      (issues.map fun i => { i with component := spell i }) = correlate cwd request issues

theorem identified_of_isAbsolute {cwd : Path} (hcwd : cwd.isAbsolute = true) : Identified cwd where
  isAbsolute := isAbsolute_normalize
  components := exists_components_normalize
  fixed := normalize_normalize cwd
  anchor hp h := ((Respelled.anchor hp h).normalize_eq hcwd).symm
  back h hlabel := normalize_join_back hlabel h
  dot := normalize_join_dot
  slashes u v := (Respelled.slashes u v).normalize_eq hcwd
  trailing h := (Respelled.trailing h).normalize_eq hcwd
  top v := (Respelled.top v).normalize_eq hcwd
  equivalence := sameFile_equivalence cwd
  sameFile_iff := sameFile_iff_normalize
  sameFile_iff_respelled := sameFile_iff_respelled hcwd
  mem_correlate_iff := mem_correlate_iff
  correlate := correlate_respelled hcwd

theorem identified_work : isAbsolute ⟨"/work".toList⟩ = true ∧ Identified ⟨"/work".toList⟩ :=
  ⟨by decide, identified_of_isAbsolute (by decide)⟩

end LintGate.Proofs.NormalForms
