import LintGate.CommandLine.Analyze
import LintGate.Proofs.Fields

/-!
What makes an analysis impossible. Each reason is one of a short list, and where there is none there
is a plan.
-/

namespace LintGate.Proofs.RefusedAnalysis

open LintGate.CommandLine

/-- A tool is selected if none is named, or it is one of the named ones. -/
def Selected (names : List String) (l : Linter) : Prop :=
  names = [] ∨ ∃ name ∈ names, Tool.ofName? name = some l.tool

/-- What was asked for cannot be done. -/
inductive Refused (s : Host) (named : Option Path) (o : AnalyzeOptions) : Prop
  /-- The configuration is invalid or cannot be read. -/
  | config {f : TaskFailure} (h : loadConfig s named = .error f)
  | unknownTool {name : String} (hname : name ∈ o.tools) (h : Tool.ofName? name = none)
  | noTools {config : Config} (hconfig : loadConfig s named = .ok config)
      (h : ∀ l ∈ config.linters, ¬ Selected o.tools l)
  | noProfile {config : Config} (hconfig : loadConfig s named = .ok config)
      (hoption : o.profile = none) (hprofile : config.profile = none)
  /-- The profile is invalid or cannot be read. -/
  | profile {config : Config} {file : Path} {f : TaskFailure}
      (hconfig : loadConfig s named = .ok config)
      (hfile : o.profile.or config.profile = some file) (h : profileAt s file = .error f)
  | severalFiles {config : Config} {file : Path} (hconfig : loadConfig s named = .ok config)
      (hfile : o.reference = some file)
      (h : 1 < (sources s (override config o) o.paths).length)
  | reference {file : Path} {fault : FileFault} (hfile : o.reference = some file)
      (h : FileTree.readText s.files s.directory file = .error fault)

section Planning

variable {s : Host} {named : Option Path} {o : AnalyzeOptions} {config : Config}

/-- The tool with the name, or why there is none. -/
def toolNamed (name : String) : Except TaskFailure Tool :=
  match Tool.ofName? name with
  | some tool => .ok tool
  | none => .error (.unknownTool name)

theorem mapM_toolNamed {names : List String} (h : ∀ name ∈ names, Tool.ofName? name ≠ none) :
    names.mapM toolNamed = .ok (names.filterMap Tool.ofName?) := by
  induction names with
  | nil => rfl
  | cons name rest ih =>
      obtain ⟨tool, htool⟩ := Option.ne_none_iff_exists'.mp (h name List.mem_cons_self)
      have hrest := ih fun name hname => h name (List.mem_cons_of_mem _ hname)
      rw [List.mapM_cons, hrest, List.filterMap_cons, toolNamed, htool]
      rfl

theorem known_of_mapM {names : List String} {tools : List Tool}
    (h : names.mapM toolNamed = .ok tools) : ∀ name ∈ names, Tool.ofName? name ≠ none := by
  induction names generalizing tools with
  | nil => nofun
  | cons name rest ih =>
      rw [List.mapM_cons] at h
      obtain ⟨tool, htool, h⟩ := Fields.bind_eq_ok h
      obtain ⟨others, hothers, -⟩ := Fields.bind_eq_ok h
      rw [List.forall_mem_cons]
      refine ⟨fun hnone => ?_, ih hothers⟩
      rw [toolNamed, hnone] at htool
      cases htool

theorem selectLinters_of_named {names : List String} (config : Config)
    (h : names.isEmpty = false) :
    selectLinters config names = (names.mapM toolNamed).bind fun tools =>
      .ok (config.linters.filter fun l => tools.contains l.tool) := by
  unfold selectLinters
  rw [h]
  refine congrArg (fun f => Except.bind (names.mapM f) fun tools =>
    .ok (config.linters.filter fun l => tools.contains l.tool)) ?_
  funext name
  unfold toolNamed
  cases Tool.ofName? name <;> rfl

/-- The selected linters of the configuration. -/
def selected (config : Config) (names : List String) : List Linter :=
  config.linters.filter fun l =>
    names.isEmpty || names.any fun name => Tool.ofName? name == some l.tool

theorem mem_selected_iff {names : List String} {l : Linter} :
    l ∈ selected config names ↔ l ∈ config.linters ∧ Selected names l := by
  simp [selected, Selected]

theorem selectLinters_of_known {names : List String}
    (h : ∀ name ∈ names, Tool.ofName? name ≠ none) :
    selectLinters config names = .ok (selected config names) := by
  cases names with
  | nil =>
      have hall : selected config [] = config.linters :=
        List.filter_eq_self.mpr fun l _ => rfl
      rw [hall]
      rfl
  | cons name rest =>
      rw [selectLinters_of_named config rfl, mapM_toolNamed h]
      refine congrArg Except.ok (List.filter_congr fun l _ => ?_)
      rw [Bool.eq_iff_iff, List.contains_iff_mem, List.mem_filterMap, List.isEmpty_cons,
        Bool.false_or, List.any_eq_true]
      simp only [beq_iff_eq]

theorem known_of_selectLinters {names : List String} {linters : List Linter}
    (h : selectLinters config names = .ok linters) : ∀ name ∈ names, Tool.ofName? name ≠ none := by
  cases names with
  | nil => nofun
  | cons name rest =>
      rw [selectLinters_of_named config rfl] at h
      obtain ⟨tools, htools, -⟩ := Fields.bind_eq_ok h
      exact known_of_mapM htools

/-- What a plan is made of. -/
structure Planned (s : Host) (named : Option Path) (o : AnalyzeOptions) (config : Config)
    (profile : Profile) (reference : Option String) : Prop where
  loaded : loadConfig s named = .ok config
  known : ∀ name ∈ o.tools, Tool.ofName? name ≠ none
  selects : selected config o.tools ≠ []
  profiled : ∃ file, o.profile.or config.profile = some file ∧ profileAt s file = .ok profile
  referenced : referenceText s (sources s (override config o) o.paths) o.reference = .ok reference

/-- The plan for the sources that are found. -/
def planOf (s : Host) (o : AnalyzeOptions) (config : Config) (profile : Profile)
    (reference : Option String) : AnalyzePlan where
  linters := selected config o.tools
  requests := (sources s (override config o) o.paths).map
    (requestFor s (override config o) profile reference)
  format := o.format

/-- The reference is asked for last. -/
theorem make_eq_map {file : Path} {profile : Profile} (hloaded : loadConfig s named = .ok config)
    (hknown : ∀ name ∈ o.tools, Tool.ofName? name ≠ none) (hselects : selected config o.tools ≠ [])
    (hfile : o.profile.or config.profile = some file) (hprofile : profileAt s file = .ok profile) :
    AnalyzePlan.make s named o =
      (referenceText s (sources s (override config o) o.paths) o.reference).map
        (planOf s o config profile) := by
  have hlinters : selectLinters (override config o) o.tools = .ok (selected config o.tools) :=
    selectLinters_of_known hknown
  have hsome : (selected config o.tools).isEmpty = false :=
    List.isEmpty_eq_false_iff.mpr hselects
  have hnamed : (o.profile <|> (override config o).profile) = some file := by
    rw [← hfile]
    cases o.profile <;> rfl
  simp only [AnalyzePlan.make, hloaded, hlinters, hsome, hnamed, hprofile, bind, Except.bind]
  cases referenceText s (sources s (override config o) o.paths) o.reference <;> rfl

theorem make_of_planned {profile : Profile} {reference : Option String}
    (h : Planned s named o config profile reference) :
    AnalyzePlan.make s named o = .ok (planOf s o config profile reference) := by
  obtain ⟨file, hfile, hprofile⟩ := h.profiled
  rw [make_eq_map h.loaded h.known h.selects hfile hprofile, h.referenced]
  rfl

theorem planned_of_make {plan : AnalyzePlan} (h : AnalyzePlan.make s named o = .ok plan) :
    ∃ config profile reference, Planned s named o config profile reference ∧
      plan = planOf s o config profile reference := by
  obtain ⟨config, hconfig, h⟩ := Fields.bind_eq_ok h
  obtain ⟨linters, hlinters, h⟩ := Fields.bind_eq_ok h
  have hknown := known_of_selectLinters hlinters
  obtain rfl : selected config o.tools = linters :=
    Except.ok.inj ((selectLinters_of_known hknown).symm.trans hlinters)
  cases hempty : (selected config o.tools).isEmpty with
  | true =>
      rw [hempty] at h
      cases h
  | false =>
      rw [hempty] at h
      cases hfile : o.profile <|> (override config o).profile with
      | none =>
          rw [hfile] at h
          cases h
      | some file =>
          rw [hfile] at h
          obtain ⟨profile, hprofile, h⟩ := Fields.bind_eq_ok h
          obtain ⟨reference, hreference, h⟩ := Fields.bind_eq_ok h
          obtain rfl := Except.ok.inj h
          refine ⟨config, profile, reference,
            ⟨hconfig, hknown, ?_, ⟨file, ?_, hprofile⟩, hreference⟩, rfl⟩
          · exact List.isEmpty_eq_false_iff.mp hempty
          · rw [← hfile]
            cases o.profile <;> rfl

theorem refused_or_planned (s : Host) (named : Option Path) (o : AnalyzeOptions) :
    Refused s named o ∨ ∃ config profile reference, Planned s named o config profile reference := by
  cases hconfig : loadConfig s named with
  | error f => exact .inl (.config hconfig)
  | ok config =>
      by_cases hknown : ∀ name ∈ o.tools, Tool.ofName? name ≠ none
      case neg =>
        obtain ⟨name, hname, hnone⟩ : ∃ name ∈ o.tools, Tool.ofName? name = none := by
          simpa using hknown
        exact .inl (.unknownTool hname hnone)
      by_cases hselects : selected config o.tools = []
      · refine .inl (.noTools hconfig fun l hl hselected => ?_)
        have hmem : l ∈ selected config o.tools := mem_selected_iff.mpr ⟨hl, hselected⟩
        rw [hselects] at hmem
        cases hmem
      cases hfile : o.profile.or config.profile with
      | none =>
          obtain ⟨hoption, hprofile⟩ := Option.or_eq_none_iff.mp hfile
          exact .inl (.noProfile hconfig hoption hprofile)
      | some file =>
          cases hprofile : profileAt s file with
          | error f => exact .inl (.profile hconfig hfile hprofile)
          | ok profile =>
              cases hreference : referenceText s (sources s (override config o) o.paths)
                o.reference with
              | ok reference =>
                  exact .inr ⟨config, profile, reference,
                    hconfig, hknown, hselects, ⟨file, hfile, hprofile⟩, hreference⟩
              | error f =>
                  left
                  cases hgiven : o.reference with
                  | none =>
                      rw [hgiven] at hreference
                      cases hreference
                  | some path =>
                      rw [hgiven, referenceText] at hreference
                      split at hreference
                      · rename_i hlength
                        exact .severalFiles hconfig hgiven hlength
                      · cases htext : FileTree.readText s.files s.directory path with
                        | error fault => exact .reference hgiven htext
                        | ok text =>
                            rw [htext] at hreference
                            cases hreference

theorem not_refused_of_planned {profile : Profile} {reference : Option String}
    (h : Planned s named o config profile reference) : ¬ Refused s named o := by
  have hloaded {config' : Config} (hconfig : loadConfig s named = .ok config') :
      config' = config :=
    Except.ok.inj (hconfig.symm.trans h.loaded)
  obtain ⟨file, hfile, hprofile⟩ := h.profiled
  intro hrefused
  cases hrefused with
  | config hconfig =>
      rw [h.loaded] at hconfig
      cases hconfig
  | unknownTool hname hnone => exact h.known _ hname hnone
  | noTools hconfig hnone =>
      obtain rfl := hloaded hconfig
      obtain ⟨l, hl⟩ := List.exists_mem_of_ne_nil _ h.selects
      obtain ⟨hmem, hselected⟩ := mem_selected_iff.mp hl
      exact hnone l hmem hselected
  | noProfile hconfig hoption hnone =>
      obtain rfl := hloaded hconfig
      rw [hoption, hnone] at hfile
      cases hfile
  | profile hconfig hfile' hfault =>
      obtain rfl := hloaded hconfig
      obtain rfl := Option.some.inj (hfile.symm.trans hfile')
      rw [hprofile] at hfault
      cases hfault
  | severalFiles hconfig hgiven hlength =>
      obtain rfl := hloaded hconfig
      have hreferenced := h.referenced
      rw [hgiven, referenceText, if_pos hlength] at hreferenced
      cases hreferenced
  | reference hgiven hfault =>
      have hreferenced := h.referenced
      rw [hgiven, referenceText, hfault] at hreferenced
      split at hreferenced <;> cases hreferenced

theorem exists_failure_of_refused (h : Refused s named o) :
    ∃ f, AnalyzePlan.make s named o = .error f := by
  cases hmake : AnalyzePlan.make s named o with
  | error f => exact ⟨f, rfl⟩
  | ok plan =>
      obtain ⟨config, profile, reference, hplanned, -⟩ := planned_of_make hmake
      exact absurd h (not_refused_of_planned hplanned)

end Planning

end LintGate.Proofs.RefusedAnalysis
