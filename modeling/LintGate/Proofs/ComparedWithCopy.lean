import LintGate.Proofs.AnalyzeCommand
import LintGate.Proofs.ChangedFindings
import LintGate.Proofs.DirectorySpelling
import LintGate.Proofs.LineEnds

/-!
A file that is analyzed with a copy of itself as the reference. The reference has to be text, while
the file can be any bytes: where the bytes are text no finding is on a changed line, and where they
are not there is no analysis.
-/

namespace LintGate.Proofs.ComparedWithCopy

open LintGate.CommandLine
open LintGate.Proofs.AnalyzeCommand
open LintGate.Proofs.ChangedFindings
open LintGate.Proofs.RefusedAnalysis
open LintGate.Proofs.SettlementOrder

section Unchanged

variable {bytes : List UInt8} {text : String}

theorem map_getD_of_mapM {found : List (Option Char)} {chars : List Char}
    (h : found.mapM id = some chars) (c : Char) : found.map (·.getD c) = chars := by
  induction found generalizing chars with
  | nil => exact Option.some.inj h
  | cons first rest ih =>
      rw [List.mapM_cons] at h
      obtain ⟨d, hfirst, h⟩ := Option.bind_eq_some_iff.mp h
      obtain ⟨others, hothers, h⟩ := Option.bind_eq_some_iff.mp h
      obtain rfl := Option.some.inj h
      have hfirst : first = some d := hfirst
      rw [List.map_cons, ih hothers, hfirst, Option.getD_some]

/-- Nothing of what is text is replaced. -/
theorem decodeLossy_of_decode? (h : Text.Utf8.decode? bytes = some text) :
    Text.Utf8.decodeLossy bytes = text := by
  obtain ⟨chars, hchars, rfl⟩ := Option.map_eq_some_iff.mp h
  rw [Text.Utf8.decodeLossy, map_getD_of_mapM hchars]

theorem retainChanged_of_isUnchanged {script : EditScript} (h : script.isUnchanged = true)
    (issues : List Issue) : script.retainChanged issues = [] := by
  refine List.eq_nil_iff_forall_not_mem.mpr fun i hi => ?_
  obtain ⟨e, he, hchanges⟩ := (restricts_retainChanged script issues).changed i hi
  have hequal : e.kind = .equal := eq_of_beq (List.all_eq_true.mp h e he)
  rwa [Changes, hequal] at hchanges

theorem filter_copy (h : Text.Utf8.decode? bytes = some text) (issues : List Issue) :
    DiffOutcome.filter (.ok bytes) (some text) issues = ([], .applied 0 issues.length) := by
  have hunchanged : (EditScript.between text text).isUnchanged = true :=
    LineEnds.isUnchanged_self _
  have hnone := retainChanged_of_isUnchanged hunchanged issues
  simp only [DiffOutcome.filter, decodeLossy_of_decode? h, hnone, List.length_nil, Nat.sub_zero]

end Unchanged

section Found

variable {root : FileTree} {cwd file : Path} {bytes : List UInt8}

theorem hasFile_of_readBytes (h : FileTree.readBytes root cwd file = .ok bytes) :
    FileTree.hasFile root cwd file = true := by
  obtain ⟨t, ht, h⟩ := Fields.bind_eq_ok h
  rw [FileTree.hasFile, ht]
  cases t with
  | file content executable => rfl
  | directory entries => cases h
  | utility name => cases h

/-- A file that is named is all that is found. -/
theorem walk_file {options : WalkOptions} (hfile : FileTree.hasFile root cwd file = true)
    (haccepts : options.filter.accepts file = true) :
    Discovery.walk root cwd options [file] = [file] := by
  have hfound : Discovery.found root cwd options [file] = [file] := by
    simp [Discovery.found, List.partition_eq_filter_filter, hfile, haccepts]
  rw [Discovery.walk, hfound]
  simp [Discovery.distinct, List.eraseRepsBy, List.eraseRepsBy.loop]

end Found

/-- One source is analyzed on its own. -/
theorem analyzeFiles_singleton {σ : Type} (cwd : Path) (linters : List Linter)
    (execute : Command → StateM σ WorkerOutcome)
    (read : σ → Path → Except FileFault (List UInt8)) (request : AnalysisRequest) (world : σ) :
    ∃ outcomes after,
      (linters.mapM fun l => execute (l.command cwd request.file)).run world = (outcomes, after) ∧
        (analyzeFiles cwd linters execute read [request]).run world =
          (([sequentialReport cwd request (read after request.file) (linters.zip outcomes)], []),
            after) := by
  obtain ⟨outcomes, after, hran, hone⟩ := analyzeOne_run cwd linters execute read request world
  refine ⟨outcomes, after, hran, ?_⟩
  rw [analyzeFiles_eq, run_mapM_cons, hone]
  rfl

/-- All findings of the tools are dropped. -/
theorem sequentialReport_copy (cwd : Path) {request : AnalysisRequest} {bytes : List UInt8}
    {text : String} (hmodified : request.modifiedLinesOnly = true)
    (hreference : request.reference = some text) (hbytes : Text.Utf8.decode? bytes = some text)
    (slots : List (Linter × WorkerOutcome)) :
    (sequentialReport cwd request (.ok bytes) slots).issues = [] ∧
      (sequentialReport cwd request (.ok bytes) slots).diff =
        .applied 0 (slots.flatMap (slotIssues cwd request)).length := by
  simp only [sequentialReport, hmodified, hreference, filter_copy hbytes, if_true,
    List.length_mergeSort, and_self]

section Compared

/-- One source is to be analyzed, with a copy of it as the reference. -/
structure Compared (s : Host) (named : Option Path) (o : AnalyzeOptions) (config : Config)
    (file : Path) (bytes : List UInt8) : Prop where
  loaded : loadConfig s named = .ok config
  known : ∀ name ∈ o.tools, Tool.ofName? name ≠ none
  selects : selected config o.tools ≠ []
  profiled : ∃ place profile, o.profile.or config.profile = some place ∧
    profileAt s place = .ok profile
  includes : config.includes = []
  excludes : config.excludes = []
  paths : o.paths = [file]
  isSource : file.isSource = true
  modifiedLinesOnly : o.modifiedLinesOnly = true
  content : s.read file = .ok bytes
  copy : ∃ copy, o.reference = some copy ∧ s.read copy = .ok bytes

variable {s : Host} {named : Option Path} {o : AnalyzeOptions} {config : Config} {file : Path}
  {bytes : List UInt8}

/-- The tools leave the file as it was. -/
def Leaves (s : Host) (execute : Command → StateM Host WorkerOutcome) (linters : List Linter)
    (file : Path) (bytes : List UInt8) : Prop :=
  ((linters.mapM fun l => execute (l.command s.directory file)).run s).2.read file = .ok bytes

/-- There is one report, and none of the findings is on a changed line. -/
def Unmodified (s : Host) (execute : Command → StateM Host WorkerOutcome) (named : Option Path)
    (o : AnalyzeOptions) (config : Config) : Prop :=
  let outcome := analyzeSources s execute named o
  outcome.code = 0 ∧ ∃ plan report dropped,
    Reported execute s named o config plan [report] outcome ∧
      report.issues = [] ∧ report.diff = .applied 0 dropped

theorem sources_of_compared (h : Compared s named o config file bytes) :
    sources s (override config o) o.paths = [file] := by
  rw [sources, h.paths]
  refine walk_file (hasFile_of_readBytes h.content) ?_
  rw [DirectorySpelling.accepts_of_no_patterns h.includes h.excludes, h.isSource]

theorem referenceText_of_compared (h : Compared s named o config file bytes) :
    referenceText s (sources s (override config o) o.paths) o.reference =
      match Text.Utf8.decode? bytes with
      | some text => .ok (some text)
      | none => .error (.file .notText) := by
  obtain ⟨copy, hcopy, hread⟩ := h.copy
  have hread : FileTree.readBytes s.files s.directory copy = .ok bytes := hread
  rw [sources_of_compared h, hcopy, referenceText, if_neg (by simp), FileTree.readText, hread]
  cases hdecode : Text.Utf8.decode? bytes <;> simp only [bind, Except.bind, hdecode] <;> rfl

/-- Nothing is done where the bytes are no text. -/
theorem analyzeSources_of_not_text (execute : Command → StateM Host WorkerOutcome)
    (h : Compared s named o config file bytes) (hbytes : Text.Utf8.decode? bytes = none) :
    analyzeSources s execute named o = .ofFailure s (.file .notText) := by
  obtain ⟨place, profile, hplace, hprofile⟩ := h.profiled
  have hreference := referenceText_of_compared h
  rw [hbytes] at hreference
  rw [analyzeSources, make_eq_map h.loaded h.known h.selects hplace hprofile, hreference]
  rfl

theorem unmodified_of_text {execute : Command → StateM Host WorkerOutcome}
    (h : Compared s named o config file bytes)
    (hleaves : Leaves s execute (selected config o.tools) file bytes) {text : String}
    (hbytes : Text.Utf8.decode? bytes = some text) : Unmodified s execute named o config := by
  obtain ⟨place, profile, hplace, hprofile⟩ := h.profiled
  have hreference := referenceText_of_compared h
  rw [hbytes] at hreference
  obtain ⟨reports, hreported⟩ := exists_reported execute
    ⟨h.loaded, h.known, h.selects, ⟨place, hplace, hprofile⟩, hreference⟩
  obtain ⟨_, hnoted, _⟩ := hreported.ran
  let plan := planOf s o config profile (some text)
  let request := requestFor s (override config o) profile (some text) file
  have hrequests : plan.requests = [request] := by
    show (sources s (override config o) o.paths).map _ = _
    rw [sources_of_compared h, List.map_singleton]
  obtain ⟨outcomes, after, hran, hanalyzed⟩ := analyzeFiles_singleton s.directory plan.linters
    execute Host.read request s
  have hafter : after.read request.file = .ok bytes := by
    have hread : ((plan.linters.mapM fun l => execute (l.command s.directory request.file)).run
      s).2.read request.file = .ok bytes := hleaves
    rwa [hran] at hread
  rw [analyzeFiles_notes, hrequests, hanalyzed, hafter] at hnoted
  obtain rfl := (Prod.ext_iff.mp (Prod.ext_iff.mp hnoted).1).1
  have hmodified : request.modifiedLinesOnly = true := by
    show (config.modifiedLinesOnly || o.modifiedLinesOnly) = true
    rw [h.modifiedLinesOnly, Bool.or_true]
  obtain ⟨hissues, hdiff⟩ := sequentialReport_copy s.directory hmodified rfl hbytes
    (plan.linters.zip outcomes)
  refine ⟨?_, plan, _, _, hreported, hissues, hdiff⟩
  rw [hreported.code, issueCount, List.map_singleton, hissues]
  rfl

/-- A file that is compared with a copy of itself has no changed line, and is analyzed just when its
bytes are text; otherwise there is no analysis. -/
theorem run_compared {arguments : List String} {i : Invocation}
    (hi : Invocation.ofArguments arguments = .ok i) (ho : i.task = .analyze o)
    (h : Compared s i.config o config file bytes) :
    CommandLine.run s arguments = .ok (analyzeSources s (Host.work false) i.config o) ∧
    ∀ execute, Leaves s execute (selected config o.tools) file bytes →
      (Unmodified s execute i.config o config ↔ ∃ text, Text.Utf8.decode? bytes = some text) ∧
      (Text.Utf8.decode? bytes = none →
        analyzeSources s execute i.config o = .ofFailure s (.file .notText)) := by
  constructor
  · rw [CommandLine.run, hi, Except.map, Invocation.run, ho]
  · intro execute hleaves
    have hrefused := analyzeSources_of_not_text execute h
    refine ⟨?_, hrefused⟩
    constructor
    · intro hunmodified
      refine Option.ne_none_iff_exists'.mp fun hbytes => ?_
      have hcode : (analyzeSources s execute i.config o).code = 0 := hunmodified.1
      rw [hrefused hbytes] at hcode
      cases hcode
    · rintro ⟨text, hbytes⟩
      exact unmodified_of_text h hleaves hbytes

end Compared

section Copied

/-- A directory with a source of these bytes and a copy of it. -/
def copied (bytes : List UInt8) : Host where
  files := .directory (("a.c", .file bytes false) :: ("old.c", .file bytes false) ::
    oneSource.files.entries)
  directory := oneSource.directory
  environment := oneSource.environment

def copiedOptions : AnalyzeOptions where
  paths := [Path.ofString "a.c"]
  reference := some (Path.ofString "old.c")
  modifiedLinesOnly := true

def copiedArguments : List String :=
  ["analyze", "a.c", "--modified-lines-only", "--reference", "old.c"]

theorem ofArguments_copied :
    Invocation.ofArguments copiedArguments = .ok ⟨none, false, .analyze copiedOptions⟩ :=
  rfl

/-- A tool that only says something changes nothing. -/
theorem leaves_pure {s : Host} {file : Path} {bytes : List UInt8} (h : s.read file = .ok bytes)
    (outcome : Command → WorkerOutcome) (linters : List Linter) :
    Leaves s (fun c => pure (outcome c)) linters file bytes := by
  have hsame : ((linters.mapM fun l =>
      (pure (outcome (l.command s.directory file)) : StateM Host WorkerOutcome)).run s).2 = s := by
    induction linters with
    | nil => rfl
    | cons l rest ih => rwa [run_mapM_cons]
  rw [Leaves, hsame, h]

/-- Whether sources can be analyzed with a configuration, and all that are named are found. -/
def isSufficient (s : Host) (config : Config) : Bool :=
  config.includes.isEmpty && config.excludes.isEmpty && !(selected config []).isEmpty &&
    config.profile.any fun place => (profileAt s place).toOption.isSome

theorem exists_compared {bytes : List UInt8}
    (h : (loadConfig (copied bytes) none).toOption.any (isSufficient (copied bytes)) = true) :
    ∃ config, Compared (copied bytes) none copiedOptions config (Path.ofString "a.c") bytes := by
  obtain ⟨config, hloaded, hsufficient⟩ := (Option.any_eq_true _ _).mp h
  simp only [isSufficient, Bool.and_eq_true, List.isEmpty_iff, Bool.not_eq_true',
    List.isEmpty_eq_false_iff, Option.any_eq_true] at hsufficient
  obtain ⟨⟨⟨hincludes, hexcludes⟩, hselects⟩, place, hplace, hprofile⟩ := hsufficient
  obtain ⟨profile, hprofile⟩ := Option.isSome_iff_exists.mp hprofile
  exact ⟨config,
    { loaded := Fields.eq_ok_of_toOption hloaded
      known := nofun
      selects := hselects
      profiled := ⟨place, profile, hplace, Fields.eq_ok_of_toOption hprofile⟩
      includes := hincludes
      excludes := hexcludes
      paths := rfl
      isSource := by decide
      modifiedLinesOnly := rfl
      content := rfl
      copy := ⟨Path.ofString "old.c", rfl, rfl⟩ }⟩

/-- A comment with an accent, in the bytes of UTF-8 and in those of an older encoding. -/
def accented : List UInt8 := [0x2F, 0x2F, 0xC3, 0xA9, 0x0A]

def accentedLatin : List UInt8 := [0x2F, 0x2F, 0xE9, 0x0A]

/-- The finding of the tool is dropped. -/
theorem run_compared_accented : ∃ config,
    Compared (copied accented) none copiedOptions config (Path.ofString "a.c") accented ∧
    Leaves (copied accented) findsLong (selected config []) (Path.ofString "a.c") accented ∧
    CommandLine.run (copied accented) copiedArguments =
      .ok (analyzeSources (copied accented) (Host.work false) none copiedOptions) ∧
    Unmodified (copied accented) findsLong none copiedOptions config := by
  obtain ⟨config, h⟩ := @exists_compared accented (by decide +kernel)
  have hleaves : Leaves (copied accented) findsLong (selected config []) (Path.ofString "a.c")
      accented := leaves_pure h.content _ _
  have hbytes : (Text.Utf8.decode? accented).isSome = true := by decide +kernel
  obtain ⟨hrun, hcompared⟩ := run_compared ofArguments_copied rfl h
  exact ⟨config, h, hleaves, hrun,
    (hcompared findsLong hleaves).1.mpr (Option.isSome_iff_exists.mp hbytes)⟩

/-- The source itself would be read, but its copy is no reference. -/
theorem not_unmodified_accentedLatin : ∃ config,
    Compared (copied accentedLatin) none copiedOptions config (Path.ofString "a.c") accentedLatin ∧
    Leaves (copied accentedLatin) findsLong (selected config []) (Path.ofString "a.c")
      accentedLatin ∧
    (analyzeSources (copied accentedLatin) findsLong none copiedOptions).code = 2 ∧
    ¬ Unmodified (copied accentedLatin) findsLong none copiedOptions config := by
  obtain ⟨config, h⟩ := @exists_compared accentedLatin (by decide +kernel)
  have hcode : (analyzeSources (copied accentedLatin) findsLong none copiedOptions).code = 2 := by
    rw [analyzeSources_of_not_text findsLong h (by decide +kernel)]
    rfl
  refine ⟨config, h, leaves_pure h.content _ _, hcode, fun hunmodified => ?_⟩
  cases hcode.symm.trans hunmodified.1

end Copied

end LintGate.Proofs.ComparedWithCopy
