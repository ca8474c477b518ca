import LintGate.Config.Basic
import LintGate.Process.Host
import LintGate.Proofs.FilePlace

/-!
The file that is started for a tool whose executable is a relative path. A configuration joins such
a path to its own directory, and the command enters its directory before the program is looked up:
what is found is the file beside the configuration only where the two do not get in each other's
way.
-/

namespace LintGate.Proofs.StartedFile

open LintGate.Path
open LintGate.Proofs.Fields
open LintGate.Proofs.FilePlace
open LintGate.Proofs.PathComponents

/-- The names on the way from the root to the file whose program a command starts. -/
def startedFile (s : Host) (c : Command) : Except FileFault (List String) := do
  let directory ← s.workingDirectory c
  let search := (Dictionary.get? "PATH" (s.environmentFor c)).getD "/bin:/usr/bin"
  let (file, _) ← Program.lookup s.files directory search c.program.text
  return (← FileTree.place s.files directory file).names

section Lookup

variable {files : FileTree} {directory file : Path} {program : Program}

theorem place_of_inFile (h : Program.inFile files directory file = .ok program) :
    ∃ place, FileTree.place files directory file = .ok place := by
  obtain ⟨tree, hfind, _⟩ := bind_eq_ok h
  obtain ⟨place, hplace, _⟩ := map_eq_ok hfind
  exact ⟨place, hplace⟩

theorem inFile_of_first {cause : FileFault} {candidates : List Path}
    (h : Program.first files directory cause candidates = .ok (file, program)) :
    Program.inFile files directory file = .ok program := by
  induction candidates generalizing cause with
  | nil => cases h
  | cons candidate rest ih =>
      rw [Program.first] at h
      split at h
      · rename_i found hfound
        cases h
        exact hfound
      · exact ih h

theorem lookup_of_slash (files : FileTree) (directory : Path) {name : String}
    (h : '/' ∈ name.toList) (search : String) :
    Program.lookup files directory search name =
      (Program.inFile files directory (Path.ofString name)).map
        fun p => (Path.ofString name, p) := by
  have hne : name.isEmpty = false := by
    rw [Bool.eq_false_iff]
    intro hempty
    rw [String.isEmpty_iff.mp hempty] at h
    cases h
  have hcontains : name.contains '/' = true := by simp [String.contains_char_eq, h]
  simp [Program.lookup, hne, hcontains]

theorem inFile_of_lookup {search name : String}
    (h : Program.lookup files directory search name = .ok (file, program)) :
    Program.inFile files directory file = .ok program := by
  rw [Program.lookup] at h
  split at h
  · cases h
  · split at h
    · obtain ⟨found, hfound, hpair⟩ := map_eq_ok h
      obtain ⟨rfl, rfl⟩ := Prod.mk.inj hpair
      exact hfound
    · exact inFile_of_first h

end Lookup

/-- A command that is started has a file whose program it is. -/
theorem startedFile_of_start {s : Host} {c : Command} {trace : Trace} (h : s.start c = .ok trace) :
    ∃ names, startedFile s c = .ok names := by
  rw [Host.start] at h
  split at h
  · cases h
  · obtain ⟨directory, hdirectory, h⟩ := bind_eq_ok h
    obtain ⟨⟨file, program⟩, hlookup, _⟩ := bind_eq_ok h
    obtain ⟨place, hplace⟩ := place_of_inFile (inFile_of_lookup hlookup)
    refine ⟨place.names, ?_⟩
    simp only [startedFile, hdirectory, hlookup, hplace, bind, Except.bind]
    rfl

theorem isAbsolute_of_workingDirectory {s : Host} (hs : s.directory.isAbsolute = true)
    {c : Command} {directory : Path} (h : s.workingDirectory c = .ok directory) :
    directory.isAbsolute = true := by
  rw [Host.workingDirectory] at h
  split at h
  · obtain rfl := Except.ok.inj h
    exact hs
  · rename_i dir _
    obtain ⟨tree, hfind, h⟩ := bind_eq_ok h
    obtain ⟨place, hplace, _⟩ := map_eq_ok hfind
    obtain ⟨start, hstart, _⟩ := bind_eq_ok hplace
    split at h
    · obtain rfl := Except.ok.inj h
      rw [Path.normalize, if_neg (by simp [(base_eq_ok hstart).1])]
      rfl
    · cases h

/-- A program whose name has a slash is looked for in the directory that the command enters. -/
theorem startedFile_eq {s : Host} {c : Command} (hslash : '/' ∈ c.program.chars) {directory : Path}
    (hdirectory : s.workingDirectory c = .ok directory) :
    startedFile s c = do
      let _ ← Program.inFile s.files directory c.program
      return (← FileTree.place s.files directory c.program).names := by
  have htext : c.program.text.toList = c.program.chars := String.toList_ofList
  have hpath : Path.ofString c.program.text = c.program := by rw [Path.ofString, htext]
  have hlookup := lookup_of_slash s.files directory (htext ▸ hslash)
  simp only [startedFile, hdirectory, hlookup, hpath, bind, Except.bind]
  cases Program.inFile s.files directory c.program <;> rfl

theorem settings?_resolve (base : Path) (config : Config) (tool : Tool) :
    (config.resolve base).settings? tool = (config.settings? tool).map (·.resolve base) := by
  cases tool <;> rfl

theorem isEmpty_directoryOf (path : Path) : (Config.directoryOf path).isEmpty = false := by
  rw [Config.directoryOf]
  split
  · split
    · rfl
    · rename_i hempty
      simpa using hempty
  · rfl

/-- The settings of a tool in a configuration file, with their paths seen from its directory. -/
theorem settings_eq {path : Path} {text : String} {content config : Config}
    (hcontent : Config.ofJson text = .ok content) (hconfig : Config.ofFile path text = .ok config)
    {tool : Tool} {given settings : ToolSettings} (hgiven : content.settings? tool = some given)
    (hsettings : config.settings? tool = some settings) :
    settings = given.resolve (Config.directoryOf path) := by
  rw [Config.ofFile, hcontent] at hconfig
  obtain rfl := Except.ok.inj hconfig
  rw [settings?_resolve, hgiven] at hsettings
  exact (Option.some.inj hsettings).symm

section

variable {s : Host} {base executable : Path} (hbase : base.isEmpty = false)
  (hrelative : executable.isAbsolute = false) (hlong : 1 < executable.components.length)
  {c : Command} (hprogram : c.program = base.join executable)
  {directory : Path} (hdirectory : s.workingDirectory c = .ok directory)

include hlong hprogram hdirectory

theorem startedFile_join :
    startedFile s c = do
      let _ ← Program.inFile s.files directory (base.join executable)
      return (← FileTree.place s.files directory (base.join executable)).names := by
  have hslash : '/' ∈ (base.join executable).chars :=
    (suffix_join base executable).subset (slash_mem_of_components hlong)
  rw [← hprogram] at hslash ⊢
  exact startedFile_eq hslash hdirectory

include hbase hrelative

/-- From an absolute directory, and where no directory is entered, what is started is the file at
the joined path, if that is a program. -/
theorem startedFile_of_anchored (hanchored : base.isAbsolute = true ∨ c.workingDir = none)
    {program : Program}
    (hinFile : Program.inFile s.files s.directory (base.join executable) = .ok program) :
    startedFile s c =
      (FileTree.place s.files s.directory (base.join executable)).map (·.names) := by
  have hplace : FileTree.place s.files directory (base.join executable) =
      FileTree.place s.files s.directory (base.join executable) := by
    rcases hanchored with habs | hnone
    · refine place_of_isAbsolute ?_ s.files directory s.directory
      rw [isAbsolute_join hbase hrelative, habs]
    · rw [Host.workingDirectory, hnone] at hdirectory
      rw [Except.ok.inj hdirectory]
  have hsame : Program.inFile s.files directory (base.join executable) = .ok program := by
    rw [← hinFile, Program.inFile, Program.inFile, FileTree.find, FileTree.find, hplace]
  rw [startedFile_join hlong hprogram hdirectory, hsame, hplace]
  cases FileTree.place s.files s.directory (base.join executable) <;> rfl

theorem names_iff (hs : s.directory.isAbsolute = true) {started : List String}
    (hstarted : startedFile s c = .ok started) {wanted : List String}
    (hwanted : (FileTree.place s.files s.directory (base.join executable)).map (·.names) =
      .ok wanted) :
    started = wanted ↔
      base.isAbsolute = true ∨
        (names s.directory directory).rdrop (rise (base.join executable)) =
          (names s.directory s.directory).rdrop (rise (base.join executable)) := by
  rw [startedFile_join hlong hprogram hdirectory] at hstarted
  obtain ⟨_, _, hstarted⟩ := bind_eq_ok hstarted
  obtain ⟨place, hplace, hstarted⟩ := bind_eq_ok hstarted
  obtain rfl := Except.ok.inj hstarted
  obtain ⟨beside, hbeside, rfl⟩ := map_eq_ok hwanted
  have hsame : place.names = beside.names ↔
      names directory (base.join executable) = names s.directory (base.join executable) := by
    rw [← names_place hplace, ← names_place hbeside]
    exact (List.map_injective_iff.mpr fun _ _ h => String.toList_injective h).eq_iff.symm
  have hjoin := isAbsolute_join hbase hrelative
  rw [hsame]
  cases habs : base.isAbsolute with
  | true =>
      have hjoined : (base.join executable).isAbsolute = true := hjoin.trans habs
      exact iff_of_true ((names_of_isAbsolute hjoined).trans (names_of_isAbsolute hjoined).symm)
        (.inl rfl)
  | false =>
      have hjoined : (base.join executable).isAbsolute = false := hjoin.trans habs
      rw [names_eq_iff (isAbsolute_of_workingDirectory hs hdirectory) hs hjoined s.directory]
      simp

end

/-- For a tool of a configuration file whose executable is a relative path, what is started is the
file beside the configuration just when the configuration is absolute, or the directory that the
command enters agrees with the current one above what the path of the executable leaves. -/
theorem startedFile_iff {s : Host} (hs : s.directory.isAbsolute = true) {path : Path}
    {text : String} {content config : Config} (hcontent : Config.ofJson text = .ok content)
    (hconfig : Config.ofFile path text = .ok config) {tool : Tool} {given settings : ToolSettings}
    (hgiven : content.settings? tool = some given)
    (hsettings : config.settings? tool = some settings)
    (hrelative : given.executable.isAbsolute = false)
    (hlong : 1 < given.executable.components.length) (key : Option String) (file : Path)
    {directory : Path} (hdirectory : s.workingDirectory
      ((Linter.make tool settings key).command s.directory file) = .ok directory)
    {started : List String} (hstarted : startedFile s
      ((Linter.make tool settings key).command s.directory file) = .ok started)
    {wanted : List String} (hwanted : (FileTree.place s.files s.directory
      ((Config.directoryOf path).join given.executable)).map (·.names) = .ok wanted) :
    started = wanted ↔
      (Config.directoryOf path).isAbsolute = true ∨
        (names s.directory directory).rdrop
            (rise ((Config.directoryOf path).join given.executable)) =
          (names s.directory s.directory).rdrop
            (rise ((Config.directoryOf path).join given.executable)) := by
  have hprogram : ((Linter.make tool settings key).command s.directory file).program =
      (Config.directoryOf path).join given.executable := by
    rw [settings_eq hcontent hconfig hgiven hsettings]
    exact if_pos (by simp [hrelative, hlong])
  exact names_iff (isEmpty_directoryOf path) hrelative hlong hprogram hdirectory hs hstarted hwanted

/-- A system whose current directory is given, with two programs of one name. -/
def nested (directory : Path) : Host where
  files := .directory [("w", .directory [
    ("sub", .directory [("tools", .directory [("lint", .file [] true)])]),
    ("tools", .directory [("lint", .file [] true)])])]
  directory := directory
  environment := []

/-- Settings with such a program, and a directory to enter. -/
def lintIn (dir : String) : ToolSettings where
  executable := Path.ofString "tools/lint"
  workingDir := some (Path.ofString dir)

/-- A configuration with these settings. -/
def lintConfig (dir : String) : Config where
  other := some (lintIn dir)

def lintText (dir : String) : String :=
  "\x7b\"tools\": \x7b\"custom\": \x7b\"executable\": \"tools/lint\", \"workingDir\": \"" ++ dir ++
    "\"\x7d\x7d\x7d"

/-- The command of the tool, when the configuration lies in the directory `base`. -/
def lintCommand (directory base : Path) (dir : String) : Command :=
  (Linter.make .other ((lintIn dir).resolve base) none).command directory (Path.ofString "a.cpp")

/-- From one directory into another beside it, with a configuration above both. -/
theorem startedFile_sibling :
    startedFile (nested (Path.ofString "/w/sub"))
        (lintCommand (Path.ofString "/w/sub") (Path.ofString "..") "tools") =
      .ok ["w", "tools", "lint"] ∧
      (["w", "tools", "lint"] = ["w", "tools", "lint"] ↔
        (Config.directoryOf (Path.ofString "../.cxxlens.json")).isAbsolute = true ∨
          (names (Path.ofString "/w/sub") (Path.ofString "/w/tools")).rdrop
              (rise ((Config.directoryOf (Path.ofString "../.cxxlens.json")).join
                (lintIn "tools").executable)) =
            (names (Path.ofString "/w/sub") (Path.ofString "/w/sub")).rdrop
              (rise ((Config.directoryOf (Path.ofString "../.cxxlens.json")).join
                (lintIn "tools").executable))) := by
  have hcontent : Config.ofJson (lintText "tools") = .ok (lintConfig "tools") :=
    eq_ok_of_toOption (by decide +kernel)
  have hconfig : Config.ofFile (Path.ofString "../.cxxlens.json") (lintText "tools") =
      .ok ((lintConfig "tools").resolve (Path.ofString "..")) := by
    rw [Config.ofFile, hcontent]
    rfl
  have hdirectory : (nested (Path.ofString "/w/sub")).workingDirectory
      (lintCommand (Path.ofString "/w/sub") (Path.ofString "..") "tools") =
        .ok (Path.ofString "/w/tools") := eq_ok_of_toOption (by decide +kernel)
  have hstarted := (startedFile_eq (by decide +kernel) hdirectory).trans
    (eq_ok_of_toOption (a := ["w", "tools", "lint"]) (by decide +kernel))
  exact ⟨hstarted, startedFile_iff rfl hcontent hconfig rfl rfl rfl (by decide +kernel) none
    (Path.ofString "a.cpp") hdirectory hstarted (eq_ok_of_toOption (by decide +kernel))⟩

/-- The program of that name in the directory that is entered is started instead. -/
theorem startedFile_nested :
    Config.ofJson (lintText "sub") = .ok (lintConfig "sub") ∧
      Config.ofFile (Path.ofString ".cxxlens.json") (lintText "sub") =
        .ok ((lintConfig "sub").resolve (Path.ofString ".")) ∧
      ((lintConfig "sub").resolve (Path.ofString ".")).settings? .other =
        some ((lintIn "sub").resolve (Path.ofString ".")) ∧
      (lintIn "sub").executable.isAbsolute = false ∧
      1 < (lintIn "sub").executable.components.length ∧
      startedFile (nested (Path.ofString "/w"))
          (lintCommand (Path.ofString "/w") (Path.ofString ".") "sub") =
        .ok ["w", "sub", "tools", "lint"] ∧
      (FileTree.place (nested (Path.ofString "/w")).files (Path.ofString "/w")
        ((Config.directoryOf (Path.ofString ".cxxlens.json")).join (lintIn "sub").executable)).map
          (·.names) = .ok ["w", "tools", "lint"] := by
  have hcontent : Config.ofJson (lintText "sub") = .ok (lintConfig "sub") :=
    eq_ok_of_toOption (by decide +kernel)
  have hconfig : Config.ofFile (Path.ofString ".cxxlens.json") (lintText "sub") =
      .ok ((lintConfig "sub").resolve (Path.ofString ".")) := by
    rw [Config.ofFile, hcontent]
    rfl
  have hdirectory : (nested (Path.ofString "/w")).workingDirectory
      (lintCommand (Path.ofString "/w") (Path.ofString ".") "sub") =
        .ok (Path.ofString "/w/sub") := eq_ok_of_toOption (by decide +kernel)
  have hstarted := (startedFile_eq (by decide +kernel) hdirectory).trans
    (eq_ok_of_toOption (a := ["w", "sub", "tools", "lint"]) (by decide +kernel))
  exact ⟨hcontent, hconfig, rfl, rfl, by decide +kernel, hstarted,
    eq_ok_of_toOption (by decide +kernel)⟩

end LintGate.Proofs.StartedFile
