import LintGate.CommandLine.Contention
import Mathlib.Data.List.Induction

/-!
Several initializations in one directory, in any interleaving of their steps. None of them writes
into a file that it has not created, and one that is not asked to takes no name away. Once all have
ended, the name leads to the first configuration; or none has succeeded, and nothing has changed.
-/

namespace LintGate.Proofs.ContendedConfig

open LintGate.CommandLine
open LintGate.CommandLine.Contention (advance start)

section Disk

variable {d e : Disk} {k file : Nat}

theorem create?_of_named (h : d.named = some k) : d.create? = none := by
  obtain ⟨inodes, named, hlt⟩ := d
  obtain rfl : named = some k := h
  rfl

theorem create?_eq_some (h : d.create? = some (file, e)) :
    d.named = none ∧ file = d.inodes.length ∧
      e.inodes = d.inodes ++ [.tree (.ofText "")] ∧ e.named = some file := by
  cases hnamed : d.named with
  | some k => simp [create?_of_named hnamed] at h
  | none =>
      obtain ⟨inodes, named, hlt⟩ := d
      obtain rfl : named = none := hnamed
      cases h
      exact ⟨rfl, rfl, rfl, rfl⟩

theorem remove_eq_ok (h : d.remove = .ok e) : e.inodes = d.inodes ∧ e.named = none := by
  rw [Disk.remove] at h
  split at h
  · cases h
  · cases h
  · obtain rfl := Except.ok.inj h
    exact ⟨rfl, rfl⟩

theorem getElem?_write_of_ne (h : file ≠ k) (text : String) :
    (d.write file text).inodes[k]? = d.inodes[k]? :=
  List.getElem?_modify_ne _ d.inodes h

/-- A text that is written into an empty file is the content of the file. -/
theorem getElem?_write (h : d.inodes[k]? = some (.tree (.ofText ""))) (text : String) :
    (d.write k text).inodes[k]? = some (.tree (.ofText text)) := by
  rw [Disk.write, List.getElem?_modify_eq, h]
  simp [Inode.write, FileTree.ofText, Text.Utf8.encode]

end Disk

section Step

/-- What an initialization does in a step from one phase to the next, on a disk that is `e` then. -/
inductive Move (force : Bool) (d : Disk) : InitPhase → InitPhase → Disk → Prop
  | create {file : Nat} {e : Disk} (h : d.create? = some (file, e)) :
      Move force d .creating (.writing file) e
  | giveUp {k : Nat} (hnamed : d.named = some k) (hforce : force = false) :
      Move force d .creating (.failed .configExists) d
  | find {k : Nat} (hnamed : d.named = some k) (hforce : force = true) :
      Move force d .creating .removing d
  | write (file : Nat) : Move force d (.writing file) (.done file) (d.write file firstConfig)
  | remove {e : Disk} (h : d.remove = .ok e) : Move force d .removing .creating e
  /-- Another initialization has taken the name away. -/
  | missing : Move force d .removing .creating d
  | refused (fault : FileFault) : Move force d .removing (.failed (.file fault)) d
  | rest {phase : InitPhase} (hended : phase.isEnded = true) : Move force d phase phase d

theorem move_step (force : Bool) (phase : InitPhase) (d : Disk) :
    Move force d phase (phase.step force d).1 (phase.step force d).2 := by
  cases phase with
  | creating =>
      rw [InitPhase.step]
      cases hcreate : d.create? with
      | some created => exact .create hcreate
      | none =>
          cases hnamed : d.named with
          | none => simp [Disk.create?, hnamed] at hcreate
          | some k =>
              cases hforce : force with
              | false => exact .giveUp hnamed rfl
              | true => exact .find hnamed rfl
  | writing file => exact .write file
  | removing =>
      rw [InitPhase.step]
      cases hremove : d.remove with
      | ok e => exact .remove hremove
      | error fault =>
          cases fault with
          | missing => exact .missing
          | _ => exact .refused _
  | done file => exact .rest rfl
  | failed f => exact .rest rfl

variable {force : Bool} {phase next : InitPhase} {d e : Disk} {k : Nat}

/-- A step leaves every file alone but the one that the initialization has created. -/
theorem Move.getElem?_eq (h : Move force d phase next e) (hk : k < d.inodes.length)
    (hfile : phase.file? ≠ some k) : e.inodes[k]? = d.inodes[k]? := by
  cases h with
  | create hcreate => rw [(create?_eq_some hcreate).2.2.1, List.getElem?_append_left hk]
  | write file => exact getElem?_write_of_ne (fun heq => hfile (congrArg some heq)) firstConfig
  | remove hremove => rw [(remove_eq_ok hremove).1]
  | _ => rfl

theorem Move.length_le (h : Move force d phase next e) : d.inodes.length ≤ e.inodes.length := by
  cases h with
  | create hcreate => simp [(create?_eq_some hcreate).2.2.1]
  | write file => simp [Disk.write]
  | remove hremove => exact Nat.le_of_eq (congrArg List.length (remove_eq_ok hremove).1.symm)
  | _ => exact Nat.le_refl _

/-- The file of an initialization stays the same from its creation on. -/
theorem Move.file?_eq (h : Move force d phase next e) (hfile : phase.file? = some k) :
    next.file? = some k := by
  cases h with
  | write file => exact hfile
  | rest _ => exact hfile
  | _ => cases hfile

/-- A file that an initialization has after the step it had before, or it has created it. -/
theorem Move.of_file? (h : Move force d phase next e) (hfile : next.file? = some k) :
    phase.file? = some k ∨
      k = d.inodes.length ∧ e.inodes = d.inodes ++ [.tree (.ofText "")] ∧
        next.isDone = false := by
  cases h with
  | create hcreate =>
      obtain ⟨_, rfl, hinodes, _⟩ := create?_eq_some hcreate
      exact .inr ⟨(Option.some.inj hfile).symm, hinodes, rfl⟩
  | write file => exact .inl hfile
  | rest _ => exact .inl hfile
  | _ => cases hfile

/-- What a step makes of the name: it leaves it, takes it away, or gives it to a new file. -/
theorem Move.named_cases (h : Move force d phase next e) :
    e.named = d.named ∨ (phase = .removing ∧ next = .creating ∧ e.named = none) ∨
      ∃ k, d.named = none ∧ next.file? = some k ∧ e.named = some k := by
  cases h with
  | create hcreate =>
      obtain ⟨hnamed, _, _, hgiven⟩ := create?_eq_some hcreate
      exact .inr (.inr ⟨_, hnamed, rfl, hgiven⟩)
  | remove hremove => exact .inr (.inl ⟨rfl, rfl, (remove_eq_ok hremove).2⟩)
  | _ => exact .inl rfl

theorem Move.of_creating (h : Move force d .creating next e) (hnamed : d.named = none) :
    ∃ k, next.file? = some k ∧ e.named = some k := by
  cases h with
  | create hcreate => exact ⟨_, rfl, (create?_eq_some hcreate).2.2.2⟩
  | giveUp h _ => cases hnamed.symm.trans h
  | find h _ => cases hnamed.symm.trans h
  | rest hended => cases hended

/-- Only an initialization that is asked to goes on to take a name away. -/
theorem Move.force_of_removing (h : Move force d phase .removing e) : force = true := by
  cases h with
  | find _ hforce => exact hforce
  | rest hended => cases hended

/-- The file of an initialization is empty, or has the first configuration once it is done. -/
def Holds (d : Disk) (phase : InitPhase) : Prop :=
  ∀ k, phase.file? = some k →
    d.inodes[k]? = some (.tree (.ofText (if phase.isDone then firstConfig else "")))

theorem Holds.lt (h : Holds d phase) (hfile : phase.file? = some k) : k < d.inodes.length :=
  (List.getElem?_eq_some_iff.mp (h k hfile)).1

theorem Move.holds (h : Move force d phase next e) (hholds : Holds d phase) : Holds e next := by
  intro k hfile
  rcases h.of_file? hfile with hbefore | ⟨rfl, hinodes, hopen⟩
  · cases h with
    | write file =>
        obtain rfl : file = k := Option.some.inj hfile
        exact getElem?_write (hholds file rfl) firstConfig
    | rest _ => exact hholds k hfile
    | _ => cases hbefore
  · simp [hinodes, hopen]

end Step

section Invariant

variable {initial : Disk} {s : Contention} {i : Nat}

/-- Where the initializations stand together: none has done anything, or the name leads to the file
of one, or one has taken the name away and is about to create its file. -/
inductive Stage (initial : Disk) (s : Contention) : Prop
  | untouched (hdisk : s.disk = initial)
      (hnone : ∀ p ∈ s.processes, p.phase.file? = none)
  | linked {j k : Nat} {p : Initialization} (hp : s.processes[j]? = some p)
      (hfile : p.phase.file? = some k) (hnamed : s.disk.named = some k)
  | removed {j : Nat} {p : Initialization} (hp : s.processes[j]? = some p)
      (hphase : p.phase = .creating) (hnamed : s.disk.named = none)

/-- What every step keeps. -/
structure Sound (initial : Disk) (s : Contention) : Prop where
  asked : ∀ p ∈ s.processes, p.phase = .removing → p.force = true
  fresh : ∀ p ∈ s.processes, ∀ k, p.phase.file? = some k → initial.inodes.length ≤ k
  apart : ∀ (i j : Nat) p q k, s.processes[i]? = some p → s.processes[j]? = some q →
    p.phase.file? = some k → q.phase.file? = some k → i = j
  holds : ∀ p ∈ s.processes, Holds s.disk p.phase
  grows : initial.inodes.length ≤ s.disk.inodes.length
  kept : ∀ k < initial.inodes.length, s.disk.inodes[k]? = initial.inodes[k]?
  stage : Stage initial s

theorem phase_start {forces : List Bool} {p : Initialization}
    (hp : p ∈ (start forces initial).processes) : p.phase = .creating := by
  obtain ⟨force, _, rfl⟩ := List.mem_map.mp hp
  rfl

theorem sound_start (forces : List Bool) (initial : Disk) :
    Sound initial (start forces initial) := by
  have hnone : ∀ p ∈ (start forces initial).processes, p.phase.file? = none :=
    fun p hp => congrArg InitPhase.file? (phase_start hp)
  constructor
  case asked =>
      intro p hp hremoving
      cases (phase_start hp).symm.trans hremoving
  case fresh =>
      intro p hp k hfile
      cases (hnone p hp).symm.trans hfile
  case apart =>
      intro i j p q k hp _ hfile _
      cases (hnone p (List.mem_of_getElem? hp)).symm.trans hfile
  case holds =>
      intro p hp k hfile
      cases (hnone p hp).symm.trans hfile
  case grows => exact Nat.le_refl _
  case kept => exact fun _ _ => rfl
  case stage => exact .untouched rfl hnone

/-- What a step of one initialization does to all of them. -/
theorem advance_cases (s : Contention) (i : Nat) :
    (s.processes[i]? = none ∧ advance s i = s) ∨
      ∃ p next e, s.processes[i]? = some p ∧ Move p.force s.disk p.phase next e ∧
        advance s i = ⟨s.processes.set i { p with phase := next }, e⟩ := by
  rw [advance]
  cases hp : s.processes[i]? with
  | none => exact .inl ⟨rfl, rfl⟩
  | some p => exact .inr ⟨p, _, _, rfl, move_step p.force p.phase s.disk, rfl⟩

variable {p : Initialization} {next : InitPhase} {e : Disk}

theorem getElem?_set_self (hp : s.processes[i]? = some p) (q : Initialization) :
    (s.processes.set i q)[i]? = some q := by
  rw [List.getElem?_set_self (List.getElem?_eq_some_iff.mp hp).1]

/-- An initialization is the one that has made its step, or it is as it was. -/
theorem of_getElem?_set {j : Nat} {q r : Initialization} (hp : s.processes[i]? = some p)
    (hq : (s.processes.set i r)[j]? = some q) :
    (i = j ∧ q = r) ∨ (i ≠ j ∧ s.processes[j]? = some q) := by
  by_cases hj : i = j
  · subst hj
    exact .inl ⟨rfl, (Option.some.inj ((getElem?_set_self hp r).symm.trans hq)).symm⟩
  · rw [List.getElem?_set_ne hj] at hq
    exact .inr ⟨hj, hq⟩

theorem Stage.move (h : Stage initial s) (hp : s.processes[i]? = some p)
    (hmove : Move p.force s.disk p.phase next e) :
    Stage initial ⟨s.processes.set i { p with phase := next }, e⟩ := by
  have hown := getElem?_set_self hp { p with phase := next }
  cases h with
  | untouched hdisk hnone =>
      have hfile := hnone p (List.mem_of_getElem? hp)
      have hstays (hnext : next.file? = none) (he : e = s.disk) :
          Stage initial ⟨s.processes.set i { p with phase := next }, e⟩ := by
        refine .untouched (he.trans hdisk) fun q hq => ?_
        rcases List.mem_or_eq_of_mem_set hq with hq | rfl
        · exact hnone q hq
        · exact hnext
      obtain ⟨force, phase⟩ := p
      cases hmove with
      | create hcreate => exact .linked hown rfl (create?_eq_some hcreate).2.2.2
      | write file => cases hfile
      | remove hremove => exact .removed hown rfl (remove_eq_ok hremove).2
      | rest _ => exact hstays hfile rfl
      | _ => exact hstays rfl rfl
  | @linked j k q hq hfile hnamed =>
      rcases hmove.named_cases with hsame | ⟨_, rfl, hgone⟩ | ⟨_, hnone, _⟩
      · by_cases hj : i = j
        · subst hj
          obtain rfl := Option.some.inj (hp.symm.trans hq)
          exact .linked hown (hmove.file?_eq hfile) (hsame.trans hnamed)
        · exact .linked ((List.getElem?_set_ne hj).trans hq) hfile (hsame.trans hnamed)
      · exact .removed hown rfl hgone
      · cases hnamed.symm.trans hnone
  | @removed j q hq hphase hnamed =>
      by_cases hj : i = j
      · subst hj
        obtain rfl := Option.some.inj (hp.symm.trans hq)
        rw [hphase] at hmove
        obtain ⟨k, hfile, hgiven⟩ := hmove.of_creating hnamed
        exact .linked hown hfile hgiven
      · rcases hmove.named_cases with hsame | ⟨_, rfl, hgone⟩ | ⟨k, _, hfile, hgiven⟩
        · exact .removed ((List.getElem?_set_ne hj).trans hq) hphase (hsame.trans hnamed)
        · exact .removed hown rfl hgone
        · exact .linked hown hfile hgiven

/-- A file that one initialization has created is not that of another one after its step. -/
theorem Sound.file?_next_ne (h : Sound initial s) (hp : s.processes[i]? = some p)
    (hmove : Move p.force s.disk p.phase next e) {j k : Nat} {q : Initialization}
    (hq : s.processes[j]? = some q) (hj : i ≠ j) (hfile : q.phase.file? = some k) :
    next.file? ≠ some k := by
  intro hnext
  rcases hmove.of_file? hnext with hown | ⟨rfl, _⟩
  · exact hj (h.apart i j p q k hp hq hown hfile)
  · exact Nat.lt_irrefl _ ((h.holds q (List.mem_of_getElem? hq)).lt hfile)

theorem Sound.move (h : Sound initial s) (hp : s.processes[i]? = some p)
    (hmove : Move p.force s.disk p.phase next e) :
    Sound initial ⟨s.processes.set i { p with phase := next }, e⟩ := by
  have hmem : p ∈ s.processes := List.mem_of_getElem? hp
  constructor
  case asked =>
      intro q hq hremoving
      rcases List.mem_or_eq_of_mem_set hq with hq | rfl
      · exact h.asked q hq hremoving
      · obtain rfl : next = .removing := hremoving
        exact hmove.force_of_removing
  case fresh =>
      intro q hq k hfile
      rcases List.mem_or_eq_of_mem_set hq with hq | rfl
      · exact h.fresh q hq k hfile
      · rcases hmove.of_file? hfile with hfile | ⟨rfl, _⟩
        · exact h.fresh p hmem k hfile
        · exact h.grows
  case apart =>
      intro j j' q q' k hq hq' hfile hfile'
      rcases of_getElem?_set hp hq with ⟨hj, rfl⟩ | ⟨hj, hq⟩ <;>
        rcases of_getElem?_set hp hq' with ⟨hj', rfl⟩ | ⟨hj', hq'⟩
      · exact hj.symm.trans hj'
      · exact absurd hfile (h.file?_next_ne hp hmove hq' hj' hfile')
      · exact absurd hfile' (h.file?_next_ne hp hmove hq hj hfile)
      · exact h.apart j j' q q' k hq hq' hfile hfile'
  case holds =>
      intro q hq k hfile
      obtain ⟨j, hq⟩ := List.getElem?_of_mem hq
      rcases of_getElem?_set hp hq with ⟨_, rfl⟩ | ⟨hj, hq⟩
      · exact hmove.holds (h.holds p hmem) k hfile
      · have hholds := h.holds q (List.mem_of_getElem? hq)
        have hother : p.phase.file? ≠ some k :=
          fun hown => hj (h.apart i j p q k hp hq hown hfile)
        exact (hmove.getElem?_eq (hholds.lt hfile) hother).trans (hholds k hfile)
  case grows => exact Nat.le_trans h.grows hmove.length_le
  case kept =>
      intro k hk
      have hother : p.phase.file? ≠ some k :=
        fun hfile => Nat.not_le_of_lt hk (h.fresh p hmem k hfile)
      exact (hmove.getElem?_eq (Nat.lt_of_lt_of_le hk h.grows) hother).trans (h.kept k hk)
  case stage => exact h.stage.move hp hmove

theorem Sound.advance (h : Sound initial s) (i : Nat) : Sound initial (advance s i) := by
  rcases advance_cases s i with ⟨_, heq⟩ | ⟨p, next, e, hp, hmove, heq⟩
  · rw [heq]
    exact h
  · rw [heq]
    exact h.move hp hmove

end Invariant

section Run

/-- The initializations after these steps. -/
def after (forces : List Bool) (initial : Disk) (schedule : List Nat) : Contention :=
  (start forces initial).run schedule

variable {forces : List Bool} {initial : Disk} {schedule : List Nat} {i k : Nat}

theorem after_append_singleton :
    after forces initial (schedule ++ [i]) = advance (after forces initial schedule) i := by
  simp [after, Contention.run]

theorem sound_after (forces : List Bool) (initial : Disk) (schedule : List Nat) :
    Sound initial (after forces initial schedule) := by
  induction schedule using List.reverseRecOn with
  | nil => exact sound_start forces initial
  | append_singleton schedule i ih =>
      rw [after_append_singleton]
      exact ih.advance i

theorem forces_after (forces : List Bool) (initial : Disk) (schedule : List Nat) :
    (after forces initial schedule).processes.map (·.force) = forces := by
  induction schedule using List.reverseRecOn with
  | nil => exact List.map_map.trans (List.map_id _)
  | append_singleton schedule i ih =>
      rw [after_append_singleton]
      rcases advance_cases (after forces initial schedule) i with
        ⟨_, heq⟩ | ⟨p, next, e, hp, _, heq⟩
      · rw [heq, ih]
      · have hforce : forces[i]? = some p.force := by
          rw [← ih, List.getElem?_map, hp]
          rfl
        obtain ⟨hi, hforce⟩ := List.getElem?_eq_some_iff.mp hforce
        rw [heq, List.map_set, ih, ← hforce, List.set_getElem_self]

/-- The initialization has created the file in one of the steps. -/
def Creates (forces : List Bool) (initial : Disk) (schedule : List Nat) (i k : Nat) : Prop :=
  ∃ before rest, schedule = before ++ i :: rest ∧
    (after forces initial before).disk.inodes.length = k ∧
    k < (after forces initial (before ++ [i])).disk.inodes.length

theorem Creates.append (h : Creates forces initial schedule i k) (j : Nat) :
    Creates forces initial (schedule ++ [j]) i k := by
  obtain ⟨before, rest, rfl, hcreated⟩ := h
  exact ⟨before, rest ++ [j], by simp, hcreated⟩

theorem creates_of_file? {p : Initialization}
    (hp : (after forces initial schedule).processes[i]? = some p)
    (hfile : p.phase.file? = some k) : Creates forces initial schedule i k := by
  induction schedule using List.reverseRecOn generalizing p with
  | nil => cases (congrArg InitPhase.file? (phase_start (List.mem_of_getElem? hp))).symm.trans hfile
  | append_singleton schedule j ih =>
      rw [after_append_singleton] at hp
      rcases advance_cases (after forces initial schedule) j with
        ⟨_, heq⟩ | ⟨q, next, e, hq, hmove, heq⟩
      · rw [heq] at hp
        exact (ih hp hfile).append j
      · rw [heq] at hp
        rcases of_getElem?_set hq hp with ⟨rfl, rfl⟩ | ⟨_, hp⟩
        · rcases hmove.of_file? hfile with hbefore | ⟨hk, hinodes, _⟩
          · exact (ih hq hbefore).append j
          · refine ⟨schedule, [], rfl, hk.symm, ?_⟩
            rw [after_append_singleton, heq, hinodes, hk]
            simp
        · exact (ih hp hfile).append j

/-- An initialization leaves every file alone that it has not created, and one that is not asked to
remove anything leaves the name where it is. -/
theorem advance_spares (forces : List Bool) (initial : Disk) (schedule : List Nat) (i : Nat) :
    let s := after forces initial schedule
    let t := after forces initial (schedule ++ [i])
    (∀ k < s.disk.inodes.length, ¬ Creates forces initial schedule i k →
        t.disk.inodes[k]? = s.disk.inodes[k]?) ∧
      (forces[i]? = some false → ∀ k, s.disk.named = some k → t.disk.named = some k) := by
  intro s t
  have ht : t = advance s i := after_append_singleton
  rw [ht]
  rcases advance_cases s i with ⟨_, heq⟩ | ⟨p, next, e, hp, hmove, heq⟩
  · rw [heq]
    exact ⟨fun _ _ _ => rfl, fun _ _ h => h⟩
  · rw [heq]
    constructor
    · intro k hk hnot
      exact hmove.getElem?_eq hk fun hfile => hnot (creates_of_file? hp hfile)
    · intro hforce k hnamed
      have hpatient : p.force = false := by
        rw [← forces_after forces initial schedule, List.getElem?_map] at hforce
        change Option.map _ s.processes[i]? = _ at hforce
        rw [hp] at hforce
        exact Option.some.inj hforce
      rcases hmove.named_cases with hsame | ⟨hremoving, _⟩ | ⟨_, hnone, _⟩
      · exact hsame.trans hnamed
      · have hasked := (sound_after forces initial schedule).asked p (List.mem_of_getElem? hp)
          hremoving
        rw [hpatient] at hasked
        cases hasked
      · cases hnamed.symm.trans hnone

/-- Once all have ended, nothing has changed and none has succeeded, or the name leads to the file
of one that has. -/
theorem ended_cases {s : Contention} (h : Sound initial s)
    (hended : ∀ p ∈ s.processes, p.phase.isEnded = true) :
    (s.disk = initial ∧ ∀ p ∈ s.processes, p.phase.isDone = false) ∨
      (s.disk.entry = some (.tree (.ofText firstConfig)) ∧
        ∃ p ∈ s.processes, p.phase.isDone = true) := by
  have hdone {p : Initialization} (hp : p ∈ s.processes) (hfile : p.phase.file? ≠ none) :
      p.phase.isDone = true := by
    have hended := hended p hp
    cases hphase : p.phase with
    | done file => rfl
    | failed f => simp [hphase, InitPhase.file?] at hfile
    | _ => simp [hphase, InitPhase.isEnded] at hended
  cases h.stage with
  | untouched hdisk hnone =>
      refine .inl ⟨hdisk, fun p hp => ?_⟩
      have hfile := hnone p hp
      cases hphase : p.phase with
      | done file => simp [hphase, InitPhase.file?] at hfile
      | _ => rfl
  | linked hp hfile hnamed =>
      have hmem := List.mem_of_getElem? hp
      have hp_done := hdone hmem (by simp [hfile])
      refine .inr ⟨?_, _, hmem, hp_done⟩
      rw [Disk.entry, hnamed, Option.bind_some, h.holds _ hmem _ hfile, hp_done]
      rfl
  | removed hp hphase _ =>
      have hended := hended _ (List.mem_of_getElem? hp)
      rw [hphase] at hended
      cases hended

end Run

/-- For every state of the disk and every interleaving: in each step an initialization leaves every
file alone that it has not created, and one that is not asked to remove anything leaves the name
where it is. What was there before keeps its content, whether it keeps its name or not. Once all
have ended, nothing has changed if none has succeeded, and the name leads to the first configuration
if one has. -/
theorem after_uncorrupted (forces : List Bool) (initial : Disk) (schedule : List Nat) :
    let s := after forces initial schedule
    (∀ i, let t := after forces initial (schedule ++ [i])
      (∀ k < s.disk.inodes.length, ¬ Creates forces initial schedule i k →
        t.disk.inodes[k]? = s.disk.inodes[k]?) ∧
      (forces[i]? = some false → ∀ k, s.disk.named = some k → t.disk.named = some k)) ∧
    (∀ k < initial.inodes.length, s.disk.inodes[k]? = initial.inodes[k]?) ∧
    ((∀ p ∈ s.processes, p.phase.isEnded = true) →
      ((∀ p ∈ s.processes, p.phase.isDone = false) → s.disk = initial) ∧
      ((∃ p ∈ s.processes, p.phase.isDone = true) →
        s.disk.entry = some (.tree (.ofText firstConfig)))) := by
  intro s
  have hsound := sound_after forces initial schedule
  refine ⟨advance_spares forces initial schedule, hsound.kept, fun hended => ?_⟩
  rcases ended_cases hsound hended with ⟨hdisk, hnone⟩ | ⟨hentry, p, hp, hdone⟩
  · refine ⟨fun _ => hdisk, ?_⟩
    rintro ⟨p, hp, hdone⟩
    rw [hnone p hp] at hdone
    cases hdone
  · refine ⟨fun hnone => ?_, fun _ => hentry⟩
    rw [hnone p hp] at hdone
    cases hdone

/-- The name belongs to a link at first. An initialization that is not asked to remove anything
writes into a file that has lost the name already, while another one has it, and loses it too. -/
theorem after_uncorrupted_unlinked :
    let forces := [false, true, true]
    let initial : Disk :=
      ⟨[.tree (.ofText "old"), .link (Path.ofString "old.json")], some 1, by decide⟩
    let before := [1, 1, 0, 2, 2, 1]
    let schedule := before ++ [0, 2, 1, 2, 2, 2]
    ¬ Creates forces initial before 0 0 ∧ forces[0]? = some false ∧
      (after forces initial before).disk.named = some 3 ∧
      (after forces initial (before ++ [0])).disk.inodes[0]? =
        (after forces initial before).disk.inodes[0]? ∧
      (after forces initial (before ++ [0])).disk.named = some 3 ∧
      (after forces initial schedule).disk.inodes[0]? = initial.inodes[0]? ∧
      (∀ p ∈ (after forces initial schedule).processes, p.phase.isEnded = true) ∧
      (after forces initial schedule).disk.named = some 4 ∧
      (after forces initial schedule).disk.entry = some (.tree (.ofText firstConfig)) := by
  intro forces initial before schedule
  have hcreates : ¬ Creates forces initial before 0 0 := by
    rintro ⟨earlier, _, _, hlength, _⟩
    have hgrows := (sound_after forces initial earlier).grows
    rw [hlength] at hgrows
    exact absurd hgrows (by decide)
  have hnamed : (after forces initial before).disk.named = some 3 := by decide +kernel
  have hroom : 0 < (after forces initial before).disk.inodes.length := by decide +kernel
  have hended : ∀ p ∈ (after forces initial schedule).processes, p.phase.isEnded = true := by
    decide +kernel
  have hdone : ∃ p ∈ (after forces initial schedule).processes, p.phase.isDone = true := by
    decide +kernel
  obtain ⟨hfiles, hname⟩ := (after_uncorrupted forces initial before).1 0
  obtain ⟨_, hkept, hend⟩ := after_uncorrupted forces initial schedule
  exact ⟨hcreates, rfl, hnamed, hfiles 0 hroom hcreates, hname rfl 3 hnamed,
    hkept 0 (by decide), hended, by decide +kernel, (hend hended).2 hdone⟩

end LintGate.Proofs.ContendedConfig
