import LintGate.Diff.Filter

/-!
The findings on lines that differ from a reference. Where there is nothing to compare, all findings
stay; where there is, exactly those on changed lines do, as often and in the order in which they
were found, and a second restriction takes nothing more away.
-/

namespace LintGate.Proofs.ChangedFindings

/-- The entry wrote the line, counted from 1, or took away what stood right before it. -/
def Changes (e : EditEntry) (line : Nat) : Prop :=
  match e.kind with
  | .equal => False
  | .insert | .replace => e.new.start < line ∧ line ≤ e.new.stop
  | .delete => line = e.new.start + 1

def IsChanged (s : EditScript) (line : UInt32) : Prop :=
  ∃ e ∈ s.entries, Changes e line.toNat

theorem not_changes_zero (e : EditEntry) : ¬ Changes e 0 := by
  intro h
  unfold Changes at h
  split at h <;> omega

theorem covers_iff {e : EditEntry} {index : Nat} :
    e.covers index = true ↔ Changes e (index + 1) := by
  unfold EditEntry.covers Changes
  cases e.kind with
  | equal => simp
  | insert | replace =>
      simp only [Span.contains, Bool.and_eq_true, decide_eq_true_eq]
      omega
  | delete =>
      rw [beq_iff_eq]
      omega

theorem isLineChanged_iff {s : EditScript} {line : UInt32} :
    s.isLineChanged line = true ↔ IsChanged s line := by
  unfold EditScript.isLineChanged IsChanged
  split
  · rename_i hzero
    simp [hzero, not_changes_zero]
  · rename_i index hindex
    simp only [hindex, List.any_eq_true, covers_iff]

/-- What is kept are the findings on changed lines, in their order and as often as they were
found. -/
structure Restricts (s : EditScript) (issues kept : List Issue) : Prop where
  sublist : kept.Sublist issues
  changed : ∀ i ∈ kept, IsChanged s i.line
  count : ∀ i, IsChanged s i.line → kept.count i = issues.count i

theorem restricts_retainChanged (s : EditScript) (issues : List Issue) :
    Restricts s issues (s.retainChanged issues) where
  sublist := List.filter_sublist
  changed := by
    intro i hi
    exact isLineChanged_iff.mp (List.mem_filter.mp hi).2
  count := by
    intro i hi
    exact List.count_filter (isLineChanged_iff.mpr hi)

theorem Restricts.line_ne_zero {s : EditScript} {issues kept : List Issue}
    (h : Restricts s issues kept) : ∀ i ∈ kept, i.line ≠ 0 := by
  intro i hi hzero
  obtain ⟨e, _, hchanges⟩ := h.changed i hi
  rw [hzero] at hchanges
  exact not_changes_zero e hchanges

theorem retainChanged_retainChanged (s : EditScript) (issues : List Issue) :
    s.retainChanged (s.retainChanged issues) = s.retainChanged issues := by
  rw [EditScript.retainChanged, List.filter_eq_self]
  intro i hi
  exact (List.mem_filter.mp hi).2

/-- What the restriction makes of findings, by what is known of the file and of the reference. -/
structure FailOpen (content : Except FileFault (List UInt8)) (reference : Option String)
    (issues : List Issue) (result : List Issue × DiffOutcome) : Prop where
  skipped_iff : (∃ cause, result.2 = .skipped cause) ↔
    reference = none ∨ ∃ fault, content = .error fault
  /-- A missing reference is noticed before the file is read. -/
  cause_eq : ∀ cause, result.2 = .skipped cause →
    reference = none ∧ cause = .noReference ∨
      reference ≠ none ∧ ∃ fault, content = .error fault ∧ cause = .unreadable fault
  untouched : ∀ cause, result.2 = .skipped cause → result.1 = issues
  applied : ∀ original bytes, reference = some original → content = .ok bytes →
    Restricts (.between original (Text.Utf8.decodeLossy bytes)) issues result.1 ∧
      ∃ kept dropped, result.2 = .applied kept dropped ∧ kept = result.1.length ∧
        kept + dropped = issues.length
  line_ne_zero : ∀ kept dropped, result.2 = .applied kept dropped → ∀ i ∈ result.1, i.line ≠ 0
  again : (DiffOutcome.filter content reference result.1).1 = result.1 ∧
    ∀ kept dropped, (DiffOutcome.filter content reference result.1).2 = .applied kept dropped →
      dropped = 0

section

variable (issues : List Issue)

theorem failOpen_of_noReference (content : Except FileFault (List UInt8)) :
    FailOpen content none issues (issues, .skipped .noReference) where
  skipped_iff := ⟨fun _ => .inl rfl, fun _ => ⟨_, rfl⟩⟩
  cause_eq := by
    rintro _ ⟨⟩
    exact .inl ⟨rfl, rfl⟩
  untouched := fun _ _ => rfl
  applied := nofun
  line_ne_zero := nofun
  again := ⟨rfl, nofun⟩

theorem failOpen_of_unreadable (fault : FileFault) (original : String) :
    FailOpen (.error fault) (some original) issues (issues, .skipped (.unreadable fault)) where
  skipped_iff := ⟨fun _ => .inr ⟨fault, rfl⟩, fun _ => ⟨_, rfl⟩⟩
  cause_eq := by
    rintro _ ⟨⟩
    exact .inr ⟨nofun, fault, rfl, rfl⟩
  untouched := fun _ _ => rfl
  applied := nofun
  line_ne_zero := nofun
  again := ⟨rfl, nofun⟩

theorem failOpen_of_readable (bytes : List UInt8) (original : String) :
    FailOpen (.ok bytes) (some original) issues
      (DiffOutcome.filter (.ok bytes) (some original) issues) := by
  let script := EditScript.between original (Text.Utf8.decodeLossy bytes)
  have hrestricts : Restricts script issues (script.retainChanged issues) :=
    restricts_retainChanged script issues
  constructor
  case skipped_iff =>
      constructor
      · rintro ⟨_, ⟨⟩⟩
      · rintro (hnone | ⟨_, herror⟩)
        · cases hnone
        · cases herror
  case cause_eq => exact nofun
  case untouched => exact nofun
  case applied =>
      rintro _ _ ⟨⟩ ⟨⟩
      exact ⟨hrestricts, _, _, rfl, rfl, Nat.add_sub_of_le hrestricts.sublist.length_le⟩
  case line_ne_zero => exact fun _ _ _ => hrestricts.line_ne_zero
  case again =>
      have htwice := retainChanged_retainChanged script issues
      refine ⟨htwice, ?_⟩
      rintro _ _ ⟨⟩
      show (script.retainChanged issues).length -
        (script.retainChanged (script.retainChanged issues)).length = 0
      rw [htwice, Nat.sub_self]

end

/-- For every file, readable or not, every reference and all findings. -/
theorem filter_failOpen (content : Except FileFault (List UInt8)) (reference : Option String)
    (issues : List Issue) :
    FailOpen content reference issues (DiffOutcome.filter content reference issues) := by
  cases reference with
  | none => exact failOpen_of_noReference issues content
  | some original =>
      cases content with
      | error fault => exact failOpen_of_unreadable issues fault original
      | ok bytes => exact failOpen_of_readable issues bytes original

/-- The octet 255 is no UTF-8, and its line is new. A finding without a line is dropped. -/
example :
    DiffOutcome.filter (.ok [97, 10, 255]) (some "a")
        [.reported "r" "m" 0 "f", .reported "r" "m" 1 "f", .reported "r" "m" 2 "f",
          .reported "r" "m" 2 "f"] =
      ([.reported "r" "m" 2 "f", .reported "r" "m" 2 "f"], .applied 2 2) := by
  decide +kernel

end LintGate.Proofs.ChangedFindings
