import LintGate.Diff.Operation
import LintGate.Diff.Validity

/-!
What an edit script says of the lines it leaves alone. The lines that no entry changes stand in the
reference too, run by run, in the same order. Lines taken away between two runs cannot hide, because
the line that follows them counts as changed.
-/

namespace LintGate.Proofs.UnchangedRuns

/-- No entry changes the line, counted from 0. -/
def Uncovered (entries : List EditEntry) (k : Nat) : Prop :=
  ∀ e ∈ entries, e.covers k = false

theorem uncovered_cons {e : EditEntry} {rest : List EditEntry} {k : Nat} :
    Uncovered (e :: rest) k ↔ e.covers k = false ∧ Uncovered rest k := by
  simp [Uncovered]

theorem isLineChanged_eq_false_iff (s : EditScript) {k : Nat} (hk : k + 1 < UInt32.size) :
    s.isLineChanged (UInt32.ofNat (k + 1)) = false ↔ Uncovered s.entries k := by
  have hline : (UInt32.ofNat (k + 1)).toNat = k + 1 := UInt32.toNat_ofNat_of_lt' hk
  rw [EditScript.isLineChanged, hline]
  simp [Uncovered]

section

variable (old new : List (List Char)) (entries : List EditEntry)

/-- Where the unchanged lines of the new text from `j` on stand in the old text, from `i` on. -/
structure Sources (i j : Nat) (f : Nat → Nat) : Prop where
  same : ∀ k, j ≤ k → k < new.length → Uncovered entries k → i ≤ f k ∧ old[f k]? = new[k]?
  first : j < new.length → Uncovered entries j → f j = i
  next : ∀ k, j ≤ k → k + 1 < new.length → Uncovered entries k → Uncovered entries (k + 1) →
    f (k + 1) = f k + 1
  increasing : ∀ k l, j ≤ k → k < l → l < new.length → Uncovered entries k → Uncovered entries l →
    f k < f l

end

section

variable {old new : List (List Char)} {entries rest : List EditEntry} {e : EditEntry} {i j : Nat}
variable {f : Nat → Nat}

/-- An entry that changes each of its lines, and the first line after it when it has none, does not
get in the way. -/
theorem Sources.cons_changed (h : Sources old new rest e.old.stop e.new.stop f)
    (hi : i ≤ e.old.stop) (hj : j ≤ e.new.stop)
    (hcovers : ∀ k, j ≤ k → e.covers k = false → e.new.stop ≤ k)
    (hfirst : e.covers j = false → e.old.stop = i ∧ e.new.stop = j) :
    Sources old new (e :: rest) i j f where
  same := by
    intro k hk hlt huncovered
    obtain ⟨hown, hrest⟩ := uncovered_cons.mp huncovered
    obtain ⟨hle, hsame⟩ := h.same k (hcovers k hk hown) hlt hrest
    exact ⟨Nat.le_trans hi hle, hsame⟩
  first := by
    intro hlt huncovered
    obtain ⟨hown, hrest⟩ := uncovered_cons.mp huncovered
    obtain ⟨rfl, rfl⟩ := hfirst hown
    exact h.first hlt hrest
  next := by
    intro k hk hlt huncovered hnext
    obtain ⟨hown, hrest⟩ := uncovered_cons.mp huncovered
    exact h.next k (hcovers k hk hown) hlt hrest (uncovered_cons.mp hnext).2
  increasing := by
    intro k l hk hkl hlt huncovered hlater
    obtain ⟨hown, hrest⟩ := uncovered_cons.mp huncovered
    exact h.increasing k l (hcovers k hk hown) hkl hlt hrest (uncovered_cons.mp hlater).2

theorem Sources.cons_written (h : Sources old new rest e.old.stop e.new.stop f)
    (hfits : e.FitsAt old new i j) (hcovers : ∀ k, e.covers k = e.new.contains k)
    (hempty : e.new.stop ≤ e.new.start → e.old.start = e.old.stop) :
    Sources old new (e :: rest) i j f := by
  obtain ⟨rfl, rfl, hold, hnew, _⟩ := hfits
  refine h.cons_changed hold hnew ?_ ?_
  · intro k hk hout
    simpa [hcovers, Span.contains, hk] using hout
  · intro hout
    have hstop : e.new.stop ≤ e.new.start := by simpa [hcovers, Span.contains] using hout
    exact ⟨(hempty hstop).symm, Nat.le_antisymm hstop hnew⟩

theorem Sources.cons_deleted (h : Sources old new rest e.old.stop e.new.stop f)
    (hfits : e.FitsAt old new i j) (hkind : e.kind = .delete) :
    Sources old new (e :: rest) i j f := by
  obtain ⟨rfl, rfl, hold, hnew, hempty⟩ := hfits
  rw [hkind] at hempty
  refine h.cons_changed hold hnew ?_ ?_
  · intro k hk _
    exact hempty ▸ hk
  · intro hout
    -- The first line after the deleted ones is covered, so it is not asked for.
    simp [EditEntry.covers, hkind] at hout

/-- Equal lines stand in the old text as far from the start of their entry as in the new one. -/
theorem Sources.cons_equal (h : Sources old new rest e.old.stop e.new.stop f)
    (hfits : e.FitsAt old new i j) (hkind : e.kind = .equal) :
    Sources old new (e :: rest) i j fun k => if k < e.new.stop then i + (k - j) else f k := by
  obtain ⟨rfl, rfl, hold, hnew, hpairs⟩ := hfits
  rw [hkind] at hpairs
  obtain ⟨hlength, hpairs⟩ := hpairs
  constructor
  case same =>
      intro k hk hlt huncovered
      by_cases hin : k < e.new.stop
      · have hpair := hpairs (k - e.new.start) (by omega)
        rw [Nat.add_sub_cancel' hk] at hpair
        simp only [hin, if_true]
        exact ⟨Nat.le_add_right _ _, hpair⟩
      · obtain ⟨hle, hsame⟩ := h.same k (by omega) hlt (uncovered_cons.mp huncovered).2
        simp only [hin, if_false]
        exact ⟨Nat.le_trans hold hle, hsame⟩
  case first =>
      intro hlt huncovered
      by_cases hin : e.new.start < e.new.stop
      · simp [hin]
      · have hstop : e.new.stop = e.new.start := by omega
        have hfirst := h.first (hstop ▸ hlt) (hstop ▸ (uncovered_cons.mp huncovered).2)
        rw [hstop] at hfirst
        simp only [hin, if_false, hfirst]
        omega
  case next =>
      intro k hk hlt huncovered hnext
      by_cases hin : k + 1 < e.new.stop
      · simp only [hin, Nat.lt_of_succ_lt hin, if_true]
        omega
      · by_cases hlast : k + 1 = e.new.stop
        · have hfirst := h.first (hlast ▸ hlt) (hlast ▸ (uncovered_cons.mp hnext).2)
          rw [← hlast] at hfirst
          simp only [← hlast, Nat.lt_irrefl, Nat.lt_succ_self, if_true, if_false, hfirst]
          omega
        · have hout : ¬ k < e.new.stop := by omega
          simp only [hin, hout, if_false]
          exact h.next k (by omega) hlt (uncovered_cons.mp huncovered).2 (uncovered_cons.mp hnext).2
  case increasing =>
      intro k l hk hkl hlt huncovered hlater
      by_cases hin : l < e.new.stop
      · simp only [hin, Nat.lt_trans hkl hin, if_true]
        omega
      · obtain ⟨hle, _⟩ := h.same l (by omega) hlt (uncovered_cons.mp hlater).2
        by_cases hearly : k < e.new.stop
        · simp only [hin, hearly, if_true, if_false]
          omega
        · simp only [hin, hearly, if_false]
          exact h.increasing k l (by omega) hkl hlt (uncovered_cons.mp huncovered).2
            (uncovered_cons.mp hlater).2

/-- Entry by entry, the unchanged lines are found in the old text. -/
theorem exists_sources (h : Leads old new i j entries) : ∃ f, Sources old new entries i j f := by
  induction entries generalizing i j with
  | nil =>
      obtain ⟨rfl, rfl⟩ := h
      refine ⟨id, ?_, ?_, ?_, ?_⟩ <;> intros <;> omega
  | cons e rest ih =>
      obtain ⟨hfits, hrest⟩ := h
      obtain ⟨f, hf⟩ := ih hrest
      cases hkind : e.kind with
      | equal => exact ⟨_, hf.cons_equal hfits hkind⟩
      | insert =>
          have hempty := hfits.kind
          rw [hkind] at hempty
          refine ⟨f, hf.cons_written hfits ?_ fun _ => hempty⟩
          intro k
          rw [EditEntry.covers, hkind]
      | delete => exact ⟨f, hf.cons_deleted hfits hkind⟩
      | replace =>
          have hboth := hfits.kind
          rw [hkind] at hboth
          refine ⟨f, hf.cons_written hfits ?_ fun hstop => absurd hboth.2 (Nat.not_lt.mpr hstop)⟩
          intro k
          rw [EditEntry.covers, hkind]

end

/-- One of the first `count` lines, counted from 1, that a finding can name and that is
unchanged. -/
def Kept (s : EditScript) (count line : Nat) : Prop :=
  (1 ≤ line ∧ line ≤ count ∧ line < UInt32.size) ∧ s.isLineChanged (UInt32.ofNat line) = false

/-- A run of kept lines that no kept line adjoins. -/
structure IsRun (s : EditScript) (count first last : Nat) : Prop where
  first_le : first ≤ last
  kept : ∀ line, first ≤ line → line ≤ last → Kept s count line
  before : ¬ Kept s count (first - 1)
  after : ¬ Kept s count (last + 1)

section

variable {s : EditScript} {count line first last : Nat}

theorem kept_iff : Kept s count line ↔
    ∃ k, line = k + 1 ∧ k < count ∧ line < UInt32.size ∧ Uncovered s.entries k := by
  constructor
  · rintro ⟨⟨hpos, hle, hsize⟩, hunchanged⟩
    obtain ⟨k, rfl⟩ := Nat.exists_eq_add_of_le' hpos
    exact ⟨k, rfl, hle, hsize, (isLineChanged_eq_false_iff s hsize).mp hunchanged⟩
  · rintro ⟨k, rfl, hle, hsize, huncovered⟩
    exact ⟨⟨Nat.le_add_left 1 k, hle, hsize⟩, (isLineChanged_eq_false_iff s hsize).mpr huncovered⟩

theorem not_kept_zero : ¬ Kept s count 0 :=
  fun h => Nat.not_succ_le_zero 0 h.1.1

theorem exists_first (h : Kept s count line) :
    ∃ first ≤ line, (∀ l, first ≤ l → l ≤ line → Kept s count l) ∧ ¬ Kept s count (first - 1) := by
  -- Going up from the line, one comes to where its run begins.
  induction line with
  | zero => exact absurd h not_kept_zero
  | succ line ih =>
      by_cases hbefore : Kept s count line
      · obtain ⟨first, hle, hkept, hend⟩ := ih hbefore
        refine ⟨first, Nat.le_succ_of_le hle, ?_, hend⟩
        intro l hl hline
        rcases Nat.le_or_eq_of_le_succ hline with hearlier | rfl
        · exact hkept l hl hearlier
        · exact h
      · refine ⟨line + 1, Nat.le_refl _, ?_, hbefore⟩
        intro l hl hline
        exact Nat.le_antisymm hline hl ▸ h

theorem exists_last (h : Kept s count line) :
    ∃ last, line ≤ last ∧ (∀ l, line ≤ l → l ≤ last → Kept s count l) ∧
      ¬ Kept s count (last + 1) := by
  -- Going down, one comes to where it ends, in at most as many steps as there are lines left.
  induction hleft : count - line generalizing line with
  | zero =>
      refine ⟨line, Nat.le_refl _, ?_, ?_⟩
      · intro l hl hline
        exact Nat.le_antisymm hline hl ▸ h
      · intro hnext
        have hle := hnext.1.2.1
        omega
  | succ left ih =>
      by_cases hnext : Kept s count (line + 1)
      · obtain ⟨last, hle, hkept, hend⟩ := ih hnext (by omega)
        refine ⟨last, Nat.le_of_succ_le hle, ?_, hend⟩
        intro l hl hlast
        rcases Nat.eq_or_lt_of_le hl with rfl | hlater
        · exact h
        · exact hkept l hlater hlast
      · refine ⟨line, Nat.le_refl _, ?_, hnext⟩
        intro l hl hline
        exact Nat.le_antisymm hline hl ▸ h

theorem exists_run (h : Kept s count line) :
    ∃ first last, IsRun s count first last ∧ first ≤ line ∧ line ≤ last := by
  obtain ⟨first, hfirst, hup, hbefore⟩ := exists_first h
  obtain ⟨last, hlast, hdown, hafter⟩ := exists_last h
  refine ⟨first, last, ⟨Nat.le_trans hfirst hlast, ?_, hbefore, hafter⟩, hfirst, hlast⟩
  intro l hl hl'
  rcases Nat.le_total l line with hle | hle
  · exact hup l hl hle
  · exact hdown l hle hl'

theorem IsRun.last_lt {first' last' : Nat} (h : IsRun s count first last)
    (h' : IsRun s count first' last') (hlt : first < first') : last < first' := by
  refine Nat.lt_of_not_le fun hle => h'.before ?_
  exact h.kept (first' - 1) (by omega) (by omega)

end

/-- What the unchanged lines say of the old text. -/
structure KeepsRuns (old new : List (List Char)) (s : EditScript) : Prop where
  /-- The kept lines split into runs. -/
  in_run : ∀ line, Kept s new.length line →
    ∃ first last, IsRun s new.length first last ∧ first ≤ line ∧ line ≤ last
  /-- Each run is a block of the old text. The blocks stand in the order of the runs, one after the
  other, and the block of a run that begins the new text begins the old one. -/
  blocks : ∃ place : Nat → Nat,
    (∀ first last, IsRun s new.length first last →
      place first + (last + 1 - first) ≤ old.length ∧
      (old.drop (place first)).take (last + 1 - first) =
        (new.drop (first - 1)).take (last + 1 - first)) ∧
    (∀ first last first' last', IsRun s new.length first last →
      IsRun s new.length first' last' → first < first' →
      last < first' ∧ place first + (last + 1 - first) ≤ place first') ∧
    ∀ last, IsRun s new.length 1 last → place 1 = 0
  /-- When no line has changed, lines have at most been taken away at the end. -/
  all_kept : (∀ line, 1 ≤ line → line ≤ new.length → line < UInt32.size →
      s.isLineChanged (UInt32.ofNat line) = false) →
    new.take (UInt32.size - 1) <+: old ∧ (new.length < UInt32.size → new <+: old)

theorem take_drop_eq {old new : List (List Char)} {a b n : Nat}
    (h : ∀ m < n, old[a + m]? = new[b + m]?) : (old.drop a).take n = (new.drop b).take n := by
  refine List.ext_getElem? fun m => ?_
  by_cases hm : m < n
  · simp only [List.getElem?_take, hm, if_true, List.getElem?_drop, h m hm]
  · simp only [List.getElem?_take, hm, if_false]

section

variable {old new : List (List Char)} {s : EditScript} {f : Nat → Nat} {first last : Nat}

theorem IsRun.uncovered {count : Nat} (hrun : IsRun s count first last) {m : Nat}
    (hm : first + m ≤ last) : first - 1 + m < count ∧ Uncovered s.entries (first - 1 + m) := by
  obtain ⟨k, hk, _, _, _⟩ := kept_iff.mp (hrun.kept first (Nat.le_refl _) hrun.first_le)
  obtain ⟨l, hl, hlt, _, huncovered⟩ :=
    kept_iff.mp (hrun.kept (first + m) (Nat.le_add_right first m) hm)
  obtain rfl : l = first - 1 + m := by omega
  exact ⟨hlt, huncovered⟩

/-- Along a run the places in the old text follow each other. -/
theorem Sources.of_isRun (h : Sources old new s.entries 0 0 f)
    (hrun : IsRun s new.length first last) {m : Nat} (hm : first + m ≤ last) :
    f (first - 1 + m) = f (first - 1) + m ∧ old[f (first - 1) + m]? = new[first - 1 + m]? := by
  have hplace : f (first - 1 + m) = f (first - 1) + m := by
    induction m with
    | zero => rfl
    | succ m ih =>
        obtain ⟨hlt, huncovered⟩ := hrun.uncovered hm
        obtain ⟨_, hbefore⟩ := hrun.uncovered (m := m) (by omega)
        have hnext := h.next (first - 1 + m) (Nat.zero_le _) hlt hbefore huncovered
        rw [← Nat.add_assoc, hnext, ih (by omega)]
        rfl
  obtain ⟨hlt, huncovered⟩ := hrun.uncovered hm
  obtain ⟨_, hsame⟩ := h.same _ (Nat.zero_le _) hlt huncovered
  exact ⟨hplace, hplace ▸ hsame⟩

theorem Sources.block_of_isRun (h : Sources old new s.entries 0 0 f)
    (hrun : IsRun s new.length first last) :
    f (first - 1) + (last + 1 - first) ≤ old.length ∧
      (old.drop (f (first - 1))).take (last + 1 - first) =
        (new.drop (first - 1)).take (last + 1 - first) := by
  have hle := hrun.first_le
  constructor
  · have hlast : first + (last - first) ≤ last := by omega
    obtain ⟨_, hsame⟩ := h.of_isRun hrun hlast
    rw [List.getElem?_eq_getElem (hrun.uncovered hlast).1] at hsame
    have hold := (List.getElem?_eq_some_iff.mp hsame).1
    omega
  · refine take_drop_eq fun m hm => ?_
    exact (h.of_isRun hrun (by omega)).2

theorem Sources.ordered_of_isRun (h : Sources old new s.entries 0 0 f) {first' last' : Nat}
    (hrun : IsRun s new.length first last) (hrun' : IsRun s new.length first' last')
    (hlt : first < first') :
    last < first' ∧ f (first - 1) + (last + 1 - first) ≤ f (first' - 1) := by
  have hapart := hrun.last_lt hrun' hlt
  have hle := hrun.first_le
  have hlast : first + (last - first) ≤ last := by omega
  obtain ⟨_, hkeeps⟩ := hrun.uncovered hlast
  obtain ⟨hin, hkeeps'⟩ := hrun'.uncovered (m := 0) hrun'.first_le
  have hpos : 1 ≤ first := (hrun.kept first (Nat.le_refl _) hle).1.1
  have hincreasing := h.increasing _ _ (Nat.zero_le _) (by omega) hin hkeeps hkeeps'
  rw [(h.of_isRun hrun hlast).1, Nat.add_zero] at hincreasing
  exact ⟨hapart, by omega⟩

/-- If all lines a finding can name are unchanged, they are the first lines of the old text. -/
theorem Sources.take_prefix (h : Sources old new s.entries 0 0 f)
    (hall : ∀ line, 1 ≤ line → line ≤ new.length → line < UInt32.size →
      s.isLineChanged (UInt32.ofNat line) = false) :
    new.take (UInt32.size - 1) <+: old := by
  have huncovered : ∀ k, k < new.length → k < UInt32.size - 1 → Uncovered s.entries k := by
    intro k hlt hsize
    exact (isLineChanged_eq_false_iff s (by omega)).mp
      (hall (k + 1) (Nat.le_add_left 1 k) hlt (by omega))
  have hplace : ∀ k, k < new.length → k < UInt32.size - 1 → f k = k := by
    intro k hlt hsize
    induction k with
    | zero => exact h.first hlt (huncovered 0 hlt hsize)
    | succ k ih =>
        have hnext := h.next k (Nat.zero_le _) hlt (huncovered k (by omega) (by omega))
          (huncovered (k + 1) hlt hsize)
        rw [hnext, ih (by omega) (by omega)]
  rw [List.prefix_iff_getElem?]
  intro k hk
  obtain ⟨hsize, hlt⟩ := Nat.lt_min.mp (List.length_take ▸ hk)
  obtain ⟨_, hsame⟩ := h.same k (Nat.zero_le _) hlt (huncovered k hlt hsize)
  rw [hplace k hlt hsize, List.getElem?_eq_getElem hlt] at hsame
  rw [hsame, List.getElem_take]

end

/-- What a valid script leaves alone stands in the old text, however the script was found. -/
theorem keepsRuns_of_valid {old new : List (List Char)} {s : EditScript} (h : s.Valid old new) :
    KeepsRuns old new s := by
  obtain ⟨f, hf⟩ := exists_sources h.leads
  constructor
  case in_run =>
      intro line hkept
      exact exists_run hkept
  case blocks =>
      refine ⟨fun first => f (first - 1), ?_, ?_, ?_⟩
      · intro first last hrun
        exact hf.block_of_isRun hrun
      · intro first last first' last' hrun hrun' hlt
        exact hf.ordered_of_isRun hrun hrun' hlt
      · intro last hrun
        obtain ⟨k, hk, hlt, _, huncovered⟩ :=
          kept_iff.mp (hrun.kept 1 (Nat.le_refl _) hrun.first_le)
        obtain rfl : k = 0 := by omega
        exact hf.first hlt huncovered
  case all_kept =>
      intro hall
      have htake := hf.take_prefix hall
      refine ⟨htake, fun hlt => ?_⟩
      rwa [List.take_of_length_le (by omega)] at htake

/-- The lines of a text that count as unchanged make runs of the reference, if the difference of the
two was a valid script. -/
theorem between_keepsRuns (reference current : String)
    (hvalid : (EditScript.between reference current).Valid (Diff.lines (Diff.normalize reference))
      (Diff.lines (Diff.normalize current))) :
    KeepsRuns (Diff.lines (Diff.normalize reference)) (Diff.lines (Diff.normalize current))
      (EditScript.between reference current) :=
  keepsRuns_of_valid hvalid

/-- Of six lines one is rewritten and one taken away, and one is added at the end. -/
def editedReference : String := "a\nb\nc\nd\ne\ng\n"

def editedText : String := "a\nx\nc\ne\ng\nf"

theorem between_keepsRuns_edited :
    (EditScript.between editedReference editedText).Valid
        (Diff.lines (Diff.normalize editedReference)) (Diff.lines (Diff.normalize editedText)) ∧
      KeepsRuns (Diff.lines (Diff.normalize editedReference))
        (Diff.lines (Diff.normalize editedText))
        (EditScript.between editedReference editedText) :=
  ⟨by decide +kernel, between_keepsRuns editedReference editedText (by decide +kernel)⟩

end LintGate.Proofs.UnchangedRuns
