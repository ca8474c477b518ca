import LintGate.Analysis.Interleaving
import LintGate.Proofs.SettlementOrder

/-!
What every step of an analysis keeps: the workers are started slot by slot, the run tracks what they
have settled, and the report is in one place.
-/

namespace LintGate.Proofs.InterleavingInvariant

open LintGate.Interleaving
open LintGate.Proofs.RunProgress
open LintGate.Proofs.SettlementOrder

/-- The first slot whose worker has not been asked for. -/
def nextSlot (size : Nat) : Caller → Nat
  | .starting next => next
  | _ => size

/-- The workers are started slot by slot, and none is left out when the caller gets the handle. -/
structure Started (size : Nat) (workers : List Worker) (caller : Caller) : Prop where
  length : workers.length = size
  next_le : nextSlot size caller ≤ size
  absent_iff : ∀ i : Nat, workers[i]? = some .absent ↔ nextSlot size caller ≤ i ∧ i < size

theorem started_start (size : Nat) :
    Started size (List.replicate size .absent) (.starting 0) where
  length := List.length_replicate
  next_le := Nat.zero_le size
  absent_iff := by
    intro i
    simp [nextSlot, List.getElem?_replicate]

section

variable {size i : Nat} {workers : List Worker} {caller next : Caller} {v w : Worker}

theorem Started.set_present (h : Started size workers caller) (hworker : workers[i]? = some v)
    (hv : v ≠ .absent) (hw : w ≠ .absent) : Started size (workers.set i w) caller where
  length := by rw [List.length_set, h.length]
  next_le := h.next_le
  absent_iff := by
    intro j
    rw [← h.absent_iff j]
    by_cases hj : i = j
    · subst hj
      rw [List.getElem?_set_self']
      constructor
      · intro habsent
        obtain ⟨_, _, heq⟩ := Option.map_eq_some_iff.mp habsent
        exact absurd heq hw
      · intro habsent
        exact absurd (Option.some.inj (hworker.symm.trans habsent)) hv
    · rw [List.getElem?_set_ne hj]

theorem Started.set_next (h : Started size workers (.starting i)) (hi : i < size)
    (hw : w ≠ .absent) : Started size (workers.set i w) (.starting (i + 1)) where
  length := by rw [List.length_set, h.length]
  next_le := hi
  absent_iff := by
    intro j
    by_cases hj : i = j
    · subst hj
      rw [List.getElem?_set_self']
      constructor
      · intro habsent
        obtain ⟨_, _, heq⟩ := Option.map_eq_some_iff.mp habsent
        exact absurd heq hw
      · intro hlater
        exact absurd hlater.1 (Nat.not_succ_le_self i)
    · rw [List.getElem?_set_ne hj, h.absent_iff j]
      simp only [nextSlot]
      omega

theorem Started.of_nextSlot_eq (h : Started size workers caller)
    (heq : nextSlot size next = nextSlot size caller) : Started size workers next where
  length := h.length
  next_le := heq ▸ h.next_le
  absent_iff := heq ▸ h.absent_iff

theorem Started.absent_of_next (h : Started size workers (.starting i)) (hi : i < size) :
    workers[i]? = some .absent :=
  (h.absent_iff i).mpr ⟨Nat.le_refl i, hi⟩

/-- Once all workers have been asked for, an open slot has a thread at work. -/
theorem Started.working_of_open (h : Started size workers caller)
    (hnext : nextSlot size caller = size) (hw : w ∈ workers) (hopen : w.outcome? = none) :
    w = .working := by
  obtain ⟨i, hi⟩ := List.getElem?_of_mem hw
  cases w with
  | absent =>
      have hslot := (h.absent_iff i).mp hi
      omega
  | working => rfl
  | settled outcome => cases hopen
  | ended outcome => cases hopen

end

section

variable (cwd : Path) (request : AnalysisRequest) (linters : List Linter)

/-- What the slots have been settled with so far. -/
def given (workers : List Worker) : List (Option Settlement) :=
  List.zipWith (fun l w => w.outcome?.map fun outcome => outcome.settlement cwd l request)
    linters workers

variable {workers : List Worker} {i : Nat} {l : Linter} {w : Worker}

theorem getElem?_given (hl : linters[i]? = some l) (hw : workers[i]? = some w) :
    (given cwd request linters workers)[i]? =
      some (w.outcome?.map fun outcome => outcome.settlement cwd l request) := by
  simp [given, List.getElem?_zipWith, hl, hw]

theorem given_set (hl : linters[i]? = some l) :
    given cwd request linters (workers.set i w) =
      (given cwd request linters workers).set i
        (w.outcome?.map fun outcome => outcome.settlement cwd l request) := by
  refine List.ext_getElem? fun j => ?_
  by_cases hj : i = j
  · subst hj
    simp only [given, List.getElem?_zipWith, List.getElem?_set_self', hl]
    cases workers[i]? <;> rfl
  · simp only [given, List.getElem?_zipWith, List.getElem?_set_ne hj]

/-- A thread that goes on without settling its slot leaves what has been handed in. -/
theorem given_set_of_outcome_eq {v : Worker} (hl : linters[i]? = some l)
    (hv : workers[i]? = some v) (heq : w.outcome? = v.outcome?) :
    given cwd request linters (workers.set i w) = given cwd request linters workers := by
  refine List.ext_getElem? fun j => ?_
  by_cases hj : i = j
  · subst hj
    have hset : (workers.set i w)[i]? = some w := by
      rw [List.getElem?_set_self', hv]
      rfl
    simp [given, List.getElem?_zipWith, hl, hv, hset, heq]
  · simp only [given, List.getElem?_zipWith, List.getElem?_set_ne hj]

theorem given_start :
    given cwd request linters (List.replicate linters.length .absent) =
      List.replicate linters.length none := by
  refine List.ext_getElem? fun j => ?_
  by_cases hj : j < linters.length
  · simp [given, hj, Worker.outcome?]
  · simp [given, hj]

theorem none_mem_given_iff (hlength : workers.length = linters.length) :
    none ∈ given cwd request linters workers ↔ ∃ w ∈ workers, w.outcome? = none := by
  constructor
  · intro hmem
    obtain ⟨i, hi⟩ := List.getElem?_of_mem hmem
    obtain ⟨l, w, _, hw, heq⟩ := List.getElem?_zipWith_eq_some.mp hi
    exact ⟨w, List.mem_of_getElem? hw, Option.map_eq_none_iff.mp heq⟩
  · rintro ⟨w, hmem, hopen⟩
    obtain ⟨i, hw⟩ := List.getElem?_of_mem hmem
    have hlt : i < linters.length := hlength ▸ (List.getElem?_eq_some_iff.mp hw).1
    have hi := getElem?_given cwd request linters (List.getElem?_eq_getElem hlt) hw
    rw [hopen] at hi
    exact List.mem_of_getElem? hi

end

/-- Sending a report touches nothing but the channel, and is noted. -/
theorem send_eq (s : State) (report : AnalysisReport) :
    ∃ channel result,
      s.send report = { s with channel := channel, sends := s.sends ++ [result] } := by
  unfold State.send
  split
  · split
    · exact ⟨_, _, rfl⟩
    · exact ⟨_, _, rfl⟩
  · exact ⟨_, _, rfl⟩

@[simp] theorem run_send (s : State) (report : AnalysisReport) : (s.send report).run = s.run := by
  obtain ⟨channel, result, heq⟩ := send_eq s report
  rw [heq]

@[simp] theorem workers_send (s : State) (report : AnalysisReport) :
    (s.send report).workers = s.workers := by
  obtain ⟨channel, result, heq⟩ := send_eq s report
  rw [heq]

@[simp] theorem caller_send (s : State) (report : AnalysisReport) :
    (s.send report).caller = s.caller := by
  obtain ⟨channel, result, heq⟩ := send_eq s report
  rw [heq]

@[simp] theorem cancelled_send (s : State) (report : AnalysisReport) :
    (s.send report).cancelled = s.cancelled := by
  obtain ⟨channel, result, heq⟩ := send_eq s report
  rw [heq]

@[simp] theorem length_sends_send (s : State) (report : AnalysisReport) :
    (s.send report).sends.length = s.sends.length + 1 := by
  obtain ⟨channel, result, heq⟩ := send_eq s report
  rw [heq, List.length_append, List.length_singleton]

/-- The report is one of the run: its only completion, with the file as it was at some moment. -/
def ReportOf (request : AnalysisRequest) (run : Run) (report : AnalysisReport) : Prop :=
  ∃ completion content, run.completions = [completion] ∧
    report = .ofSettled request content completion.issues completion.tools

/-- Where the report is. It is sent once, into an empty channel, and lost only when nobody wants
it. -/
inductive Delivery (request : AnalysisRequest) (s : State) : Prop
  | owed (hsends : s.sends = []) (hchannel : s.channel = none)
      (hcaller : ∀ answer, s.caller ≠ .answered answer)
  | arrived (report : AnalysisReport) (hreport : ReportOf request s.run report)
      (hsends : s.sends = [.sent]) (hchannel : s.channel = some report)
      (hcaller : s.hasReceiver = true)
  | taken (report : AnalysisReport) (hreport : ReportOf request s.run report)
      (hsends : s.sends = [.sent]) (hchannel : s.channel = none)
      (hcaller : s.caller = .answered (.ok report))
  | unwanted (hcompletions : s.run.completions.length = 1) (hsends : s.sends.length = 1)
      (hfull : .full ∉ s.sends) (hchannel : s.channel = none) (hcaller : s.caller = .dropped)

/-- What every step keeps. -/
structure Inv (cwd : Path) (request : AnalysisRequest) (linters : List Linter) (s : State) :
    Prop where
  started : Started linters.length s.workers s.caller
  tracks : Tracks (given cwd request linters s.workers) s.run
  delivery : Delivery request s

section

variable {cwd : Path} {request : AnalysisRequest} {linters : List Linter} {s t : State}
variable {i : Nat} {l : Linter} {v w : Worker} {outcome : WorkerOutcome}

theorem ReportOf.completions_length {report : AnalysisReport}
    (h : ReportOf request s.run report) : s.run.completions.length = 1 := by
  obtain ⟨completion, _, hcompletions, _⟩ := h
  rw [hcompletions, List.length_singleton]

/-- Nothing is sent before the run is complete. -/
theorem Delivery.owed_of_incomplete (h : Delivery request s) (hnone : s.run.completions = []) :
    s.sends = [] ∧ s.channel = none ∧ ∀ answer, s.caller ≠ .answered answer := by
  have hlength : s.run.completions.length ≠ 1 := by simp [hnone]
  cases h with
  | owed hsends hchannel hcaller => exact ⟨hsends, hchannel, hcaller⟩
  | arrived report hreport _ _ _ => exact absurd hreport.completions_length hlength
  | taken report hreport _ _ _ => exact absurd hreport.completions_length hlength
  | unwanted hcompletions _ _ _ _ => exact absurd hcompletions hlength

/-- A thread that goes on, and a caller that can still receive, leave the report where it is. -/
theorem Delivery.of_eq (h : Delivery request s) (hrun : t.run = s.run)
    (hsends : t.sends = s.sends) (hchannel : t.channel = s.channel)
    (hcaller : t.caller = s.caller ∨ s.hasReceiver = true ∧ t.hasReceiver = true) :
    Delivery request t := by
  have hreceiver : s.hasReceiver = true → t.hasReceiver = true := by
    intro hs
    rcases hcaller with heq | ⟨_, ht⟩
    · rw [State.hasReceiver, heq]
      exact hs
    · exact ht
  cases h with
  | owed hs hc hanswer =>
      refine .owed (hsends.trans hs) (hchannel.trans hc) fun answer heq => ?_
      rcases hcaller with hsame | ⟨_, ht⟩
      · exact hanswer answer (hsame ▸ heq)
      · simp [State.hasReceiver, heq] at ht
  | arrived report hreport hs hc hr =>
      exact .arrived report (hrun ▸ hreport) (hsends.trans hs) (hchannel.trans hc) (hreceiver hr)
  | taken report hreport hs hc hr =>
      refine .taken report (hrun ▸ hreport) (hsends.trans hs) (hchannel.trans hc) ?_
      rcases hcaller with hsame | ⟨hreceives, _⟩
      · exact hsame.trans hr
      · simp [State.hasReceiver, hr] at hreceives
  | unwanted hcompletions hs hfull hc hr =>
      refine .unwanted (hrun ▸ hcompletions) (hsends ▸ hs) (hsends ▸ hfull) (hchannel.trans hc) ?_
      rcases hcaller with hsame | ⟨hreceives, _⟩
      · exact hsame.trans hr
      · simp [State.hasReceiver, hr] at hreceives

theorem inv_start (cwd : Path) (request : AnalysisRequest) (linters : List Linter) :
    Inv cwd request linters (State.start linters.length) where
  started := started_start linters.length
  tracks := by
    rw [State.start, given_start]
    exact tracks_start linters.length
  delivery := .owed rfl rfl fun _ heq => nomatch heq

theorem Inv.slot_open (h : Inv cwd request linters s) (hv : s.workers[i]? = some v)
    (hopen : v.outcome? = none) : s.run.slots[i]? = some none ∧ 0 < s.run.remaining := by
  have hlt : i < linters.length :=
    h.started.length ▸ (List.getElem?_eq_some_iff.mp hv).1
  have hgiven := getElem?_given cwd request linters (List.getElem?_eq_getElem hlt) hv
  rw [hopen] at hgiven
  exact h.tracks.slot_open hgiven

theorem Inv.completions_eq_nil_iff (h : Inv cwd request linters s) :
    s.run.completions = [] ↔ ∃ w ∈ s.workers, w.outcome? = none := by
  rw [h.tracks.completions_eq_nil_iff, none_mem_given_iff _ _ _ h.started.length]

theorem Inv.tracks_set (h : Inv cwd request linters s) (hv : s.workers[i]? = some v)
    (heq : w.outcome? = v.outcome?) :
    Tracks (given cwd request linters (s.workers.set i w)) s.run := by
  have hlt : i < linters.length :=
    h.started.length ▸ (List.getElem?_eq_some_iff.mp hv).1
  rw [given_set_of_outcome_eq cwd request linters (List.getElem?_eq_getElem hlt) hv heq]
  exact h.tracks

/-- A slot that is open can be settled: the call finds it, and the run tracks one slot more. -/
theorem Inv.settle_eq (h : Inv cwd request linters s) (hl : linters[i]? = some l)
    (hv : s.workers[i]? = some v) (hopen : v.outcome? = none) (hw : w.outcome? = some outcome) :
    ∃ run, s.settle cwd request i l outcome w =
        some { s with run := run, workers := s.workers.set i w } ∧
      Tracks (given cwd request linters (s.workers.set i w)) run := by
  have hgiven := getElem?_given cwd request linters hl hv
  rw [hopen] at hgiven
  obtain ⟨run, hrun, htracks⟩ := h.tracks.settle hgiven
    (outcome.settlement cwd l request).1 (outcome.settlement cwd l request).2
  refine ⟨run, by simp [State.settle, hrun], ?_⟩
  rw [given_set cwd request linters hl, hw]
  exact htracks

/-- Settling a slot changes nothing but the run and its worker. Until then nothing has been sent. -/
theorem Inv.eq_of_settle (h : Inv cwd request linters s) (hl : linters[i]? = some l)
    (hv : s.workers[i]? = some v) (hopen : v.outcome? = none) (hw : w.outcome? = some outcome)
    (hsettle : s.settle cwd request i l outcome w = some t) :
    s.run.completions = [] ∧ t = { s with run := t.run, workers := s.workers.set i w } ∧
      Tracks (given cwd request linters (s.workers.set i w)) t.run := by
  obtain ⟨run, heq, htracks⟩ := h.settle_eq hl hv hopen hw
  obtain rfl : t = { s with run := run, workers := s.workers.set i w } := by
    rw [hsettle] at heq
    exact Option.some.inj heq
  exact ⟨h.completions_eq_nil_iff.mpr ⟨v, List.mem_of_getElem? hv, hopen⟩, rfl, htracks⟩

theorem Inv.of_settle (h : Inv cwd request linters s) (hl : linters[i]? = some l)
    (hv : s.workers[i]? = some v) (hopen : v.outcome? = none) (hw : w.outcome? = some outcome)
    (hsettle : s.settle cwd request i l outcome w = some t) {caller : Caller}
    (hstarted : Started linters.length (s.workers.set i w) caller)
    (hcaller : caller = s.caller ∨ ∃ next, caller = .starting next) :
    Inv cwd request linters { t with caller := caller } := by
  obtain ⟨hnone, heq, htracks⟩ := h.eq_of_settle hl hv hopen hw hsettle
  obtain ⟨hsends, hchannel, hanswer⟩ := h.delivery.owed_of_incomplete hnone
  rw [heq]
  refine ⟨hstarted, htracks, .owed hsends hchannel fun answer hanswered => ?_⟩
  rcases hcaller with rfl | ⟨next, rfl⟩
  · exact hanswer answer hanswered
  · cases hanswered

theorem send_of_room (hreceiver : s.hasReceiver = true) (hroom : s.channel = none)
    (report : AnalysisReport) :
    s.send report = { s with channel := some report, sends := s.sends ++ [.sent] } := by
  simp only [State.send, hreceiver, if_true, hroom]

theorem send_of_no_receiver (hreceiver : s.hasReceiver = false) (report : AnalysisReport) :
    s.send report = { s with sends := s.sends ++ [.disconnected] } := by
  simp only [State.send, hreceiver, Bool.false_eq_true, if_false]

/-- Sending the report of the run puts it where it is received, or notices that nobody wants it. -/
theorem Inv.send (h : Inv cwd request linters s) {completion : Completion}
    (howed : s.run.completions[s.sends.length]? = some completion)
    (content : Except FileFault (List UInt8)) :
    Inv cwd request linters
      (s.send (.ofSettled request content completion.issues completion.tools)) := by
  have hlt : s.sends.length < s.run.completions.length := (List.getElem?_eq_some_iff.mp howed).1
  have hclosed : none ∉ given cwd request linters s.workers := by
    intro hopen
    rw [h.tracks.completions_eq_nil_iff.mpr hopen] at hlt
    exact Nat.not_lt_zero _ hlt
  obtain ⟨issues, hcompletions, _⟩ := h.tracks.completions_of_closed hclosed
  have hlength : s.run.completions.length = 1 := by rw [hcompletions, List.length_singleton]
  have hsends : s.sends = [] := List.length_eq_zero_iff.mp (by omega)
  have honly : s.run.completions = [completion] := by
    rw [hsends] at howed
    simp only [List.length_nil, hcompletions, List.getElem?_cons_zero, Option.some.injEq] at howed
    rw [hcompletions, howed]
  have hreport : ReportOf request s.run
      (.ofSettled request content completion.issues completion.tools) :=
    ⟨completion, content, honly, rfl⟩
  cases h.delivery with
  | owed _ hchannel hanswer =>
      cases hreceiver : s.hasReceiver with
      | true =>
          rw [send_of_room hreceiver hchannel, hsends]
          exact ⟨h.started, h.tracks, .arrived _ hreport rfl rfl hreceiver⟩
      | false =>
          have hdropped : s.caller = .dropped := by
            cases hcaller : s.caller with
            | dropped => rfl
            | answered answer => exact absurd hcaller (hanswer answer)
            | _ => simp [State.hasReceiver, hcaller] at hreceiver
          rw [send_of_no_receiver hreceiver, hsends]
          exact ⟨h.started, h.tracks, .unwanted hlength rfl (by simp) hchannel hdropped⟩
  | arrived _ _ hone _ _ => simp [hone] at hsends
  | taken _ _ hone _ _ => simp [hone] at hsends
  | unwanted _ hone _ _ _ => simp [hsends] at hone

/-- Whoever waits gets the report: the channel does not close before it has come. -/
theorem Inv.receive (h : Inv cwd request linters s) (hcaller : s.caller = .waiting)
    (hready : s.channel.isSome = true ∨ s.hasSender = false) :
    ∃ report, s.channel = some report ∧ ReportOf request s.run report ∧ s.sends = [.sent] := by
  cases h.delivery with
  | arrived report hreport hsends hchannel _ => exact ⟨report, hchannel, hreport, hsends⟩
  | taken report _ _ _ hanswered => simp [hcaller] at hanswered
  | unwanted _ _ _ _ hdropped => simp [hcaller] at hdropped
  | owed hsends hchannel _ =>
      -- A slot is open, so a thread is at work and keeps the channel from closing.
      have hsender : s.hasSender = false := by simpa [hchannel] using hready
      simp only [State.hasSender, hcaller, Bool.or_eq_false_iff, List.any_eq_false,
        decide_eq_false_iff_not, hsends, List.length_nil, Nat.not_lt, Nat.le_zero,
        List.length_eq_zero_iff] at hsender
      obtain ⟨⟨_, hended⟩, hnone⟩ := hsender
      obtain ⟨w, hw, hopen⟩ := h.completions_eq_nil_iff.mp hnone
      have hnext : nextSlot linters.length s.caller = linters.length := by rw [hcaller]; rfl
      obtain rfl := h.started.working_of_open hnext hw hopen
      exact absurd rfl (hended _ hw)

theorem Inv.step (h : Inv cwd request linters s) (hstep : Step cwd request linters s t) :
    Inv cwd request linters t := by
  cases hstep with
  | startWorker hcaller hslot =>
      have hstarted := h.started
      rw [hcaller] at hstarted
      have habsent := hstarted.absent_of_next hslot
      exact ⟨hstarted.set_next hslot nofun, h.tracks_set habsent rfl,
        h.delivery.of_eq rfl rfl rfl (.inr ⟨by simp [State.hasReceiver, hcaller], rfl⟩)⟩
  | startFails hcaller hslot hsettle =>
      have hlt := (List.getElem?_eq_some_iff.mp hslot).1
      have hstarted := h.started
      rw [hcaller] at hstarted
      exact h.of_settle hslot (hstarted.absent_of_next hlt) rfl rfl hsettle
        (hstarted.set_next hlt nofun) (.inr ⟨_, rfl⟩)
  | giveHandle hcaller =>
      exact ⟨h.started.of_nextSlot_eq (by rw [hcaller]; rfl), h.tracks,
        h.delivery.of_eq rfl rfl rfl (.inr ⟨by simp [State.hasReceiver, hcaller], rfl⟩)⟩
  | finish hworker hslot _ hsettle =>
      have hcaller : t.caller = s.caller := by
        rw [(h.eq_of_settle hslot hworker rfl rfl hsettle).2.1]
      exact h.of_settle hslot hworker rfl rfl hsettle
        (hcaller ▸ h.started.set_present hworker nofun nofun) (.inl hcaller)
  | die hworker hslot hsettle =>
      have hcaller : t.caller = s.caller := by
        rw [(h.eq_of_settle hslot hworker rfl rfl hsettle).2.1]
      exact h.of_settle hslot hworker rfl rfl hsettle
        (hcaller ▸ h.started.set_present hworker nofun nofun) (.inl hcaller)
  | leave hworker =>
      exact ⟨h.started.set_present hworker nofun nofun, h.tracks_set hworker rfl,
        h.delivery.of_eq rfl rfl rfl (.inl rfl)⟩
  | send howed => exact h.send howed _
  | cancel hcaller hnew => exact ⟨h.started, h.tracks, h.delivery.of_eq rfl rfl rfl (.inl rfl)⟩
  | drop hcaller =>
      refine ⟨h.started.of_nextSlot_eq (by rw [hcaller]; rfl), h.tracks, ?_⟩
      cases h.delivery with
      | owed hsends _ _ => exact .owed hsends rfl nofun
      | arrived report hreport hsends _ _ =>
          exact .unwanted hreport.completions_length (by simp [hsends]) (by simp [hsends]) rfl rfl
      | taken report _ _ _ hanswered => simp [hcaller] at hanswered
      | unwanted _ _ _ _ hdropped => simp [hcaller] at hdropped
  | wait hcaller =>
      exact ⟨h.started.of_nextSlot_eq (by rw [hcaller]; rfl), h.tracks,
        h.delivery.of_eq rfl rfl rfl (.inr ⟨by simp [State.hasReceiver, hcaller], rfl⟩)⟩
  | receive hcaller hready =>
      obtain ⟨report, hchannel, hreport, hsends⟩ := h.receive hcaller hready
      refine ⟨h.started.of_nextSlot_eq (by rw [hcaller]; rfl), h.tracks, ?_⟩
      exact .taken report hreport hsends rfl (by rw [hchannel]; rfl)

theorem inv_of_reachable (hreach : Reachable cwd request linters s) :
    Inv cwd request linters s := by
  induction hreach with
  | start => exact inv_start cwd request linters
  | step _ hstep ih => exact ih.step hstep

end

end LintGate.Proofs.InterleavingInvariant
