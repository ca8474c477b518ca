import LintGate.Proofs.InterleavingInvariant

/-!
The threads of an analysis meet at one barrier. Whichever thread makes the next step, the run is
completed exactly once, when the last slot has been settled, and its report reaches whoever waits.
-/

namespace LintGate.Proofs.CompletionBarrier

open LintGate.Interleaving
open LintGate.Proofs.RunProgress
open LintGate.Proofs.SettlementOrder
open LintGate.Proofs.InterleavingInvariant

/-- Whatever steps are made from here, one of the goals is reached, and before that there is always
a step to make. -/
inductive Inevitable {α : Type} (step : α → α → Prop) (goal : α → Prop) : α → Prop
  | reached {s : α} (hgoal : goal s) : Inevitable step goal s
  | later {s : α} (hstep : ∃ t, step s t) (hall : ∀ t, step s t → Inevitable step goal t) :
      Inevitable step goal s

/-- A goal is inevitable if no state that keeps the invariant is stuck before it, and every step
makes the load smaller and keeps the invariant or reaches the goal. -/
theorem inevitable_of_load {α : Type} {step : α → α → Prop} {goal inv : α → Prop} (load : α → Nat)
    (hkeep : ∀ s t, inv s → step s t → (inv t ∨ goal t) ∧ load t < load s)
    (hprogress : ∀ s, inv s → goal s ∨ ∃ t, step s t) (s : α) (hs : inv s) :
    Inevitable step goal s := by
  induction hload : load s using Nat.strongRecOn generalizing s with
  | ind n ih =>
      rcases hprogress s hs with hgoal | hstep
      · exact .reached hgoal
      · refine .later hstep fun t ht => ?_
        obtain ⟨hinv | hgoal, hlt⟩ := hkeep s t hs ht
        · exact ih (load t) (hload ▸ hlt) t hinv rfl
        · exact .reached hgoal

/-- How much the thread of a slot has still to do. Settling a slot can leave a report to be sent. -/
def workerLoad : Worker → Nat
  | .absent => 5
  | .working => 3
  | .settled _ => 1
  | .ended _ => 0

def callerLoad : Caller → Nat
  | .starting _ => 3
  | .holding => 2
  | .waiting => 1
  | .dropped | .answered _ => 0

def workersLoad : List Worker → Nat
  | [] => 0
  | w :: rest => workerLoad w + workersLoad rest

/-- How much is still to be done at most. -/
def load (s : State) : Nat :=
  workersLoad s.workers + callerLoad s.caller + (if s.cancelled then 0 else 1) +
    (s.run.completions.length - s.sends.length)

theorem workersLoad_set_add {workers : List Worker} {i : Nat} {v w : Worker}
    (hv : workers[i]? = some v) :
    workersLoad (workers.set i w) + workerLoad v = workersLoad workers + workerLoad w := by
  induction workers generalizing i with
  | nil => simp at hv
  | cons first rest ih =>
      cases i with
      | zero =>
          obtain rfl : first = v := by simpa using hv
          simp only [List.set_cons_zero, workersLoad]
          omega
      | succ i =>
          have hrest := ih (by simpa using hv)
          simp only [List.set_cons_succ, workersLoad]
          omega

section

variable {cwd : Path} {request : AnalysisRequest} {linters : List Linter} {s t : State}

/-- There has been a completion once all slots are settled, and none before. -/
theorem completions_length (h : Inv cwd request linters s) :
    s.run.completions.length = if s.workers.all (·.outcome?.isSome) then 1 else 0 := by
  split
  · rename_i hall
    have hclosed : none ∉ given cwd request linters s.workers := by
      rw [none_mem_given_iff _ _ _ h.started.length]
      rintro ⟨w, hw, hopen⟩
      have hsome := List.all_eq_true.mp hall w hw
      simp [hopen] at hsome
    obtain ⟨issues, hcompletions, _⟩ := h.tracks.completions_of_closed hclosed
    rw [hcompletions, List.length_singleton]
  · rename_i hopen
    have hnone : s.run.completions = [] := by
      rw [h.completions_eq_nil_iff]
      simpa using hopen
    rw [hnone, List.length_nil]

theorem load_settle {i : Nat} {l : Linter} {v w : Worker} {outcome : WorkerOutcome}
    {caller : Caller} (h : Inv cwd request linters s) (hl : linters[i]? = some l)
    (hv : s.workers[i]? = some v) (hopen : v.outcome? = none) (hw : w.outcome? = some outcome)
    (hsettle : s.settle cwd request i l outcome w = some t)
    (hcaller : callerLoad caller ≤ callerLoad s.caller)
    (hload : workerLoad w + 2 ≤ workerLoad v)
    (ht : Inv cwd request linters { t with caller := caller }) :
    load { t with caller := caller } < load s := by
  obtain ⟨hnone, heq, _⟩ := h.eq_of_settle hl hv hopen hw hsettle
  have hsum := workersLoad_set_add hv (w := w)
  -- If this was the last slot, a report has to be sent.
  have hlength : ({ t with caller := caller } : State).run.completions.length ≤ 1 := by
    rw [completions_length ht]
    split
    · exact Nat.le_refl 1
    · exact Nat.zero_le 1
  have hworkers : t.workers = s.workers.set i w := by rw [heq]
  have hcancelled : t.cancelled = s.cancelled := by rw [heq]
  have hsends : t.sends = s.sends := by rw [heq]
  simp only [load, hworkers, hcancelled, hsends, hnone, List.length_nil] at hlength ⊢
  omega

theorem load_step (h : Inv cwd request linters s) (hstep : Step cwd request linters s t) :
    load t < load s := by
  have ht := h.step hstep
  cases hstep with
  | startWorker hcaller hslot =>
      have hstarted := h.started
      rw [hcaller] at hstarted
      have hsum := workersLoad_set_add (hstarted.absent_of_next hslot) (w := .working)
      simp only [load, hcaller, callerLoad, workerLoad] at hsum ⊢
      omega
  | startFails hcaller hslot hsettle =>
      have hstarted := h.started
      rw [hcaller] at hstarted
      have habsent := hstarted.absent_of_next (List.getElem?_eq_some_iff.mp hslot).1
      exact load_settle h hslot habsent rfl rfl hsettle (hcaller ▸ Nat.le_refl _)
        (by simp [workerLoad]) ht
  | giveHandle hcaller =>
      simp only [load, hcaller, callerLoad]
      omega
  | finish hworker hslot _ hsettle =>
      have hcaller : t.caller = s.caller := by
        rw [(h.eq_of_settle hslot hworker rfl rfl hsettle).2.1]
      exact load_settle h hslot hworker rfl rfl hsettle (hcaller ▸ Nat.le_refl _)
        (by simp [workerLoad]) ht
  | die hworker hslot hsettle =>
      have hcaller : t.caller = s.caller := by
        rw [(h.eq_of_settle hslot hworker rfl rfl hsettle).2.1]
      exact load_settle h hslot hworker rfl rfl hsettle (hcaller ▸ Nat.le_refl _)
        (by simp [workerLoad]) ht
  | @leave i outcome hworker =>
      have hsum := workersLoad_set_add hworker (w := .ended outcome)
      simp only [load, workerLoad] at hsum ⊢
      omega
  | send howed =>
      have hlt := (List.getElem?_eq_some_iff.mp howed).1
      simp only [load, run_send, workers_send, caller_send, cancelled_send, length_sends_send]
      omega
  | cancel hcaller hnew =>
      simp only [load, hnew]
      simp
  | drop hcaller =>
      simp only [load, hcaller, callerLoad]
      omega
  | wait hcaller =>
      simp only [load, hcaller, callerLoad]
      omega
  | receive hcaller hready =>
      simp only [load, hcaller, callerLoad]
      omega

/-- While a report is owed some thread can go on: one that is at work, or the one that sends it. -/
theorem exists_step_of_owed (h : Inv cwd request linters s)
    (hnext : nextSlot linters.length s.caller = linters.length) (hsends : s.sends = []) :
    ∃ t, Step cwd request linters s t := by
  cases hcompletions : s.run.completions with
  | cons completion rest =>
      have howed : s.run.completions[s.sends.length]? = some completion := by
        rw [hcompletions, hsends]
        rfl
      exact ⟨_, @Step.send _ _ _ _ completion (.error .missing) howed⟩
  | nil =>
      obtain ⟨w, hw, hopen⟩ := h.completions_eq_nil_iff.mp hcompletions
      obtain rfl := h.started.working_of_open hnext hw hopen
      obtain ⟨i, hi⟩ := List.getElem?_of_mem hw
      have hlt : i < linters.length := h.started.length ▸ (List.getElem?_eq_some_iff.mp hi).1
      have hl := List.getElem?_eq_getElem hlt
      obtain ⟨run, hsettle, _⟩ := h.settle_eq hl hi rfl (rfl : (Worker.ended .died).outcome? = _)
      exact ⟨_, .die hi hl hsettle⟩

/-- The analysis ends with the caller, and not before the report has been sent. -/
theorem ended_or_step (h : Inv cwd request linters s) :
    (s.sends.length = 1 ∧ (s.caller = .dropped ∨ ∃ report, s.caller = .answered (.ok report))) ∨
      ∃ t, Step cwd request linters s t := by
  cases hcaller : s.caller with
  | starting i =>
      right
      have hle : i ≤ linters.length := by
        have hnext := h.started.next_le
        rwa [hcaller] at hnext
      rcases Nat.lt_or_eq_of_le hle with hlt | rfl
      · exact ⟨_, .startWorker hcaller hlt⟩
      · exact ⟨_, .giveHandle hcaller⟩
  | holding => exact .inr ⟨_, .wait hcaller⟩
  | waiting =>
      right
      cases h.delivery with
      | owed hsends _ _ => exact exists_step_of_owed h (by rw [hcaller]; rfl) hsends
      | arrived report _ _ hchannel _ => exact ⟨_, .receive hcaller (.inl (by rw [hchannel]; rfl))⟩
      | taken report _ _ _ hanswered => simp [hcaller] at hanswered
      | unwanted _ _ _ _ hdropped => simp [hcaller] at hdropped
  | dropped =>
      cases h.delivery with
      | owed hsends _ _ => exact .inr (exists_step_of_owed h (by rw [hcaller]; rfl) hsends)
      | arrived report _ _ _ hreceiver => simp [State.hasReceiver, hcaller] at hreceiver
      | taken report _ _ _ hanswered => simp [hcaller] at hanswered
      | unwanted _ hsends _ _ _ => exact .inl ⟨hsends, .inl rfl⟩
  | answered answer =>
      cases h.delivery with
      | owed _ _ hanswer => exact absurd hcaller (hanswer answer)
      | arrived report _ _ _ hreceiver => simp [State.hasReceiver, hcaller] at hreceiver
      | taken report _ hsends _ hanswered =>
          exact .inl ⟨by rw [hsends]; rfl, .inr ⟨report, hcaller ▸ hanswered⟩⟩
      | unwanted _ _ _ _ hdropped => simp [hcaller] at hdropped

/-- A run is completed and its report is sent, whatever the threads and the caller do. -/
theorem inevitable_sent (h : Inv cwd request linters s) :
    Inevitable (Step cwd request linters)
      (fun t => t.run.completions.length = 1 ∧ t.sends.length = 1) s := by
  have hkeep : ∀ s t, Inv cwd request linters s → Step cwd request linters s t →
      (Inv cwd request linters t ∨ t.run.completions.length = 1 ∧ t.sends.length = 1) ∧
        load t < load s :=
    fun s t hs hstep => ⟨.inl (hs.step hstep), load_step hs hstep⟩
  refine inevitable_of_load load hkeep ?_ s h
  intro s hs
  rcases ended_or_step hs with ⟨hsends, _⟩ | hstep
  · refine .inl ⟨?_, hsends⟩
    cases hs.delivery with
    | owed hnone _ _ => simp [hnone] at hsends
    | arrived report hreport _ _ _ => exact hreport.completions_length
    | taken report hreport _ _ _ => exact hreport.completions_length
    | unwanted hcompletions _ _ _ _ => exact hcompletions
  · exact .inr hstep

/-- Who waits can only go on waiting or be answered with the report. -/
theorem waiting_step (h : Inv cwd request linters s) (hstep : Step cwd request linters s t)
    (hcaller : s.caller = .waiting) :
    t.caller = .waiting ∨ ∃ report, t.caller = .answered (.ok report) := by
  cases hstep with
  | startWorker hstarting _ => simp [hcaller] at hstarting
  | startFails hstarting _ _ => simp [hcaller] at hstarting
  | giveHandle hstarting => simp [hcaller] at hstarting
  | finish hworker hslot _ hsettle =>
      rw [(h.eq_of_settle hslot hworker rfl rfl hsettle).2.1]
      exact .inl hcaller
  | die hworker hslot hsettle =>
      rw [(h.eq_of_settle hslot hworker rfl rfl hsettle).2.1]
      exact .inl hcaller
  | leave _ => exact .inl hcaller
  | send _ => exact .inl (by rw [caller_send, hcaller])
  | cancel hholding _ => simp [hcaller] at hholding
  | drop hholding => simp [hcaller] at hholding
  | wait _ => exact .inl rfl
  | receive hwaiting hready =>
      obtain ⟨report, hchannel, _⟩ := h.receive hwaiting hready
      exact .inr ⟨report, by rw [hchannel]; rfl⟩

theorem inevitable_answer (h : Inv cwd request linters s) (hcaller : s.caller = .waiting) :
    Inevitable (Step cwd request linters) (fun t => ∃ report, t.caller = .answered (.ok report))
      s := by
  have hkeep : ∀ s t, Inv cwd request linters s ∧ s.caller = .waiting →
      Step cwd request linters s t →
      ((Inv cwd request linters t ∧ t.caller = .waiting) ∨
        ∃ report, t.caller = .answered (.ok report)) ∧ load t < load s := by
    rintro s t ⟨hs, hwaiting⟩ hstep
    refine ⟨?_, load_step hs hstep⟩
    rcases waiting_step hs hstep hwaiting with hstill | hanswered
    · exact .inl ⟨hs.step hstep, hstill⟩
    · exact .inr hanswered
  refine inevitable_of_load load hkeep ?_ s ⟨h, hcaller⟩
  rintro s ⟨hs, hwaiting⟩
  rcases ended_or_step hs with ⟨_, hdropped | hanswered⟩ | hstep
  · rw [hwaiting] at hdropped
    cases hdropped
  · exact .inl hanswered
  · exact .inr hstep

theorem inv_waiting (h : Inv cwd request linters s)
    (hcaller : s.caller = .holding ∨ s.caller = .waiting) :
    Inv cwd request linters { s with caller := .waiting } := by
  have hnext : nextSlot linters.length .waiting = nextSlot linters.length s.caller := by
    rcases hcaller with heq | heq
    · rw [heq]
      rfl
    · rw [heq]
  have hreceiver : s.hasReceiver = true := by
    rcases hcaller with heq | heq <;> rw [State.hasReceiver, heq]
  exact ⟨h.started.of_nextSlot_eq hnext, h.tracks, h.delivery.of_eq rfl rfl rfl
    (.inr ⟨hreceiver, rfl⟩)⟩

end

/-- What holds of an analysis whenever one looks at it. -/
structure Barrier (cwd : Path) (request : AnalysisRequest) (linters : List Linter) (s : State) :
    Prop where
  /-- Before the completion the run counts the slots that are open. -/
  remaining : s.run.completions = [] → s.run.remaining = s.run.slots.countP Option.isNone
  /-- Who has a slot still to settle finds it, and can count it off. -/
  slot_open : ∀ (i : Nat) (w : Worker), s.workers[i]? = some w → w.outcome? = none →
    s.run.slots[i]? = some none ∧ 0 < s.run.remaining
  /-- The step that settles the last slot completes the run, and no step does it again. -/
  completed : s.run.completions.length = if s.workers.all (·.outcome?.isSome) then 1 else 0
  /-- Each tool has its report at its place. -/
  tools : ∀ c ∈ s.run.completions, c.tools.length = linters.length ∧
    ∀ (i : Nat) (l : Linter) (w : Worker), linters[i]? = some l → s.workers[i]? = some w →
      c.tools[i]? = w.outcome?.map fun outcome => (outcome.settlement cwd l request).2
  /-- A report that has to be sent finds room. -/
  room : s.sends.length < s.run.completions.length → s.channel = none
  not_full : SendResult.full ∉ s.sends
  /-- Whatever happens, the run is completed once and its report is sent once. -/
  sent : Inevitable (Step cwd request linters)
    (fun t => t.run.completions.length = 1 ∧ t.sends.length = 1) s
  /-- Who still has the handle can wait, and gets the report. -/
  answer : s.caller = .holding ∨ s.caller = .waiting →
    Inevitable (Step cwd request linters) (fun t => ∃ report, t.caller = .answered (.ok report))
      { s with caller := .waiting }
  no_error : ∀ failure, s.caller ≠ .answered (.error failure)

section

variable {cwd : Path} {request : AnalysisRequest} {linters : List Linter} {s t : State}

theorem completions_of_mem (h : Inv cwd request linters s) {c : Completion}
    (hc : c ∈ s.run.completions) :
    s.run.completions = [c] ∧ none ∉ given cwd request linters s.workers ∧
      c.tools = reportsOf (given cwd request linters s.workers) := by
  have hclosed : none ∉ given cwd request linters s.workers := by
    intro hopen
    rw [h.tracks.completions_eq_nil_iff.mpr hopen] at hc
    cases hc
  obtain ⟨issues, hcompletions, _⟩ := h.tracks.completions_of_closed hclosed
  rw [hcompletions, List.mem_singleton] at hc
  rw [hc]
  exact ⟨hcompletions, hclosed, rfl⟩

/-- The reports of a completion are those of the slots, each at its place. -/
theorem tools_of_completion (h : Inv cwd request linters s) {c : Completion}
    (hc : c ∈ s.run.completions) :
    c.tools.length = linters.length ∧
      ∀ (i : Nat) (l : Linter) (w : Worker), linters[i]? = some l → s.workers[i]? = some w →
        c.tools[i]? = w.outcome?.map fun outcome => (outcome.settlement cwd l request).2 := by
  obtain ⟨_, hclosed, htools⟩ := completions_of_mem h hc
  have hplaces : c.tools.map some =
      (given cwd request linters s.workers).map (Option.map Prod.snd) := by
    rw [htools, map_some_reportsOf hclosed]
  constructor
  · have hlength := congrArg List.length hplaces
    simpa [given, h.started.length] using hlength
  · intro i l w hl hw
    have hplace := congrArg (·[i]?) hplaces
    simp only [List.getElem?_map, getElem?_given cwd request linters hl hw, Option.map_some,
      Option.map_map] at hplace
    obtain ⟨report, hreport, hsome⟩ := Option.map_eq_some_iff.mp hplace
    rw [hreport, hsome]
    rfl

/-- Workers that have all settled their slots handed in one settlement each. -/
theorem given_of_closed (h : Inv cwd request linters s)
    (hclosed : none ∉ given cwd request linters s.workers) :
    ∃ outcomes, s.workers.map Worker.outcome? = outcomes.map some ∧
      given cwd request linters s.workers =
        ((linters.zip outcomes).map (slotSettlement cwd request)).map some := by
  rw [none_mem_given_iff _ _ _ h.started.length] at hclosed
  have hall : ∀ w ∈ s.workers, w.outcome? = some (w.outcome?.getD .died) := by
    intro w hw
    cases hw' : w.outcome? with
    | none => exact absurd ⟨w, hw, hw'⟩ hclosed
    | some outcome => rfl
  have houtcomes : s.workers.map Worker.outcome? =
      (s.workers.map fun w => w.outcome?.getD .died).map some := by
    rw [List.map_map]
    exact List.map_congr_left hall
  refine ⟨_, houtcomes, ?_⟩
  calc given cwd request linters s.workers
      = List.zipWith (fun l outcome? => outcome?.map fun outcome =>
          outcome.settlement cwd l request) linters (s.workers.map Worker.outcome?) := by
        rw [List.zipWith_map_right]
        rfl
    _ = _ := by
        rw [houtcomes, List.zipWith_map_right, List.map_map, List.map_zip_eq_zipWith]
        rfl

/-- A run is completed with what tools give which run one after another. -/
theorem ofSettled_of_completion (h : Inv cwd request linters s) {c : Completion}
    (hc : c ∈ s.run.completions) :
    ∃ outcomes, s.workers.map Worker.outcome? = outcomes.map some ∧
      ∀ content, AnalysisReport.ofSettled request content c.issues c.tools =
        sequentialReport cwd request content (linters.zip outcomes) := by
  obtain ⟨hcompletions, hclosed, htools⟩ := completions_of_mem h hc
  obtain ⟨outcomes, houtcomes, hgiven⟩ := given_of_closed h hclosed
  obtain ⟨issues, hsame, hperm⟩ := h.tracks.completions_of_closed hclosed
  obtain rfl : c = ⟨issues, _⟩ := by
    rw [hcompletions] at hsame
    exact List.singleton_inj.mp hsame
  rw [hgiven, issuesOf_map_some] at hperm
  simp only [List.flatMap_map, slotSettlement_fst] at hperm
  refine ⟨outcomes, houtcomes, fun content => ?_⟩
  rw [← ofSettled_eq_sequentialReport cwd request content _ hperm, hgiven, reportsOf_map_some,
    List.map_map]
  rfl

/-- The report that is delivered is the one tools give which run one after another. -/
theorem delivered_report (hreach : Reachable cwd request linters s) {report : AnalysisReport}
    (hdelivered : s.channel = some report ∨ s.caller = .answered (.ok report)) :
    ∃ outcomes content, s.workers.map Worker.outcome? = outcomes.map some ∧
      report = sequentialReport cwd request content (linters.zip outcomes) := by
  have h := inv_of_reachable hreach
  have hreport : ReportOf request s.run report := by
    cases h.delivery with
    | owed _ hchannel hanswer => simp [hchannel, hanswer] at hdelivered
    | arrived other hreport _ hchannel hreceiver =>
        rcases hdelivered with hthis | hanswered
        · rwa [← Option.some.inj (hchannel.symm.trans hthis)]
        · simp [State.hasReceiver, hanswered] at hreceiver
    | taken other hreport _ hchannel hanswered =>
        rcases hdelivered with hthis | hother
        · simp [hchannel] at hthis
        · rw [hanswered] at hother
          cases hother
          exact hreport
    | unwanted _ _ _ hchannel hdropped => simp [hchannel, hdropped] at hdelivered
  obtain ⟨completion, content, hcompletions, rfl⟩ := hreport
  have hmem : completion ∈ s.run.completions := by
    rw [hcompletions]
    exact List.mem_singleton_self completion
  obtain ⟨outcomes, houtcomes, heq⟩ := ofSettled_of_completion h hmem
  exact ⟨outcomes, content, houtcomes, heq content⟩

/-- Whatever the threads and the caller have done so far, the run is completed once, with a report
of each tool, and who waits gets the report. -/
theorem completion_barrier (hreach : Reachable cwd request linters s) :
    Barrier cwd request linters s := by
  have h := inv_of_reachable hreach
  constructor
  case remaining =>
      intro hnone
      exact h.tracks.remaining_eq (h.tracks.completions_eq_nil_iff.mp hnone)
  case slot_open =>
      intro i w hw hopen
      exact h.slot_open hw hopen
  case completed => exact completions_length h
  case tools =>
      intro c hc
      exact tools_of_completion h hc
  case room =>
      intro howed
      cases h.delivery with
      | owed _ hchannel _ => exact hchannel
      | arrived report hreport hsends _ _ =>
          rw [hreport.completions_length, hsends] at howed
          exact absurd howed (Nat.lt_irrefl 1)
      | taken _ _ _ hchannel _ => exact hchannel
      | unwanted _ _ _ hchannel _ => exact hchannel
  case not_full =>
      cases h.delivery with
      | owed hsends _ _ => simp [hsends]
      | arrived _ _ hsends _ _ => simp [hsends]
      | taken _ _ hsends _ _ => simp [hsends]
      | unwanted _ _ hfull _ _ => exact hfull
  case sent => exact inevitable_sent h
  case answer =>
      intro hcaller
      exact inevitable_answer (inv_waiting h hcaller) rfl
  case no_error =>
      intro failure hfailed
      cases h.delivery with
      | owed _ _ hanswer => exact hanswer _ hfailed
      | arrived _ _ _ _ hreceiver => simp [State.hasReceiver, hfailed] at hreceiver
      | taken _ _ _ _ hanswered => simp [hfailed] at hanswered
      | unwanted _ _ _ _ hdropped => simp [hfailed] at hdropped

end

/-- Two tools. The worker of one died and that of the other could not be started; the caller has
asked the tools to stop, and the report has still to be sent. -/
def brokenState : State where
  run := ⟨[], [], 0, [⟨[], [⟨.other, .failed "worker panicked", 0, 0, 0⟩,
    ⟨.pclint, .failed "failed to start worker: no thread", 0, 0, 0⟩]⟩]⟩
  workers := [.ended .died, .ended (.notStarted "no thread")]
  caller := .holding
  cancelled := true
  channel := none
  sends := []

def brokenLinters : List Linter :=
  [.make .other { executable := Path.ofString "lint" } none,
    .make .pclint { executable := Path.ofString "pclint" } none]

def brokenRequest : AnalysisRequest where
  file := Path.ofString "/w/a.cpp"
  profile := Profile.empty "c++"

theorem brokenState_reachable :
    Reachable (Path.ofString "/") brokenRequest brokenLinters brokenState := by
  have hfirst : brokenLinters[0]? = some
      (Linter.make .other { executable := Path.ofString "lint" } none) := rfl
  have hsecond : brokenLinters[1]? = some
      (Linter.make .pclint { executable := Path.ofString "pclint" } none) := rfl
  have hstarted : Reachable (Path.ofString "/") brokenRequest brokenLinters _ :=
    .step .start (.startWorker rfl (by decide))
  have hfailed := hstarted.step (@Step.startFails _ _ _ _ _ 1 _ "no thread" rfl hsecond rfl)
  have hgiven := hfailed.step (.giveHandle rfl)
  have hcancelled := hgiven.step (.cancel rfl rfl)
  exact hcancelled.step (.die (i := 0) rfl hfirst rfl)

theorem completion_barrier_broken :
    Reachable (Path.ofString "/") brokenRequest brokenLinters brokenState ∧
      Barrier (Path.ofString "/") brokenRequest brokenLinters brokenState :=
  ⟨brokenState_reachable, completion_barrier brokenState_reachable⟩

end LintGate.Proofs.CompletionBarrier
