import FeedbackQueue.Proofs.Scheduler.Legible

/-!
# Stages that fail

A boost never fails. Running a process fails before it changes anything, whatever the policy asks
for, and idling fails when there is nothing to wait for. All of this rests on soundness alone: who
runs waits in no queue, its level exists and it owes CPU time. What is left are the failures to
record: an admission, a dispatch or a slice that cannot be recorded fails after it has been made,
and a jump of the clock before it.
-/

namespace FeedbackQueue

variable {s : Scheduler n} {policy : SlicePolicy n} {i : Fin n}

namespace Sim

theorem run_applyBoost_ok : ∃ moved t, EStateM.run applyBoost s = .ok moved t := by
  rw [run_applyBoost]
  split <;> exact ⟨_, _, rfl⟩

/-- Admissions succeed as a whole, or fail at the first one that cannot be recorded. -/
theorem run_admitArrivals_eq (hs : s.Sound) :
    ((∀ i, s.due i → s.admissible i) ∧
      EStateM.run admitArrivals s = .ok s.dueSlots s.arrived) ∨
    ∃ before i, s.AdmissionCut before i ∧
      EStateM.run admitArrivals s = .error (.numeral .tooLong) (s.admissionCut before i) := by
  rcases admissible_or_cut s with hall | ⟨before, i, hcut⟩
  · exact .inl ⟨hall, run_admitArrivals hs hall⟩
  · exact .inr ⟨before, i, hcut, run_admitArrivals_refused hs hcut⟩

theorem run_dispatch_eq (hs : s.Sound) (h : s.bank.dequeue = some (i, rest)) :
    EStateM.run dispatch s =
      if (s.dispatchEntry i).message.isWritable then .ok (some i) (s.dispatched i rest)
      else .error (.numeral .tooLong) ((s.dispatched i rest).unrecorded s) := by
  split
  · exact run_dispatch hs h ‹_›
  · exact run_dispatch_refused hs h (Bool.eq_false_iff.mpr ‹_›)

theorem run_fastForward_eq (h : s.nextEvent = some target) : EStateM.run fastForward s =
    if Text.isWritable (max target s.clock) then .ok (max target s.clock) (s.idled target)
    else .error (.numeral .tooLong) s := by
  split
  · exact run_fastForward h ‹_›
  · exact run_fastForward_refused h (Bool.eq_false_iff.mpr ‹_›)

/-- A failure to idle is recorded, and tells what has been done if that can be told. -/
theorem run_fastForward_none_eq (h : s.nextEvent = none) :
    ∃ e, EStateM.run fastForward s = .error e s.stalled ∧
      ∀ r, s.report = .ok r → e = .stalled (n - s.completed) s.clock r := by
  have hreport : s.stalled.report = s.report := rfl
  rw [run_fastForward_none h, hreport]
  cases s.report with
  | error e =>
    refine ⟨_, rfl, ?_⟩
    rintro _ ⟨⟩
  | ok r =>
    refine ⟨_, rfl, ?_⟩
    rintro _ ⟨⟩
    rfl

end Sim

theorem ProcError.raised_of_isWritable {e : ProcError} (h : e.phrase.isWritable) : e.raised = e :=
  Text.Phrase.raise_of_isWritable h

namespace Workload

variable {w : Workload}

/-- However a workload is driven under a policy that may ask for any slices, a boost succeeds.
Running a process fails if it does not hold the CPU, or if the slice is negative or more than it
owes, and then changes nothing. Idling fails if nobody is new or waits for I/O, and then changes
nothing but the log, which tells of it.

What cannot be recorded fails as well. Admissions then stop at the first process of which that is
so, with this one queued and those behind it left where they were. A process stays dispatched, or
has run its slice, without a record of it. The clock does not jump. Where the log can quote all
pids, burst times and quanta, none of this happens to admissions, dispatches and slices. -/
theorem stages_fail_atomically (w : Workload) (config : Config)
    (slices : Scheduler w.size → Fin w.size → Int) (calls : List (Scheduler.Call w.size)) :
    let policy : SlicePolicy w.size := fun s i => .ok (slices s i)
    let s := (w.start config).drive policy calls
    (((∀ i, s.due i → s.admissible i) ∧
        EStateM.run Sim.admitArrivals s = .ok s.dueSlots s.arrived) ∨
      ∃ before i, s.AdmissionCut before i ∧
        EStateM.run Sim.admitArrivals s = .error (.numeral .tooLong) (s.admissionCut before i)) ∧
    (∃ moved t, EStateM.run Sim.applyBoost s = .ok moved t) ∧
    (s.bank.queued = [] → EStateM.run Sim.dispatch s = .ok none s) ∧
    (∀ i rest, s.bank.dequeue = some (i, rest) → EStateM.run Sim.dispatch s =
      if (s.dispatchEntry i).message.isWritable then .ok (some i) (s.dispatched i rest)
      else .error (.numeral .tooLong) ((s.dispatched i rest).unrecorded s)) ∧
    (∀ i, EStateM.run (Sim.execute policy i) s =
      if (s.process i).phase ≠ .running then
        .error (.process
          (ProcError.wrongPhase .execute (s.process i).pid (s.process i).phase).raised) s
      else if slices s i < 0 ∨ (s.process i).remaining < slices s i then
        .error (.process
          (ProcError.sliceOutside (s.process i).pid (slices s i) (s.process i).remaining).raised) s
      else if Text.isWritable (s.process i).pid then
        .ok (s.slice i (slices s i)) (s.ran i (slices s i))
      else .error (.numeral .tooLong) ((s.ran i (slices s i)).unrecorded s)) ∧
    (s.nextEvent = none ↔
      ∀ i, (s.process i).phase ≠ .new ∧ ∀ time, (s.process i).phase ≠ .waiting time) ∧
    (s.nextEvent = none → ∃ e, EStateM.run Sim.fastForward s = .error e
        { s with
          log := s.log.push (.failure s.clock (stalledMessage ((w.size : Int) - s.completed))) } ∧
      ∀ r, s.report = .ok r → e = .stalled ((w.size : Int) - s.completed) s.clock r) ∧
    (∀ target, s.nextEvent = some target → EStateM.run Sim.fastForward s =
      if Text.isWritable (max target s.clock) then .ok (max target s.clock) (s.idled target)
      else .error (.numeral .tooLong) s) ∧
    (w.Legible config →
      EStateM.run Sim.admitArrivals s = .ok s.dueSlots s.arrived ∧
      (∃ head t, EStateM.run Sim.dispatch s = .ok head t) ∧
      ∀ i, ((s.process i).phase ≠ .running → EStateM.run (Sim.execute policy i) s =
          .error (.process (.wrongPhase .execute (s.process i).pid (s.process i).phase)) s) ∧
        ((s.process i).phase = .running → 0 ≤ slices s i → slices s i ≤ (s.process i).remaining →
          EStateM.run (Sim.execute policy i) s =
            .ok (s.slice i (slices s i)) (s.ran i (slices s i)))) := by
  intro policy s
  have hs : s.Sound := sound_drive calls
  refine ⟨Sim.run_admitArrivals_eq hs, Sim.run_applyBoost_ok, Sim.run_dispatch_none,
    fun i rest => Sim.run_dispatch_eq hs, fun i => Sim.run_execute_eq hs, ?_,
    Sim.run_fastForward_none_eq, fun target => Sim.run_fastForward_eq, fun hw => ?_⟩
  · rw [Scheduler.nextEvent_eq_none]
    exact forall_congr' fun i => Proc.due?_eq_none
  have hlegible : s.Legible := legible_drive hw calls
  refine ⟨Sim.run_admitArrivals hs fun i _ => Scheduler.admissible_of_quotable (hlegible i), ?_,
    fun i => ⟨?_, ?_⟩⟩
  · cases hdequeue : s.bank.dequeue with
    | none => exact ⟨_, _, Sim.run_dispatch_none (Bank.dequeue_eq_none.mp hdequeue)⟩
    | some head =>
      have hwritable := Scheduler.isWritable_dispatchEntry hs (hlegible head.1)
      exact ⟨_, _, Sim.run_dispatch hs hdequeue hwritable⟩
  · intro hphase
    have hpid : Text.isWritable (s.process i).pid := (hlegible i).pid
    rw [Sim.run_execute_of_not_running hphase, ProcError.raised_of_isWritable]
    simp [ProcError.phrase, hpid]
  · exact fun hphase h0 hle => Sim.run_execute hs hphase rfl h0 hle (hlegible i).pid

/-- While the job waits for I/O the clock cannot jump, as its time is too long to be written. -/
theorem late_job_keeps_waiting :
    let s := (lateJob.start .standard).afterSteps .standard 2
    (∃ time, (s.process ⟨0, by decide⟩).phase = .waiting time) ∧
      EStateM.run Sim.fastForward s = .error (.numeral .tooLong) s := by
  intro s
  have hwaits : (s.process ⟨0, by decide⟩).phase = .waiting (Text.digitBound + 11) := by
    decide +kernel
  have hnext : s.nextEvent = some ((Text.digitBound : Int) + 11) := by decide +kernel
  have htoo : Text.isWritable (max ((Text.digitBound : Int) + 11) s.clock) = false := by
    decide +kernel
  exact ⟨⟨_, hwaits⟩, Sim.run_fastForward_refused hnext htoo⟩

end Workload

end FeedbackQueue
