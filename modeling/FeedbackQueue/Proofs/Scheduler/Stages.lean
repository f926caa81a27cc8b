import FeedbackQueue.Proofs.Basic
import FeedbackQueue.Proofs.Scheduler.Sound

/-!
# What the stages do

On a sound scheduler every stage is a sequence of moves, and its answer is known.
A stage whose message cannot be written fails there, and what it has done by then
stays done. Apart from that admissions, boosts and dispatches do not fail, running
a process fails before anything is changed, and idling fails only when nothing can
become ready.
-/

namespace FeedbackQueue

/-- The process becomes ready on its own by a time. -/
def Proc.dueBy (p : Proc) (now : Int) : Bool := p.due?.any (· ≤ now)

theorem Proc.dueBy_iff {p : Proc} : p.dueBy now ↔ ∃ t, p.due? = some t ∧ t ≤ now := by
  cases h : p.due? <;> simp [dueBy, h]

namespace Scheduler

def due (s : Scheduler n) (i : Fin n) : Bool := (s.process i).dueBy s.clock

/-- What an admission admits, in workload order. -/
def dueSlots (s : Scheduler n) : List (Fin n) := (List.finRange n).filter s.due

def arrived (s : Scheduler n) : Scheduler n := s.dueSlots.foldl admitted s

/-- The admission of a process can be recorded. -/
def admissible (s : Scheduler n) (i : Fin n) : Bool :=
  ((s.process i).admission s.clock).message.isWritable

/-- What an admission leaves behind that has admitted some processes and cannot record the
admission of the next one. -/
def admissionCut (s : Scheduler n) (before : List (Fin n)) (i : Fin n) : Scheduler n :=
  let t := before.foldl admitted s
  (t.admitted i).unrecorded t

/-- The first process that is due and whose admission cannot be recorded, and the processes that
are due before it. -/
structure AdmissionCut (s : Scheduler n) (before : List (Fin n)) (i : Fin n) : Prop where
  due : ∃ after, s.dueSlots = before ++ i :: after
  admissible : ∀ j ∈ before, s.admissible j
  refused : s.admissible i = false

theorem mem_dueSlots {s : Scheduler n} : i ∈ s.dueSlots ↔ s.due i := by
  simp [dueSlots]

theorem nodup_dueSlots {s : Scheduler n} : s.dueSlots.Nodup :=
  (List.nodup_finRange n).filter _

end Scheduler

namespace Sim

variable {s : Scheduler n} {b : Bank n} {p : Proc} {l : List (Fin n)}

theorem run_throw (e : SchedulerError) : EStateM.run (throw e : Sim n α) s = .error e s := rfl

theorem run_record (h : e.message.isWritable) :
    EStateM.run (record e) s = .ok () { s with log := s.log.push e } := by
  simp [record, h]

theorem run_record_refused (h : e.message.isWritable = false) :
    EStateM.run (record e) s = .error (.numeral .tooLong) s := by
  simp [record, h]

theorem run_perform (h : (s.process i).perform call = .ok p) :
    EStateM.run (perform i call) s = .ok () { s with bank := s.bank.setProcess i p } := by
  simp [perform, h]

theorem run_perform_changed (hs : s.bank = b.setProcess i p) (h : p.perform call = .ok q) :
    EStateM.run (perform i call) s = .ok () { s with bank := b.setProcess i q } := by
  have h' : (s.process i).perform call = .ok q := by simpa [Scheduler.process, hs] using h
  rw [run_perform h', hs, Bank.setProcess_setProcess]

/-- A process is queued after it was changed, so the bank at hand is a changed one. -/
theorem run_enqueue (hb : b.Sound) (hi : (b.process i).phase ≠ .ready) (hp : p.pid = b.pid i)
    (hk : k < b.levels.length) (hs : s.bank = b.setProcess i p) :
    EStateM.run (enqueue i k) s = .ok () { s with bank := b.put i { p with level := k } } := by
  have hc : (b.setProcess i p).contains i = false :=
    (Bank.contains_setProcess hp).trans (hb.contains_eq_false hi)
  simp [enqueue, hs, Bank.enqueue_eq_put hc (show k < (b.setProcess i p).levels.length from hk)]

theorem run_quantum (hq : s.bank.levels.map Level.quantum = s.config.quanta)
    (hk : k ≤ s.config.lowestLevel) :
    EStateM.run (quantum k) s = .ok (s.config.quantum k) s := by
  simp [quantum, ofExcept, Scheduler.quantum_of_quanta hq hk]

/-! ## Admission -/

theorem run_admitDue_of_not_due (h : s.due i = false) :
    EStateM.run (admitDue i) s = .ok false s := by
  cases hphase : (s.process i).phase with
  | new =>
    have hlater : ¬ (s.process i).spec.arrival ≤ s.clock := by
      simpa [Scheduler.due, Proc.dueBy, Proc.due?, hphase] using h
    simp [admitDue, hphase, hlater]
  | waiting time =>
    have hlater : ¬ time ≤ s.clock := by
      simpa [Scheduler.due, Proc.dueBy, Proc.due?, hphase] using h
    simp [admitDue, hphase, hlater]
  | _ => simp [admitDue, hphase]

/-- A process that is due changes its phase and joins a queue before that is recorded. -/
theorem run_admitDue_of_due (hs : s.Sound) (h : s.due i) :
    EStateM.run (admitDue i) s =
      EStateM.run (do record ((s.process i).admission s.clock); return true)
        ((s.admitted i).unrecorded s) := by
  have hpos : 0 < s.bank.levels.length := Nat.zero_lt_of_lt (hs.bank.level_lt i)
  obtain ⟨time, hdue, hle⟩ := Proc.dueBy_iff.mp h
  rcases Proc.due?_eq_some.mp hdue with ⟨hphase, rfl⟩ | hphase
  · have hwaits : (s.bank.process i).phase ≠ .ready := by
      rw [show (s.bank.process i).phase = .new from hphase]; simp
    let p : Proc := { s.process i with phase := .ready, used := 0 }
    have harrive : (s.process i).perform .arrive = .ok p := by
      simp [Proc.perform, Proc.arrive, hphase, p]
    have henqueue := run_enqueue (s := { s with bank := s.bank.setProcess i p }) (p := p) hs.bank
      hwaits rfl hpos rfl
    simp [-bind_pure_comp, admitDue, hphase, hle, run_perform harrive, henqueue,
      Scheduler.admitted, Scheduler.unrecorded, Proc.admitted, Proc.admission, p]
  · have hwaits : (s.bank.process i).phase ≠ .ready := by
      rw [show (s.bank.process i).phase = .waiting time from hphase]; simp
    let p : Proc := { s.process i with phase := .ready }
    have hwake : (s.process i).perform .wake = .ok p := by
      simp [Proc.perform, Proc.wake, hphase, p]
    have henqueue := run_enqueue (s := { s with bank := s.bank.setProcess i p }) (p := p) hs.bank
      (k := (s.process i).level) hwaits rfl (hs.bank.level_lt i) rfl
    simp [-bind_pure_comp, admitDue, hphase, hle, run_perform hwake, henqueue,
      Scheduler.admitted, Scheduler.unrecorded, Proc.admitted, Proc.admission, p]

theorem run_admitDue (hs : s.Sound) (h : s.due i) (hi : s.admissible i) :
    EStateM.run (admitDue i) s = .ok true (s.admitted i) := by
  rw [run_admitDue_of_due hs h, EStateM.run_bind, run_record hi]
  rfl

theorem run_admitDue_refused (hs : s.Sound) (h : s.due i) (hi : s.admissible i = false) :
    EStateM.run (admitDue i) s = .error (.numeral .tooLong) ((s.admitted i).unrecorded s) := by
  rw [run_admitDue_of_due hs h, EStateM.run_bind, run_record_refused hi]

theorem due_admitted_of_ne (h : j ≠ i) : (s.admitted i).due j = s.due j := by
  simp [Scheduler.due, h, show (s.admitted i).clock = s.clock from rfl]

theorem admissible_admitted_of_ne (h : j ≠ i) : (s.admitted i).admissible j = s.admissible j := by
  simp [Scheduler.admissible, h, show (s.admitted i).clock = s.clock from rfl]

/-- The processes behind the one that is admitted are no other ones to them. -/
theorem filter_due_admitted (hi : i ∉ l) : l.filter (s.admitted i).due = l.filter s.due := by
  refine List.filter_congr fun j hj => due_admitted_of_ne ?_
  rintro rfl
  exact hi hj

theorem run_admitEach (hs : s.Sound) (hl : l.Nodup) (h : ∀ i ∈ l.filter s.due, s.admissible i) :
    EStateM.run (admitEach l) s =
      .ok (l.filter s.due) ((l.filter s.due).foldl Scheduler.admitted s) := by
  induction l generalizing s with
  | nil => rfl
  | cons i rest ih =>
    obtain ⟨hi, hrest⟩ := List.nodup_cons.mp hl
    cases hdue : s.due i with
    | false =>
      simp only [List.filter_cons, hdue, Bool.false_eq_true, if_false] at h
      simp [-bind_pure_comp, admitEach, run_admitDue_of_not_due hdue, hdue, ih hs hrest h]
    | true =>
      obtain ⟨t, ht, -⟩ := Proc.dueBy_iff.mp hdue
      rw [List.filter_cons_of_pos hdue, List.forall_mem_cons] at h
      have hlater : ∀ j ∈ rest.filter (s.admitted i).due, (s.admitted i).admissible j := by
        intro j hj
        rw [filter_due_admitted hi] at hj
        rw [admissible_admitted_of_ne]
        · exact h.2 j hj
        · rintro rfl
          exact hi (List.mem_of_mem_filter hj)
      simp [-bind_pure_comp, admitEach, run_admitDue hs hdue h.1, hdue,
        ih (hs.admitted ht) hrest hlater, filter_due_admitted hi]

theorem run_admitEach_refused (hs : s.Sound) (hl : l.Nodup)
    (hsplit : l.filter s.due = before ++ i :: after) (hbefore : ∀ j ∈ before, s.admissible j)
    (hi : s.admissible i = false) :
    EStateM.run (admitEach l) s = .error (.numeral .tooLong) (s.admissionCut before i) := by
  induction l generalizing s before with
  | nil => simp at hsplit
  | cons j rest ih =>
    obtain ⟨hj, hrest⟩ := List.nodup_cons.mp hl
    cases hdue : s.due j with
    | false =>
      simp only [List.filter_cons, hdue, Bool.false_eq_true, if_false] at hsplit
      simp [-bind_pure_comp, admitEach, run_admitDue_of_not_due hdue, ih hs hrest hsplit hbefore hi]
    | true =>
      obtain ⟨t, ht, -⟩ := Proc.dueBy_iff.mp hdue
      rw [List.filter_cons_of_pos hdue] at hsplit
      rcases before with _ | ⟨k, before⟩
      · obtain ⟨rfl, -⟩ := List.cons.inj hsplit
        simp [-bind_pure_comp, admitEach, run_admitDue_refused hs hdue hi, Scheduler.admissionCut]
      · rw [List.cons_append, List.cons.injEq] at hsplit
        obtain ⟨rfl, hsplit⟩ := hsplit
        obtain ⟨hk, hbefore⟩ := List.forall_mem_cons.mp hbefore
        have hne (m : Fin n) (hm : m ∈ before ++ i :: after) : m ≠ j := by
          rintro rfl
          exact hj (List.mem_of_mem_filter (hsplit ▸ hm))
        have hcut : EStateM.run (admitEach rest) (s.admitted j) =
            .error (.numeral .tooLong) ((s.admitted j).admissionCut before i) := by
          refine ih (hs.admitted ht) hrest ((filter_due_admitted hj).trans hsplit) ?_ ?_
          · intro m hm
            rw [admissible_admitted_of_ne (hne m (by simp [hm]))]
            exact hbefore m hm
          · rw [admissible_admitted_of_ne (hne i (by simp))]
            exact hi
        simp [-bind_pure_comp, admitEach, run_admitDue hs hdue hk, hcut]
        rfl

theorem run_admitArrivals (hs : s.Sound) (h : ∀ i, s.due i → s.admissible i) :
    EStateM.run admitArrivals s = .ok s.dueSlots s.arrived :=
  run_admitEach hs (List.nodup_finRange n) fun i hi => h i (Scheduler.mem_dueSlots.mp hi)

theorem run_admitArrivals_refused (hs : s.Sound) (h : s.AdmissionCut before i) :
    EStateM.run admitArrivals s = .error (.numeral .tooLong) (s.admissionCut before i) := by
  obtain ⟨⟨after, hsplit⟩, hbefore, hi⟩ := h
  exact run_admitEach_refused hs (List.nodup_finRange n) hsplit hbefore hi

/-- Everything that is due can be recorded, or there is a first process of which it cannot. -/
theorem admissible_or_cut (s : Scheduler n) :
    (∀ i, s.due i → s.admissible i) ∨ ∃ before i, s.AdmissionCut before i := by
  rcases forall_or_first (fun i => s.admissible i = true) s.dueSlots with
    hall | ⟨before, i, after, hsplit, hbefore, hi⟩
  · exact .inl fun i hi => hall i (Scheduler.mem_dueSlots.mpr hi)
  · exact .inr ⟨before, i, ⟨after, hsplit⟩, hbefore, Bool.eq_false_iff.mpr hi⟩

/-! ## Boost and dispatch -/

theorem run_applyBoost : EStateM.run applyBoost s =
    if s.booster.due s.clock then .ok s.bank.belowTop s.boosted else .ok [] s := by
  cases h : s.booster.due s.clock <;>
    simp [-bind_pure_comp, applyBoost, Booster.fire?, h, run_record Entry.isWritable_boost,
      Scheduler.boosted]

theorem run_dispatch_none (h : s.bank.queued = []) : EStateM.run dispatch s = .ok none s := by
  simp [dispatch, Bank.dequeue_eq_none.mpr h]

/-- A process is dispatched before that is recorded. -/
theorem run_dispatch_some (hs : s.Sound) (h : s.bank.dequeue = some (i, rest)) :
    EStateM.run dispatch s =
      EStateM.run (do record (s.dispatchEntry i); return some i)
        ((s.dispatched i rest).unrecorded s) := by
  obtain ⟨hprocesses, -, -, hquanta, -⟩ := Bank.dequeue_eq_some h
  have hready := hs.head_ready h
  have hprocess : Scheduler.process { s with bank := rest } i = s.process i := by
    simp [Scheduler.process, Bank.process, hprocesses]
  have hdispatch : (Scheduler.process { s with bank := rest } i).perform (.dispatch s.clock) =
      .ok ((s.process i).dispatched s.clock) := by
    simp [hprocess, Proc.perform, Proc.dispatch, hready, Proc.dispatched]
  have hquantum := run_quantum (k := ((s.process i).dispatched s.clock).level) (s := { s with
    bank := rest.setProcess i ((s.process i).dispatched s.clock), switches := s.switches + 1 })
    (hquanta.trans hs.quanta) (hs.level_le i)
  simp only [Scheduler.process] at hquantum
  simp [-bind_pure_comp, dispatch, h, run_perform hdispatch, Scheduler.process, hquantum,
    Scheduler.dispatched, Scheduler.unrecorded, Scheduler.dispatchEntry]

theorem run_dispatch (hs : s.Sound) (h : s.bank.dequeue = some (i, rest))
    (hi : (s.dispatchEntry i).message.isWritable) :
    EStateM.run dispatch s = .ok (some i) (s.dispatched i rest) := by
  rw [run_dispatch_some hs h, EStateM.run_bind, run_record hi]
  rfl

theorem run_dispatch_refused (hs : s.Sound) (h : s.bank.dequeue = some (i, rest))
    (hi : (s.dispatchEntry i).message.isWritable = false) :
    EStateM.run dispatch s = .error (.numeral .tooLong) ((s.dispatched i rest).unrecorded s) := by
  rw [run_dispatch_some hs h, EStateM.run_bind, run_record_refused hi]

/-! ## Execution -/

theorem run_execute_of_not_running (h : (s.process i).phase ≠ .running) :
    EStateM.run (execute policy i) s = .error (.process
      (ProcError.wrongPhase .execute (s.process i).pid (s.process i).phase).raised) s := by
  simp [execute, h]

/-- A slice that the policy cannot name is not run. -/
theorem run_execute_of_policy_error (hs : s.Sound) (hi : (s.process i).phase = .running)
    (h : policy s i = .error e) : EStateM.run (execute policy i) s = .error e s := by
  simp [execute, hi, run_quantum hs.quanta (hs.level_le i), h, ofExcept, run_throw]

theorem run_execute_of_outside (hs : s.Sound) (hi : (s.process i).phase = .running)
    (h : policy s i = .ok d) (hd : ¬ (0 ≤ d ∧ d ≤ (s.process i).remaining)) :
    EStateM.run (execute policy i) s = .error (.process
      (ProcError.sliceOutside (s.process i).pid d (s.process i).remaining).raised) s := by
  have hrun : (s.process i).perform (.runFor d) =
      .error (ProcError.sliceOutside (s.process i).pid d (s.process i).remaining).raised := by
    simp [Proc.perform, Proc.runFor, hi, hd]
  simp [execute, hi, run_quantum hs.quanta (hs.level_le i), h, ofExcept, perform, hrun]

/-- The process `r` has just run its slice; the bank was sound before. What becomes of the
process is settled before it is recorded. -/
theorem run_reclassify (hb : b.Sound) (hi : (b.process i).phase ≠ .ready) (hpid : r.pid = b.pid i)
    (hphase : r.phase = .running) (hlevel : r.level < b.levels.length)
    (hlength : b.levels.length = s.config.numQueues) (hs : s.bank = b.setProcess i r) :
    EStateM.run (reclassify i r.level q d) s =
      EStateM.run (do record (r.settlement s.config s.clock (r.outcome q d)); return r.outcome q d)
        { s with
          bank := if (r.settled s.config s.clock (r.outcome q d)).phase = .ready
            then b.put i (r.settled s.config s.clock (r.outcome q d))
            else b.setProcess i (r.settled s.config s.clock (r.outcome q d))
          completed := if r.outcome q d = .completed then s.completed + 1 else s.completed } := by
  have hlowest : min (r.level + 1) s.config.lowestLevel < b.levels.length := by
    have hpos := s.config.numQueues_pos
    unfold Config.lowestLevel
    omega
  have hprocess : s.process i = r := by simp [Scheduler.process, hs]
  -- One case for each outcome, tested in the order in which the stage tests them.
  by_cases h1 : r.done
  · have hterminate : r.perform (.terminate s.clock) =
        .ok { r with phase := .terminated s.clock } := by
      have hzero : r.remaining = 0 := by simpa [Proc.done] using h1
      simp [Proc.perform, Proc.terminate, hphase, hzero]
    simp [-bind_pure_comp, reclassify, hprocess, h1, run_perform_changed hs hterminate,
      Proc.outcome, Proc.settled, Proc.settlement]
  by_cases h2 : r.spec.ioBound ∧ d < q
  · have hblock : r.perform (.block (s.clock + s.config.ioDuration)) =
        .ok { r with phase := .waiting (s.clock + s.config.ioDuration), used := 0 } := by
      simp [Proc.perform, Proc.block, hphase]
    simp [-bind_pure_comp, reclassify, hprocess, h1, h2, run_perform_changed hs hblock,
      Proc.outcome, Proc.settled, Proc.settlement]
  by_cases h3 : q ≤ r.used
  · have hreset : r.perform .resetQuantum = .ok { r with used := 0 } := rfl
    have hpreempt : { r with used := 0 }.perform .preempt =
        .ok { r with phase := .ready, used := 0 } := by
      simp [Proc.perform, Proc.preempt, hphase]
    have hpreempt' := run_perform_changed
      (s := { s with bank := b.setProcess i { r with used := 0 } }) rfl hpreempt
    have henqueue := run_enqueue (p := { r with phase := .ready, used := 0 })
      (s := { s with bank := b.setProcess i { r with phase := .ready, used := 0 } })
      hb hi hpid hlowest rfl
    simp [-bind_pure_comp, reclassify, hprocess, h1, h2, h3, run_perform_changed hs hreset,
      hpreempt', henqueue, Proc.outcome, Proc.settled, Proc.settlement]
  · have hpreempt : r.perform .preempt = .ok { r with phase := .ready } := by
      simp [Proc.perform, Proc.preempt, hphase]
    have henqueue := run_enqueue (p := { r with phase := .ready })
      (s := { s with bank := b.setProcess i { r with phase := .ready } })
      hb hi hpid hlevel rfl
    simp [-bind_pure_comp, reclassify, hprocess, h1, h2, h3, run_perform_changed hs hpreempt,
      henqueue, Proc.outcome, Proc.settled, Proc.settlement]

/-- A slice is run and settled before that is recorded, and listed after it. -/
theorem run_execute_of_running (hs : s.Sound) (hi : (s.process i).phase = .running)
    (h : policy s i = .ok d) (h0 : 0 ≤ d) (hd : d ≤ (s.process i).remaining) :
    EStateM.run (execute policy i) s =
      EStateM.run
        (do
          record (((s.process i).ran d).settlement s.config (s.clock + d) (s.slice i d).outcome)
          modify fun t => { t with timeline := t.timeline.push (s.slice i d) }
          return s.slice i d)
        ((s.ran i d).unrecorded s) := by
  have hrun : (s.process i).perform (.runFor d) = .ok ((s.process i).ran d) := by
    simp [Proc.perform, Proc.runFor, hi, h0, hd, Proc.ran]
  have hwaits : (s.bank.process i).phase ≠ .ready := by
    rw [show (s.bank.process i).phase = .running from hi]; simp
  let entry := ((s.process i).ran d).settlement s.config (s.clock + d) (s.slice i d).outcome
  have hreclassify : EStateM.run
      (reclassify i (s.process i).level (s.config.quantum (s.process i).level) d)
      { s with bank := s.bank.setProcess i ((s.process i).ran d), clock := s.clock + d } =
      EStateM.run (do record entry; return (s.slice i d).outcome) ((s.ran i d).unrecorded s) :=
    run_reclassify (r := (s.process i).ran d) hs.bank hwaits rfl hi (hs.bank.level_lt i)
      hs.length_levels rfl
  simp [-bind_pure_comp, execute, hi, run_quantum hs.quanta (hs.level_le i), h, ofExcept,
    run_perform hrun, hreclassify]
  cases EStateM.run (record entry) ((s.ran i d).unrecorded s) <;> rfl

theorem run_execute (hs : s.Sound) (hi : (s.process i).phase = .running)
    (h : policy s i = .ok d) (h0 : 0 ≤ d) (hd : d ≤ (s.process i).remaining)
    (hpid : Text.isWritable (s.process i).pid) :
    EStateM.run (execute policy i) s = .ok (s.slice i d) (s.ran i d) := by
  rw [run_execute_of_running hs hi h h0 hd, EStateM.run_bind,
    run_record (by simpa [Proc.pid] using hpid)]
  rfl

theorem run_execute_refused (hs : s.Sound) (hi : (s.process i).phase = .running)
    (h : policy s i = .ok d) (h0 : 0 ≤ d) (hd : d ≤ (s.process i).remaining)
    (hpid : Text.isWritable (s.process i).pid = false) :
    EStateM.run (execute policy i) s =
      .error (.numeral .tooLong) ((s.ran i d).unrecorded s) := by
  rw [run_execute_of_running hs hi h h0 hd, EStateM.run_bind,
    run_record_refused (by simpa [Proc.pid] using hpid)]

/-- The phase is checked first, then the policy is asked, then its answer is checked. -/
theorem run_execute_eq (hs : s.Sound) :
    EStateM.run (execute policy i) s =
      if (s.process i).phase ≠ .running then
        .error (.process
          (ProcError.wrongPhase .execute (s.process i).pid (s.process i).phase).raised) s
      else
        match policy s i with
        | .error e => .error e s
        | .ok d =>
          if d < 0 ∨ (s.process i).remaining < d then
            .error (.process
              (ProcError.sliceOutside (s.process i).pid d (s.process i).remaining).raised) s
          else if Text.isWritable (s.process i).pid then .ok (s.slice i d) (s.ran i d)
          else .error (.numeral .tooLong) ((s.ran i d).unrecorded s) := by
  by_cases hi : (s.process i).phase = .running
  · rw [if_neg (not_not_intro hi)]
    cases hd : policy s i with
    | error e => exact run_execute_of_policy_error hs hi hd
    | ok d =>
      by_cases hrange : d < 0 ∨ (s.process i).remaining < d
      · simp only [if_pos hrange]
        exact run_execute_of_outside hs hi hd (by omega)
      · simp only [if_neg hrange]
        cases hpid : Text.isWritable (s.process i).pid with
        | true => exact run_execute hs hi hd (by omega) (by omega) hpid
        | false => exact run_execute_refused hs hi hd (by omega) (by omega) hpid
  · rw [if_pos hi, run_execute_of_not_running hi]

/-! ## Idling -/

theorem run_fastForward (h : s.nextEvent = some target)
    (hwritable : Text.isWritable (max target s.clock)) :
    EStateM.run fastForward s = .ok (max target s.clock) (s.idled target) := by
  simp [-bind_pure_comp, fastForward, h, run_record, hwritable, Scheduler.idled]

/-- The clock stays where it is when its jump cannot be recorded. -/
theorem run_fastForward_refused (h : s.nextEvent = some target)
    (hwritable : Text.isWritable (max target s.clock) = false) :
    EStateM.run fastForward s = .error (.numeral .tooLong) s := by
  simp [-bind_pure_comp, fastForward, h, run_record_refused, hwritable]

theorem run_report :
    EStateM.run report s =
      match s.report with
      | .ok r => .ok r s
      | .error e => .error (.report e) s := by
  cases h : s.report <;> simp [report, h, ofExcept, run_throw]

/-- When nothing can become ready, idling records that and fails, for that reason or because the
report on it cannot be made. -/
theorem run_fastForward_none (h : s.nextEvent = none) :
    EStateM.run fastForward s =
      match s.stalled.report with
      | .ok r => .error (.stalled (n - s.completed) s.clock r) s.stalled
      | .error e => .error (.report e) s.stalled := by
  have hreport := run_report (s := s.stalled)
  cases hr : s.stalled.report <;> rw [hr, Scheduler.stalled] at hreport <;>
    simp [-bind_pure_comp, fastForward, h, run_record Entry.isWritable_failure, hreport, run_throw,
      Scheduler.stalled]

end Sim

end FeedbackQueue
