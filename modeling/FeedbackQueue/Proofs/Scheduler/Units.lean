import FeedbackQueue.Proofs.Scheduler.Correspondence
import FeedbackQueue.Proofs.Scheduler.Legible

/-!
# Units of time

No time that a run goes by is built in: a job or a configuration gives them all. In a finer
unit of time the same jobs are therefore scheduled alike, and every time reads as a multiple
of what it was. The I/O slice alone is rounded to the unit, so the divisor must leave nothing
to round. And a unit may be so fine that the log can no longer write a time in it.
-/

namespace FeedbackQueue

-- ---------------------------------------------------------------------------
-- Times in a finer unit
-- ---------------------------------------------------------------------------

/-- The job in a unit of time of which `k` make one of the old. -/
def Spec.scaled (x : Spec) (k : ℕ+) : Spec where
  pid := x.pid
  arrival := k * x.arrival
  burst := k * x.burst
  ioBound := x.ioBound
  name := x.name
  pid_nonneg := x.pid_nonneg
  arrival_nonneg := Int.mul_nonneg (Int.natCast_nonneg k) x.arrival_nonneg
  burst_pos := Int.mul_pos (Int.natCast_pos.mpr k.pos) x.burst_pos

def Workload.scaled (w : Workload) (k : ℕ+) : Workload where
  specs := w.specs.map (·.scaled k)
  nonempty := by simpa using w.nonempty
  distinct := by simpa [Function.comp_def, Spec.scaled] using w.distinct

/-- The levels and the fraction of a quantum that is left to I/O-bound jobs have no unit. -/
def Config.scaled (config : Config) (k : ℕ+) : Config where
  numQueues := config.numQueues
  baseQuantum := k * config.baseQuantum
  boostInterval := k * config.boostInterval
  ioDuration := k * config.ioDuration
  ioSliceDivisor := config.ioSliceDivisor
  numQueues_pos := config.numQueues_pos
  baseQuantum_pos := Int.mul_pos (Int.natCast_pos.mpr k.pos) config.baseQuantum_pos
  boostInterval_pos := Int.mul_pos (Int.natCast_pos.mpr k.pos) config.boostInterval_pos
  ioDuration_nonneg := Int.mul_nonneg (Int.natCast_nonneg k) config.ioDuration_nonneg
  ioSliceDivisor_pos := config.ioSliceDivisor_pos
  ioSliceDivisor_le := Int.le_trans config.ioSliceDivisor_le
    (le_mul_of_one_le_left (Int.le_of_lt config.baseQuantum_pos) (by exact_mod_cast k.pos))

def Phase.scaled (k : ℕ+) : Phase → Phase
  | .waiting readyAt => .waiting (k * readyAt)
  | .terminated completion => .terminated (k * completion)
  | phase => phase

def Proc.scaled (p : Proc) (k : ℕ+) : Proc where
  spec := p.spec.scaled k
  phase := p.phase.scaled k
  remaining := k * p.remaining
  level := p.level
  used := k * p.used
  firstRun := p.firstRun.map ((k : Int) * ·)

def Slice.scaled (b : Slice) (k : ℕ+) : Slice :=
  ⟨b.pid, k * b.start, k * b.duration, b.level, k * b.quantum, b.outcome⟩

def Mark.scaled (x : Mark) (k : ℕ+) : Mark := ⟨k * x.time, x.kind, x.pid⟩

-- ---------------------------------------------------------------------------
-- The translation to a finer unit
-- ---------------------------------------------------------------------------

namespace Translation

/-- Slots and pids stand for themselves. -/
def ofUnit (slot : Fin n ↪o Fin m) (k : ℕ+) : Translation n m :=
  ⟨slot, k, Int.natCast_pos.mpr k.pos, id⟩

variable {slot : Fin n ↪o Fin m} {k : ℕ+}

theorem ofUnit_phase : (ofUnit slot k).phase = Phase.scaled k := by
  funext phase
  cases phase <;> rfl

theorem ofUnit_mark : (ofUnit slot k).mark = (·.scaled k) := by
  funext x
  simp [Translation.mark, ofUnit, Mark.scaled, Translation.time]

end Translation

variable {config config' : Config} {slot : Fin n ↪o Fin m} {k : ℕ+}

namespace Config

theorem quantum_scaled (l : Nat) : (config.scaled k).quantum l = k * config.quantum l :=
  Int.mul_assoc _ _ _

/-- Nothing is rounded where the divisor goes into the quantum of the top level, since it goes
into the other quanta then. -/
theorem ioPart_scaled (hdvd : config.ioSliceDivisor ∣ config.baseQuantum) (l : Nat) :
    (config.scaled k).ioPart l = k * config.ioPart l := by
  have hquantum : config.ioSliceDivisor ∣ config.quantum l := hdvd.mul_right _
  rw [ioPart, quantum_scaled]
  exact Int.mul_ediv_assoc _ hquantum

/-- What a divisor of 3 leaves of a quantum of 10 is worth a third of a unit. -/
example :
    let config := { Config.standard with
      ioSliceDivisor := 3, ioSliceDivisor_pos := by decide, ioSliceDivisor_le := by decide }
    config.ioPart 0 = 3 ∧ (config.scaled 3).ioPart 0 = 10 := by
  decide

theorem turn_scaled (hdvd : config.ioSliceDivisor ∣ config.baseQuantum) (ioBound : Bool)
    (l : Nat) : (config.scaled k).turn ioBound l = k * config.turn ioBound l := by
  have hdivisor : (config.scaled k).ioSliceDivisor = config.ioSliceDivisor := rfl
  rw [turn, turn, hdivisor]
  split
  · exact ioPart_scaled hdvd l
  · exact quantum_scaled l

theorem quanta_scaled : (config.scaled k).quanta = config.quanta.map ((k : Int) * ·) := by
  rw [quanta, quanta, List.map_map]
  exact List.map_congr_left fun l _ => quantum_scaled l

theorem alike_scaled : config.Alike (.ofUnit slot k) (config.scaled k) :=
  ⟨rfl, rfl, rfl, rfl⟩

end Config

theorem Spec.alike_scaled {x : Spec} (hdvd : config.ioSliceDivisor ∣ config.baseQuantum) :
    x.Alike (.ofUnit slot k) config (config.scaled k) (x.scaled k) :=
  ⟨rfl, rfl, rfl, Config.turn_scaled hdvd x.ioBound, Iff.rfl⟩

theorem Proc.Alike.eq_scaled {p q : Proc} (h : p.Alike (.ofUnit slot k) config config' q)
    (hspec : q.spec = p.spec.scaled k) : q = p.scaled k := by
  obtain ⟨-, hphase, hremaining, hlevel, hused, hfirst⟩ := h
  rw [Translation.ofUnit_phase] at hphase
  cases q
  simp only at *
  subst hspec hphase hremaining hlevel hused hfirst
  rfl

-- ---------------------------------------------------------------------------
-- What can be recorded
-- ---------------------------------------------------------------------------

theorem isWritable_of_scaled (h : Text.isWritable ((k : Int) * x)) : Text.isWritable x := by
  refine Text.isWritable_of_le h ?_
  rw [Int.natAbs_mul, Int.natAbs_natCast]
  exact Nat.le_mul_of_pos_left _ k.pos

namespace Scheduler

variable {s : Scheduler n} {t : Scheduler m}

theorem admissible_of_scaled (h : s.Alike (.ofUnit slot k) t) (hi : t.admissible (slot i)) :
    s.admissible i := by
  have hpid : (t.process (slot i)).pid = (s.process i).pid := (h.process i).pid
  have hburst : (t.process (slot i)).spec.burst = k * (s.process i).spec.burst :=
    (h.process i).spec.burst
  have hphase : (t.process (slot i)).phase = (s.process i).phase.scaled k :=
    Translation.ofUnit_phase ▸ (h.process i).phase
  rw [admissible, Proc.isWritable_admission, Bool.and_eq_true, Bool.or_eq_true] at hi ⊢
  rw [hpid, hburst, hphase] at hi
  refine ⟨hi.1, hi.2.imp (fun hnew => ?_) isWritable_of_scaled⟩
  cases hp : (s.process i).phase <;> simp [hp, Phase.scaled] at hnew ⊢

theorem isWritable_dispatchEntry_of_scaled (h : s.Alike (.ofUnit slot k) t)
    (hi : (t.dispatchEntry (slot i)).message.isWritable) :
    (s.dispatchEntry i).message.isWritable := by
  have hp : ((s.process i).dispatched s.clock).Alike (.ofUnit slot k) s.config t.config
      ((t.process (slot i)).dispatched t.clock) := h.clock ▸ (h.process i).dispatched
  have hquantum := h.config.quantum ((s.process i).dispatched s.clock).level
  simp only [dispatchEntry, Entry.isWritable_dispatch, Bool.and_eq_true] at hi ⊢
  rw [hp.pid, hp.remaining, hp.level, hquantum] at hi
  obtain ⟨hpid, hremaining, hlimit⟩ := hi
  exact ⟨hpid, isWritable_of_scaled hremaining, isWritable_of_scaled hlimit⟩

/-- What cannot be recorded cannot be recorded in a finer unit either. -/
theorem not_halt_of_scaled (h : s.Alike (.ofUnit slot k) t) (hall : Function.Surjective slot)
    (hs : s.AtRest .standard) (ht : t.AtRest .standard) (hdone : s.done = false)
    (hrun : EStateM.run (Sim.step .standard) t = .ok more t') : ¬ s.Halt s' := by
  have hdone' := h.not_done hs.sound ht.sound hdone
  obtain ⟨hadmissible, hdispatch⟩ := recorded_of_ok ht.sound hdone' hrun
  have hprepared := h.prepared hs.sound ht.sound fun j _ => hall j
  intro hhalt
  cases hhalt with
  | @admission _ i hcut =>
    have hdue := hcut.mem_due (List.mem_append_right _ (List.mem_singleton_self i))
    have hi := admissible_of_scaled h (hadmissible (slot i) (h.due.trans hdue))
    cases hcut.refused.symm.trans hi
  | @dispatch i rest hdequeue hrefused =>
    obtain ⟨rest', hdequeue', -⟩ := hprepared.queues.dequeue_eq_some hdequeue
    have hi := isWritable_dispatchEntry_of_scaled hprepared (hdispatch _ _ hdequeue')
    cases hrefused.symm.trans hi
  | @idle target hqueued hnext hrefused =>
    have hdequeue' := hprepared.queues.dequeue_eq_none (Bank.dequeue_eq_none.mpr hqueued)
    have hnext' := hprepared.nextEvent hnext fun j hj => absurd (hall j) hj
    rw [run_step_idle ht.sound hdone' hadmissible hdequeue' hnext'] at hrun
    split at hrun
    · cases hrefused.symm.trans (isWritable_of_scaled ‹_›)
    · cases hrun

end Scheduler

-- ---------------------------------------------------------------------------
-- Runs in a finer unit
-- ---------------------------------------------------------------------------

namespace Workload

open Scheduler

variable {w : Workload}

theorem size_scaled : (w.scaled k).size = w.size := by
  simp [size, scaled]

theorem spec_scaled (i : Fin w.size) :
    (w.scaled k).spec (i.cast size_scaled.symm) = (w.spec i).scaled k := by
  have hlt : i.val < (w.specs.map (·.scaled k)).length := by
    rw [List.length_map]
    exact i.isLt
  exact @List.getElem_map _ _ (fun x : Spec => x.scaled k) w.specs i hlt

theorem alike_scaled (hdvd : config.ioSliceDivisor ∣ config.baseQuantum)
    (hj : ¬ (w.start config).Stopped .standard j)
    (hj' : ¬ ((w.scaled k).start (config.scaled k)).Stopped .standard j) :
    ((w.start config).afterSteps .standard j).Alike
      (.ofUnit (Fin.castOrderIso size_scaled.symm).toOrderEmbedding k)
      (((w.scaled k).start (config.scaled k)).afterSteps .standard j) := by
  refine alike_afterSteps Config.alike_scaled (Fin.castOrderIso _).surjective (fun i => ?_) hj hj'
  exact (spec_scaled (k := k) i).symm ▸ Spec.alike_scaled hdvd

/-- A run does not stop before it does so in a finer unit. -/
theorem not_stopped_of_scaled (hdvd : config.ioSliceDivisor ∣ config.baseQuantum)
    (hj : ¬ ((w.scaled k).start (config.scaled k)).Stopped .standard j) :
    ¬ (w.start config).Stopped .standard j := by
  induction j with
  | zero => exact not_stopped_zero
  | succ j ih =>
    have hearlier' := not_stopped_of_le hj (Nat.le_succ j)
    have hearlier := ih hearlier'
    have hnext' := atRest_start.next .standard hj
    rcases atRest_start.next_or_last .standard hearlier with hnext | hlast
    · exact hnext.not_stopped
    · exact absurd hlast.halt (not_halt_of_scaled (alike_scaled hdvd hearlier hearlier')
        (Fin.castOrderIso _).surjective (atRest_start.afterSteps .standard hearlier)
        (atRest_start.afterSteps .standard hearlier') hlast.not_done hnext'.run_eq)

/-- With a divisor that goes into the base quantum, the same jobs in a finer unit of time are
scheduled alike, until there is something to record that cannot be written in that unit. After any
number of steps the slices, the processes, the events, the clock and the quanta differ in their
times only, all of which are multiplied, and the queues, the counters and the boosts do not differ
at all. If all that the log quotes can be written in that unit, this is so to the end. -/
theorem time_unit_irrelevant (w : Workload) (config : Config) (k : ℕ+)
    (hdvd : config.ioSliceDivisor ∣ config.baseQuantum) :
    ((w.scaled k).Recordable (config.scaled k) →
      ∀ j, ¬ ((w.scaled k).start (config.scaled k)).Stopped .standard j) ∧
    ∀ j, ¬ ((w.scaled k).start (config.scaled k)).Stopped .standard j →
      let s := (w.start config).afterSteps .standard j
      let t := ((w.scaled k).start (config.scaled k)).afterSteps .standard j
      ¬ (w.start config).Stopped .standard j ∧
      t.clock = k * s.clock ∧
      t.timeline.toList = s.timeline.toList.map (·.scaled k) ∧
      t.bank.processes.toList = s.bank.processes.toList.map (·.scaled k) ∧
      (∀ l, t.bank.pids (t.bank.queueAt l) = s.bank.pids (s.bank.queueAt l)) ∧
      t.bank.members.Perm s.bank.members ∧
      t.bank.levels.map Level.quantum = (s.bank.levels.map Level.quantum).map ((k : Int) * ·) ∧
      t.booster.last = k * s.booster.last ∧ t.booster.count = s.booster.count ∧
      t.completed = s.completed ∧ t.switches = s.switches ∧ t.done = s.done ∧
      t.log.toList.map Entry.mark = (s.log.toList.map Entry.mark).map (·.scaled k) := by
  refine ⟨fun hw => not_stopped hw .standard, fun j hj => ?_⟩
  intro s t
  have hearlier : ¬ (w.start config).Stopped .standard j := not_stopped_of_scaled hdvd hj
  have h : s.Alike (.ofUnit (Fin.castOrderIso size_scaled.symm).toOrderEmbedding k) t :=
    alike_scaled hdvd hearlier hj
  have hs : s.Sound := sound_afterSteps j
  have ht : t.Sound := sound_afterSteps j
  have hprocess (i : Fin w.size) :
      t.process (i.cast size_scaled.symm) = (s.process i).scaled k := by
    have hspec : (s.process i).spec = w.spec i := spec_afterSteps j i
    have hspec' : (t.process (i.cast size_scaled.symm)).spec = (w.scaled k).spec _ :=
      spec_afterSteps j _
    refine (h.process i).eq_scaled ?_
    rw [hspec, ← spec_scaled]
    exact hspec'
  have hpids (l : List (Fin w.size)) : t.bank.pids (l.map _) = s.bank.pids l :=
    (h.pids l).trans (List.map_id _)
  refine ⟨hearlier, h.clock, h.timeline, ?_, fun l => ?_, ?_, ?_, h.last, h.count, h.completed,
    h.switches, ?_, ?_⟩
  · refine List.ext_getElem (by simp [size_scaled]) fun l hl hl' => ?_
    rw [List.getElem_map]
    exact hprocess ⟨l, by simpa using hl'⟩
  · rw [h.queues.queueAt, hpids]
  · have hqueued : t.bank.pids t.bank.queued = s.bank.pids s.bank.queued := by
      rw [h.queues.queued, hpids]
    exact ht.bank.members.trans (hqueued ▸ hs.bank.members.symm)
  · have hconfig : s.config = config := config_afterSteps j
    have hconfig' : t.config = config.scaled k := config_afterSteps j
    rw [ht.quanta, hs.quanta, hconfig, hconfig', Config.quanta_scaled]
  · rw [done, done, h.completed, size_scaled]
  · rw [h.marks, Translation.ofUnit_mark]

/-- The reference workload counted in thousandths of its unit. -/
theorem time_unit_irrelevant_reference :
    let k : ℕ+ := 1000
    let s := (reference.start .standard).afterSteps .standard 20
    let t := ((reference.scaled k).start (Config.standard.scaled k)).afterSteps .standard 20
    Config.standard.ioSliceDivisor ∣ Config.standard.baseQuantum ∧
      (reference.scaled k).Recordable (Config.standard.scaled k) ∧
        t.clock = k * s.clock ∧ t.timeline.toList = s.timeline.toList.map (·.scaled k) := by
  intro k
  have hdvd : Config.standard.ioSliceDivisor ∣ Config.standard.baseQuantum := by decide
  have hw : (reference.scaled k).Recordable (Config.standard.scaled k) := by
    refine ⟨⟨?_, ?_, ?_⟩, ?_⟩ <;> decide +kernel
  obtain ⟨hnever, hsame⟩ := time_unit_irrelevant reference .standard k hdvd
  obtain ⟨-, hclock, htimeline, -⟩ := hsame 20 (hnever hw 20)
  exact ⟨hdvd, hw, hclock, htimeline⟩

/-- In a unit that is too fine the first arrival cannot be recorded. -/
theorem reference_stops_in_fine_unit :
    let k : ℕ+ := ⟨Text.digitBound, Text.digitBound_pos⟩
    Config.standard.ioSliceDivisor ∣ Config.standard.baseQuantum ∧
      ¬ (reference.start .standard).Stopped .standard 1 ∧
        ((reference.scaled k).start (Config.standard.scaled k)).Stopped .standard 1 := by
  decide +kernel

end Workload

end FeedbackQueue
