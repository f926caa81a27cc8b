import FeedbackQueue.Proofs.Scheduler.Correspondence
import FeedbackQueue.Proofs.Scheduler.Records

/-!
# What the kind of a job decides

Whether a job is I/O-bound shows in two places only: in how long it may run at a time and
in whether it yields after that. With an I/O slice divisor of 1 it may run for the whole
quantum and never yields, so nothing that is scheduled depends on the kinds of the jobs.
-/

namespace FeedbackQueue

/-- The job with another kind. -/
def Spec.withKind (x : Spec) (ioBound : Bool) : Spec := { x with ioBound }

def Proc.withKind (p : Proc) (ioBound : Bool) : Proc :=
  { p with spec := p.spec.withKind ioBound }

def Workload.withKind (w : Workload) (ioBound : Bool) : Workload where
  specs := w.specs.map (·.withKind ioBound)
  nonempty := by simpa using w.nonempty
  distinct := by simpa [Function.comp_def, Spec.withKind] using w.distinct

variable {config config' : Config} {slot : Fin n ↪o Fin m}

theorem Spec.alike_of_withKind {x y : Spec} (hone : config.ioSliceDivisor = 1)
    (h : x.withKind b = y.withKind b) : x.Alike (.ofSlots slot) config config y := by
  simp only [withKind, mk.injEq] at h
  obtain ⟨hpid, harrival, hburst, -⟩ := h
  constructor
  · exact hpid.symm
  · simp [harrival]
  · simp [hburst]
  · simp [Config.turn, hone]
  · simp [hone]

theorem Proc.Alike.withKind_eq {p q : Proc} (h : p.Alike (.ofSlots slot) config config' q)
    (hspec : p.spec.withKind b = q.spec.withKind b) :
    p.withKind b = q.withKind b := by
  obtain ⟨-, hphase, hremaining, hlevel, hused, hfirst⟩ := h
  cases p
  cases q
  simp only [Translation.ofSlots_phase, Translation.ofSlots_time, Option.map_id_fun, id] at *
  simp [withKind, *]

namespace Workload

open Scheduler

variable {w w' : Workload}

theorem size_eq_of_withKind (hsame : w.withKind b = w'.withKind b) : w.size = w'.size := by
  simpa [size, withKind] using congrArg size hsame

theorem spec_withKind (hsame : w.withKind b = w'.withKind b) (i : Fin w.size) :
    (w.spec i).withKind b = (w'.spec (i.cast (size_eq_of_withKind hsame))).withKind b := by
  have hlt : i.val < (w.specs.map (·.withKind b)).length := by
    rw [List.length_map]
    exact i.isLt
  have hspecs : w.specs.map (·.withKind b) = w'.specs.map (·.withKind b) := congrArg specs hsame
  have hget := List.getElem_of_eq hspecs hlt
  rw [List.getElem_map, List.getElem_map] at hget
  exact hget

theorem alike_of_withKind (hone : config.ioSliceDivisor = 1)
    (hsame : w.withKind b = w'.withKind b) (k : Nat) :
    ((w.start config).afterSteps .standard k).Alike
      (.ofSlots (Fin.castOrderIso (size_eq_of_withKind hsame)).toOrderEmbedding)
      ((w'.start config).afterSteps .standard k) :=
  (alike_start .refl fun i => Spec.alike_of_withKind hone (spec_withKind hsame i)).afterSteps
    (Fin.castOrderIso _).surjective atRest_start atRest_start k

/-- No slice ends with a yield, and the log has no entry of one. -/
theorem never_yields (hone : config.ioSliceDivisor = 1) (k : Nat) :
    let s := (w.start config).afterSteps .standard k
    (∀ b ∈ s.timeline.toList, b.outcome ≠ .ioYield) ∧ s.log.ofKind .ioYield = [] := by
  intro s
  have haccounted : s.Accounted := accounted_afterSteps config k
  have hlogged : s.Logged := logged_afterSteps k
  have hconfig : s.config = config := config_afterSteps k
  have hnever : ∀ b ∈ s.timeline.toList, b.outcome ≠ .ioYield := by
    intro b hb
    obtain ⟨before, after, heq⟩ := List.append_of_mem hb
    obtain ⟨i, -, hlawful⟩ := haccounted.lawful before b after heq trivial
    rw [(hlawful.whole (.inr (hconfig ▸ hone))).2]
    split <;> exact nofun
  refine ⟨hnever, List.eq_nil_iff_forall_not_mem.mpr fun e he => ?_⟩
  rw [Log.ofKind_eq, List.mem_filter, decide_eq_true_eq] at he
  obtain ⟨he, hkind⟩ := he
  obtain ⟨b, hb, hcloses⟩ := hlogged.exists_slice he (by rw [hkind]; rfl)
  have houtcome := hcloses.kind.symm.trans hkind
  cases ho : b.outcome with
  | ioYield => exact hnever b hb ho
  | _ => simp [ho, Outcome.kind] at houtcome

/-- With an I/O slice divisor of 1, workloads that differ in the kinds of their jobs only are
scheduled alike: after any number of steps they have the same clock, slices, queues, boosts
and counters, and processes that differ in their kind only. Nobody ever yields for I/O. -/
theorem kinds_irrelevant (w w' : Workload) (config : Config) (hone : config.ioSliceDivisor = 1)
    (hsame : w.withKind false = w'.withKind false) (k : Nat) :
    let s := (w.start config).afterSteps .standard k
    let t := (w'.start config).afterSteps .standard k
    t.clock = s.clock ∧ t.timeline = s.timeline ∧
    (∀ l, t.bank.pids (t.bank.queueAt l) = s.bank.pids (s.bank.queueAt l)) ∧
    t.bank.members.Perm s.bank.members ∧
    t.bank.processes.toList.map (·.withKind false) =
      s.bank.processes.toList.map (·.withKind false) ∧
    t.booster.last = s.booster.last ∧ t.booster.count = s.booster.count ∧
    t.boostTimes = s.boostTimes ∧ t.completed = s.completed ∧ t.switches = s.switches ∧
    t.done = s.done ∧ t.log.toList.map Entry.mark = s.log.toList.map Entry.mark ∧
    (∀ b ∈ s.timeline.toList, b.outcome ≠ .ioYield) ∧ s.log.ofKind .ioYield = [] := by
  intro s t
  have hsize := size_eq_of_withKind hsame
  have h : s.Alike (.ofSlots (Fin.castOrderIso hsize).toOrderEmbedding) t :=
    alike_of_withKind hone hsame k
  have hs : s.Sound := sound_afterSteps k
  have ht : t.Sound := sound_afterSteps k
  have hpids (l : Nat) : t.bank.pids (t.bank.queueAt l) = s.bank.pids (s.bank.queueAt l) := by
    rw [h.queues.queueAt, h.pids]
    exact List.map_id _
  have hmarks : t.log.toList.map Entry.mark = s.log.toList.map Entry.mark := by
    simpa using h.marks
  have hboosts (l : Nat) (u : Scheduler l) : u.boostTimes =
      ((u.log.toList.map Entry.mark).filter (·.kind = .boost)).map Mark.time := by
    rw [boostTimes, Log.ofKind_eq, List.filter_map, List.map_map]
    rfl
  have hprocess (i : Fin w.size) :
      (t.process (i.cast hsize)).withKind false = (s.process i).withKind false := by
    have hspec : (s.process i).spec = w.spec i := spec_afterSteps k i
    have hspec' : (t.process (i.cast hsize)).spec = w'.spec (i.cast hsize) := spec_afterSteps k _
    refine ((h.process i).withKind_eq ?_).symm
    show (s.process i).spec.withKind false = (t.process (i.cast hsize)).spec.withKind false
    rw [hspec, hspec', spec_withKind hsame i]
  refine ⟨by simpa using h.clock, ?_, hpids, ?_, ?_, by simpa using h.last, h.count, ?_,
    h.completed, h.switches, ?_, hmarks, never_yields hone k⟩
  · exact Array.toList_inj.mp (by simpa using h.timeline)
  · have hqueued : t.bank.pids t.bank.queued = s.bank.pids s.bank.queued := by
      rw [h.queues.queued, h.pids]
      exact List.map_id _
    exact ht.bank.members.trans (hqueued ▸ hs.bank.members.symm)
  · refine List.ext_getElem (by simp [hsize]) fun l hl hl' => ?_
    rw [List.getElem_map, List.getElem_map]
    exact hprocess ⟨l, by simpa using hl'⟩
  · rw [hboosts, hboosts, hmarks]
  · rw [done, done, h.completed, ← hsize]

/-- The reference workload and the one with I/O-bound jobs only. -/
theorem kinds_irrelevant_reference :
    let config := { Config.standard with
      ioSliceDivisor := 1, ioSliceDivisor_pos := by decide, ioSliceDivisor_le := by decide }
    let s := (reference.start config).afterSteps .standard 12
    let t := ((reference.withKind true).start config).afterSteps .standard 12
    reference.withKind false = (reference.withKind true).withKind false ∧
      t.clock = s.clock ∧ t.timeline = s.timeline := by
  intro config s t
  have h := kinds_irrelevant reference (reference.withKind true) config rfl rfl 12
  exact ⟨rfl, h.1, h.2.1⟩

end Workload

end FeedbackQueue
