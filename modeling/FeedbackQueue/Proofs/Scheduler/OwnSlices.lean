import FeedbackQueue.Proofs.Scheduler.Reporting
import FeedbackQueue.Proofs.Scheduler.Waiting
import Mathlib.Data.Rat.Floor

/-!
# The slices of one process

When everybody has completed, the slices of a process are cut off its burst one after another.
Each takes a whole turn and leaves something to do, up to the last, which takes what is left and
completes. Only the levels depend on what else there was to run. A process that is alone does not
even wait for the CPU, so its slices also tell when it runs.
-/

namespace FeedbackQueue

variable {slices before after : List Slice} {a b : Slice} {pid : Int}

/-- The slices of a process, in order. -/
def slicesOf (slices : List Slice) (pid : Int) : List Slice := slices.filter (·.pid = pid)

theorem delivered_eq (slices : List Slice) (pid : Int) :
    delivered slices pid = busyTime (slicesOf slices pid) := rfl

theorem busyTime_append (slices more : List Slice) :
    busyTime (slices ++ more) = busyTime slices + busyTime more := by
  simp [busyTime]

theorem busyTime_cons : busyTime (b :: slices) = b.duration + busyTime slices := by
  simp [busyTime]

theorem busyTime_pos (h : ∀ b ∈ slices, 0 < b.duration) (hne : slices ≠ []) :
    0 < busyTime slices :=
  List.sum_pos _ (by simpa using h) (by simpa using hne)

/-- Slices of one length. -/
theorem busyTime_eq_length_mul (h : ∀ b ∈ slices, b.duration = d) :
    busyTime slices = slices.length * d := by
  have hmap : slices.map Slice.duration = .replicate slices.length d := by
    simpa [List.eq_replicate_iff] using h
  simp [busyTime, hmap]

theorem pid_of_mem_slicesOf (h : b ∈ slicesOf slices pid) : b.pid = pid := by
  simpa using (List.mem_filter.mp h).2

/-- Where a slice of a process stands among all slices. -/
theorem slicesOf_eq_append_cons (h : slicesOf slices pid = before ++ b :: after) :
    ∃ former latter, slices = former ++ b :: latter ∧ slicesOf former pid = before ∧
      slicesOf latter pid = after := by
  obtain ⟨former, rest, rfl, hformer, hrest⟩ := List.filter_eq_append_iff.mp h
  obtain ⟨middle, latter, rfl, hmiddle, -, hlatter⟩ := List.filter_eq_cons_iff.mp hrest
  refine ⟨former ++ middle, latter, (List.append_assoc _ _ _).symm, ?_, hlatter⟩
  rw [slicesOf, List.filter_append, hformer, List.filter_eq_nil_iff.mpr hmiddle, List.append_nil]

/-- Between a slice of a process and the next one, others run. -/
theorem slicesOf_eq_append_cons_cons (h : slicesOf slices pid = before ++ a :: b :: after) :
    ∃ former middle latter, slices = former ++ a :: middle ++ b :: latter ∧
      a.pid = b.pid ∧ ∀ c ∈ middle, c.pid ≠ a.pid := by
  have hown : ∀ c ∈ before ++ a :: b :: after, c.pid = pid := fun _ hc =>
    pid_of_mem_slicesOf (h ▸ hc)
  have ha := hown a (by simp)
  have hb := hown b (by simp)
  obtain ⟨former, rest, rfl, -, hrest⟩ := slicesOf_eq_append_cons h
  obtain ⟨middle, latter, rfl, hmiddle, -, -⟩ := List.filter_eq_cons_iff.mp hrest
  refine ⟨former, middle, latter, by simp, ha.trans hb.symm, fun c hc => ?_⟩
  simpa [ha] using hmiddle c hc

/-- How many slices of one length it takes. -/
theorem lt_ceil_div {burst count d : Int} (hd : 0 < d) :
    count < ⌈(burst : ℚ) / d⌉ ↔ count * d < burst := by
  rw [Int.lt_ceil, lt_div_iff₀ (by exact_mod_cast hd)]
  exact_mod_cast Iff.rfl

theorem ceil_div_le {burst count d : Int} (hd : 0 < d) :
    ⌈(burst : ℚ) / d⌉ ≤ count ↔ burst ≤ count * d := by
  rw [← not_lt, lt_ceil_div hd, not_lt]

-- ---------------------------------------------------------------------------
-- A burst in slices
-- ---------------------------------------------------------------------------

/-- Slices that the standard policy cuts off a burst until nothing is left of it. -/
structure Portions (config : Config) (spec : Spec) (slices : List Slice) : Prop where
  lawful : ∀ before b after, slices = before ++ b :: after →
    b.Lawful config spec (spec.burst - busyTime before)
  total : busyTime slices = spec.burst

namespace Portions

variable {config : Config} {spec : Spec}

theorem duration_pos (h : Portions config spec slices) (hb : b ∈ slices) : 0 < b.duration := by
  obtain ⟨before, after, heq⟩ := List.append_of_mem hb
  exact (h.lawful before b after heq).duration_pos

theorem owed (h : Portions config spec slices) (heq : slices = before ++ b :: after) :
    spec.burst - busyTime before = b.duration + busyTime after := by
  have htotal := h.total
  rw [heq, busyTime_append, busyTime_cons] at htotal
  omega

theorem duration_le (h : Portions config spec slices) (heq : slices = before ++ b :: after) :
    b.duration ≤ config.turn spec.ioBound b.level := by
  rw [(h.lawful before b after heq).duration]
  exact Int.min_le_right _ _

/-- Whatever is not the last slice takes a whole turn, which was not enough. -/
theorem unfinished (h : Portions config spec slices) (heq : slices = before ++ b :: after)
    (hmore : after ≠ []) :
    b.duration = config.turn spec.ioBound b.level ∧
      b.outcome = if spec.ioBound ∧ config.ioSliceDivisor ≠ 1 then .ioYield else .demoted := by
  have hlawful := h.lawful before b after heq
  have howed := h.owed heq
  have hrest : 0 < busyTime after :=
    busyTime_pos (fun c hc => h.duration_pos (by simp [heq, hc])) hmore
  have hduration := hlawful.duration
  have hturn : ¬ spec.burst - busyTime before ≤ config.turn spec.ioBound b.level := by omega
  exact ⟨by omega, by rw [hlawful.outcome, if_neg hturn]⟩

theorem completed (h : Portions config spec slices) (heq : slices = before ++ [b]) :
    b.duration = spec.burst - busyTime before ∧ b.outcome = .completed := by
  have hlawful := h.lawful before b [] heq
  have howed : spec.burst - busyTime before = b.duration + 0 := h.owed heq
  have hturn := h.duration_le heq
  exact ⟨by omega, by rw [hlawful.outcome, if_pos (by omega)]⟩

/-- There is a last slice, since a burst takes time. -/
theorem exists_last (h : Portions config spec slices) : ∃ init last, slices = init ++ [last] := by
  rcases List.eq_nil_or_concat' slices with rfl | hlast
  · have hburst := spec.burst_pos
    have htotal : (0 : Int) = spec.burst := h.total
    omega
  · exact hlast

end Portions

namespace Scheduler

/-- Once everybody has completed, the slices of each process are cut off its burst. -/
theorem AccountedFor.portions {s : Scheduler n} (hs : s.Sound) (h : s.Accounted) (hdone : s.done)
    (i : Fin n) :
    Portions s.config (s.process i).spec (slicesOf s.timeline.toList (s.process i).pid) := by
  constructor
  · intro before b after heq
    have hmem : b ∈ slicesOf s.timeline.toList (s.process i).pid := by simp [heq]
    have hpid := pid_of_mem_slicesOf hmem
    obtain ⟨former, latter, hslices, hbefore, -⟩ := slicesOf_eq_append_cons heq
    obtain ⟨j, hj, hlawful⟩ := h.lawful former b latter hslices trivial
    obtain rfl : j = i := hs.bank.distinct (hj.trans hpid)
    rwa [delivered_eq, hpid, hbefore] at hlawful
  · have hremaining := h.remaining i trivial
    have hterminated := Proc.isSome_completion.mpr (hs.done_iff.mp hdone i)
    rw [(hs.process i).done_iff.mpr hterminated, delivered_eq] at hremaining
    omega

theorem FirstRuns.firstRun_eq {s : Scheduler n} (h : s.FirstRuns) (i : Fin n) :
    (s.process i).firstRun =
      (slicesOf s.timeline.toList (s.process i).pid).head?.map Slice.start := by
  rw [h i, slicesOf, List.head?_filter]

-- ---------------------------------------------------------------------------
-- Alone
-- ---------------------------------------------------------------------------

variable {w : Workload} {s : Scheduler w.size}

/-- A workload with one process. -/
theorem eq_of_alone (halone : w.size = 1) (i j : Fin w.size) : i = j := by
  have hi := i.isLt
  have hj := j.isLt
  exact Fin.ext (by omega)

theorem ChartedFor.pid_alone (hcharted : s.Charted) (halone : w.size = 1) (i : Fin w.size)
    (hb : b ∈ s.timeline.toList) : b.pid = (s.process i).pid := by
  obtain ⟨j, hj⟩ := hcharted.owner b hb
  rw [← hj, eq_of_alone halone j i]

theorem ChartedFor.slicesOf_alone (hcharted : s.Charted) (halone : w.size = 1) (i : Fin w.size) :
    slicesOf s.timeline.toList (s.process i).pid = s.timeline.toList :=
  List.filter_eq_self.mpr fun _ hb => by simpa using hcharted.pid_alone halone i hb

namespace Conserving

/-- A process that is alone runs as soon as it is ready. -/
theorem start_alone (hcharted : s.Charted) (h : s.Conserving w) (halone : w.size = 1)
    (i : Fin w.size) (heq : s.timeline.toList = before ++ b :: after) :
    b.start = readyTime s.config before (w.spec i) := by
  obtain ⟨m, hm, hstart⟩ := h.starts before b after heq
  obtain ⟨⟨spec, hspec, -, rfl⟩, -⟩ := leastReady_eq_some.mp hm
  obtain ⟨j, rfl⟩ := Workload.mem_specs.mp hspec
  rw [eq_of_alone halone j i] at hstart
  have hfree : freeFrom 0 before ≤ readyTime s.config before (w.spec i) := by
    rcases List.eq_nil_or_concat' before with rfl | ⟨earlier, a, rfl⟩
    · exact (w.spec i).arrival_nonneg
    · have hpid : a.pid = (w.spec i).pid := by
        rw [← (h.agrees i).job]
        exact hcharted.pid_alone halone i (by simp [heq])
      have hio := s.config.ioDuration_nonneg
      rw [freeFrom_concat, readyTime_concat hpid]
      split <;> omega
  rw [hstart, Int.max_eq_right hfree]

/-- Its slices follow each other, but for the I/O between them. -/
theorem next_alone (hcharted : s.Charted) (h : s.Conserving w) (halone : w.size = 1)
    (heq : s.timeline.toList = before ++ a :: b :: after) :
    b.start = if a.outcome = .ioYield then a.stop + s.config.ioDuration else a.stop := by
  obtain ⟨i, hi⟩ := hcharted.owner a (by simp [heq])
  have hstart := h.start_alone hcharted halone i
    (show s.timeline.toList = (before ++ [a]) ++ b :: after by simpa using heq)
  rw [Proc.pid, (h.agrees i).job] at hi
  rwa [readyTime_concat hi.symm] at hstart

/-- What has passed since the arrival is CPU time and I/O. -/
theorem elapsed_alone (hcharted : s.Charted) (h : s.Conserving w) (halone : w.size = 1)
    (i : Fin w.size) (heq : s.timeline.toList = before ++ b :: after) :
    b.start = (w.spec i).arrival + busyTime before +
      before.countP (·.outcome = .ioYield) * s.config.ioDuration := by
  induction before using List.reverseRecOn generalizing b after with
  | nil =>
    rw [h.start_alone hcharted halone i heq]
    simp [readyTime, busyTime]
  | append_singleton earlier a ih =>
    have hsplit : s.timeline.toList = earlier ++ a :: b :: after := by simpa using heq
    have hstart := ih hsplit
    rw [h.next_alone hcharted halone hsplit, busyTime_concat, Slice.stop, List.countP_append,
      List.countP_singleton]
    by_cases hyield : a.outcome = .ioYield <;> simp [hyield, hstart] <;> ring

/-- It completes as soon as its burst and its I/O allow. -/
theorem completion_alone (hs : s.Sound) (hcharted : s.Charted) (haccounted : s.Accounted)
    (h : s.Conserving w) (hdone : s.done) (hlast : ∃ i, (s.process i).completion = some s.clock)
    (halone : w.size = 1) (i : Fin w.size) :
    (s.process i).completion = some ((w.spec i).arrival + (w.spec i).burst +
      s.timeline.toList.countP (·.outcome = .ioYield) * s.config.ioDuration) := by
  have hportions := haccounted.portions hs hdone i
  rw [hcharted.slicesOf_alone halone i, (h.agrees i).job] at hportions
  obtain ⟨init, last, heq⟩ := hportions.exists_last
  obtain ⟨hduration, hcompleted⟩ := hportions.completed heq
  have hstart := h.elapsed_alone hcharted halone i heq
  have hclock : s.clock = last.stop := by
    rw [h.clock_of_done hs hdone, heq, freeFrom_concat]
  obtain ⟨j, hj⟩ := hlast
  rw [eq_of_alone halone i j, hj, hclock, Slice.stop, heq, List.countP_append,
    List.countP_singleton, hcompleted, eq_of_alone halone j i]
  simp
  omega

end Conserving

end Scheduler

-- ---------------------------------------------------------------------------
-- Stepped to the end
-- ---------------------------------------------------------------------------

namespace Workload

open Scheduler

variable {w : Workload} {config : Config} {k : Nat}

theorem portions_afterSteps (i : Fin w.size) :
    let s := (w.start config).afterSteps .standard k
    s.done → Portions config (w.spec i) (slicesOf s.timeline.toList (w.spec i).pid) := by
  intro s hdone
  have hs : s.Sound := sound_afterSteps k
  have haccounted : s.Accounted := accounted_afterSteps config k
  have hconfig : s.config = config := config_afterSteps k
  have hspec : (s.process i).spec = w.spec i := spec_afterSteps k i
  have hportions := haccounted.portions hs hdone i
  rwa [hconfig, Proc.pid, hspec] at hportions

theorem firstRun_afterSteps (hk : ¬ (w.start config).Stopped .standard k) (i : Fin w.size) :
    let s := (w.start config).afterSteps .standard k
    (s.process i).firstRun =
      (slicesOf s.timeline.toList (w.spec i).pid).head?.map Slice.start := by
  intro s
  have hfirst : s.FirstRuns := firstRuns_afterSteps hk
  have hspec : (s.process i).spec = w.spec i := spec_afterSteps k i
  rw [hfirst.firstRun_eq i, Proc.pid, hspec]

theorem slicesOf_afterSteps_alone (halone : w.size = 1) (i : Fin w.size) :
    let s := (w.start config).afterSteps .standard k
    slicesOf s.timeline.toList (w.spec i).pid = s.timeline.toList := by
  intro s
  have hcharted : s.Charted := charted_afterSteps .standard k
  have hspec : (s.process i).spec = w.spec i := spec_afterSteps k i
  have hall := hcharted.slicesOf_alone halone i
  rwa [Proc.pid, hspec] at hall

theorem completion_afterSteps_alone (halone : w.size = 1) (i : Fin w.size) :
    let s := (w.start config).afterSteps .standard k
    s.done → (s.process i).completion = some ((w.spec i).arrival + (w.spec i).burst +
      (slicesOf s.timeline.toList (w.spec i).pid).countP (·.outcome = .ioYield) *
        config.ioDuration) := by
  intro s hdone
  have hs : s.Sound := sound_afterSteps k
  have hcharted : s.Charted := charted_afterSteps .standard k
  have haccounted : s.Accounted := accounted_afterSteps config k
  have hk := not_stopped_of_done .standard hdone
  have hconserving : s.Conserving w := conserving_afterSteps .standard hk
  have hconfig : s.config = config := config_afterSteps k
  rw [hconserving.completion_alone hs hcharted haccounted hdone
    (exists_last_completion .standard k hdone) halone i, hconfig,
    slicesOf_afterSteps_alone halone i]

end Workload

end FeedbackQueue
