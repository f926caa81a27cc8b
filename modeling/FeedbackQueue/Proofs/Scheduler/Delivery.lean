import FeedbackQueue.Proofs.Scheduler.Levels
import FeedbackQueue.Proofs.Scheduler.Timeline

/-!
# What a slice delivers

Under the standard policy the length and the outcome of a slice follow from its level, the
kind of its process and the CPU time that the process still owed. This holds in whatever
order the stages are called, since no call leaves a quantum half used, and takes a process
that yields early from the top level.
-/

namespace FeedbackQueue

/-- How long a process may run at a time: an I/O-bound one for its part of the quantum. A
divisor of 1 makes that part the whole. -/
def Config.turn (config : Config) (ioBound : Bool) (k : Nat) : Int :=
  if ioBound ∧ config.ioSliceDivisor ≠ 1 then config.ioPart k else config.quantum k

theorem Config.turn_le_quantum (config : Config) (ioBound : Bool) (k : Nat) :
    config.turn ioBound k ≤ config.quantum k := by
  unfold turn
  split
  · exact Int.ediv_le_self _ (Int.le_of_lt (quantum_pos k))
  · exact Int.le_refl _

/-- What the standard policy makes of a slice of a job that owed some CPU time before. -/
structure Slice.Lawful (config : Config) (spec : Spec) (owed : Int) (b : Slice) : Prop where
  quantum : b.quantum = config.quantum b.level
  duration : b.duration = min owed (config.turn spec.ioBound b.level)
  duration_pos : 0 < b.duration
  outcome : b.outcome =
    if owed ≤ config.turn spec.ioBound b.level then .completed
    else if spec.ioBound ∧ config.ioSliceDivisor ≠ 1 then .ioYield
    else .demoted
  level : spec.ioBound → config.ioSliceDivisor ≠ 1 → b.level = 0

namespace Slice.Lawful

variable {config : Config} {spec : Spec} {owed : Int} {b : Slice}

theorem outcome_ne_requeued (h : b.Lawful config spec owed) : b.outcome ≠ .requeued := by
  rw [h.outcome]
  split
  · exact nofun
  · split <;> exact nofun

theorem whole (h : b.Lawful config spec owed)
    (hwhole : spec.ioBound = false ∨ config.ioSliceDivisor = 1) :
    b.duration = min owed b.quantum ∧
      b.outcome = if owed ≤ b.quantum then .completed else .demoted := by
  have hkind : ¬ (spec.ioBound ∧ config.ioSliceDivisor ≠ 1) := by
    rintro ⟨hio, hdivisor⟩
    rcases hwhole with hcpu | hone
    · simp [hcpu] at hio
    · exact hdivisor hone
  have hturn : config.turn spec.ioBound b.level = b.quantum := by
    rw [Config.turn, if_neg hkind, h.quantum]
  have houtcome := h.outcome
  rw [hturn, if_neg hkind] at houtcome
  exact ⟨hturn ▸ h.duration, houtcome⟩

theorem part (h : b.Lawful config spec owed) (hio : spec.ioBound)
    (hdivisor : config.ioSliceDivisor ≠ 1) :
    b.level = 0 ∧ b.duration = min owed (b.quantum / config.ioSliceDivisor) ∧
      b.outcome = if owed ≤ b.quantum / config.ioSliceDivisor then .completed else .ioYield := by
  have hkind : spec.ioBound ∧ config.ioSliceDivisor ≠ 1 := ⟨hio, hdivisor⟩
  have hturn : config.turn spec.ioBound b.level = b.quantum / config.ioSliceDivisor := by
    rw [Config.turn, if_pos hkind, Config.ioPart, h.quantum]
  have houtcome := h.outcome
  rw [hturn, if_pos hkind] at houtcome
  exact ⟨h.level hio hdivisor, hturn ▸ h.duration, houtcome⟩

end Slice.Lawful

namespace Scheduler

variable {s t : Scheduler n}

-- ---------------------------------------------------------------------------
-- One slice
-- ---------------------------------------------------------------------------

/-- The counter of a fresh process takes nothing off its quantum. -/
theorem share_eq_min (hfresh : s.Fresh) (hi : (s.process i).completion = none) :
    s.share i = min (s.process i).remaining
      (s.config.turn (s.process i).spec.ioBound (s.process i).level) := by
  have hused := hfresh i hi
  unfold share Config.turn
  cases (s.process i).spec.ioBound with
  | false => simp [hused]
  | true =>
    by_cases hone : s.config.ioSliceDivisor = 1
    · simp [hone, Config.ioPart, Int.min_comm]
    · simp [hone, Int.min_comm]

theorem share_le_quantum (hfresh : s.Fresh) (hi : (s.process i).completion = none) :
    s.share i ≤ s.config.quantum (s.process i).level := by
  rw [share_eq_min hfresh hi]
  exact Int.le_trans (Int.min_le_right _ _) (Config.turn_le_quantum _ _ _)

theorem lawful_slice (hs : s.Sound) (hfresh : s.Fresh) (hi : (s.process i).phase = .running)
    (hanchored : (s.process i).Anchored s.config) :
    (s.slice i (s.share i)).Lawful s.config (s.process i).spec (s.process i).remaining := by
  have hlive := Proc.completion_of_running hi
  have hshare := share_eq_min hfresh hlive
  refine ⟨rfl, hshare, share_pos hs hfresh hlive, ?_, hanchored.yielding⟩
  have hall : s.share i = (s.process i).remaining ↔ (s.process i).remaining ≤
      s.config.turn (s.process i).spec.ioBound (s.process i).level := by
    rw [hshare]
    omega
  rw [outcome_share hfresh hlive]
  simp only [hall]
  rfl

-- ---------------------------------------------------------------------------
-- All slices so far
-- ---------------------------------------------------------------------------

theorem anchored_of_advance (hs : s.Sound) (hfresh : s.Fresh) (h : Advance .standard s t)
    (hanchored : ∀ i, (s.process i).Anchored s.config) (j : Fin n) :
    (t.process j).Anchored t.config := by
  rw [h.config_eq]
  cases change_of_advance h j with
  | keep heq => exact heq ▸ hanchored j
  | enter _ _ heq => exact heq ▸ (hanchored j).admitted
  | raise _ _ heq => exact heq ▸ (hanchored j).raise
  | dispatch _ heq => exact heq ▸ (hanchored j).dispatched
  | execute hrunning hpolicy _ _ heq =>
    rw [standard_eq hs, Except.ok.injEq] at hpolicy
    subst hpolicy
    have hran : ((s.process j).ran (s.share j)).Anchored s.config :=
      ⟨(hanchored j).new, (hanchored j).yielding, (hanchored j).waiting⟩
    exact heq ▸ hran.settled (outcome_share hfresh (Proc.completion_of_running hrunning))

/-- The timeline accounts for all CPU time that was delivered to the processes whose slices are
all listed. -/
structure AccountedFor (listed : Int → Prop) (s : Scheduler n) : Prop where
  fresh : s.Fresh
  anchored : ∀ i, (s.process i).Anchored s.config
  remaining : ∀ i, listed (s.process i).pid → (s.process i).remaining =
    (s.process i).spec.burst - delivered s.timeline.toList (s.process i).pid
  lawful : ∀ before b after, s.timeline.toList = before ++ b :: after → listed b.pid →
    ∃ i, (s.process i).pid = b.pid ∧ b.Lawful s.config (s.process i).spec
      ((s.process i).spec.burst - delivered before b.pid)

/-- The timeline accounts for all CPU time that was delivered. -/
abbrev Accounted (s : Scheduler n) : Prop := s.AccountedFor fun _ => True

namespace AccountedFor

variable {listed : Int → Prop}

/-- Whatever lists no slice leaves the account as it is. -/
theorem congr (h : s.AccountedFor listed) (hcharted : t.ChartedFor listed) (hfresh : t.Fresh)
    (hanchored : ∀ i, (t.process i).Anchored t.config)
    (hspec : ∀ i, (t.process i).spec = (s.process i).spec) (hconfig : t.config = s.config)
    (htimeline : t.timeline = s.timeline) : t.AccountedFor listed := by
  refine ⟨hfresh, hanchored, hcharted.remaining, ?_⟩
  simp only [htimeline, hconfig, Proc.pid, hspec]
  exact h.lawful

theorem ran (hs : s.Sound) (h : s.AccountedFor listed) (hi : (s.process i).phase = .running)
    (hcharted : (s.ran i (s.share i)).ChartedFor listed) (hfresh : (s.ran i (s.share i)).Fresh)
    (hanchored : ∀ j, ((s.ran i (s.share i)).process j).Anchored s.config)
    (hspec : ∀ j, ((s.ran i (s.share i)).process j).spec = (s.process j).spec) :
    (s.ran i (s.share i)).AccountedFor listed := by
  have htimeline : (s.ran i (s.share i)).timeline.toList =
      s.timeline.toList ++ [s.slice i (s.share i)] := Array.toList_push
  refine ⟨hfresh, hanchored, hcharted.remaining, ?_⟩
  simp only [htimeline, Proc.pid, hspec]
  refine forall_split_concat h.lawful fun hlisted => ⟨i, rfl, ?_⟩
  have hlawful := lawful_slice hs h.fresh hi (h.anchored i)
  rw [h.remaining i hlisted] at hlawful
  exact hlawful

/-- What a process still owes is read off the chart, under any policy. -/
theorem of_move (hs : s.Sound) (h : s.AccountedFor listed) (hcharted : t.ChartedFor listed)
    (hmove : Move .standard s t) : t.AccountedFor listed := by
  have hfresh := fresh_of_advance hs h.fresh (.move hmove)
  have hanchored := anchored_of_advance hs h.fresh (.move hmove) h.anchored
  have hspec := hmove.spec_eq
  cases hmove with
  | execute hrunning hpolicy _ _ =>
    rw [standard_eq hs, Except.ok.injEq] at hpolicy
    subst hpolicy
    exact h.ran hs hrunning hcharted hfresh hanchored hspec
  | _ => exact h.congr hcharted hfresh hanchored hspec rfl rfl

theorem of_cut (hs : s.Sound) (h : s.AccountedFor listed) (hcharted : t.ChartedFor listed)
    (hcut : Cut .standard s t) : t.AccountedFor listed :=
  h.congr hcharted (fresh_of_advance hs h.fresh (.cut hcut))
    (anchored_of_advance hs h.fresh (.cut hcut) h.anchored) (Advance.cut hcut).spec_eq
    (Advance.cut hcut).config_eq (timeline_of_cut hcut)

end AccountedFor

end Scheduler

namespace Workload

open Scheduler

variable {w : Workload} {config : Config}

theorem accounted_start {listed : Int → Prop} : (w.start config).AccountedFor listed := by
  refine ⟨?_, ?_, charted_start.remaining, ?_⟩
  · exact atRest_start.fresh rfl
  · intro i
    rw [process_start]
    exact .ofSpec _
  · intro before b after heq
    simp [start, Scheduler.start] at heq

theorem accounted_drive (calls : List (Scheduler.Call w.size)) :
    ((w.start config).drive .standard calls).AccountedFor (Text.isWritable ·) := by
  suffices h : ((w.start config).drive .standard calls).ChartedFor (Text.isWritable ·) ∧
      ((w.start config).drive .standard calls).AccountedFor (Text.isWritable ·) from h.2
  refine drive_induction (P := fun s => s.ChartedFor (Text.isWritable ·) ∧
    s.AccountedFor (Text.isWritable ·)) ?_ ?_ ?_ calls
  · exact ⟨charted_start, accounted_start⟩
  · intro s t hs ⟨hcharted, haccounted⟩ hmove
    have hcharted' := hcharted.of_move hs hmove
    exact ⟨hcharted', haccounted.of_move hs hcharted' hmove⟩
  · intro s t hs ⟨hcharted, haccounted⟩ hcut
    have hcharted' := hcharted.of_cut (fun _ hpid => hpid) hcut
    exact ⟨hcharted', haccounted.of_cut hs hcharted' hcut⟩

/-- Steps run nobody whose dispatch could not be recorded, so they account for everybody. -/
theorem accounted_afterSteps (config : Config) (k : Nat) :
    ((w.start config).afterSteps .standard k).Accounted := by
  obtain ⟨calls, hcalls⟩ := (w.start config).exists_drive .standard k
  have hdrive : ((w.start config).drive .standard calls).AccountedFor _ := accounted_drive calls
  have hlisted : ∀ b ∈ ((w.start config).drive .standard calls).timeline.toList,
      Text.isWritable b.pid := isWritable_of_mem_timeline calls
  rw [← hcalls] at hdrive hlisted
  refine ⟨hdrive.fresh, hdrive.anchored, (charted_afterSteps .standard k).remaining, ?_⟩
  intro before b after heq _
  exact hdrive.lawful before b after heq (hlisted b (by simp [heq]))

/-- In whatever order the stages are called, the length and the outcome of every slice
follow from what its job still owed: a CPU-bound job uses its whole quantum unless it
completes, an I/O-bound one the part of it at which it yields. What a job owes is its burst
less what the slices have delivered, unless its pid is too long to be written: such a job
is given no slices. -/
theorem slice_law (w : Workload) (config : Config) (calls : List (Scheduler.Call w.size)) :
    let s := (w.start config).drive .standard calls
    (∀ i, Text.isWritable (w.spec i).pid → (s.process i).remaining =
      (w.spec i).burst - delivered s.timeline.toList (w.spec i).pid) ∧
    (∀ b ∈ s.timeline.toList, Text.isWritable b.pid) ∧
    ∀ before (b : Slice) after, s.timeline.toList = before ++ b :: after →
      ∃ spec ∈ w.specs, spec.pid = b.pid ∧
        let owed := spec.burst - delivered before b.pid
        let part := b.quantum / config.ioSliceDivisor
        b.quantum = config.baseQuantum * 2 ^ b.level ∧ 1 ≤ b.duration ∧ b.outcome ≠ .requeued ∧
        (spec.ioBound = false ∨ config.ioSliceDivisor = 1 →
          b.duration = min owed b.quantum ∧
            b.outcome = if owed ≤ b.quantum then .completed else .demoted) ∧
        (spec.ioBound = true ∧ 2 ≤ config.ioSliceDivisor →
          b.level = 0 ∧ b.duration = min owed part ∧
            b.outcome = if owed ≤ part then .completed else .ioYield) := by
  intro s
  have h : s.AccountedFor (Text.isWritable ·) := accounted_drive calls
  have hlisted : ∀ b ∈ s.timeline.toList, Text.isWritable b.pid :=
    isWritable_of_mem_timeline calls
  have hconfig : s.config = config := config_drive calls
  have hspec (i) : (s.process i).spec = w.spec i := spec_drive calls i
  refine ⟨fun i => ?_, hlisted, ?_⟩
  · rw [← hspec]
    exact h.remaining i
  · intro before b after heq
    obtain ⟨i, hpid, hlawful⟩ := h.lawful before b after heq (hlisted b (by simp [heq]))
    rw [hspec, hconfig] at hlawful
    rw [Proc.pid, hspec] at hpid
    refine ⟨w.spec i, mem_specs.mpr ⟨i, rfl⟩, hpid, ?_, hlawful.duration_pos, ?_, ?_, ?_⟩
    · exact_mod_cast hlawful.quantum
    · exact hlawful.outcome_ne_requeued
    · exact hlawful.whole
    · rintro ⟨hio, hdivisor⟩
      exact hlawful.part hio (by omega)

end Workload

end FeedbackQueue
