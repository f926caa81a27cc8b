import FeedbackQueue.Proofs.Scheduler.OwnSlices

/-!
# The slices of an I/O-bound process

A process that yields for I/O is never demoted, so all its turns are the same part of the shortest
quantum. How many slices it gets, and how long they are, is therefore known in advance, whoever
else runs and however often boosts fire. If nobody else runs, it is known too when they start.
-/

namespace FeedbackQueue

variable {config : Config} {spec : Spec} {slices before after : List Slice} {a b : Slice}

/-- The slices of an I/O-bound process are all at the top level. Every one but the last takes the
part of the quantum at which it yields, and the last takes what is left. -/
structure YieldingSlices (config : Config) (spec : Spec) (yields : List Slice) (last : Slice) :
    Prop where
  yield : ∀ b ∈ yields, b.level = 0 ∧ b.duration = config.ioPart 0 ∧ b.outcome = .ioYield
  level : last.level = 0
  duration : last.duration = spec.burst - yields.length * config.ioPart 0
  outcome : last.outcome = .completed

namespace Portions

theorem turn_eq_ioPart (h : Portions config spec slices) (hio : spec.ioBound)
    (hdivisor : config.ioSliceDivisor ≠ 1) (heq : slices = before ++ b :: after) :
    b.level = 0 ∧ config.turn spec.ioBound b.level = config.ioPart 0 := by
  have hlevel := (h.lawful before b after heq).level hio hdivisor
  exact ⟨hlevel, by rw [Config.turn, if_pos ⟨hio, hdivisor⟩, hlevel]⟩

theorem yielding (h : Portions config spec slices) (hio : spec.ioBound)
    (hdivisor : config.ioSliceDivisor ≠ 1) :
    ∃ yields last, slices = yields ++ [last] ∧ YieldingSlices config spec yields last := by
  obtain ⟨yields, last, heq⟩ := h.exists_last
  have hyield : ∀ b ∈ yields, b.level = 0 ∧ b.duration = config.ioPart 0 ∧
      b.outcome = .ioYield := by
    intro b hb
    obtain ⟨before, after, rfl⟩ := List.append_of_mem hb
    have hsplit : slices = before ++ b :: (after ++ [last]) := by simpa using heq
    obtain ⟨hlevel, hturn⟩ := h.turn_eq_ioPart hio hdivisor hsplit
    obtain ⟨hduration, houtcome⟩ := h.unfinished hsplit (by simp)
    exact ⟨hlevel, hduration.trans hturn, by rw [houtcome, if_pos ⟨hio, hdivisor⟩]⟩
  obtain ⟨hduration, houtcome⟩ := h.completed heq
  refine ⟨yields, last, heq, hyield, (h.turn_eq_ioPart hio hdivisor heq).1, ?_, houtcome⟩
  rw [hduration, busyTime_eq_length_mul fun b hb => (hyield b hb).2.1]

/-- The number of slices is that of the parts of which the last one covers the burst. -/
theorem length_yielding (h : Portions config spec slices) (hio : spec.ioBound)
    (hdivisor : config.ioSliceDivisor ≠ 1) :
    (slices.length : Int) = ⌈(spec.burst : ℚ) / config.ioPart 0⌉ := by
  obtain ⟨yields, last, heq, hslices⟩ := h.yielding hio hdivisor
  have hpos := config.ioPart_pos 0
  have hlast : 0 < last.duration := h.duration_pos (by simp [heq])
  have hpart := h.duration_le heq
  rw [(h.turn_eq_ioPart hio hdivisor heq).2] at hpart
  rw [hslices.duration] at hlast hpart
  have hlength : (slices.length : Int) = yields.length + 1 := by simp [heq]
  have hlower : (yields.length : Int) < ⌈(spec.burst : ℚ) / config.ioPart 0⌉ :=
    (lt_ceil_div hpos).mpr (by omega)
  have hupper : ⌈(spec.burst : ℚ) / config.ioPart 0⌉ ≤ (yields.length : Int) + 1 :=
    (ceil_div_le hpos).mpr (by rw [Int.add_mul]; omega)
  omega

theorem outcome_eq_ioYield (h : Portions config spec slices) (hio : spec.ioBound)
    (hdivisor : config.ioSliceDivisor ≠ 1) (heq : slices = before ++ a :: b :: after) :
    a.outcome = .ioYield := by
  rw [(h.unfinished heq (by simp)).2, if_pos ⟨hio, hdivisor⟩]

end Portions

theorem YieldingSlices.countP_eq (h : YieldingSlices config spec yields last) :
    (yields ++ [last]).countP (·.outcome = .ioYield) = yields.length := by
  rw [List.countP_append, List.countP_singleton, h.outcome,
    List.countP_eq_length.mpr fun b hb => by simpa using (h.yield b hb).2.2]
  rfl

namespace Workload

open Scheduler

/-- When a workload has been stepped to its end, an I/O-bound process that yields has as many
slices as parts of a quantum cover its burst. All are at the top level and of one length, but for
what is left for the last, and I/O lies between them. If the process was alone, it first ran when
it arrived, and nothing but the I/O separates its slices. -/
theorem io_bound_slices (w : Workload) (config : Config) (hdivisor : 2 ≤ config.ioSliceDivisor)
    (k : Nat) :
    let s := (w.start config).afterSteps .standard k
    let part := config.baseQuantum / config.ioSliceDivisor
    s.done → ∀ i, (w.spec i).ioBound →
      let own := slicesOf s.timeline.toList (w.spec i).pid
      (∃ yields last, own = yields ++ [last] ∧
        (own.length : Int) = ⌈((w.spec i).burst : ℚ) / part⌉ ∧
        (∀ b ∈ yields, b.level = 0 ∧ b.duration = part ∧ b.outcome = .ioYield) ∧
        last.level = 0 ∧ last.duration = (w.spec i).burst - (own.length - 1) * part ∧
        last.outcome = .completed) ∧
      own.IsChain (fun a b => config.ioDuration ≤ b.start - a.stop) ∧
      (w.size = 1 → (s.process i).firstRun = some (w.spec i).arrival ∧
        own.IsChain (fun a b => b.start - a.stop = config.ioDuration) ∧
        (s.process i).completion = some ((w.spec i).arrival + (w.spec i).burst +
          (own.length - 1) * config.ioDuration)) := by
  intro s part hdone i hio own
  have hk := not_stopped_of_done .standard hdone
  have hattended : s.Attended w := attended_afterSteps hk
  have hconfig : s.config = config := config_afterSteps k
  have hpart : config.ioPart 0 = part := by rw [Config.ioPart, Config.quantum_zero]
  have hone : config.ioSliceDivisor ≠ 1 := by omega
  have hportions : Portions config (w.spec i) own := portions_afterSteps i hdone
  obtain ⟨yields, last, heq, hslices⟩ := hportions.yielding hio hone
  have hlength : (own.length : Int) - 1 = yields.length := by simp [heq]
  refine ⟨⟨yields, last, heq, ?_, ?_, hslices.level, ?_, hslices.outcome⟩, ?_, fun halone => ?_⟩
  · rw [hportions.length_yielding hio hone, hpart]
  · rw [← hpart]
    exact hslices.yield
  · rw [hslices.duration, hlength, hpart]
  · refine List.isChain_iff_forall_rel_of_append_cons_cons.mpr fun a b before after hsplit => ?_
    obtain ⟨former, middle, latter, htimeline, hpid, hmiddle⟩ :=
      slicesOf_eq_append_cons_cons hsplit
    have hready := (hattended.next_served htimeline hpid hmiddle).1
    rw [if_pos (hportions.outcome_eq_ioYield hio hone hsplit), hconfig] at hready
    omega
  · have htimeline : own = s.timeline.toList := slicesOf_afterSteps_alone halone i
    have hcharted : s.Charted := charted_afterSteps .standard k
    have hconserving := hattended.toConserving
    refine ⟨?_, ?_, ?_⟩
    · obtain ⟨b, rest, hown⟩ : ∃ b rest, own = b :: rest :=
        List.exists_cons_of_ne_nil (by simp [heq])
      have hstart := hconserving.start_alone hcharted halone i
        (show s.timeline.toList = [] ++ b :: rest from htimeline ▸ hown)
      rw [firstRun_afterSteps hk, show slicesOf s.timeline.toList (w.spec i).pid = _ from hown,
        List.head?_cons, Option.map_some, hstart]
      rfl
    · refine List.isChain_iff_forall_rel_of_append_cons_cons.mpr fun a b before after hsplit => ?_
      have hstart := hconserving.next_alone hcharted halone (htimeline ▸ hsplit)
      rw [if_pos (hportions.outcome_eq_ioYield hio hone hsplit), hconfig] at hstart
      omega
    · rw [completion_afterSteps_alone halone i hdone,
        show slicesOf s.timeline.toList (w.spec i).pid = _ from heq, hslices.countP_eq, hlength]

/-- A burst of 5 in parts of 2, with two waits of 10 units between them. -/
theorem io_bound_slices_alone :
    let w : Workload :=
      { specs := [⟨1, 0, 5, true, none, by decide, by decide, by decide⟩],
        nonempty := by decide, distinct := by decide }
    2 ≤ Config.standard.ioSliceDivisor ∧ ∃ k,
      let s := (w.start .standard).afterSteps .standard k
      s.done ∧ (slicesOf s.timeline.toList 1).length = 3 ∧
        (s.process ⟨0, by decide⟩).completion = some 25 := by
  intro w
  have hdivisor : 2 ≤ Config.standard.ioSliceDivisor := by decide
  have hrecordable : w.Recordable .standard := by
    refine ⟨⟨?_, ?_, ?_⟩, ?_⟩ <;> decide +kernel
  obtain ⟨k, hdone⟩ := exists_done hrecordable .standard
  obtain ⟨⟨-, -, -, hlength, -⟩, -, halone⟩ :=
    io_bound_slices w .standard hdivisor k hdone ⟨0, by decide⟩ rfl
  have hthree : ⌈((5 : Int) : ℚ) / ((10 / 5 : Int) : ℚ)⌉ = 3 := by norm_num [Int.ceil_eq_iff]
  have hcount := hlength.trans hthree
  refine ⟨hdivisor, k, hdone, Int.ofNat.inj hcount, ?_⟩
  rw [(halone rfl).2.2, hcount]
  rfl

end Workload

end FeedbackQueue
