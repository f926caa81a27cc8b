import FeedbackQueue.Proofs.Binary64.Nearest
import FeedbackQueue.Proofs.Proc.Calls
import FeedbackQueue.Proofs.Report.Laws

/-!
# What averages describe

A group of a report is about the completed processes of one kind. All of them have all three
times, and an average is the double nearest to the mean of these integers, which are summed up
before anything is rounded. So no average depends on the order of the processes, or on what has
not completed.
-/

namespace FeedbackQueue

open Relation (ReflTransGen)

/-- The double stands for the mean of some times, none of which is missing. -/
def Binary64.IsMean (x : Binary64) (times : List (Option Int)) : Prop :=
  ∃ given : List Int, times = given.map some ∧
    if given = [] then x = .zero false else x.IsNearest (given.sum / given.length)

/-- What averages say of the processes of a group. -/
structure Averages.Describes (a : Averages) (group : List Proc) : Prop where
  count : a.count = group.length
  turnaround : a.turnaround.IsMean (group.map Proc.turnaround)
  waiting : a.waiting.IsMean (group.map Proc.waitingTime)
  response : a.response.IsMean (group.map Proc.response)

-- ---------------------------------------------------------------------------
-- Means
-- ---------------------------------------------------------------------------

namespace Averages

variable {rows rows' : List Row} {time : Row → Option Int} {x : Binary64}

theorem total_eq (rows : List Row) (time : Row → Option Int) :
    total rows time = (rows.map fun row => (time row).getD 0).sum := by
  rw [List.sum, List.foldr_map]
  rfl

theorem mean_perm (h : rows.Perm rows') : mean rows time = mean rows' time := by
  rw [mean, mean, total_eq, total_eq, (h.map _).sum_eq, h.length_eq]

/-- Averages depend on nothing but the completed rows, in any order. -/
theorem ofRows_congr (h : (rows.filter Row.completed).Perm (rows'.filter Row.completed)) :
    ofRows rows = ofRows rows' := by
  simp only [ofRows, mean_perm h, h.length_eq, h.isEmpty_eq]

theorem isNearest_of_mean (h : mean rows time = .ok x) (hne : rows ≠ []) :
    x.IsNearest ((rows.map fun row => (time row).getD 0).sum / rows.length) := by
  rw [mean] at h
  split at h
  · cases h
    rw [← total_eq]
    exact Binary64.isNearest_ofRatio? (List.length_pos_iff.mpr hne) ‹_›
  · cases h

theorem isMean_of_mean {group : List Proc} {time' : Proc → Option Int} (hne : group ≠ [])
    (h : mean (group.map Row.ofProc) time = .ok x)
    (htime : ∀ p ∈ group, time (Row.ofProc p) = time' p) (hsome : ∀ p ∈ group, (time' p).isSome) :
    x.IsMean (group.map time') := by
  have hgiven : (group.map Row.ofProc).map (fun row => (time row).getD 0) =
      group.map fun p => (time' p).getD 0 := by
    rw [List.map_map]
    exact List.map_congr_left fun p hp => congrArg (·.getD 0) (htime p hp)
  have hnearest := isNearest_of_mean h (by simpa using hne)
  rw [hgiven, List.length_map] at hnearest
  refine ⟨group.map fun p => (time' p).getD 0, ?_, ?_⟩
  · rw [List.map_map]
    refine List.map_congr_left fun p hp => ?_
    obtain ⟨t, ht⟩ := Option.isSome_iff_exists.mp (hsome p hp)
    simp [ht]
  · rw [if_neg (by simpa using hne), List.length_map]
    exact hnearest

end Averages

theorem Binary64.isMean_nil : (Binary64.zero false).IsMean [] := ⟨[], rfl, rfl⟩

/-- A process that has completed has run before. -/
theorem Proc.Coherent.times (h : Proc.Coherent p) (hend : p.completion.isSome) :
    p.turnaround.isSome ∧ p.waitingTime.isSome ∧ p.response.isSome := by
  have hstarted : p.firstRun.isSome := by
    refine h.started ?_ ?_ <;> intro hphase <;> simp [completion, hphase] at hend
  simp [turnaround, waitingTime, response, hend, hstarted]

theorem filter_completed (ps : List Proc) :
    (ps.map Row.ofProc).filter Row.completed =
      (ps.filter (·.completion.isSome)).map Row.ofProc := by
  rw [List.filter_map]
  rfl

/-- The averages of processes describe the completed ones among them. -/
theorem Averages.describes_of_ofRows {group : List Proc} {a : Averages}
    (h : ofRows (group.map Row.ofProc) = .ok a) (hgroup : ∀ p ∈ group, p.Coherent) :
    a.Describes (group.filter (·.completion.isSome)) := by
  have htimes : ∀ p ∈ group.filter (·.completion.isSome),
      p.turnaround.isSome ∧ p.waitingTime.isSome ∧ p.response.isSome := by
    intro p hp
    obtain ⟨hmem, hend⟩ := List.mem_filter.mp hp
    exact (hgroup p hmem).times hend
  unfold ofRows at h
  rw [filter_completed] at h
  cases hdone : group.filter (·.completion.isSome) with
  | nil =>
    rw [hdone] at h
    cases h
    exact ⟨rfl, Binary64.isMean_nil, Binary64.isMean_nil, Binary64.isMean_nil⟩
  | cons p rest =>
    rw [hdone] at h htimes
    have hne : p :: rest ≠ [] := List.cons_ne_nil _ _
    obtain ⟨turnaround, hturnaround, h⟩ := exists_of_bind_ok h
    obtain ⟨waiting, hwaiting, h⟩ := exists_of_bind_ok h
    obtain ⟨response, hresponse, h⟩ := exists_of_bind_ok h
    cases h
    refine ⟨List.length_map _, ?_, ?_, ?_⟩
    · exact isMean_of_mean hne hturnaround (fun _ _ => rfl) fun q hq => (htimes q hq).1
    · exact isMean_of_mean hne hwaiting (fun _ _ => rfl) fun q hq => (htimes q hq).2.1
    · exact isMean_of_mean hne hresponse (fun _ _ => rfl) fun q hq => (htimes q hq).2.2

-- ---------------------------------------------------------------------------
-- Processes in a report
-- ---------------------------------------------------------------------------

/-- One change of a list of processes that is not about completed ones. -/
inductive Varies : List Proc → List Proc → Prop
  | add : p.completion = none → Varies (before ++ after) (before ++ p :: after)
  | remove : p.completion = none → Varies (before ++ p :: after) (before ++ after)
  | drive : p.completion = none → (p.drive calls).completion = none →
      Varies (before ++ p :: after) (before ++ p.drive calls :: after)

variable {ps qs : List Proc}

theorem Varies.filter_eq (h : Varies ps qs) :
    qs.filter (·.completion.isSome) = ps.filter (·.completion.isSome) := by
  cases h <;> simp [*]

namespace Report

variable {r : Report} {endTime switches boosts : Int}

def groups (r : Report) : Averages × Averages × Averages := (r.overall, r.ioBound, r.cpuBound)

/-- The completed rows of a kind are those of the completed processes of that kind. -/
theorem filter_kind_completed (ps : List Proc) (kind : Row → Bool) :
    ((ps.map Row.ofProc).filter kind).filter Row.completed =
      ((ps.filter (·.completion.isSome)).map Row.ofProc).filter kind := by
  rw [List.filter_comm, filter_completed]

theorem ofRows_kind_congr
    (h : (ps.filter (·.completion.isSome)).Perm (qs.filter (·.completion.isSome)))
    (kind : Row → Bool) :
    Averages.ofRows ((ps.map Row.ofProc).filter kind) =
      Averages.ofRows ((qs.map Row.ofProc).filter kind) := by
  refine Averages.ofRows_congr ?_
  rw [filter_kind_completed, filter_kind_completed]
  exact (h.map _).filter _

theorem ofRows_all_congr
    (h : (ps.filter (·.completion.isSome)).Perm (qs.filter (·.completion.isSome))) :
    Averages.ofRows (ps.map Row.ofProc) = Averages.ofRows (qs.map Row.ofProc) := by
  refine Averages.ofRows_congr ?_
  rw [filter_completed, filter_completed]
  exact h.map _

/-- What has not completed changes no average, and causes or prevents no mean that is too
large. -/
theorem averages_congr
    (h : (ps.filter (·.completion.isSome)).Perm (qs.filter (·.completion.isSome)))
    (hps : ∀ p ∈ ps, p.spec.hasLabel) (hqs : ∀ p ∈ qs, p.spec.hasLabel)
    (endTime switches boosts endTime' switches' boosts' : Int) :
    (collect ps endTime switches boosts).map groups =
      (collect qs endTime' switches' boosts').map groups := by
  rw [collect, collect, if_pos (List.all_eq_true.mpr hps), if_pos (List.all_eq_true.mpr hqs)]
  simp only [ofRows, ofRows_all_congr h, ofRows_kind_congr h]
  cases Averages.ofRows (qs.map Row.ofProc) with
  | error e => rfl
  | ok overall =>
    cases Averages.ofRows ((qs.map Row.ofProc).filter (·.ioBound)) with
    | error e => rfl
    | ok ioBound =>
      cases Averages.ofRows ((qs.map Row.ofProc).filter (!·.ioBound)) with
      | error e => rfl
      | ok cpuBound => rfl

/-- In another order the processes make the same report with its rows in that order. -/
theorem collect_perm (h : ps.Perm qs) (hr : collect ps endTime switches boosts = .ok r) :
    collect qs endTime switches boosts = .ok { r with rows := qs.map Row.ofProc } := by
  have hsums := sums_of_collect hr
  have hcompleted := h.filter (·.completion.isSome)
  have hoverall := hsums.overall
  have hioBound := hsums.ioBound
  have hcpuBound := hsums.cpuBound
  have hcomplete : r.complete = (qs.map Row.ofProc).all Row.completed := by
    rw [hsums.complete, hsums.rows]
    exact (h.map _).all_eq
  rw [hsums.rows, ofRows_all_congr hcompleted] at hoverall
  rw [hsums.rows, ofRows_kind_congr hcompleted] at hioBound hcpuBound
  have hlabels (p : Proc) (hp : p ∈ qs) : p.spec.hasLabel :=
    (collect_eq_ok_iff.mp hr).1 p (h.mem_iff.mpr hp)
  refine collect_eq_ok_iff.mpr ⟨hlabels, ?_⟩
  rw [ofRows, hoverall, hioBound, hcpuBound, hcomplete, hsums.endTime, hsums.contextSwitches,
    hsums.boosts]
  rfl

/-- The groups of a report describe the completed processes of their kinds, whose numbers add up.
Processes that have not completed may come, go and be driven on, as long as none of them
completes and all have names to show: no average changes, whatever the clock and the counters. In
another order the same processes make the same report with its rows in that order. -/
theorem averages_of_completed :
    (∀ (jobs : List (Spec × List Proc.Call)) (endTime switches boosts : Int) (r : Report),
      let ps := jobs.map fun job => (Proc.ofSpec job.1).drive job.2
      collect ps endTime switches boosts = .ok r →
        r.overall.Describes (ps.filter (·.completion.isSome)) ∧
        r.ioBound.Describes ((ps.filter (·.spec.ioBound)).filter (·.completion.isSome)) ∧
        r.cpuBound.Describes ((ps.filter (!·.spec.ioBound)).filter (·.completion.isSome)) ∧
        r.overall.count = r.ioBound.count + r.cpuBound.count) ∧
    (∀ ps qs : List Proc, ReflTransGen Varies ps qs →
      (∀ p ∈ ps, p.spec.hasLabel) → (∀ p ∈ qs, p.spec.hasLabel) →
      ∀ endTime switches boosts endTime' switches' boosts' : Int,
        (collect ps endTime switches boosts).map groups =
          (collect qs endTime' switches' boosts').map groups) ∧
    ∀ ps qs : List Proc, ps.Perm qs → ∀ (endTime switches boosts : Int) (r : Report),
      collect ps endTime switches boosts = .ok r →
        r.rows.Perm (qs.map Row.ofProc) ∧
        collect qs endTime switches boosts = .ok { r with rows := qs.map Row.ofProc } := by
  refine ⟨?_, ?_, ?_⟩
  · intro jobs endTime switches boosts r ps hr
    have hsums := sums_of_collect hr
    have hcoherent : ∀ p ∈ ps, p.Coherent := by
      intro p hp
      obtain ⟨job, -, rfl⟩ := List.mem_map.mp hp
      exact Proc.coherent_drive (Proc.coherent_ofSpec _) _
    have hoverall := hsums.overall
    have hioBound := hsums.ioBound
    have hcpuBound := hsums.cpuBound
    rw [hsums.rows] at hoverall hioBound hcpuBound
    rw [List.filter_map] at hioBound hcpuBound
    have hdescribed := Averages.describes_of_ofRows hoverall hcoherent
    have hio := Averages.describes_of_ofRows hioBound fun p hp =>
      hcoherent p (List.mem_filter.mp hp).1
    have hcpu := Averages.describes_of_ofRows hcpuBound fun p hp =>
      hcoherent p (List.mem_filter.mp hp).1
    refine ⟨hdescribed, hio, hcpu, ?_⟩
    rw [hdescribed.count, hio.count, hcpu.count, ← List.countP_eq_length_filter,
      ← List.countP_eq_length_filter, ← List.countP_eq_length_filter]
    exact List.countP_eq_countP_filter_add ps _ _
  · intro ps qs h hps hqs endTime switches boosts endTime' switches' boosts'
    refine averages_congr (.of_eq ?_) hps hqs endTime switches boosts endTime' switches' boosts'
    clear hqs
    induction h with
    | refl => rfl
    | tail _ hvaries ih => exact ih.trans hvaries.filter_eq.symm
  · intro ps qs h endTime switches boosts r hr
    refine ⟨?_, collect_perm h hr⟩
    rw [(sums_of_collect hr).rows]
    exact h.map _

end Report

end FeedbackQueue
