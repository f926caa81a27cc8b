import FeedbackQueue.Proofs.Binary64.Rounding
import FeedbackQueue.Proofs.Basic
import FeedbackQueue.Report.Basic

/-!
# Laws of reports

A report has one row for each process, and its groups count the completed ones. It can always
be made unless a process has no name to show or a mean is out of the range of doubles.
-/

namespace FeedbackQueue

/-- Every time of a row is in the range of doubles. -/
structure Row.InRange (row : Row) : Prop where
  turnaround : (row.turnaround.getD 0).natAbs < 2 ^ 1023
  waiting : (row.waiting.getD 0).natAbs < 2 ^ 1023
  response : (row.response.getD 0).natAbs < 2 ^ 1023

namespace Averages

variable {rows : List Row} {time : Row → Option Int}

theorem count_ofRows (h : ofRows rows = .ok a) : a.count = rows.countP Row.completed := by
  rw [List.countP_eq_length_filter]
  unfold ofRows at h
  cases hdone : rows.filter Row.completed with
  | nil =>
    rw [hdone] at h
    cases h
    rfl
  | cons row rest =>
    rw [hdone] at h
    obtain ⟨turnaround, -, h⟩ := exists_of_bind_ok h
    obtain ⟨waiting, -, h⟩ := exists_of_bind_ok h
    obtain ⟨response, -, h⟩ := exists_of_bind_ok h
    cases h
    rfl

theorem natAbs_total_lt (hne : rows ≠ []) (h : ∀ row ∈ rows, ((time row).getD 0).natAbs < bound) :
    (total rows time).natAbs < bound * rows.length := by
  suffices hle : (total rows time).natAbs + rows.length ≤ bound * rows.length by
    have hpos := List.length_pos_iff.mpr hne
    omega
  clear hne
  induction rows with
  | nil => simp [total]
  | cons row rest ih =>
    have hrow := h row (by simp)
    have hrest := ih fun row' h' => h row' (by simp [h'])
    have hsum : total (row :: rest) time = (time row).getD 0 + total rest time := rfl
    rw [hsum, List.length_cons, Nat.mul_succ]
    omega

/-- A mean of times that are in range is in range. -/
theorem exists_mean (hne : rows ≠ [])
    (h : ∀ row ∈ rows, ((time row).getD 0).natAbs < 2 ^ 1023) : ∃ x, mean rows time = .ok x := by
  obtain ⟨x, hx⟩ := Option.isSome_iff_exists.mp
    (Binary64.isSome_ofRatio? (List.length_pos_iff.mpr hne) (natAbs_total_lt hne h))
  refine ⟨x, ?_⟩
  rw [mean, hx]

theorem exists_ofRows (h : ∀ row ∈ rows, row.completed → row.InRange) :
    ∃ a, ofRows rows = .ok a := by
  unfold ofRows
  cases hdone : rows.filter Row.completed with
  | nil => exact ⟨_, rfl⟩
  | cons row rest =>
    have hrange (row' : Row) (h' : row' ∈ row :: rest) : row'.InRange := by
      rw [← hdone, List.mem_filter] at h'
      exact h row' h'.1 h'.2
    have hne : row :: rest ≠ [] := List.cons_ne_nil _ _
    obtain ⟨turnaround, hturnaround⟩ := exists_mean hne fun row' h' => (hrange row' h').turnaround
    obtain ⟨waiting, hwaiting⟩ := exists_mean hne fun row' h' => (hrange row' h').waiting
    obtain ⟨response, hresponse⟩ := exists_mean hne fun row' h' => (hrange row' h').response
    refine ⟨⟨(row :: rest).length, turnaround, waiting, response⟩, ?_⟩
    simp only [hturnaround, hwaiting, hresponse]
    rfl

end Averages

namespace Report

variable {processes : List Proc} {endTime switches boosts : Int} {r : Report}

/-- What a report says of the processes that it is made of. -/
structure Sums (r : Report) (processes : List Proc) (endTime switches boosts : Int) : Prop where
  rows : r.rows = processes.map Row.ofProc
  overall : Averages.ofRows r.rows = .ok r.overall
  ioBound : Averages.ofRows (r.rows.filter (·.ioBound)) = .ok r.ioBound
  cpuBound : Averages.ofRows (r.rows.filter (!·.ioBound)) = .ok r.cpuBound
  endTime : r.endTime = endTime
  contextSwitches : r.contextSwitches = switches
  boosts : r.boosts = boosts
  complete : r.complete = r.rows.all Row.completed

/-- A report is made when every process has a name that can be shown and no mean is too large. -/
theorem collect_eq_ok_iff :
    collect processes endTime switches boosts = .ok r ↔
      (∀ p ∈ processes, p.spec.hasLabel) ∧
        ofRows (processes.map Row.ofProc) endTime switches boosts = .ok r := by
  by_cases h : ∀ p ∈ processes, p.spec.hasLabel
  · rw [collect, if_pos (List.all_eq_true.mpr h)]
    cases ofRows (processes.map Row.ofProc) endTime switches boosts <;>
      simp [Except.mapError, and_iff_right h]
  · rw [collect, if_neg fun hall => h (List.all_eq_true.mp hall)]
    simp [h]

/-- Means are taken only when every process has a name that can be shown. -/
theorem hasLabel_of_average (h : collect processes endTime switches boosts = .error (.average e)) :
    ∀ p ∈ processes, p.spec.hasLabel := by
  rw [collect] at h
  split at h
  · next hall => exact List.all_eq_true.mp hall
  · cases h

theorem sums_of_collect (h : collect processes endTime switches boosts = .ok r) :
    r.Sums processes endTime switches boosts := by
  obtain ⟨-, h⟩ := collect_eq_ok_iff.mp h
  obtain ⟨overall, hoverall, h⟩ := exists_of_bind_ok h
  obtain ⟨ioBound, hioBound, h⟩ := exists_of_bind_ok h
  obtain ⟨cpuBound, hcpuBound, h⟩ := exists_of_bind_ok h
  cases h
  exact ⟨rfl, hoverall, hioBound, hcpuBound, rfl, rfl, rfl, rfl⟩

theorem exists_collect (hlabels : ∀ p ∈ processes, p.spec.hasLabel)
    (h : ∀ p ∈ processes, p.completion.isSome → (Row.ofProc p).InRange) :
    ∃ r, collect processes endTime switches boosts = .ok r := by
  have hrows : ∀ row ∈ processes.map Row.ofProc, row.completed → row.InRange := by
    intro row hrow
    obtain ⟨p, hp, rfl⟩ := List.mem_map.mp hrow
    exact h p hp
  obtain ⟨overall, hoverall⟩ := Averages.exists_ofRows hrows
  obtain ⟨ioBound, hioBound⟩ := Averages.exists_ofRows
    fun row hrow => hrows row (List.mem_of_mem_filter (p := (·.ioBound)) hrow)
  obtain ⟨cpuBound, hcpuBound⟩ := Averages.exists_ofRows
    fun row hrow => hrows row (List.mem_of_mem_filter (p := (!·.ioBound)) hrow)
  have hreport : ∃ r, ofRows (processes.map Row.ofProc) endTime switches boosts = .ok r := by
    simp only [ofRows, hoverall, hioBound, hcpuBound]
    exact ⟨_, rfl⟩
  obtain ⟨r, hr⟩ := hreport
  exact ⟨r, collect_eq_ok_iff.mpr ⟨hlabels, hr⟩⟩

end Report

end FeedbackQueue
