import FeedbackQueue.Proofs.Scheduler.Driving

/-!
# Policies that make progress

The standard policy, and one that hands out at most a fixed number of units, give
every running process at least one unit and never more than it owes. For the standard
one this rests on the quantum counter: between slices it is zero, so what is left of
a quantum is all of it, and a slice never ends with a requeue.
-/

namespace FeedbackQueue

namespace Config

variable {config : Config}

theorem baseQuantum_le_quantum (k : Nat) : config.baseQuantum ≤ config.quantum k := by
  have hbase := config.baseQuantum_pos
  have hpow : (1 : Int) ≤ (Nat.pow 2 k : Nat) := by
    exact_mod_cast Nat.one_le_two_pow
  calc config.baseQuantum = config.baseQuantum * 1 := by omega
    _ ≤ config.quantum k := Int.mul_le_mul_of_nonneg_left hpow (by omega)

theorem quantum_pos (k : Nat) : 0 < config.quantum k :=
  Int.lt_of_lt_of_le config.baseQuantum_pos (baseQuantum_le_quantum k)

theorem quantum_mono (h : j ≤ k) : config.quantum j ≤ config.quantum k := by
  have hbase := config.baseQuantum_pos
  have hpow : ((Nat.pow 2 j : Nat) : Int) ≤ (Nat.pow 2 k : Nat) := by
    exact_mod_cast Nat.pow_le_pow_right (by decide : 0 < 2) h
  exact Int.mul_le_mul_of_nonneg_left hpow (Int.le_of_lt hbase)

/-- How long an I/O-bound process runs at a level before it yields. -/
def ioPart (config : Config) (k : Nat) : Int := config.quantum k / config.ioSliceDivisor

theorem ioPart_pos (k : Nat) : 0 < config.ioPart k := by
  have hle := Int.le_trans config.ioSliceDivisor_le (baseQuantum_le_quantum k)
  have hone : 1 ≤ config.ioPart k :=
    (Int.le_ediv_iff_mul_le config.ioSliceDivisor_pos).mpr (by simpa using hle)
  omega

theorem ioSlice_eq (hk : k ≤ config.lowestLevel) : config.ioSlice k = .ok (config.ioPart k) := by
  have hpos := config.numQueues_pos
  unfold lowestLevel at hk
  have hrange : (k : Int) < config.numQueues := by omega
  simp [ioSlice, quantumFor, hrange, Except.map, ioPart]

end Config

/-- The policies that hand out neither empty slices nor more than is owed. -/
inductive SlicePolicy.Steady : SlicePolicy n → Prop
  | standard : Steady .standard
  | capped : 1 ≤ cap → Steady (.capped cap)

/-- Unless it has completed, the process has used none of its quantum. -/
def Proc.Fresh (p : Proc) : Prop := p.completion = none → p.used = 0

namespace Proc.Fresh

variable {p : Proc}

theorem admitted (hp : p.Fresh) (h : p.due? = some t) : p.admitted.Fresh := by
  intro _
  rcases due?_eq_some.mp h with ⟨hphase, -⟩ | hphase
  · simp [Proc.admitted, hphase]
  · simpa [Proc.admitted, hphase] using hp (completion_of_due h)

theorem raise : p.raise.Fresh := fun _ => rfl

theorem dispatched (hp : p.Fresh) (h : p.phase = .ready) : (p.dispatched now).Fresh :=
  fun _ => hp (completion_of_ready h)

/-- Only a requeue leaves a quantum half used. -/
theorem settled (h : o ≠ .requeued) : (p.settled config now o).Fresh := by
  cases o with
  | completed => intro hnone; simp [Proc.settled, completion] at hnone
  | ioYield => exact fun _ => rfl
  | demoted => exact fun _ => rfl
  | requeued => exact absurd rfl h

end Proc.Fresh

namespace Scheduler

variable {s t : Scheduler n}

def Fresh (s : Scheduler n) : Prop := ∀ i, (s.process i).Fresh

/-- How long the standard policy lets a process run. -/
def share (s : Scheduler n) (i : Fin n) : Int :=
  if (s.process i).spec.ioBound then
    min (s.config.ioPart (s.process i).level) (s.process i).remaining
  else min (s.process i).remaining (s.config.quantum (s.process i).level - (s.process i).used)

theorem standard_eq (hs : s.Sound) (i : Fin n) : SlicePolicy.standard s i = .ok (s.share i) := by
  have hquantum := quantum_of_quanta hs.quanta (hs.level_le i)
  have hio := Config.ioSlice_eq (hs.level_le i)
  cases h : (s.process i).spec.ioBound <;>
    simp [SlicePolicy.standard, h, hquantum, hio, share, Except.mapError, bind, Except.bind, pure,
      Except.pure]

theorem Sound.remaining_pos (hs : s.Sound) (hi : (s.process i).completion = none) :
    0 < (s.process i).remaining := by
  have hnonneg := (hs.process i).remaining_nonneg
  have hdone := (hs.process i).done_iff
  rw [hi] at hdone
  simp at hdone
  omega

theorem share_le : s.share i ≤ (s.process i).remaining := by
  unfold share
  split
  · exact Int.min_le_right _ _
  · exact Int.min_le_left _ _

theorem share_pos (hs : s.Sound) (hfresh : s.Fresh) (hi : (s.process i).completion = none) :
    0 < s.share i := by
  have hremaining := hs.remaining_pos hi
  have hio : 0 < s.config.ioPart (s.process i).level := Config.ioPart_pos _
  have hquantum : 0 < s.config.quantum (s.process i).level := Config.quantum_pos _
  have hused := hfresh i hi
  unfold share
  by_cases hkind : (s.process i).spec.ioBound
  · rw [if_pos hkind]
    omega
  · rw [if_neg hkind]
    omega

/-- A slice of the standard policy ends with completion, or as the kind of the process
says. With a divisor of 1 an I/O-bound process uses whole quanta like any other. -/
theorem outcome_share (hfresh : s.Fresh) (hi : (s.process i).completion = none) :
    (s.slice i (s.share i)).outcome =
      if s.share i = (s.process i).remaining then .completed
      else if (s.process i).spec.ioBound ∧ s.config.ioSliceDivisor ≠ 1 then .ioYield
      else .demoted := by
  have hused := hfresh i hi
  have hquantum : 0 < s.config.quantum (s.process i).level := Config.quantum_pos _
  by_cases hall : s.share i = (s.process i).remaining
  · rw [if_pos hall]
    exact Proc.outcome_eq_completed.mpr (by simp [hall])
  · -- What is owed did not bound the slice, so the quantum or the I/O part of it did.
    have howed : ((s.process i).ran (s.share i)).done = false := by
      simp [Proc.done]
      omega
    rw [if_neg hall, slice, Proc.outcome, howed]
    cases hkind : (s.process i).spec.ioBound with
    | false =>
      have hshare : s.share i = s.config.quantum (s.process i).level := by
        simp only [share, hkind, Bool.false_eq_true, if_false] at hall ⊢
        omega
      simp [hkind, hshare, hused]
    | true =>
      have hshare : s.share i = s.config.ioPart (s.process i).level := by
        simp only [share, hkind, if_true] at hall ⊢
        omega
      by_cases hone : s.config.ioSliceDivisor = 1
      · have hwhole : s.share i = s.config.quantum (s.process i).level := by
          rw [hshare, Config.ioPart, hone, Int.ediv_one]
        simp [hkind, hone, hused, hwhole]
      · have hpart : s.share i < s.config.quantum (s.process i).level := by
          rw [hshare]
          exact Int.ediv_lt_self_of_pos_of_ne_one hquantum hone
        simp [hkind, hone, hpart]

theorem outcome_share_ne_requeued (hfresh : s.Fresh) (hi : (s.process i).completion = none) :
    (s.slice i (s.share i)).outcome ≠ .requeued := by
  rw [outcome_share hfresh hi]
  split
  · simp
  · split <;> simp

theorem fresh_of_advance (hs : s.Sound) (hfresh : s.Fresh) (h : Advance .standard s t) :
    t.Fresh := by
  intro j
  cases change_of_advance h j with
  | keep heq => exact heq ▸ hfresh j
  | enter hdue _ heq => exact heq ▸ (hfresh j).admitted hdue
  | raise _ _ heq => exact heq ▸ .raise
  | dispatch hdequeue heq => exact heq ▸ (hfresh j).dispatched (hs.head_ready hdequeue)
  | execute hrunning hpolicy _ _ heq =>
    rw [standard_eq hs, Except.ok.injEq] at hpolicy
    subst hpolicy
    exact heq ▸ .settled (outcome_share_ne_requeued hfresh (Proc.completion_of_running hrunning))

end Scheduler

theorem SlicePolicy.Steady.slice {s : Scheduler n} {policy : SlicePolicy n} (h : policy.Steady)
    (hs : s.Sound) (hfresh : policy = .standard → s.Fresh) (hi : (s.process i).completion = none) :
    ∃ d, policy s i = .ok d ∧ 0 < d ∧ d ≤ (s.process i).remaining := by
  cases h with
  | standard =>
    exact ⟨s.share i, s.standard_eq hs i, s.share_pos hs (hfresh rfl) hi, s.share_le⟩
  | @capped cap hcap =>
    have hremaining := hs.remaining_pos hi
    exact ⟨min cap (s.process i).remaining, rfl, by omega, by omega⟩

end FeedbackQueue
