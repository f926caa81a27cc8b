import FeedbackQueue.Proofs.Scheduler.Moves

/-!
# Sound schedulers

The bank, the processes and the counter of completed processes agree. Every move
keeps a scheduler sound, whatever the policy, and also where it is cut short.
-/

namespace FeedbackQueue

namespace Proc

/-- CPU time is owed exactly until the process has completed. -/
structure Sound (p : Proc) : Prop where
  remaining_nonneg : 0 ≤ p.remaining
  remaining_le : p.remaining ≤ p.spec.burst
  used_nonneg : 0 ≤ p.used
  done_iff : p.remaining = 0 ↔ p.completion.isSome

variable {p : Proc}

theorem sound_ofSpec (spec : Spec) : (ofSpec spec).Sound := by
  have h := spec.burst_pos
  constructor <;> simp [ofSpec, completion] <;> omega

theorem due?_eq_some : p.due? = some t ↔
    (p.phase = .new ∧ p.spec.arrival = t) ∨ p.phase = .waiting t := by
  cases h : p.phase <;> simp [due?, h]

theorem due?_eq_none : p.due? = none ↔ p.phase ≠ .new ∧ ∀ time, p.phase ≠ .waiting time := by
  cases h : p.phase <;> simp [due?, h]

theorem completion_of_due (h : p.due? = some t) : p.completion = none := by
  rcases due?_eq_some.mp h with ⟨hphase, -⟩ | hphase <;> simp [completion, hphase]

theorem completion_of_ready (h : p.phase = .ready) : p.completion = none := by
  simp [completion, h]

theorem completion_of_running (h : p.phase = .running) : p.completion = none := by
  simp [completion, h]

theorem isSome_completion : p.completion.isSome ↔ ∃ time, p.phase = .terminated time := by
  cases h : p.phase <;> simp [completion, h]

theorem isSome_readyAt : p.readyAt.isSome ↔ ∃ time, p.phase = .waiting time := by
  cases h : p.phase <;> simp [readyAt, h]

@[simp] theorem spec_admitted : p.admitted.spec = p.spec := by
  unfold admitted; split <;> rfl

@[simp] theorem phase_admitted : p.admitted.phase = .ready := by
  unfold admitted; split <;> rfl

@[simp] theorem remaining_admitted : p.admitted.remaining = p.remaining := by
  unfold admitted; split <;> rfl

@[simp] theorem firstRun_admitted : p.admitted.firstRun = p.firstRun := by
  unfold admitted; split <;> rfl

@[simp] theorem spec_ran : (p.ran d).spec = p.spec := rfl

@[simp] theorem phase_ran : (p.ran d).phase = p.phase := rfl

@[simp] theorem level_ran : (p.ran d).level = p.level := rfl

@[simp] theorem remaining_ran : (p.ran d).remaining = p.remaining - d := rfl

@[simp] theorem used_ran : (p.ran d).used = p.used + d := rfl

@[simp] theorem spec_settled : (p.settled config now o).spec = p.spec := by
  cases o <;> rfl

@[simp] theorem firstRun_settled : (p.settled config now o).firstRun = p.firstRun := by
  cases o <;> rfl

theorem phase_settled : (p.settled config now o).phase ≠ .running := by
  cases o <;> simp [settled]

theorem phase_settled_ne_new : (p.settled config now o).phase ≠ .new := by
  cases o <;> simp [settled]

theorem isSome_completion_settled :
    (p.settled config now o).completion.isSome = decide (o = .completed) := by
  cases o <;> rfl

theorem due?_settled : (p.settled config now o).due? =
    if o = .ioYield then some (now + config.ioDuration) else none := by
  cases o <;> rfl

@[simp] theorem remaining_settled : (p.settled config now o).remaining = p.remaining := by
  cases o <;> rfl

theorem Sound.admitted (hp : p.Sound) (h : p.due? = some t) : p.admitted.Sound := by
  have hdone := hp.done_iff
  have hused := hp.used_nonneg
  rcases due?_eq_some.mp h with ⟨hphase, -⟩ | hphase <;>
    exact ⟨by simpa using hp.remaining_nonneg, by simpa using hp.remaining_le,
      by simp [Proc.admitted, hphase, hused], by
        simpa [Proc.admitted, hphase, completion] using hdone⟩

theorem Sound.raise (hp : p.Sound) : p.raise.Sound :=
  ⟨hp.remaining_nonneg, hp.remaining_le, Int.le_refl 0, hp.done_iff⟩

theorem Sound.dispatched (hp : p.Sound) (h : p.phase = .ready) : (p.dispatched now).Sound := by
  have hdone := hp.done_iff
  simp only [completion, h] at hdone
  exact ⟨hp.remaining_nonneg, hp.remaining_le, hp.used_nonneg, hdone⟩

theorem outcome_eq_completed : p.outcome quantum d = .completed ↔ p.remaining = 0 := by
  rw [show p.remaining = 0 ↔ p.done by simp [done]]
  unfold outcome
  split
  · simp [*]
  · split
    · simp [*]
    · split <;> simp [*]

theorem Sound.settled (hp : p.Sound) (h0 : 0 ≤ d) (hd : d ≤ p.remaining) :
    ((p.ran d).settled config now ((p.ran d).outcome quantum d)).Sound := by
  have hle := hp.remaining_le
  have hused := hp.used_nonneg
  have hcompleted : (p.ran d).outcome quantum d = .completed ↔ _ := outcome_eq_completed
  constructor
  · simp; omega
  · simp; omega
  · cases (p.ran d).outcome quantum d <;> simp [Proc.settled] <;> omega
  · rw [remaining_settled]
    cases h : (p.ran d).outcome quantum d <;> rw [h] at hcompleted <;>
      simp [Proc.settled, completion] at hcompleted ⊢ <;> omega

end Proc

namespace Scheduler

variable {s : Scheduler n}

theorem toList_processes : s.bank.processes.toList = (List.finRange n).map s.process := by
  apply List.ext_getElem
  · simp
  · intro k _ _
    simp [process, Bank.process]

/-! ## The process table after a move -/

@[simp] theorem process_admitted :
    (s.admitted i).process j = if j = i then (s.process i).admitted else s.process j :=
  Bank.process_put

theorem process_boosted :
    s.boosted.process i = if i ∈ s.bank.belowTop then (s.process i).raise else s.process i :=
  Bank.process_raiseAll

theorem process_dispatched (h : s.bank.dequeue = some (i, rest)) :
    (s.dispatched i rest).process j =
      if j = i then (s.process i).dispatched s.clock else s.process j := by
  have hprocess : rest.process j = s.bank.process j := by
    simp [Bank.process, (Bank.dequeue_eq_some h).1]
  simp [process, dispatched, hprocess]

theorem running_dispatched (h : s.bank.dequeue = some (i, rest)) :
    ((s.dispatched i rest).process i).phase = .running := by
  rw [process_dispatched h, if_pos rfl]
  rfl

/-- What a dispatch leaves alone in a process. -/
theorem apply_dispatched (f : Proc → α) (h : s.bank.dequeue = some (i, rest))
    (hf : ∀ p now, f (Proc.dispatched p now) = f p) :
    f ((s.dispatched i rest).process j) = f (s.process j) := by
  rw [process_dispatched h]
  split
  · subst j
    exact hf _ _
  · rfl

theorem processes_ran :
    (s.ran i d).bank.processes = s.bank.processes.set i (s.processAfter i d) i.isLt := by
  simp only [ran]
  split <;> rfl

@[simp] theorem process_ran :
    (s.ran i d).process j = if j = i then s.processAfter i d else s.process j := by
  simp [process, Bank.process, processes_ran, Vector.getElem_set, Fin.ext_iff, eq_comm]

@[simp] theorem process_idled : (s.idled target).process i = s.process i := rfl

@[simp] theorem process_unrecorded {t : Scheduler n} :
    (t.unrecorded s).process i = t.process i := rfl

/-- What a move does to one process. -/
inductive Change (policy : SlicePolicy n) (s t : Scheduler n) (i : Fin n) : Prop
  | keep : t.process i = s.process i → Change policy s t i
  | enter : (s.process i).due? = some time → time ≤ s.clock →
      t.process i = (s.process i).admitted → Change policy s t i
  | raise : s.booster.due s.clock → i ∈ s.bank.belowTop →
      t.process i = (s.process i).raise → Change policy s t i
  | dispatch : s.bank.dequeue = some (i, rest) →
      t.process i = (s.process i).dispatched s.clock → Change policy s t i
  | execute : (s.process i).phase = .running → policy s i = .ok d → 0 ≤ d →
      d ≤ (s.process i).remaining → t.process i = s.processAfter i d → Change policy s t i

theorem change_of_move {t : Scheduler n} {policy : SlicePolicy n} (h : Move policy s t)
    (j : Fin n) : Change policy s t j := by
  cases h with
  | @enter _ _ i hdue hle =>
    by_cases hj : j = i
    · subst j
      exact .enter hdue hle (by rw [process_admitted, if_pos rfl])
    · exact .keep (by rw [process_admitted, if_neg hj])
  | boost hdue =>
    by_cases hj : j ∈ s.bank.belowTop
    · exact .raise hdue hj (by rw [process_boosted, if_pos hj])
    · exact .keep (by rw [process_boosted, if_neg hj])
  | @dispatch i _ _ hdequeue =>
    by_cases hj : j = i
    · subst j
      exact .dispatch hdequeue (by rw [process_dispatched hdequeue, if_pos rfl])
    · exact .keep (by rw [process_dispatched hdequeue, if_neg hj])
  | @execute _ i d hrunning hpolicy hpos hle =>
    by_cases hj : j = i
    · subst j
      exact .execute hrunning hpolicy hpos hle (by rw [process_ran, if_pos rfl])
    · exact .keep (by rw [process_ran, if_neg hj])
  | idle _ => exact .keep rfl
  | stall _ => exact .keep rfl

/-- A process does not depend on what is recorded. -/
theorem change_of_advance {t : Scheduler n} {policy : SlicePolicy n} (h : Advance policy s t)
    (j : Fin n) : Change policy s t j := by
  cases h with
  | move h => exact change_of_move h j
  | cut h =>
    obtain ⟨u, hmove, rfl⟩ := h.exists_move
    cases change_of_move hmove j with
    | keep heq => exact .keep heq
    | enter hdue hle heq => exact .enter hdue hle heq
    | raise hdue hmem heq => exact .raise hdue hmem heq
    | dispatch hdequeue heq => exact .dispatch hdequeue heq
    | execute hrunning hpolicy h0 hle heq => exact .execute hrunning hpolicy h0 hle heq

theorem quantum_of_quanta {b : Bank n} {config : Config}
    (h : b.levels.map Level.quantum = config.quanta) (hk : k ≤ config.lowestLevel) :
    b.quantum k = .ok (config.quantum k) := by
  have hpos := config.numQueues_pos
  have hlength : b.levels.length = config.numQueues := by
    simpa [Config.quanta] using congrArg List.length h
  unfold Config.lowestLevel at hk
  have hk' : k < b.levels.length := by omega
  have hquantum : (b.levels.map Level.quantum)[k]? = some b.levels[k].quantum := by
    simp [hk']
  rw [h] at hquantum
  simp only [Config.quanta, List.getElem?_map, Option.map_eq_some_iff] at hquantum
  obtain ⟨l, hl, hq⟩ := hquantum
  rw [List.getElem?_range (by omega), Option.some.injEq] at hl
  subst hl
  simp [Bank.quantum, Bank.level, Bank.position_of_lt hk', Except.map, hq]

/-! ## The queues after a move -/

/-- A boost makes the whole line the top queue. -/
theorem queueAt_zero_boosted : s.boosted.bank.queueAt 0 = s.boosted.bank.queued := by
  rw [show s.boosted.bank = s.bank.raiseAll from rfl, Bank.queueAt_raiseAll, if_pos rfl,
    Bank.queued_raiseAll]

theorem queued_sublist_ran : s.bank.queued.Sublist (s.ran i d).bank.queued := by
  simp only [ran]
  split
  · exact Bank.queued_sublist_put
  · exact .refl _

theorem queueAt_zero_prefix_ran : s.bank.queueAt 0 <+: (s.ran i d).bank.queueAt 0 := by
  simp only [ran]
  split
  · exact Bank.queueAt_zero_prefix_put
  · exact List.prefix_refl _

/-! ## Soundness -/

structure Sound (s : Scheduler n) : Prop where
  bank : s.bank.Sound
  quanta : s.bank.levels.map Level.quantum = s.config.quanta
  interval : s.booster.interval = s.config.boostInterval
  process : ∀ i, (s.process i).Sound
  completed : s.completed = s.bank.processes.countP (·.completion.isSome)

namespace Sound

theorem length_levels (hs : s.Sound) : s.bank.levels.length = s.config.numQueues := by
  simpa [Config.quanta] using congrArg List.length hs.quanta

theorem level_le (hs : s.Sound) (i : Fin n) : (s.process i).level ≤ s.config.lowestLevel := by
  have hlevel : (s.process i).level < s.bank.levels.length := hs.bank.level_lt i
  rw [hs.length_levels] at hlevel
  unfold Config.lowestLevel
  omega

theorem done_iff (hs : s.Sound) : s.done ↔ ∀ i, ∃ t, (s.process i).phase = .terminated t := by
  have hall : s.completed = n ↔ ∀ p ∈ s.bank.processes, p.completion.isSome := by
    rw [hs.completed]
    exact Vector.countP_eq_size
  rw [done, beq_iff_eq, hall]
  constructor
  · intro h i
    exact Proc.isSome_completion.mp (h _ (Vector.getElem_mem i.isLt))
  · intro h p hp
    obtain ⟨i, hi, rfl⟩ := Vector.getElem_of_mem hp
    exact Proc.isSome_completion.mpr (h ⟨i, hi⟩)

theorem queueAt_of_done (hs : s.Sound) (hdone : s.done) : s.bank.queueAt k = [] := by
  refine List.eq_nil_iff_forall_not_mem.mpr fun i hi => ?_
  obtain ⟨time, hphase⟩ := hs.done_iff.mp hdone i
  have hready : (s.process i).phase = .ready := ((hs.bank.located i k).mp hi).1
  simp [hphase] at hready

/-- A process that has not completed leaves the count to what replaces it. -/
theorem countP_set (hs : s.Sound) (hi : (s.process i).completion = none) (p : Proc) :
    (s.bank.processes.set i p i.isLt).countP (·.completion.isSome) =
      if p.completion.isSome then s.completed + 1 else s.completed := by
  have hi' : s.bank.processes[i.val].completion.isSome = false := by
    rw [show s.bank.processes[i.val] = s.process i from rfl, hi]; rfl
  rw [Vector.countP_set, hs.completed, hi']
  cases p.completion.isSome <;> rfl

theorem level_admitted_lt (hs : s.Sound) (i : Fin n) :
    (s.process i).admitted.level < s.bank.levels.length := by
  unfold Proc.admitted
  split
  · exact Nat.zero_lt_of_lt (hs.bank.level_lt i)
  · exact hs.bank.level_lt i

theorem level_processAfter_le (hs : s.Sound) (i : Fin n) (d : Int) :
    (s.processAfter i d).level ≤ s.config.lowestLevel := by
  unfold processAfter
  cases (s.slice i d).outcome with
  | demoted => exact Nat.min_le_right _ _
  | _ => exact hs.level_le i

theorem level_processAfter_lt (hs : s.Sound) (i : Fin n) (d : Int) :
    (s.processAfter i d).level < s.bank.levels.length := by
  have hle := hs.level_processAfter_le i d
  have hpos := s.config.numQueues_pos
  unfold Config.lowestLevel at hle
  rw [hs.length_levels]
  omega

theorem head_ready (hs : s.Sound) (h : s.bank.dequeue = some (i, rest)) :
    (s.process i).phase = .ready :=
  hs.bank.mem_queued.mp (by simp [(Bank.dequeue_eq_some h).2.2.1])

theorem processWithPid (hs : s.Sound) (i : Fin n) : s.processWithPid (s.bank.pid i) = .ok i := by
  rw [Scheduler.processWithPid, Bank.find?]
  cases h : (List.finRange n).find? fun j => s.bank.pid j == s.bank.pid i with
  | none =>
    have hnone := List.find?_eq_none.mp h i (List.mem_finRange i)
    exact absurd (beq_self_eq_true _) hnone
  | some j =>
    have hpid := List.find?_some h
    exact congrArg Except.ok (hs.bank.distinct (beq_iff_eq.mp hpid))

theorem admitted (hs : s.Sound) (h : (s.process i).due? = some t) : (s.admitted i).Sound := by
  have hwaits : (s.process i).phase ≠ .ready := by
    rcases Proc.due?_eq_some.mp h with ⟨hphase, -⟩ | hphase <;> simp [hphase]
  have hlevel := hs.level_admitted_lt i
  constructor
  · exact hs.bank.put hwaits Proc.phase_admitted (by simp [Proc.pid, Bank.pid]; rfl) hlevel
  · exact (Level.quanta_push _).trans hs.quanta
  · exact hs.interval
  · intro j
    rw [process_admitted]
    split
    · exact (hs.process i).admitted h
    · exact hs.process j
  · have hcount := hs.countP_set (Proc.completion_of_due h) (s.process i).admitted
    rw [Proc.completion_of_ready Proc.phase_admitted] at hcount
    exact hcount.symm

theorem boosted (hs : s.Sound) : s.boosted.Sound := by
  constructor
  · exact hs.bank.raiseAll
  · exact Bank.quanta_raiseAll.trans hs.quanta
  · exact hs.interval
  · intro i
    rw [process_boosted]
    split
    · exact (hs.process i).raise
    · exact hs.process i
  · -- A boost completes nothing, and the counter counts completions alone.
    have hmap : s.boosted.bank.processes.map Proc.completion =
        s.bank.processes.map Proc.completion := by
      ext j hj
      have hprocess : s.boosted.bank.processes[j] = _ := process_boosted (s := s) (i := ⟨j, hj⟩)
      rw [Vector.getElem_map, Vector.getElem_map, hprocess]
      split <;> rfl
    have hcount (v : Vector Proc n) :
        v.countP (·.completion.isSome) = (v.map Proc.completion).countP Option.isSome := by
      rw [Vector.countP_map]; rfl
    rw [hcount, hmap, ← hcount]
    exact hs.completed

theorem dispatched (hs : s.Sound) (h : s.bank.dequeue = some (i, rest)) :
    (s.dispatched i rest).Sound := by
  obtain ⟨hprocesses, -, -, hquanta, -⟩ := Bank.dequeue_eq_some h
  have hready := hs.head_ready h
  constructor
  · exact hs.bank.dequeue h (by simp [Proc.dispatched]) rfl (hs.bank.level_lt i)
  · exact hquanta.trans hs.quanta
  · exact hs.interval
  · intro j
    rw [process_dispatched h]
    split
    · exact (hs.process i).dispatched hready
    · exact hs.process j
  · have hcount := hs.countP_set (Proc.completion_of_ready hready)
      ((s.process i).dispatched s.clock)
    rw [← hprocesses] at hcount
    exact hcount.symm

theorem ran (hs : s.Sound) (hi : (s.process i).phase = .running) (h0 : 0 ≤ d)
    (hd : d ≤ (s.process i).remaining) : (s.ran i d).Sound := by
  have hwaits : (s.bank.process i).phase ≠ .ready := by
    rw [show s.bank.process i = s.process i from rfl, hi]; simp
  have hpid : (s.processAfter i d).pid = s.bank.pid i := by
    simp [processAfter, Proc.pid, Bank.pid]; rfl
  have hlevel := hs.level_processAfter_lt i d
  constructor
  · simp only [Scheduler.ran]
    split
    · exact hs.bank.put hwaits ‹_› hpid hlevel
    · exact hs.bank.setProcess hwaits ‹_› hpid hlevel
  · simp only [Scheduler.ran]
    split
    · exact (Level.quanta_push _).trans hs.quanta
    · exact hs.quanta
  · exact hs.interval
  · intro j
    rw [process_ran]
    split
    · exact (hs.process i).settled h0 hd
    · exact hs.process j
  · rw [processes_ran, hs.countP_set (Proc.completion_of_running hi), processAfter,
      Proc.isSome_completion_settled]
    simp [Scheduler.ran]

theorem idled (hs : s.Sound) : (s.idled target).Sound :=
  ⟨hs.bank, hs.quanta, hs.interval, hs.process, hs.completed⟩

theorem stalled (hs : s.Sound) : s.stalled.Sound :=
  ⟨hs.bank, hs.quanta, hs.interval, hs.process, hs.completed⟩

theorem unrecorded {t : Scheduler n} (ht : t.Sound) : (t.unrecorded s).Sound :=
  ⟨ht.bank, ht.quanta, ht.interval, ht.process, ht.completed⟩

end Sound

end Scheduler

theorem Move.sound (h : Move policy s t) (hs : s.Sound) : t.Sound := by
  cases h with
  | enter hdue _ => exact hs.admitted hdue
  | boost _ => exact hs.boosted
  | dispatch hdequeue => exact hs.dispatched hdequeue
  | execute hrunning _ h0 hd => exact hs.ran hrunning h0 hd
  | idle _ => exact hs.idled
  | stall _ => exact hs.stalled

theorem Move.config_eq (h : Move policy s t) : t.config = s.config := by
  cases h <;> rfl

theorem Move.clock_le (h : Move policy s t) : s.clock ≤ t.clock := by
  cases h with
  | execute _ _ h0 _ => exact Int.le_add_of_nonneg_right h0
  | idle _ => exact Int.le_max_right _ _
  | _ => exact Int.le_refl _

namespace Advance

theorem sound (h : Advance policy s t) (hs : s.Sound) : t.Sound := by
  cases h with
  | move h => exact h.sound hs
  | cut h =>
    obtain ⟨u, hmove, rfl⟩ := h.exists_move
    exact (hmove.sound hs).unrecorded

theorem config_eq (h : Advance policy s t) : t.config = s.config := by
  cases h with
  | move h => exact h.config_eq
  | cut h =>
    obtain ⟨u, hmove, rfl⟩ := h.exists_move
    exact hmove.config_eq

theorem clock_le (h : Advance policy s t) : s.clock ≤ t.clock := by
  cases h with
  | move h => exact h.clock_le
  | cut h =>
    obtain ⟨u, hmove, rfl⟩ := h.exists_move
    exact hmove.clock_le

variable {s t : Scheduler n}

/-- The jobs are fixed from the start. -/
theorem spec_eq (h : Advance policy s t) (i : Fin n) :
    (t.process i).spec = (s.process i).spec := by
  cases Scheduler.change_of_advance h i with
  | keep heq => rw [heq]
  | enter _ _ heq => rw [heq, Proc.spec_admitted]
  | raise _ _ heq => rw [heq]; rfl
  | dispatch _ heq => rw [heq]; rfl
  | execute _ _ _ _ heq => rw [heq, Scheduler.processAfter, Proc.spec_settled, Proc.spec_ran]

theorem pid_eq (h : Advance policy s t) (i : Fin n) : t.bank.pid i = s.bank.pid i :=
  congrArg Spec.pid (h.spec_eq i)

end Advance

theorem Move.spec_eq {s t : Scheduler n} (h : Move policy s t) (i : Fin n) :
    (t.process i).spec = (s.process i).spec :=
  (Advance.move h).spec_eq i

theorem Move.pid_eq {s t : Scheduler n} (h : Move policy s t) (i : Fin n) :
    t.bank.pid i = s.bank.pid i :=
  (Advance.move h).pid_eq i

end FeedbackQueue
