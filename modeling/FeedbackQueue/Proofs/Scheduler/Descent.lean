import FeedbackQueue.Proofs.Scheduler.OwnSlices
import FeedbackQueue.Proofs.Scheduler.Records

/-!
# The slices of a CPU-bound process

A CPU-bound process goes down one level with every slice that it does not complete in. Boosts take
it up again, back to shorter quanta, so it needs the fewest slices if none fires while it is
served, and at most as many as short quanta cover its burst.
-/

namespace FeedbackQueue

open Finset

/-- The CPU time of a number of slices, if each but those at the lowest level is followed by one a
level below. -/
def Config.descent (config : Config) (count : Nat) : Int :=
  ∑ i ∈ range count, config.baseQuantum * 2 ^ min i config.lowestLevel

def Entry.tells (e : Entry) (kind : EventKind) (pid : Int) : Bool :=
  e.kind = kind ∧ e.pid = some pid

/-- The entries from the first dispatch of a process on, up to its completion. -/
def Log.service (log : Log) (pid : Int) : List Entry :=
  (log.toList.dropWhile (!·.tells .dispatch pid)).takeWhile (!·.tells .completion pid)

variable {config : Config} {spec : Spec} {slices before after : List Slice} {b : Slice}

theorem Config.descent_succ (config : Config) (count : Nat) :
    config.descent (count + 1) =
      config.descent count + config.quantum (min count config.lowestLevel) := by
  simp [descent, sum_range_succ, quantum]

theorem Config.descent_mono (config : Config) : Monotone config.descent :=
  monotone_nat_of_le_succ fun count => by
    have hpos : 0 < config.quantum (min count config.lowestLevel) := quantum_pos _
    rw [descent_succ]
    omega

theorem Log.mem_service {log : Log} (hlog : log.toList = former ++ e :: latter)
    (hdispatched : ∃ d ∈ former, d.tells .dispatch pid)
    (hopen : ∀ c ∈ former ++ [e], c.tells .completion pid = false) : e ∈ log.service pid := by
  obtain ⟨d, hd, hdispatch⟩ := hdispatched
  have hne : former.dropWhile (!·.tells .dispatch pid) ≠ [] := by
    intro hnil
    have hdropped := List.dropWhile_eq_nil_iff.mp hnil d hd
    simp [hdispatch] at hdropped
  have hformer : ∀ c ∈ former.dropWhile (!·.tells .dispatch pid), !c.tells .completion pid := by
    intro c hc
    have hmem := (List.dropWhile_sublist _).subset hc
    simp [hopen c (by simp [hmem])]
  rw [service, hlog, List.dropWhile_append, if_neg (by simpa using hne),
    List.takeWhile_append_of_pos hformer, List.takeWhile_cons_of_pos (by simp [hopen e])]
  simp

-- ---------------------------------------------------------------------------
-- Levels of one process
-- ---------------------------------------------------------------------------

theorem demotions_slicesOf (slices : List Slice) (pid since : Int) :
    demotions (slicesOf slices pid) pid since = demotions slices pid since := by
  rw [demotions, slicesOf, List.countP_filter, demotions]
  congr 1
  ext b
  simp
  tauto

theorem demotions_eq_length
    (h : ∀ b ∈ slices, b.pid = pid ∧ b.outcome = .demoted ∧ since < b.stop) :
    demotions slices pid since = slices.length :=
  List.countP_eq_length.mpr fun b hb => by simpa using h b hb

theorem length_mul_le_busyTime (h : ∀ b ∈ slices, d ≤ b.duration) :
    slices.length * d ≤ busyTime slices := by
  induction slices with
  | nil => simp [busyTime]
  | cons b rest ih =>
    have hrest := ih fun c hc => h c (by simp [hc])
    have hb := h b (by simp)
    rw [busyTime_cons, List.length_cons, Nat.cast_succ, Int.add_mul]
    omega

namespace Portions

theorem turn_eq_quantum (hcpu : spec.ioBound = false) (k : Nat) :
    config.turn spec.ioBound k = config.quantum k := by
  simp [Config.turn, hcpu]

theorem demoted (h : Portions config spec slices) (hcpu : spec.ioBound = false)
    (heq : slices = before ++ b :: after) (hmore : after ≠ []) :
    b.duration = config.quantum b.level ∧ b.outcome = .demoted := by
  obtain ⟨hduration, houtcome⟩ := h.unfinished heq hmore
  rw [turn_eq_quantum hcpu] at hduration
  exact ⟨hduration, by simpa [hcpu] using houtcome⟩

theorem countP_ioYield (h : Portions config spec slices) (hcpu : spec.ioBound = false) :
    slices.countP (·.outcome = .ioYield) = 0 := by
  refine List.countP_eq_zero.mpr fun b hb => ?_
  obtain ⟨before, after, heq⟩ := List.append_of_mem hb
  by_cases hmore : after = []
  · subst hmore
    simp [(h.completed heq).2]
  · simp [(h.demoted hcpu heq hmore).2]

/-- Boosts only make for more slices. -/
theorem busyTime_le_descent (h : Portions config spec slices) (hcpu : spec.ioBound = false)
    (hlevel : ∀ before b after, slices = before ++ b :: after →
      b.level ≤ min config.lowestLevel before.length)
    (heq : slices = before ++ after) : busyTime before ≤ config.descent before.length := by
  induction before using List.reverseRecOn generalizing after with
  | nil => exact Int.le_refl 0
  | append_singleton earlier b ih =>
    have hsplit : slices = earlier ++ b :: after := by simpa using heq
    have hearlier := ih hsplit
    have hduration := h.duration_le hsplit
    have hquantum := config.quantum_mono (hlevel earlier b after hsplit)
    rw [turn_eq_quantum hcpu] at hduration
    rw [Nat.min_comm] at hquantum
    rw [busyTime_concat, List.length_append, List.length_singleton, Config.descent_succ]
    omega

/-- Without boosts the slices before another one are as long as they can be. -/
theorem busyTime_eq_descent (h : Portions config spec slices) (hcpu : spec.ioBound = false)
    (hlevel : ∀ before b after, slices = before ++ b :: after →
      b.level = min config.lowestLevel before.length)
    (heq : slices = before ++ after) (hmore : after ≠ []) :
    busyTime before = config.descent before.length := by
  induction before using List.reverseRecOn generalizing after with
  | nil => rfl
  | append_singleton earlier b ih =>
    have hsplit : slices = earlier ++ b :: after := by simpa using heq
    rw [busyTime_concat, ih hsplit (by simp), (h.demoted hcpu hsplit hmore).1,
      hlevel earlier b after hsplit, Nat.min_comm, List.length_append, List.length_singleton,
      Config.descent_succ]

theorem burst_le_descent (h : Portions config spec slices) (hcpu : spec.ioBound = false)
    (hlevel : ∀ before b after, slices = before ++ b :: after →
      b.level ≤ min config.lowestLevel before.length) :
    spec.burst ≤ config.descent slices.length := by
  rw [← h.total]
  exact h.busyTime_le_descent hcpu hlevel (List.append_nil _).symm

theorem length_le (h : Portions config spec slices) (hcpu : spec.ioBound = false)
    (hlevel : ∀ before b after, slices = before ++ b :: after →
      b.level = min config.lowestLevel before.length)
    (hcount : spec.burst ≤ config.descent count) : slices.length ≤ count := by
  obtain ⟨init, last, heq⟩ := h.exists_last
  have howed := h.owed heq
  have hpos : 0 < last.duration := h.duration_pos (by simp [heq])
  have hinit := h.busyTime_eq_descent hcpu hlevel heq (by simp)
  refine Decidable.byContradiction fun hmore => ?_
  have hshort : count ≤ init.length := by simpa [heq] using hmore
  have hdescent := config.descent_mono hshort
  simp only [busyTime, List.map_nil, List.sum_nil] at howed hinit
  omega

/-- Even at the top level all the time no slice but the last is shorter than the quantum. -/
theorem length_le_ceil (h : Portions config spec slices) (hcpu : spec.ioBound = false) :
    (slices.length : Int) ≤ ⌈(spec.burst : ℚ) / config.baseQuantum⌉ := by
  obtain ⟨init, last, heq⟩ := h.exists_last
  have hlast := h.owed heq
  have hpos : 0 < last.duration := h.duration_pos (by simp [heq])
  have hinit : init.length * config.baseQuantum ≤ busyTime init := by
    refine length_mul_le_busyTime fun b hb => ?_
    obtain ⟨before, after, rfl⟩ := List.append_of_mem hb
    have hsplit : slices = before ++ b :: (after ++ [last]) := by simpa using heq
    rw [(h.demoted hcpu hsplit (by simp)).1]
    exact Config.baseQuantum_le_quantum _
  have hlower : (init.length : Int) < ⌈(spec.burst : ℚ) / config.baseQuantum⌉ :=
    (lt_ceil_div config.baseQuantum_pos).mpr (by simp [busyTime] at hlast hinit ⊢; omega)
  rw [heq]
  simpa using hlower

/-- A burst of one quantum is run at once. -/
theorem eq_singleton (h : Portions config spec slices) (hcpu : spec.ioBound = false)
    (hshort : spec.burst ≤ config.baseQuantum) :
    ∃ b, slices = [b] ∧ b.duration = spec.burst ∧ b.outcome = .completed := by
  have hone : ⌈(spec.burst : ℚ) / config.baseQuantum⌉ ≤ 1 :=
    (ceil_div_le config.baseQuantum_pos).mpr (by simpa using hshort)
  have hlength := h.length_le_ceil hcpu
  obtain ⟨init, last, heq⟩ := h.exists_last
  have hnil : init = [] := by
    rw [heq, List.length_append, List.length_singleton] at hlength
    exact List.eq_nil_of_length_eq_zero (by omega)
  subst hnil
  obtain ⟨hduration, houtcome⟩ := h.completed heq
  exact ⟨last, heq, by simpa [busyTime] using hduration, houtcome⟩

end Portions

namespace Scheduler

variable {s : Scheduler n}

/-- The level of a slice is known from the earlier slices of its process. -/
theorem Recorded.level_slicesOf (h : s.Recorded)
    (heq : slicesOf s.timeline.toList pid = before ++ b :: after) :
    b.level = min s.config.lowestLevel (demotions before pid (s.log.lastBoost b.start)) := by
  have hpid : b.pid = pid := pid_of_mem_slicesOf (heq ▸ List.mem_append_right _ List.mem_cons_self)
  obtain ⟨former, latter, hslices, rfl, -⟩ := slicesOf_eq_append_cons heq
  rw [(h.level former b latter hslices).2.2, hpid, demotions_slicesOf]

theorem Recorded.level_le_length (h : s.Recorded)
    (heq : slicesOf s.timeline.toList pid = before ++ b :: after) :
    b.level ≤ min s.config.lowestLevel before.length := by
  have hcount : demotions before pid (s.log.lastBoost b.start) ≤ before.length :=
    List.countP_le_length
  rw [h.level_slicesOf heq]
  omega

/-- If nothing has taken the process up since its first slice, its slices count its level. -/
theorem Recorded.level_eq_length (h : s.Recorded)
    (heq : slicesOf s.timeline.toList pid = before ++ b :: after)
    (hdemoted : ∀ a ∈ before, a.outcome = .demoted)
    (hsince : ∀ a ∈ before, s.log.lastBoost b.start < a.stop) :
    b.level = min s.config.lowestLevel before.length := by
  have hbefore : ∀ a ∈ before, a.pid = pid := fun a ha =>
    pid_of_mem_slicesOf (heq ▸ List.mem_append_left _ ha)
  rw [h.level_slicesOf heq,
    demotions_eq_length fun a ha => ⟨hbefore a ha, hdemoted a ha, hsince a ha⟩]

/-- The completion of a process is recorded at the end of its last slice. -/
theorem Logged.time_completion (h : s.Logged) (hcharted : s.Charted)
    (hportions : Portions config spec (slicesOf s.timeline.toList pid)) (hc : c ∈ s.log.toList)
    (hcompletion : c.tells .completion pid) (hb : b ∈ slicesOf s.timeline.toList pid) :
    b.stop ≤ c.time := by
  obtain ⟨hkind, hpid⟩ : c.kind = .completion ∧ c.pid = some pid := by
    simpa [Entry.tells] using hcompletion
  obtain ⟨last, hlast, hcloses⟩ := h.exists_slice hc (by rw [hkind]; rfl)
  have houtcome : last.outcome = .completed := by
    have hcompleted := hcloses.kind.symm.trans hkind
    cases ho : last.outcome <;> simp [ho, Outcome.kind] at hcompleted
    rfl
  have hmem : last ∈ slicesOf s.timeline.toList pid := by
    have hpid' := hcloses.pid.symm.trans hpid
    exact List.mem_filter.mpr ⟨hlast, by simpa using hpid'⟩
  obtain ⟨before, after, heq⟩ := List.append_of_mem hmem
  have hend : after = [] := by
    refine Decidable.byContradiction fun hmore => ?_
    have hother := (hportions.unfinished heq hmore).2
    rw [houtcome] at hother
    split at hother <;> cases hother
  subst hend
  have hordered : (slicesOf s.timeline.toList pid).Pairwise fun a b => a.stop ≤ b.start :=
    hcharted.ordered.filter _
  have hpos := hportions.duration_pos hmem
  have hstop : last.stop = last.start + last.duration := rfl
  rw [hcloses.time]
  rw [heq, List.pairwise_append] at hordered
  rw [heq, List.mem_append, List.mem_singleton] at hb
  rcases hb with hb | rfl
  · have hle := hordered.2.2 b hb last (by simp)
    omega
  · exact Int.le_refl _

/-- A boost between the first slice of a process and a later one is logged while the process is
served. -/
theorem Logged.lastBoost_eq (h : s.Logged) (hcharted : s.Charted)
    (hportions : Portions config spec (slicesOf s.timeline.toList pid))
    (hown : slicesOf s.timeline.toList pid = first :: rest)
    (hdispatched : ∃ d ∈ s.log.toList, d.tells .dispatch pid ∧ d.time = first.start)
    (hquiet : ∀ e ∈ s.log.service pid, e.kind ≠ .boost) (hb : b ∈ first :: rest) :
    s.log.lastBoost b.start = s.log.lastBoost first.start := by
  have hpos : ∀ c ∈ first :: rest, c.start < c.stop := fun c hc =>
    Int.lt_add_of_pos_right _ (hportions.duration_pos (hown ▸ hc))
  have hle : first.start ≤ b.start := by
    have hordered : (first :: rest).Pairwise fun a b => a.stop ≤ b.start :=
      hown ▸ hcharted.ordered.filter _
    rcases List.mem_cons.mp hb with rfl | hmem
    · exact Int.le_refl _
    · have hstop := (List.pairwise_cons.mp hordered).1 b hmem
      have hfirst := hpos first (by simp)
      omega
  refine Log.lastBoost_eq_of_none hle fun e he hafter => Decidable.byContradiction fun hnot => ?_
  obtain ⟨hmem, hboost⟩ : e ∈ s.log.toList ∧ e.kind = .boost := by
    rw [Log.ofKind_eq] at he
    simpa using he
  obtain ⟨earlier, later, hsplit⟩ := List.append_of_mem hmem
  have htimes := h.ordered
  rw [hsplit, List.pairwise_append, List.pairwise_cons] at htimes
  obtain ⟨-, ⟨hlater, -⟩, hearlier⟩ := htimes
  obtain ⟨d, hd, hdispatch, htime⟩ := hdispatched
  -- By their times the boost comes after the dispatch and before the completion.
  refine hquiet e (Log.mem_service hsplit ⟨d, ?_, hdispatch⟩ fun c hc => ?_) hboost
  · rw [hsplit, List.mem_append, List.mem_cons] at hd
    rcases hd with hd | rfl | hd
    · exact hd
    · omega
    · have hlate := hlater d hd
      omega
  · refine Bool.eq_false_iff.mpr fun hcompletion => ?_
    rw [List.mem_append, List.mem_singleton] at hc
    have hmem : c ∈ s.log.toList := by
      rw [hsplit, List.mem_append, List.mem_cons]
      exact hc.imp_right .inl
    have hearly : c.time ≤ e.time := by
      rcases hc with hc | rfl
      · exact hearlier c hc e (by simp)
      · exact Int.le_refl _
    have hlate := h.time_completion hcharted hportions hmem hcompletion (hown ▸ hb)
    have hrun := hpos b hb
    omega

/-- As long as no boost fires, a CPU-bound process goes down with every slice. -/
theorem Punctual.level_of_quiet (h : s.Punctual) (hlogged : s.Logged) (hcharted : s.Charted)
    (hportions : Portions config spec (slicesOf s.timeline.toList pid))
    (hcpu : spec.ioBound = false)
    (hdispatched : ∀ b ∈ slicesOf s.timeline.toList pid,
      ∃ d ∈ s.log.toList, d.tells .dispatch pid ∧ d.time = b.start)
    (hquiet : ∀ e ∈ s.log.service pid, e.kind ≠ .boost)
    (heq : slicesOf s.timeline.toList pid = before ++ b :: after) :
    b.level = min s.config.lowestLevel before.length := by
  obtain ⟨first, rest, hown⟩ : ∃ first rest, slicesOf s.timeline.toList pid = first :: rest :=
    List.exists_cons_of_ne_nil (by simp [heq])
  have hdispatch := hdispatched first (hown ▸ List.mem_cons_self)
  have hsame {c : Slice} (hc : c ∈ slicesOf s.timeline.toList pid) :
      s.log.lastBoost c.start = s.log.lastBoost first.start :=
    hlogged.lastBoost_eq hcharted hportions hown hdispatch hquiet (hown ▸ hc)
  have hbefore : ∀ a ∈ before, a ∈ slicesOf s.timeline.toList pid := fun a ha =>
    heq ▸ List.mem_append_left _ ha
  have hb : b ∈ slicesOf s.timeline.toList pid := heq ▸ by simp
  refine h.level_eq_length heq (fun a ha => ?_) fun a ha => ?_
  · obtain ⟨former, latter, rfl⟩ := List.append_of_mem ha
    have hsplit : slicesOf s.timeline.toList pid = former ++ a :: (latter ++ b :: after) := by
      simp [heq]
    exact (hportions.demoted hcpu hsplit (by simp)).2
  · have hintime := (h.intime a (List.mem_filter.mp (hbefore a ha)).1).1
    have hstop : a.start < a.stop :=
      Int.lt_add_of_pos_right _ (hportions.duration_pos (hbefore a ha))
    rw [hsame hb, ← hsame (hbefore a ha)]
    omega

end Scheduler

namespace Workload

open Scheduler

variable {w : Workload}

/-- Every slice is dispatched when it starts. -/
theorem exists_dispatch (config : Config) (k : Nat)
    (hb : b ∈ slicesOf ((w.start config).afterSteps .standard k).timeline.toList pid) :
    ∃ d ∈ ((w.start config).afterSteps .standard k).log.toList,
      d.tells .dispatch pid ∧ d.time = b.start := by
  have hpid := pid_of_mem_slicesOf hb
  obtain ⟨former, latter, htimeline⟩ := List.append_of_mem (List.mem_filter.mp hb).1
  obtain ⟨before, d, _, after, hlog, -, hopens, -⟩ :=
    opened_and_closed config .standard k htimeline
  exact ⟨d, by simp [hlog], by simp [Entry.tells, hopens.kind, hopens.pid, hpid], hopens.time⟩

/-- When a workload has been stepped to its end, a CPU-bound process has at least as many slices
as it takes to cover its burst by quanta that get longer level by level, and at most as many as
short quanta cover it. It has no more than the least number if no boost fires while it is served.
So a burst of one quantum is served at once. A process that was alone did not wait, whatever boosts
there were. -/
theorem cpu_bound_slices (w : Workload) (config : Config) (k : Nat) :
    let s := (w.start config).afterSteps .standard k
    s.done → ∀ i, (w.spec i).ioBound = false →
      let own := slicesOf s.timeline.toList (w.spec i).pid
      (∃ least, IsLeast {count | (w.spec i).burst ≤
          ∑ j ∈ range count, config.baseQuantum * 2 ^ min j config.lowestLevel} least ∧
        least ≤ own.length ∧ (own.length : Int) ≤ ⌈((w.spec i).burst : ℚ) / config.baseQuantum⌉ ∧
        ((∀ e ∈ s.log.service (w.spec i).pid, e.kind ≠ .boost) → own.length = least)) ∧
      ((w.spec i).burst ≤ config.baseQuantum → ∃ b, own = [b] ∧
        (s.process i).firstRun = some b.start ∧ b.level = 0 ∧ b.duration = (w.spec i).burst ∧
        b.outcome = .completed) ∧
      (w.size = 1 →
        (s.process i).completion = some ((w.spec i).arrival + (w.spec i).burst)) := by
  intro s hdone i hcpu own
  have hconfig : s.config = config := config_afterSteps k
  have hpunctual : s.Punctual := punctual_afterSteps config k
  have hportions : Portions config (w.spec i) own := portions_afterSteps i hdone
  have hlevel : ∀ before b after, own = before ++ b :: after →
      b.level ≤ min config.lowestLevel before.length := fun before b after heq =>
    hconfig ▸ hpunctual.level_le_length heq
  have henough := hportions.burst_le_descent hcpu hlevel
  have hsome : ∃ count, (w.spec i).burst ≤ config.descent count := ⟨_, henough⟩
  refine ⟨⟨Nat.find hsome, ⟨Nat.find_spec hsome, fun count => Nat.find_min' hsome⟩,
    Nat.find_min' hsome henough, hportions.length_le_ceil hcpu, fun hquiet => ?_⟩, fun hshort => ?_,
    fun halone => ?_⟩
  · have hexact : ∀ before b after, own = before ++ b :: after →
        b.level = min config.lowestLevel before.length := fun before b after heq =>
      hconfig ▸ hpunctual.level_of_quiet (logged_afterSteps k) (charted_afterSteps .standard k)
        hportions hcpu
        (fun _ => exists_dispatch config k) hquiet heq
    exact Nat.le_antisymm (hportions.length_le hcpu hexact (Nat.find_spec hsome))
      (Nat.find_min' hsome henough)
  · obtain ⟨b, hown, hduration, houtcome⟩ := hportions.eq_singleton hcpu hshort
    have hfirst : (s.process i).firstRun = own.head?.map Slice.start :=
      firstRun_afterSteps (not_stopped_of_done .standard hdone) i
    have htop := hlevel [] b [] hown
    exact ⟨b, hown, by rw [hfirst, hown]; rfl, by simpa using htop, hduration, houtcome⟩
  · rw [completion_afterSteps_alone halone i hdone, hportions.countP_ioYield hcpu]
    simp

/-- A burst of 100 units, alone, takes 100 units of time and ten slices at the most. -/
theorem cpu_bound_slices_alone :
    let w : Workload :=
      { specs := [⟨1, 0, 100, false, none, by decide, by decide, by decide⟩],
        nonempty := by decide, distinct := by decide }
    ∃ k, let s := (w.start .standard).afterSteps .standard k
      s.done ∧ (slicesOf s.timeline.toList 1).length ≤ 10 ∧
        (s.process ⟨0, by decide⟩).completion = some 100 := by
  intro w
  have hrecordable : w.Recordable .standard := by
    refine ⟨⟨?_, ?_, ?_⟩, ?_⟩ <;> decide +kernel
  obtain ⟨k, hdone⟩ := exists_done hrecordable .standard
  obtain ⟨⟨-, -, -, hlength, -⟩, -, halone⟩ :=
    cpu_bound_slices w .standard k hdone ⟨0, by decide⟩ rfl
  have hten : ⌈((100 : Int) : ℚ) / ((10 : Int) : ℚ)⌉ = 10 := by norm_num [Int.ceil_eq_iff]
  exact ⟨k, hdone, Int.ofNat_le.mp (hlength.trans_eq hten), halone rfl⟩

end Workload

end FeedbackQueue
