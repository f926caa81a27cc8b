import FeedbackQueue.Proofs.Scheduler.History
import FeedbackQueue.Proofs.Scheduler.Legible

/-!
# One CPU, one timeline

Whatever is called, in whatever order and under whatever policy, the recorded slices
follow each other, every process has been given exactly what it no longer owes, and the
clock is the time of all slices and of all jumps of the idle clock together. This is so
even while several processes have been dispatched, since only one runs at a time.

A slice that cannot be recorded is missing in the timeline. That happens to processes
only whose pid is too long to be written, and never to a scheduler that is stepped.
-/

namespace FeedbackQueue

open Relation (ReflTransGen)

variable {slices : List Slice} {b : Slice}

/-- The CPU time that the slices gave to a process. -/
def delivered (slices : List Slice) (pid : Int) : Int :=
  ((slices.filter (·.pid = pid)).map Slice.duration).sum

theorem delivered_concat (slices : List Slice) (hpid : b.pid = pid) :
    delivered (slices ++ [b]) pid = delivered slices pid + b.duration := by
  simp [delivered, hpid]

theorem delivered_concat_of_ne (slices : List Slice) (hpid : b.pid ≠ pid) :
    delivered (slices ++ [b]) pid = delivered slices pid := by
  simp [delivered, hpid]

/-- The time of all slices together. -/
def busyTime (slices : List Slice) : Int := (slices.map Slice.duration).sum

theorem busyTime_concat : busyTime (slices ++ [b]) = busyTime slices + b.duration := by
  simp [busyTime]

/-- The slice is being run at a time. -/
def Slice.covers (b : Slice) (time : Int) : Bool := b.start ≤ time ∧ time < b.stop

/-- Slices that follow each other share no instant. -/
theorem countP_covers_le_one (h : slices.Pairwise fun a b => a.stop ≤ b.start) (time : Int) :
    slices.countP (·.covers time) ≤ 1 := by
  induction h with
  | nil => exact Nat.zero_le 1
  | @cons a rest hrest _ ih =>
    rw [List.countP_cons]
    cases ha : a.covers time with
    | false => simpa using ih
    | true =>
      have hlater : rest.countP (·.covers time) = 0 := by
        rw [List.countP_eq_zero]
        intro c hc
        have hle := hrest c hc
        simp only [Slice.covers, decide_eq_true_eq] at ha ⊢
        omega
      simp [hlater]

namespace Scheduler

variable {s t : Scheduler n} {policy : SlicePolicy n}

-- ---------------------------------------------------------------------------
-- The slices
-- ---------------------------------------------------------------------------

/-- The timeline is a chart of one CPU, and nothing was delivered beside it to the processes whose
slices are all listed. -/
structure ChartedFor (listed : Int → Prop) (s : Scheduler n) : Prop where
  clock_nonneg : 0 ≤ s.clock
  ordered : s.timeline.toList.Pairwise fun a b => a.stop ≤ b.start
  within : ∀ b ∈ s.timeline.toList, 0 ≤ b.start ∧ 0 ≤ b.duration ∧ b.stop ≤ s.clock
  owner : ∀ b ∈ s.timeline.toList, ∃ i, (s.process i).pid = b.pid
  remaining : ∀ i, listed (s.process i).pid → (s.process i).remaining =
    (s.process i).spec.burst - delivered s.timeline.toList (s.process i).pid

/-- The timeline is a chart of one CPU, and nothing was delivered beside it. -/
abbrev Charted (s : Scheduler n) : Prop := s.ChartedFor fun _ => True

namespace ChartedFor

variable {listed : Int → Prop}

/-- The clock may go on as long as nobody runs whose slices are listed. -/
theorem congr (h : s.ChartedFor listed) (hclock : s.clock ≤ t.clock)
    (htimeline : t.timeline = s.timeline)
    (hspec : ∀ i, (t.process i).spec = (s.process i).spec)
    (hremaining : ∀ i, listed (s.process i).pid →
      (t.process i).remaining = (s.process i).remaining) : t.ChartedFor listed := by
  constructor
  · exact Int.le_trans h.clock_nonneg hclock
  · rw [htimeline]
    exact h.ordered
  · intro b hb
    obtain ⟨hstart, hduration, hstop⟩ := h.within b (htimeline ▸ hb)
    exact ⟨hstart, hduration, Int.le_trans hstop hclock⟩
  · simp only [htimeline, Proc.pid, hspec]
    exact h.owner
  · intro i hi
    rw [Proc.pid, hspec] at hi
    rw [hremaining i hi, htimeline, Proc.pid, hspec]
    exact h.remaining i hi

theorem ran (hs : s.Sound) (h : s.ChartedFor listed) (h0 : 0 ≤ d) :
    (s.ran i d).ChartedFor listed := by
  have htimeline : (s.ran i d).timeline.toList = s.timeline.toList ++ [s.slice i d] :=
    Array.toList_push
  have hclock : (s.ran i d).clock = s.clock + d := rfl
  have hspec (j) : ((s.ran i d).process j).spec = (s.process j).spec := by
    rw [process_ran]
    split
    · subst j
      exact Proc.spec_settled
    · rfl
  constructor
  · rw [hclock]
    exact Int.add_nonneg h.clock_nonneg h0
  · rw [htimeline, List.pairwise_append]
    refine ⟨h.ordered, List.pairwise_singleton _ _, fun a ha b hb => ?_⟩
    obtain rfl := List.mem_singleton.mp hb
    exact (h.within a ha).2.2
  · intro b hb
    rw [htimeline, List.mem_append, List.mem_singleton] at hb
    rcases hb with hb | rfl
    · obtain ⟨hstart, hduration, hstop⟩ := h.within b hb
      exact ⟨hstart, hduration, Int.le_trans hstop (Int.le_add_of_nonneg_right h0)⟩
    · exact ⟨h.clock_nonneg, h0, Int.le_refl _⟩
  · intro b hb
    rw [htimeline, List.mem_append, List.mem_singleton] at hb
    simp only [Proc.pid, hspec]
    rcases hb with hb | rfl
    · exact h.owner b hb
    · exact ⟨i, rfl⟩
  · intro j hj
    rw [Proc.pid, hspec] at hj
    have hbefore := h.remaining j hj
    rw [htimeline, Proc.pid, hspec, process_ran]
    split
    · subst j
      rw [delivered_concat _ (by rfl), processAfter, Proc.remaining_settled, Proc.remaining_ran,
        hbefore]
      exact Int.sub_sub _ _ _
    · rw [delivered_concat_of_ne _ fun hpid => ‹¬ j = i› (hs.bank.distinct hpid.symm)]
      exact hbefore

theorem admitted (h : s.ChartedFor listed) : (s.admitted i).ChartedFor listed := by
  have hprocess (j : Fin n) : ((s.admitted i).process j).spec = (s.process j).spec ∧
      ((s.admitted i).process j).remaining = (s.process j).remaining := by
    rw [process_admitted]
    by_cases hj : j = i
    · subst hj
      simp
    · simp [hj]
  exact h.congr (Int.le_refl _) rfl (fun j => (hprocess j).1) fun j _ => (hprocess j).2

theorem dispatched (h : s.ChartedFor listed) (hdequeue : s.bank.dequeue = some (i, rest)) :
    (s.dispatched i rest).ChartedFor listed :=
  h.congr (Int.le_refl _) rfl (fun _ => apply_dispatched Proc.spec hdequeue fun _ _ => rfl)
    fun _ _ => apply_dispatched Proc.remaining hdequeue fun _ _ => rfl

theorem of_move (hs : s.Sound) (h : s.ChartedFor listed) (hmove : Move policy s t) :
    t.ChartedFor listed := by
  have hspec := hmove.spec_eq
  cases hmove with
  | enter _ _ => exact h.admitted
  | boost _ =>
    refine h.congr (Int.le_refl _) rfl hspec fun j _ => ?_
    rw [process_boosted]
    split <;> rfl
  | dispatch hdequeue => exact h.dispatched hdequeue
  | execute _ _ h0 _ => exact h.ran hs h0
  | idle _ => exact h.congr (Int.le_max_right _ _) rfl hspec fun _ _ => rfl
  | stall _ => exact h.congr (Int.le_refl _) rfl hspec fun _ _ => rfl

theorem of_moves (hs : s.Sound) (h : s.ChartedFor listed)
    (hmoves : ReflTransGen (Move policy) s t) : t.ChartedFor listed := by
  induction hmoves with
  | refl => exact h
  | tail hbefore hmove ih => exact ih.of_move (sound_of_moves hbefore hs) hmove

theorem unrecorded (h : t.ChartedFor listed) (htimeline : s.timeline = t.timeline) :
    (t.unrecorded s).ChartedFor listed :=
  h.congr (Int.le_refl _) htimeline (fun _ => rfl) fun _ _ => rfl

/-- A slice that cannot be recorded is that of a process whose slices are not listed. -/
theorem of_cut (h : s.ChartedFor listed) (hlisted : ∀ pid, listed pid → Text.isWritable pid)
    (hcut : Cut policy s t) : t.ChartedFor listed := by
  have hspec := (Advance.cut hcut).spec_eq
  cases hcut with
  | enter _ _ _ => exact h.admitted.unrecorded rfl
  | dispatch hdequeue _ => exact (h.dispatched hdequeue).unrecorded rfl
  | @execute _ i d _ _ h0 _ hrefused =>
    refine h.congr (Int.le_add_of_nonneg_right h0) rfl hspec fun j hj => ?_
    have hne : j ≠ i := by
      rintro rfl
      rw [hlisted _ hj] at hrefused
      cases hrefused
    rw [process_unrecorded, process_ran, if_neg hne]

theorem of_round (hs : s.Sound) (h : s.ChartedFor listed) (hround : Round policy s t) :
    t.ChartedFor listed :=
  h.of_moves hs hround.moves

theorem of_halt (hs : s.Sound) (h : s.ChartedFor listed) (hhalt : s.Halt t) :
    t.ChartedFor listed := by
  have hprepared := h.of_moves hs (moves_prepared .standard)
  cases hhalt with
  | @admission before i hcut =>
    have hbefore := h.of_moves hs (moves_before .standard hcut)
    exact (hbefore.admitted (i := i)).unrecorded rfl
  | dispatch hdequeue _ => exact (hprepared.dispatched hdequeue).unrecorded rfl
  | idle _ _ _ => exact hprepared

end ChartedFor

-- ---------------------------------------------------------------------------
-- The clock
-- ---------------------------------------------------------------------------

/-- The time on the clock when nobody ran. -/
def idleTime (s : Scheduler n) : Int := s.clock - busyTime s.timeline.toList

theorem timeline_fastForward : (s.call policy .fastForward).timeline = s.timeline := by
  rcases s.after_fastForward with ⟨-, hstalled⟩ | ⟨target, -, hidled⟩
  · rw [call, hstalled]
    rfl
  · rw [call, hidled]
    split <;> rfl

/-- A stage lists a slice only if it can be recorded. -/
theorem timeline_stage (hs : s.Sound) {c : Call n} (hstage : c.IsStage) :
    (s.call policy c).timeline = s.timeline ∨
      ∃ b, (s.call policy c).timeline.toList = s.timeline.toList ++ [b] ∧
        Text.isWritable b.pid := by
  cases c with
  | arrivals =>
    rcases Sim.admissible_or_cut s with hall | ⟨before, i, hcut⟩
    · exact .inl (call_arrivals policy hs hall ▸ timeline_arrived)
    · exact .inl (by rw [call_arrivals_of_cut policy hs hcut, hcut.admits.rest])
  | boost =>
    rw [call_boost]
    split <;> exact .inl rfl
  | dispatch =>
    cases h : s.bank.dequeue with
    | none => exact .inl (by rw [call_dispatch_none policy h])
    | some head =>
      rw [call_dispatch policy hs h]
      split <;> exact .inl rfl
  | execute i =>
    rcases after_execute policy hs i with hsame | ⟨d, -, -, -, -, hran⟩
    · exact .inl (by rw [call, hsame])
    · rw [call, hran]
      split
      · exact .inr ⟨s.slice i d, Array.toList_push, ‹_›⟩
      · exact .inl rfl
  | fastForward => exact .inl timeline_fastForward
  | step => exact hstage.elim
  | run => exact hstage.elim

theorem listed_stages (hs : s.Sound) {stages : List (Call n)} (hstages : ∀ c ∈ stages, c.IsStage)
    (h : ∀ b ∈ s.timeline.toList, Text.isWritable b.pid) :
    ∀ b ∈ (s.drive policy stages).timeline.toList, Text.isWritable b.pid := by
  induction stages generalizing s with
  | nil => exact h
  | cons c rest ih =>
    have hstage := hstages c (by simp)
    refine ih (sound_of_advances (advances_stage policy hs hstage) hs)
      (fun c hc => hstages c (by simp [hc])) ?_
    have hlisted : (s.call policy c).timeline = s.timeline ∨ _ := timeline_stage hs hstage
    rcases hlisted with hsame | ⟨b, hlonger, hb⟩
    · exact hsame ▸ h
    · rw [hlonger, List.forall_mem_append]
      exact ⟨h, List.forall_mem_singleton.mpr hb⟩

/-- How far each fast-forward among the stages moves the clock. -/
def jumps (policy : SlicePolicy n) (s : Scheduler n) : List (Call n) → List Int
  | [] => []
  | c :: rest =>
    let t := s.call policy c
    if c = .fastForward then (t.clock - s.clock) :: t.jumps policy rest else t.jumps policy rest

/-- Only a fast-forward lets time pass without a slice. -/
theorem idleTime_call (hs : s.Sound) (hpid : ∀ i, Text.isWritable (s.process i).pid) {c : Call n}
    (hstage : c.IsStage) (hc : c ≠ .fastForward) : (s.call policy c).idleTime = s.idleTime := by
  cases c with
  | arrivals =>
    rcases Sim.admissible_or_cut s with hall | ⟨before, i, hcut⟩
    · rw [call_arrivals policy hs hall, idleTime, clock_arrived, timeline_arrived, idleTime]
    · rw [call_arrivals_of_cut policy hs hcut, hcut.admits.rest, idleTime, idleTime]
  | boost =>
    rw [call_boost]
    split <;> rfl
  | dispatch =>
    cases h : s.bank.dequeue with
    | none => rw [call_dispatch_none policy h]
    | some head =>
      rw [call_dispatch policy hs h]
      split <;> rfl
  | execute i =>
    rcases after_execute policy hs i with hsame | ⟨d, -, -, -, -, hran⟩
    · rw [call, hsame]
    · rw [call, hran, if_pos (hpid i), idleTime,
        show (s.ran i d).timeline.toList = _ from Array.toList_push, busyTime_concat]
      exact Int.add_sub_add_right s.clock d _
  | fastForward => exact absurd rfl hc
  | step => exact hstage.elim
  | run => exact hstage.elim

theorem idleTime_fastForward : (s.call policy .fastForward).idleTime =
    s.idleTime + ((s.call policy .fastForward).clock - s.clock) := by
  rw [idleTime, timeline_fastForward, idleTime]
  omega

theorem idleTime_drive (hs : s.Sound) (hpid : ∀ i, Text.isWritable (s.process i).pid)
    {stages : List (Call n)} (hstages : ∀ c ∈ stages, c.IsStage) :
    (s.drive policy stages).idleTime = s.idleTime + (s.jumps policy stages).sum := by
  induction stages generalizing s with
  | nil => exact (Int.add_zero _).symm
  | cons c rest ih =>
    have hstage := hstages c (by simp)
    have hadvances := advances_stage policy hs hstage
    have hpid' (i : Fin n) : Text.isWritable ((s.call policy c).process i).pid := by
      rw [Proc.pid, spec_of_advances hadvances]
      exact hpid i
    have hrest := ih (sound_of_advances hadvances hs) hpid' fun c hc => hstages c (by simp [hc])
    rw [show s.drive policy (c :: rest) = (s.call policy c).drive policy rest from rfl, hrest,
      jumps]
    split
    · subst c
      rw [List.sum_cons, idleTime_fastForward, Int.add_assoc]
    · rw [idleTime_call hs hpid hstage ‹_›]

end Scheduler

namespace Workload

open Scheduler

variable {w : Workload} {config : Config} {policy : SlicePolicy w.size}

theorem charted_start {listed : Int → Prop} : (w.start config).ChartedFor listed := by
  constructor
  · exact Int.le_refl 0
  · exact .nil
  · exact nofun
  · exact nofun
  · intro i _
    rw [process_start]
    exact (Int.sub_zero _).symm

theorem charted_drive (calls : List (Scheduler.Call w.size)) :
    ((w.start config).drive policy calls).ChartedFor (Text.isWritable ·) :=
  drive_induction charted_start (fun _ _ hs h hmove => h.of_move hs hmove)
    (fun _ _ _ h hcut => h.of_cut (fun _ hpid => hpid) hcut) calls

/-- Only slices of processes whose pid can be written are listed. -/
theorem isWritable_of_mem_timeline (calls : List (Scheduler.Call w.size)) :
    ∀ b ∈ ((w.start config).drive policy calls).timeline.toList, Text.isWritable b.pid := by
  rw [← drive_stages policy sound_start calls]
  refine listed_stages sound_start (isStage_stages policy calls) ?_
  exact fun b hb => absurd hb (List.not_mem_nil)

/-- Steps run nobody whose dispatch could not be recorded. -/
theorem charted_afterSteps (hpolicy : policy.Steady) (k : Nat) :
    ((w.start config).afterSteps policy k).Charted :=
  steps_induction hpolicy charted_start (fun _ _ hs h hround => h.of_round hs.sound hround)
    (fun _ _ hs h hhalt => h.of_halt hs.sound hhalt) k

/-- Under any policy and in whatever order the stages are called, the slices follow each
other up to the clock, so that at most one is run at a time, and each belongs to a job.
What they give to a job whose pid can be written is what it no longer owes, and if all
pids can be written the clock is their time and the jumps that the fast-forwards among
the stages made. -/
theorem timeline_conserved (w : Workload) (config : Config) (policy : SlicePolicy w.size)
    (calls : List (Scheduler.Call w.size)) :
    let start := w.start config
    let s := start.drive policy calls
    let slices := s.timeline.toList
    let stages := start.stages policy calls
    (slices.Pairwise fun a b => a.stop ≤ b.start) ∧
    (∀ b ∈ slices, 0 ≤ b.start ∧ 0 ≤ b.duration ∧ b.stop ≤ s.clock) ∧
    (∀ time, slices.countP (·.covers time) ≤ 1) ∧
    (∀ b ∈ slices, ∃ i, (w.spec i).pid = b.pid) ∧
    (∀ i, Text.isWritable (w.spec i).pid →
      delivered slices (w.spec i).pid = (w.spec i).burst - (s.process i).remaining) ∧
    (∀ c ∈ stages, c.IsStage) ∧ start.drive policy stages = s ∧
    ((∀ i, Text.isWritable (w.spec i).pid) →
      s.clock = (slices.map Slice.duration).sum + (start.jumps policy stages).sum) := by
  intro start s slices stages
  have h : s.ChartedFor (Text.isWritable ·) := charted_drive calls
  have hspec (i) : (s.process i).spec = w.spec i := spec_drive calls i
  have hstages : ∀ c ∈ stages, c.IsStage := isStage_stages policy calls
  have hdrive : start.drive policy stages = s := drive_stages policy sound_start calls
  refine ⟨h.ordered, h.within, countP_covers_le_one h.ordered, ?_, fun i hi => ?_, hstages, hdrive,
    fun hpid => ?_⟩
  · intro b hb
    obtain ⟨i, hpid⟩ := h.owner b hb
    exact ⟨i, hspec i ▸ hpid⟩
  · rw [← hspec] at hi
    have howed := h.remaining i hi
    rw [Proc.pid, hspec] at howed
    rw [howed, Int.sub_sub_self]
  · have hpid' (i : Fin w.size) : Text.isWritable (start.process i).pid := by
      rw [process_start]
      exact hpid i
    have hidle : s.idleTime = start.idleTime + (start.jumps policy stages).sum :=
      hdrive ▸ idleTime_drive sound_start hpid' hstages
    have hstart : start.idleTime = 0 := rfl
    rw [hstart, Int.zero_add, idleTime] at hidle
    exact sub_eq_iff_eq_add'.mp hidle

/-- A job that runs for five units, but whose pid is too long to be written, has run without a
slice by the time the clock has gone on. -/
theorem long_pid_unlisted :
    let s := (longPid.start .standard).drive .standard
      [.arrivals, .dispatch, .execute ⟨0, by decide⟩]
    s.clock = 5 ∧ (s.process ⟨0, by decide⟩).remaining = 0 ∧ s.timeline = #[] := by
  decide +kernel

end Workload

end FeedbackQueue
