import FeedbackQueue.Proofs.Scheduler.History

/-!
# Work conservation

When a slice starts is a function of the slices before it: at the end of the last one
if somebody is ready by then, and otherwise as soon as somebody is. The idle entries of
the log are the gaps that this leaves. None of it depends on the policy.
-/

namespace FeedbackQueue

-- ---------------------------------------------------------------------------
-- Reading a timeline
-- ---------------------------------------------------------------------------

/-- The last slice of a process so far. -/
def lastSlice (slices : List Slice) (pid : Int) : Option Slice :=
  (slices.filter (·.pid = pid)).getLast?

/-- When a process may run again, by the slices so far. -/
def readyTime (config : Config) (slices : List Slice) (spec : Spec) : Int :=
  match (slices.filter (·.pid = spec.pid)).getLast? with
  | none => spec.arrival
  | some b => if b.outcome = .ioYield then b.stop + config.ioDuration else b.stop

def hasCompleted (slices : List Slice) (spec : Spec) : Bool :=
  slices.any fun b => b.pid = spec.pid ∧ b.outcome = .completed

/-- When the first of the processes that have not completed may run. -/
def leastReady (config : Config) (specs : List Spec) (slices : List Slice) : Option Int :=
  ((specs.filter fun spec => !hasCompleted slices spec).map (readyTime config slices)).min?

/-- When the CPU became free, if it was free at first from a time on. -/
def freeFrom (first : Int) (slices : List Slice) : Int :=
  (slices.getLast?.map Slice.stop).getD first

/-- One idle entry for each time between slices when the CPU was free. -/
def gaps : Int → List Slice → List Entry
  | _, [] => []
  | free, b :: rest =>
    (if free < b.start then [.idle free b.start] else []) ++ gaps b.stop rest

variable {config : Config} {slices : List Slice} {spec : Spec} {b : Slice} {first free now : Int}

theorem readyTime_concat (hpid : b.pid = spec.pid) :
    readyTime config (slices ++ [b]) spec =
      if b.outcome = .ioYield then b.stop + config.ioDuration else b.stop := by
  simp [readyTime, hpid]

theorem readyTime_concat_of_ne (hpid : b.pid ≠ spec.pid) :
    readyTime config (slices ++ [b]) spec = readyTime config slices spec := by
  simp [readyTime, hpid]

theorem lastSlice_concat (hpid : b.pid = pid) : lastSlice (slices ++ [b]) pid = some b := by
  simp [lastSlice, hpid]

theorem lastSlice_concat_of_ne (hpid : b.pid ≠ pid) :
    lastSlice (slices ++ [b]) pid = lastSlice slices pid := by
  simp [lastSlice, hpid]

theorem lastSlice_append_cons {before middle : List Slice} {a : Slice}
    (hmiddle : ∀ c ∈ middle, c.pid ≠ a.pid) :
    lastSlice (before ++ a :: middle) a.pid = some a := by
  have hnone : middle.filter (·.pid = a.pid) = [] :=
    List.filter_eq_nil_iff.mpr (by simpa using hmiddle)
  simp [lastSlice, hnone]

theorem lastSlice_eq_none (h : ∀ a ∈ slices, a.pid ≠ pid) : lastSlice slices pid = none := by
  simpa [lastSlice, List.filter_eq_nil_iff] using h

theorem readyTime_of_none (h : lastSlice slices spec.pid = none) :
    readyTime config slices spec = spec.arrival := by
  rw [lastSlice] at h
  rw [readyTime, h]

theorem readyTime_of_some (h : lastSlice slices spec.pid = some b) :
    readyTime config slices spec =
      if b.outcome = .ioYield then b.stop + config.ioDuration else b.stop := by
  rw [lastSlice] at h
  rw [readyTime, h]

theorem hasCompleted_concat : hasCompleted (slices ++ [b]) spec =
    (hasCompleted slices spec || decide (b.pid = spec.pid ∧ b.outcome = .completed)) := by
  simp [hasCompleted]

theorem freeFrom_concat : freeFrom first (slices ++ [b]) = b.stop := by
  simp [freeFrom]

theorem freeFrom_cons : freeFrom first (b :: slices) = freeFrom b.stop slices := by
  cases h : slices.getLast? <;> simp [freeFrom, List.getLast?_cons, h]

theorem gaps_concat : gaps free (slices ++ [b]) = gaps free slices ++
    if freeFrom free slices < b.start then [.idle (freeFrom free slices) b.start] else [] := by
  induction slices generalizing free with
  | nil => exact List.append_nil _
  | cons a rest ih => rw [List.cons_append, gaps, ih, gaps, List.append_assoc, freeFrom_cons]

theorem leastReady_eq_some {specs : List Spec} : leastReady config specs slices = some m ↔
    (∃ spec ∈ specs, hasCompleted slices spec = false ∧ readyTime config slices spec = m) ∧
      ∀ spec ∈ specs, hasCompleted slices spec = false → m ≤ readyTime config slices spec := by
  simp only [leastReady, List.min?_eq_some_iff, List.mem_map, List.mem_filter, and_assoc,
    Bool.not_eq_true']
  refine and_congr_right fun _ => ⟨?_, ?_⟩
  · exact fun h spec hspec hlive => h _ ⟨spec, hspec, hlive, rfl⟩
  · rintro h _ ⟨spec, hspec, hlive, rfl⟩
    exact h spec hspec hlive

/-- As long as somebody has not completed, somebody is next. -/
theorem exists_leastReady (config : Config) {specs : List Spec} (hspec : spec ∈ specs)
    (hlive : hasCompleted slices spec = false) : ∃ m, leastReady config specs slices = some m := by
  have hmem : readyTime config slices spec ∈
      (specs.filter fun spec => !hasCompleted slices spec).map (readyTime config slices) :=
    List.mem_map_of_mem (by simp [hspec, hlive])
  exact Option.isSome_iff_exists.mp (List.isSome_min?_of_mem hmem)

theorem leastReady_nil {specs : List Spec} :
    leastReady config specs [] = (specs.map Spec.arrival).min? := by
  have hlive : (specs.filter fun spec => !hasCompleted [] spec) = specs :=
    List.filter_eq_self.mpr fun _ _ => rfl
  rw [leastReady, hlive]
  rfl

-- ---------------------------------------------------------------------------
-- A process as the timeline tells it
-- ---------------------------------------------------------------------------

/-- What the slices so far say of a process at a time. -/
structure Proc.Agrees (config : Config) (slices : List Slice) (now : Int) (spec : Spec)
    (p : Proc) : Prop where
  job : p.spec = spec
  completed : p.completion.isSome = hasCompleted slices spec
  pending : p.due? = some time → readyTime config slices spec = time
  ready : p.phase = .ready → readyTime config slices spec ≤ now

namespace Proc.Agrees

variable {p : Proc}

theorem ofSpec : (Proc.ofSpec spec).Agrees config [] now spec := by
  refine ⟨rfl, rfl, ?_, nofun⟩
  intro time
  rw [due?_eq_some]
  rintro (⟨-, harrival⟩ | hphase)
  · exact harrival
  · simp [Proc.ofSpec] at hphase

theorem live_iff (hp : p.Agrees config slices now spec) :
    p.completion = none ↔ hasCompleted slices spec = false := by
  rw [← hp.completed]
  cases p.completion <;> simp

theorem mono (hp : p.Agrees config slices now spec) (hle : now ≤ later) :
    p.Agrees config slices later spec :=
  ⟨hp.job, hp.completed, hp.pending, fun h => Int.le_trans (hp.ready h) hle⟩

/-- Slices of others do not matter. -/
theorem concat_of_ne (hp : p.Agrees config slices now spec) (hpid : b.pid ≠ spec.pid) :
    p.Agrees config (slices ++ [b]) now spec := by
  have hready : readyTime config (slices ++ [b]) spec = readyTime config slices spec :=
    readyTime_concat_of_ne hpid
  refine ⟨hp.job, ?_, ?_, ?_⟩
  · rw [hasCompleted_concat, hp.completed]
    simp [hpid]
  · rw [hready]
    exact hp.pending
  · rw [hready]
    exact hp.ready

theorem settled (hspec : p.spec = spec) (hlive : hasCompleted slices spec = false)
    (hpid : b.pid = spec.pid) :
    (p.settled config b.stop b.outcome).Agrees config (slices ++ [b]) b.stop spec := by
  refine ⟨?_, ?_, ?_, ?_⟩
  · rw [spec_settled, hspec]
  · rw [isSome_completion_settled, hasCompleted_concat, hlive]
    simp [hpid]
  · rw [due?_settled, readyTime_concat hpid]
    split <;> simp
  · intro hphase
    have ho : b.outcome ≠ .ioYield := by
      intro ho
      simp [ho, Proc.settled] at hphase
    exact Int.le_of_eq (by rw [readyTime_concat hpid, if_neg ho])

end Proc.Agrees

-- ---------------------------------------------------------------------------
-- A scheduler as its timeline tells it
-- ---------------------------------------------------------------------------

namespace Scheduler

variable {w : Workload} {s t : Scheduler w.size} {policy : SlicePolicy w.size}

structure Conserving (w : Workload) (s : Scheduler w.size) : Prop where
  agrees : ∀ i, (s.process i).Agrees s.config s.timeline.toList s.clock (w.spec i)
  /-- The clock stands at the end of the last slice, or was moved to where the next one
  starts. -/
  clock : s.clock = freeFrom 0 s.timeline.toList ∨
    (freeFrom 0 s.timeline.toList < s.clock ∧
      leastReady s.config w.specs s.timeline.toList = some s.clock)
  starts : ∀ before b after, s.timeline.toList = before ++ b :: after →
    ∃ m, leastReady s.config w.specs before = some m ∧ b.start = max (freeFrom 0 before) m
  idles : s.log.ofKind .idle = gaps 0 s.timeline.toList ++
    if freeFrom 0 s.timeline.toList < s.clock
    then [.idle (freeFrom 0 s.timeline.toList) s.clock] else []

namespace Conserving

/-- Whoever is admitted was ready by then, and boosts change nothing of this. -/
theorem agrees_prepared (h : s.Conserving w) (i : Fin w.size) :
    (s.prepared.process i).Agrees s.config s.timeline.toList s.clock (w.spec i) := by
  refine ⟨?_, ?_, ?_, ?_⟩
  · rw [spec_prepared]
    exact (h.agrees i).job
  · rw [completion_prepared]
    exact (h.agrees i).completed
  · rw [due?_prepared]
    split
    · exact nofun
    · exact (h.agrees i).pending
  · rw [phase_prepared]
    split
    · intro _
      obtain ⟨time, htime, hle⟩ := Proc.dueBy_iff.mp ‹_›
      rw [(h.agrees i).pending htime]
      exact hle
    · exact (h.agrees i).ready

/-- When nobody is in a queue, everybody who has not completed is ready later, and the
next event is when the first of them is. -/
theorem leastReady_of_idle (hs : s.AtRest policy) (h : s.Conserving w)
    (hqueued : s.prepared.bank.queued = []) (hnext : s.prepared.nextEvent = some target) :
    leastReady s.config w.specs s.timeline.toList = some target := by
  obtain ⟨⟨i, hi⟩, hleast⟩ := nextEvent_eq_some.mp hnext
  refine leastReady_eq_some.mpr ⟨?_, ?_⟩
  · have hagrees := h.agrees_prepared i
    exact ⟨w.spec i, Workload.mem_specs.mpr ⟨i, rfl⟩,
      hagrees.live_iff.mp (Proc.completion_of_due hi), hagrees.pending hi⟩
  · intro spec hspec hlive
    obtain ⟨j, rfl⟩ := Workload.mem_specs.mp hspec
    have hagrees := h.agrees_prepared j
    obtain ⟨time, htime⟩ := hs.pending hqueued (hagrees.live_iff.mpr hlive)
    rw [hagrees.pending htime]
    exact hleast j time htime

theorem idle (hs : s.AtRest policy) (h : s.Conserving w) (hqueued : s.prepared.bank.queued = [])
    (hnext : s.prepared.nextEvent = some target) : (s.prepared.idled target).Conserving w := by
  have hleast := h.leastReady_of_idle hs hqueued hnext
  have hlt := clock_lt_nextEvent hnext
  have hclock := clock_idled_prepared hnext
  have htimeline : (s.prepared.idled target).timeline = s.timeline := timeline_prepared
  have hconfig : (s.prepared.idled target).config = s.config := config_prepared
  -- A clock that a jump had just moved would have somebody ready now.
  have hfree : s.clock = freeFrom 0 s.timeline.toList := by
    rcases h.clock with hfree | ⟨-, hready⟩
    · exact hfree
    · rw [hleast, Option.some.injEq] at hready
      omega
  constructor <;> rw [htimeline]
  · intro i
    rw [hconfig, hclock]
    exact (h.agrees_prepared i).mono (Int.le_of_lt hlt)
  · rw [hconfig, hclock]
    exact .inr ⟨by omega, hleast⟩
  · rw [hconfig]
    exact h.starts
  · rw [hclock, idled, ofKind_push, if_pos (by rfl), idles_prepared, h.idles, if_neg (by omega),
      if_pos (by omega), clock_prepared, ← hfree, Int.max_eq_left (by omega), List.append_nil]

/-- The CPU goes to somebody who was ready, and at the earliest time that allows. -/
theorem clock_eq_max (h : s.Conserving w) (hi : (s.prepared.process i).phase = .ready) :
    ∃ m, leastReady s.config w.specs s.timeline.toList = some m ∧
      s.clock = max (freeFrom 0 s.timeline.toList) m := by
  have hagrees := h.agrees_prepared i
  have hlive := hagrees.live_iff.mp (Proc.completion_of_ready hi)
  have hspec : w.spec i ∈ w.specs := Workload.mem_specs.mpr ⟨i, rfl⟩
  obtain ⟨m, hm⟩ := exists_leastReady s.config hspec hlive
  have hle := (leastReady_eq_some.mp hm).2 _ hspec hlive
  have hready := hagrees.ready hi
  refine ⟨m, hm, ?_⟩
  rcases h.clock with hfree | ⟨hlt, hnext⟩
  · omega
  · rw [hm, Option.some.injEq] at hnext
    omega

theorem slice (hs : s.AtRest policy) (h : s.Conserving w)
    (hdequeue : s.prepared.bank.dequeue = some (i, rest)) (hd : 0 < d) :
    ((s.prepared.dispatched i rest).ran i d).Conserving w := by
  have hready := hs.sound.prepared.head_ready hdequeue
  obtain ⟨m, hm, hmax⟩ := h.clock_eq_max hready
  obtain ⟨b, hb⟩ : ∃ b, b = (s.prepared.dispatched i rest).slice i d := ⟨_, rfl⟩
  have hspec : ((s.prepared.dispatched i rest).process i).spec = w.spec i := by
    rw [apply_dispatched Proc.spec hdequeue fun _ _ => rfl]
    exact (h.agrees_prepared i).job
  have hpid : b.pid = (w.spec i).pid := by
    rw [hb, ← hspec]
    rfl
  have hstart : b.start = s.clock := hb ▸ start_slice_prepared
  have hstop : b.stop = s.clock + d := hb ▸ stop_slice_prepared
  have hclock : ((s.prepared.dispatched i rest).ran i d).clock = b.stop := by
    rw [hb]
    rfl
  have hconfig : ((s.prepared.dispatched i rest).ran i d).config = s.config :=
    config_ran_prepared
  have htimeline : ((s.prepared.dispatched i rest).ran i d).timeline.toList =
      s.timeline.toList ++ [b] := hb ▸ timeline_ran_prepared
  constructor <;> rw [htimeline]
  · intro j
    rw [hconfig, hclock]
    by_cases hj : j = i
    · subst j
      have hlive := (h.agrees_prepared i).live_iff.mp (Proc.completion_of_ready hready)
      rw [process_ran_prepared_self, ← hb, ← hstop]
      exact .settled hspec hlive hpid
    · have hother : b.pid ≠ (w.spec j).pid := by
        rw [hpid, ← (h.agrees i).job, ← (h.agrees j).job]
        exact fun heq => hj (hs.sound.bank.distinct heq.symm)
      rw [process_ran_prepared_of_ne hdequeue hj]
      exact ((h.agrees_prepared j).mono (by omega)).concat_of_ne hother
  · rw [freeFrom_concat, hclock]
    exact .inl rfl
  · rw [hconfig]
    refine forall_split_concat h.starts ⟨m, hm, ?_⟩
    rw [hstart, hmax]
  · rw [freeFrom_concat, hclock, if_neg (Int.lt_irrefl _), List.append_nil,
      ofKind_ran (.inr rfl), ofKind_dispatched (.inr rfl), idles_prepared, h.idles, gaps_concat,
      hstart]

theorem of_round (hs : s.AtRest policy) (h : s.Conserving w) (hround : Round policy s t) :
    t.Conserving w := by
  cases hround with
  | idle hqueued hnext => exact h.idle hs hqueued hnext
  | slice hdequeue _ hd _ => exact h.slice hs hdequeue hd

/-- A jump is made for somebody, so a run does not end with one. -/
theorem clock_of_done (hs : s.Sound) (h : s.Conserving w) (hdone : s.done) :
    s.clock = freeFrom 0 s.timeline.toList := by
  rcases h.clock with hfree | ⟨-, hnext⟩
  · exact hfree
  · obtain ⟨⟨spec, hspec, hlive, -⟩, -⟩ := leastReady_eq_some.mp hnext
    obtain ⟨i, rfl⟩ := Workload.mem_specs.mp hspec
    have hterminated := Proc.isSome_completion.mpr (hs.done_iff.mp hdone i)
    rw [(h.agrees i).completed, hlive] at hterminated
    simp at hterminated

end Conserving

end Scheduler

namespace Workload

open Scheduler

variable {w : Workload} {policy : SlicePolicy w.size}

theorem conserving_start : (w.start config).Conserving w := by
  constructor
  · intro i
    rw [process_start]
    exact .ofSpec
  · exact .inl rfl
  · intro before b after heq
    simp [start, Scheduler.start] at heq
  · rfl

theorem conserving_afterSteps (hpolicy : policy.Steady)
    (hk : ¬ (w.start config).Stopped policy k) :
    ((w.start config).afterSteps policy k).Conserving w :=
  rounds_induction hpolicy conserving_start (fun _ _ hs h hround => h.of_round hs hround) hk

/-- The first slice starts with the first arrival, and every other one at the end of the
slice before it or as soon as somebody is ready. The idle entries are the gaps between
them, and one more while the clock stands where the next slice will start. -/
theorem work_conserved (w : Workload) (config : Config) (k : Nat) :
    let s := (w.start config).afterSteps .standard k
    (∀ b after, s.timeline.toList = b :: after →
      (w.specs.map Spec.arrival).min? = some b.start) ∧
    (∀ before a b after, s.timeline.toList = before ++ a :: b :: after →
      ∃ m, leastReady config w.specs (before ++ [a]) = some m ∧ b.start = max a.stop m) ∧
    s.log.ofKind .idle = gaps 0 s.timeline.toList ++
      (if freeFrom 0 s.timeline.toList < s.clock
        then [.idle (freeFrom 0 s.timeline.toList) s.clock] else []) ∧
    (s.done → s.log.ofKind .idle = gaps 0 s.timeline.toList) := by
  intro s
  -- A step that halts leaves everything alone that is spoken of here.
  obtain ⟨t, h, hsound, hconfig, htimeline, hidles, hclock, hdone⟩ :
      ∃ t : Scheduler w.size, t.Conserving w ∧ t.Sound ∧ t.config = config ∧
        s.timeline = t.timeline ∧ s.log.ofKind .idle = t.log.ofKind .idle ∧ s.clock = t.clock ∧
        s.done = t.done := by
    obtain ⟨j, -, hj, hsame | hhalt⟩ := exists_not_stopped (w := w) config .standard k
    all_goals
      refine ⟨_, conserving_afterSteps .standard hj, sound_afterSteps j, config_afterSteps j, ?_⟩
    · rw [show s = _ from hsame]
      exact ⟨rfl, rfl, rfl, rfl⟩
    · exact ⟨hhalt.timeline_eq, hhalt.idles_eq, hhalt.clock_eq, hhalt.done_eq⟩
  rw [htimeline, hidles, hclock, hdone]
  refine ⟨?_, ?_, h.idles, ?_⟩
  · intro b after heq
    obtain ⟨m, hm, hstart⟩ := h.starts [] b after heq
    obtain ⟨spec, -, -, hready⟩ := (leastReady_eq_some.mp hm).1
    have harrival : 0 ≤ m := hready ▸ spec.arrival_nonneg
    rw [leastReady_nil] at hm
    rw [hm, hstart, show freeFrom 0 [] = 0 from rfl, Int.max_eq_right harrival]
  · intro before a b after heq
    obtain ⟨m, hm, hstart⟩ := h.starts (before ++ [a]) b after (by simpa using heq)
    rw [hconfig] at hm
    rw [freeFrom_concat] at hstart
    exact ⟨m, hm, hstart⟩
  · intro hdone
    rw [h.idles, h.clock_of_done hsound hdone, if_neg (Int.lt_irrefl _), List.append_nil]

end Workload

end FeedbackQueue
