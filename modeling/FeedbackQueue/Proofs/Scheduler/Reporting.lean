import FeedbackQueue.Proofs.Report.Laws
import FeedbackQueue.Proofs.Scheduler.Records
import FeedbackQueue.Proofs.Scheduler.Termination

/-!
# Reports and the log

A report is made of the processes alone. From its first dispatch on a process is on the
CPU, waits for I/O or is free, one at a time, so what it was served and what its yields
took fit between that dispatch and its completion. Where everything can be recorded, the
log tells the same times.
-/

namespace FeedbackQueue

open Relation (ReflTransGen)

/-- When the events of a kind happened. -/
def timesOf (kind : EventKind) (entries : List Entry) : List Int :=
  (entries.filter (·.kind = kind)).map Entry.time

/-- When a process in the phase completed, if it did. -/
def Phase.ends : Phase → List Int
  | .terminated time => [time]
  | _ => []

/-- How often the entries say that a process gave up the CPU for I/O. -/
def yieldCount (entries : List Entry) : Nat := (timesOf .ioYield entries).length

section

variable {kind : EventKind} {entries : List Entry} {e : Entry}

theorem timesOf_concat : timesOf kind (entries ++ [e]) =
    timesOf kind entries ++ if e.kind = kind then [e.time] else [] := by
  by_cases h : e.kind = kind <;> simp [timesOf, h]

theorem timesOf_concat_of_ne (h : e.kind ≠ kind) :
    timesOf kind (entries ++ [e]) = timesOf kind entries := by
  rw [timesOf_concat, if_neg h, List.append_nil]

/-- A life ends with its completion. -/
theorem Life.timesOf_completion (h : Life config spec entries phase) :
    timesOf .completion entries = phase.ends := by
  induction h with
  | born => rfl
  | event _ hevent ih =>
    rw [timesOf_concat, ih]
    cases hevent with
    | back hkind => rcases hkind with hkind | hkind <;> simp [hkind, Phase.ends]
    | _ => simp [*, Phase.ends]

end

-- ---------------------------------------------------------------------------
-- The times of one process
-- ---------------------------------------------------------------------------

namespace Proc

/-- Since when, or from when on, neither the CPU nor I/O keeps a process busy. -/
def freeAt (p : Proc) (now : Int) : Int :=
  match p.phase with
  | .waiting readyAt => readyAt
  | .terminated time => time
  | _ => now

/-- How the times of a process that has yielded a number of times hang together by now. -/
structure Timed (config : Config) (p : Proc) (yields : Nat) (now : Int) : Prop where
  arrived : p.phase ≠ .new → p.spec.arrival ≤ now
  begun : ∀ time, p.firstRun = some time → time ≤ now
  completed : ∀ time, p.completion = some time → time ≤ now
  unserved : p.firstRun = none →
    (p.phase = .new ∨ p.phase = .ready) ∧ p.cpuTime = 0 ∧ yields = 0
  served : ∀ first, p.firstRun = some first → p.spec.arrival ≤ first ∧
    first + p.cpuTime + yields * config.ioDuration ≤ p.freeAt now

variable {p : Proc} {config : Config} {yields : Nat} {now : Int}

theorem freeAt_mono (h : now ≤ later) : p.freeAt now ≤ p.freeAt later := by
  unfold freeAt
  split
  · exact Int.le_refl _
  · exact Int.le_refl _
  · exact h

theorem freeAt_of_due (hdue : p.due? = some time) (hle : time ≤ now) : p.freeAt now ≤ now := by
  rcases due?_eq_some.mp hdue with ⟨hphase, -⟩ | hphase
  · simp [freeAt, hphase]
  · simpa [freeAt, hphase] using hle

theorem freeAt_settled : (p.settled config now o).freeAt now =
    now + if o = .ioYield then config.ioDuration else 0 := by
  cases o <;> simp [settled, freeAt]

theorem cpuTime_ran : (p.ran d).cpuTime = p.cpuTime + d := by
  simp only [cpuTime, spec_ran, remaining_ran]
  omega

namespace Timed

theorem ofSpec (spec : Spec) : Timed config (.ofSpec spec) 0 now where
  arrived h := absurd rfl h
  begun := nofun
  completed := nofun
  unserved _ := ⟨.inl rfl, Int.sub_self _, rfl⟩
  served := nofun

theorem mono (h : Timed config p yields now) (hle : now ≤ later) :
    Timed config p yields later where
  arrived hphase := Int.le_trans (h.arrived hphase) hle
  begun time htime := Int.le_trans (h.begun time htime) hle
  completed time htime := Int.le_trans (h.completed time htime) hle
  unserved := h.unserved
  served first hfirst := by
    obtain ⟨harrival, hserved⟩ := h.served first hfirst
    exact ⟨harrival, Int.le_trans hserved (freeAt_mono hle)⟩

/-- A yield that nothing tells of takes its time as well. -/
theorem fewer (h : Timed config p yields now) (hle : told ≤ yields) :
    Timed config p told now where
  arrived := h.arrived
  begun := h.begun
  completed := h.completed
  unserved hnone := by
    obtain ⟨hphase, hcpu, hnone⟩ := h.unserved hnone
    exact ⟨hphase, hcpu, Nat.eq_zero_of_le_zero (hnone ▸ hle)⟩
  served first hfirst := by
    obtain ⟨harrival, hserved⟩ := h.served first hfirst
    have hio := Int.mul_le_mul_of_nonneg_right (Int.ofNat_le.mpr hle) config.ioDuration_nonneg
    exact ⟨harrival, by omega⟩

theorem raise (h : Timed config p yields now) : Timed config p.raise yields now :=
  ⟨h.arrived, h.begun, h.completed, h.unserved, h.served⟩

theorem admitted (h : Timed config p yields now) (hdue : p.due? = some time) (hle : time ≤ now) :
    Timed config p.admitted yields now := by
  have hcpu : p.admitted.cpuTime = p.cpuTime := by simp [cpuTime]
  constructor
  · intro _
    rw [spec_admitted]
    rcases due?_eq_some.mp hdue with ⟨-, rfl⟩ | hphase
    · exact hle
    · exact h.arrived (by simp [hphase])
  · rw [firstRun_admitted]
    exact h.begun
  · simp [completion, phase_admitted]
  · rw [firstRun_admitted, hcpu]
    intro hnone
    exact ⟨.inr phase_admitted, (h.unserved hnone).2⟩
  · rw [firstRun_admitted, hcpu, spec_admitted]
    intro first hfirst
    obtain ⟨harrival, hserved⟩ := h.served first hfirst
    have hfree : p.admitted.freeAt now = now := by rw [freeAt, phase_admitted]
    rw [hfree]
    exact ⟨harrival, Int.le_trans hserved (freeAt_of_due hdue hle)⟩

theorem dispatched (h : Timed config p yields now) (hready : p.phase = .ready) :
    Timed config (p.dispatched now) yields now := by
  constructor
  · exact fun _ => h.arrived (by simp [hready])
  · intro time htime
    cases hfirst : p.firstRun with
    | none =>
      obtain rfl : now = time := by simpa [Proc.dispatched, hfirst] using htime
      exact Int.le_refl _
    | some former =>
      obtain rfl : former = time := by simpa [Proc.dispatched, hfirst] using htime
      exact h.begun former hfirst
  · rintro time ⟨⟩
  · intro hnone
    cases hfirst : p.firstRun <;> simp [Proc.dispatched, hfirst] at hnone
  · intro first hor
    rw [show (p.dispatched now).freeAt now = now from rfl]
    cases hfirst : p.firstRun with
    | none =>
      -- The first dispatch of all: nothing has been served, and nothing was yielded.
      obtain ⟨-, hcpu, hnone⟩ := h.unserved hfirst
      obtain rfl : now = first := by simpa [Proc.dispatched, hfirst] using hor
      refine ⟨h.arrived (by simp [hready]), ?_⟩
      rw [show (p.dispatched now).cpuTime = p.cpuTime from rfl, hcpu, hnone]
      simp
    | some former =>
      obtain rfl : former = first := by simpa [Proc.dispatched, hfirst] using hor
      have hserved := h.served former hfirst
      rwa [freeAt, hready] at hserved

/-- A slice, and the wait for I/O if it ends with a yield, come after all that was before. -/
theorem settled (h : Timed config p yields now) (hrunning : p.phase = .running) (hd : 0 ≤ d) :
    Timed config ((p.ran d).settled config (now + d) o)
      (yields + if o = .ioYield then 1 else 0) (now + d) := by
  have hcpu : ((p.ran d).settled config (now + d) o).cpuTime = p.cpuTime + d := by
    rw [← cpuTime_ran]
    simp [cpuTime]
  have hserved : p.firstRun ≠ none := by
    intro hnone
    simpa [hrunning] using (h.unserved hnone).1
  constructor
  · intro _
    have harrived := h.arrived (by simp [hrunning])
    rw [spec_settled, spec_ran]
    omega
  · rw [firstRun_settled]
    intro time htime
    have hbegun := h.begun time htime
    omega
  · intro time htime
    cases o <;> simp [Proc.settled, completion] at htime
    omega
  · rw [firstRun_settled]
    exact fun hnone => absurd hnone hserved
  · rw [firstRun_settled, spec_settled, hcpu, freeAt_settled]
    intro first hfirst
    obtain ⟨harrival, hle⟩ := h.served first hfirst
    have hfree : p.freeAt now = now := by rw [freeAt, hrunning]
    rw [hfree] at hle
    refine ⟨harrival, ?_⟩
    split
    · rw [Nat.cast_add, Nat.cast_one, Int.add_mul]
      omega
    · rw [Int.add_zero, Nat.add_zero]
      omega

end Timed

end Proc

-- ---------------------------------------------------------------------------
-- Rows
-- ---------------------------------------------------------------------------

/-- How the times of a completed process hang together. -/
structure Row.Spans (row : Row) (ioTime first completion : Int) : Prop where
  firstRun : row.firstRun = some first
  arrival_le : row.arrival ≤ first
  burst_le : first + row.burst ≤ completion
  turnaround : row.turnaround = some (completion - row.arrival)
  waiting : row.waiting = some (completion - row.arrival - row.burst)
  response : row.response = some (first - row.arrival)
  ioTime_nonneg : 0 ≤ ioTime
  ioTime_le : first - row.arrival + ioTime ≤ completion - row.arrival - row.burst

/-- Between its first dispatch and its completion a process had its burst and its I/O. -/
theorem Proc.Timed.spans {p : Proc} (h : Timed config p count now) (hp : p.Sound)
    (hcompletion : p.completion = some time) :
    ∃ first, (Row.ofProc p).Spans (count * config.ioDuration) first time := by
  obtain ⟨time', hphase⟩ := isSome_completion.mp (Option.isSome_of_eq_some hcompletion)
  obtain rfl : time' = time := by simpa [completion, hphase] using hcompletion
  have hremaining : p.remaining = 0 := hp.done_iff.mpr (by rw [hcompletion]; rfl)
  cases hfirst : p.firstRun with
  | none => simpa [hphase] using (h.unserved hfirst).1
  | some first =>
    obtain ⟨harrival, hserved⟩ := h.served first hfirst
    have hio := Int.mul_nonneg (Int.natCast_nonneg count) config.ioDuration_nonneg
    have hburst := p.spec.burst_pos
    have hfree : p.freeAt now = time' := by rw [freeAt, hphase]
    rw [cpuTime, hremaining, hfree] at hserved
    refine ⟨first, hfirst, harrival, ?_, ?_, ?_, ?_, hio, ?_⟩
    · show first + p.spec.burst ≤ time'
      omega
    · simp [Row.ofProc, turnaround, hcompletion]
    · simp [Row.ofProc, waitingTime, turnaround, hcompletion]
    · simp [Row.ofProc, response, hfirst]
    · show first - p.spec.arrival + _ ≤ time' - p.spec.arrival - p.spec.burst
      omega

/-- No time of a completed process is longer than its completion is late. -/
theorem Row.Spans.inRange {row : Row} {completion : Int} (h : row.Spans ioTime first completion)
    (harrival : 0 ≤ row.arrival) (hburst : 0 ≤ row.burst) (hlt : completion < 2 ^ 1023) :
    row.InRange := by
  have hrange (time : Int) (h0 : 0 ≤ time) (hle : time ≤ completion) :
      time.natAbs < 2 ^ 1023 := by
    zify
    rw [abs_of_nonneg h0]
    exact lt_of_le_of_lt hle hlt
  have hfirst := h.arrival_le
  have hserved := h.burst_le
  have hwaited := h.ioTime_le
  have hio := h.ioTime_nonneg
  constructor
  · rw [h.turnaround, Option.getD_some]
    exact hrange _ (by omega) (by omega)
  · rw [h.waiting, Option.getD_some]
    exact hrange _ (by omega) (by omega)
  · rw [h.response, Option.getD_some]
    exact hrange _ (by omega) (by omega)

/-- The entries about a process tell the times of its row. -/
structure Row.Traced (row : Row) (entries : List Entry) : Prop where
  firstRun : row.firstRun = (timesOf .dispatch entries).head?
  completion : row.completion.toList = timesOf .completion entries

-- ---------------------------------------------------------------------------
-- The times of all processes
-- ---------------------------------------------------------------------------

namespace Scheduler

variable {s t : Scheduler n} {policy : SlicePolicy n} {r : Report}

def Timed (s : Scheduler n) : Prop :=
  ∀ i, (s.process i).Timed s.config (yieldCount (s.log.about (s.bank.pid i))) s.clock

theorem timesOf_admission (kind : EventKind) (h : kind ≠ .arrival ∧ kind ≠ .ioReturn) :
    timesOf kind (entries ++ [Proc.admission p now]) = timesOf kind entries := by
  refine timesOf_concat_of_ne ?_
  rcases kind_admission p now with hkind | hkind <;> rw [hkind]
  · exact h.1.symm
  · exact h.2.symm

theorem yieldCount_dispatch : yieldCount (entries ++ [.dispatch now p quantum]) =
    yieldCount entries :=
  congrArg List.length (timesOf_concat_of_ne nofun)

theorem yieldCount_settlement : yieldCount (s.log.about pid ++ [s.settlement i d]) =
    yieldCount (s.log.about pid) + if (s.slice i d).outcome = .ioYield then 1 else 0 := by
  rw [yieldCount, timesOf_concat, settlement, Proc.kind_settlement, List.length_append]
  cases (s.slice i d).outcome <;> simp [Outcome.kind, yieldCount]

theorem Timed.of_move (hs : s.Sound) (h : s.Timed) (hmove : Move policy s t) : t.Timed := by
  intro i
  have hclock := hmove.clock_le
  rw [hmove.config_eq, hmove.pid_eq]
  cases told_of_move hs hmove i with
  | nothing hprocess hlog =>
    rw [hlog]
    rcases hprocess with hsame | hraise
    · rw [hsame]
      exact (h i).mono hclock
    · rw [hraise]
      exact (h i).raise.mono hclock
  | enter hdue hle hprocess hlog =>
    rw [hprocess, hlog, yieldCount, timesOf_admission .ioYield ⟨nofun, nofun⟩]
    exact ((h i).admitted hdue hle).mono hclock
  | dispatch hready hprocess hlog =>
    rw [hprocess, hlog, yieldCount_dispatch]
    exact ((h i).dispatched hready).mono hclock
  | execute hrunning h0 _ hstop hprocess hlog =>
    rw [hprocess, hlog, hstop, yieldCount_settlement]
    exact (h i).settled hrunning h0

/-- A move that is cut short leaves the log as it was, which may miss a yield. -/
theorem Timed.of_cut (hs : s.Sound) (h : s.Timed) (hcut : Cut policy s t) : t.Timed := by
  obtain ⟨u, hmove, rfl⟩ := hcut.exists_move
  intro i
  have hgrows := log_prefix_of_advances (.single (.move hmove))
  refine (h.of_move hs hmove i).fewer ?_
  rw [yieldCount, yieldCount, timesOf, timesOf, List.length_map, List.length_map, Log.about_eq,
    Log.about_eq]
  exact ((hgrows.filter _).filter _).length_le

/-- The log tells of the first dispatch of a process. -/
def FirstRunTold (s : Scheduler n) (i : Fin n) : Prop :=
  (s.process i).firstRun = (timesOf .dispatch (s.log.about (s.bank.pid i))).head?

theorem FirstRunTold.of_move (hs : s.Sound) (h : s.FirstRunTold i) (hmove : Move policy s t) :
    t.FirstRunTold i := by
  unfold FirstRunTold at h ⊢
  rw [hmove.pid_eq]
  cases told_of_move hs hmove i with
  | nothing hprocess hlog =>
    rw [hlog, ← h]
    rcases hprocess with hsame | hraise
    · rw [hsame]
    · rw [hraise]
      rfl
  | enter _ _ hprocess hlog =>
    rw [hprocess, hlog, timesOf_admission .dispatch ⟨nofun, nofun⟩, Proc.firstRun_admitted, h]
  | dispatch _ hprocess hlog =>
    rw [hprocess, hlog, timesOf_concat, List.head?_append, ← h]
    rfl
  | execute _ _ _ _ hprocess hlog =>
    rw [hprocess, hlog, processAfter, Proc.firstRun_settled, settlement,
      timesOf_concat_of_ne (kind_settlement_ne_dispatch _)]
    exact h

theorem FirstRunTold.of_cut (hs : s.Sound) (h : s.FirstRunTold i)
    (hi : (s.process i).spec.Quotable s.config) (hcut : Cut policy s t) : t.FirstRunTold i := by
  have hprocess := process_of_cut hs hcut hi
  obtain ⟨u, hmove, rfl⟩ := hcut.exists_move
  have hpid : (u.unrecorded s).bank.pid i = s.bank.pid i := hmove.pid_eq i
  rw [FirstRunTold, hprocess, hpid]
  exact h

/-- A log that tells the life of a process and its first dispatch tells the times of its row. -/
theorem traced_of_told (htold : s.FirstRunTold i) (hlife : s.LifeTold i) :
    (Row.ofProc (s.process i)).Traced (s.log.about (s.bank.pid i)) := by
  refine ⟨htold, ?_⟩
  rw [hlife.timesOf_completion]
  show (s.process i).completion.toList = _
  unfold Proc.completion
  cases (s.process i).phase <;> rfl

theorem process_of_move (hs : s.Sound) (hmove : Move policy s t)
    (hphase : (s.process i).phase = .terminated time) : t.process i = s.process i := by
  cases change_of_move hmove i with
  | keep heq => exact heq
  | enter hdue _ _ => rcases Proc.due?_eq_some.mp hdue with ⟨h, -⟩ | h <;> simp [h] at hphase
  | raise _ hbelow _ =>
    have hready := (hs.bank.mem_belowTop.mp hbelow).1
    rw [show s.bank.process i = s.process i from rfl, hphase] at hready
    cases hready
  | dispatch hdequeue _ =>
    have hready := hs.head_ready hdequeue
    rw [hphase] at hready
    cases hready
  | execute hrunning _ _ _ _ => simp [hrunning] at hphase

/-- Nothing happens to a process that has completed. -/
theorem process_of_advances (hs : s.Sound) (hadvances : ReflTransGen (Advance policy) s t)
    (hphase : (s.process i).phase = .terminated time) : t.process i = s.process i := by
  induction hadvances with
  | refl => rfl
  | @tail b c hadvances hadvance ih =>
    have hsound := sound_of_advances hadvances hs
    have hphase' : (b.process i).phase = .terminated time := ih ▸ hphase
    rw [← ih]
    cases hadvance with
    | move hmove => exact process_of_move hsound hmove hphase'
    | cut hcut =>
      obtain ⟨u, hmove, rfl⟩ := hcut.exists_move
      have hsame : u.process i = b.process i := process_of_move hsound hmove hphase'
      exact hsame

/-- What completes last is not followed by an idle jump. -/
theorem Round.completion_of_done (hs : s.AtRest policy) (h : Round policy s t) (hdone : t.done) :
    ∃ i, (t.process i).completion = some t.clock := by
  have hall := (hs.of_round h).sound.done_iff.mp hdone
  cases h with
  | @idle target _ hnext =>
    obtain ⟨⟨i, hdue⟩, -⟩ := nextEvent_eq_some.mp hnext
    have hcompleted := Proc.isSome_completion.mpr (hall i)
    rw [process_idled, Proc.completion_of_due hdue] at hcompleted
    cases hcompleted
  | @slice i rest d hdequeue _ _ _ =>
    have hcompleted := Proc.isSome_completion.mpr (hall i)
    refine ⟨i, ?_⟩
    rw [process_ran_prepared_self] at hcompleted ⊢
    rw [Proc.isSome_completion_settled, decide_eq_true_eq] at hcompleted
    rw [hcompleted, clock_ran_prepared]
    rfl

-- ---------------------------------------------------------------------------
-- Reports
-- ---------------------------------------------------------------------------

theorem sums_of_report (h : s.report = .ok r) :
    r.Sums s.bank.processes.toList s.clock s.switches s.booster.count :=
  Report.sums_of_collect h

theorem rows_eq (h : s.report = .ok r) :
    r.rows = (List.finRange n).map fun i => Row.ofProc (s.process i) := by
  rw [(sums_of_report h).rows, toList_processes, List.map_map]
  rfl

theorem getElem?_rows (h : s.report = .ok r) (i : Fin n) :
    r.rows[(i : Nat)]? = some (Row.ofProc (s.process i)) := by
  simp [rows_eq h]

theorem mem_rows (h : s.report = .ok r) : row ∈ r.rows ↔ ∃ i, Row.ofProc (s.process i) = row := by
  simp [rows_eq h]

theorem countP_rows (hs : s.Sound) (h : s.report = .ok r) :
    r.rows.countP Row.completed = s.completed := by
  rw [hs.completed, (sums_of_report h).rows, List.countP_map, ← Vector.countP_toList]
  rfl

theorem complete_iff (hs : s.Sound) (h : s.report = .ok r) : r.complete ↔ s.done := by
  rw [(sums_of_report h).complete, List.all_eq_true, hs.done_iff]
  simp only [mem_rows h, ← Proc.isSome_completion]
  constructor
  · intro hall i
    exact hall _ ⟨i, rfl⟩
  · rintro hall _ ⟨i, rfl⟩
    exact hall i

/-- The groups share out the completed processes. -/
theorem count_eq (hs : s.Sound) (h : s.report = .ok r) :
    r.overall.count = s.completed ∧ r.overall.count = r.ioBound.count + r.cpuBound.count := by
  have hsums := sums_of_report h
  rw [Averages.count_ofRows hsums.overall, Averages.count_ofRows hsums.ioBound,
    Averages.count_ofRows hsums.cpuBound]
  exact ⟨countP_rows hs h, List.countP_eq_countP_filter_add _ _ _⟩

/-- The row of a completed process is final. -/
theorem rows_of_advances (hs : s.Sound) (hadvances : ReflTransGen (Advance policy) s t)
    (h : s.report = .ok r) (h' : t.report = .ok r') {k : Nat} {row : Row}
    (hrow : r.rows[k]? = some row) (hcompleted : row.completed) : r'.rows[k]? = some row := by
  rw [rows_eq h, List.getElem?_map, Option.map_eq_some_iff] at hrow
  obtain ⟨i, hi, rfl⟩ := hrow
  obtain ⟨time, hphase⟩ := Proc.isSome_completion.mp hcompleted
  rw [rows_eq h', List.getElem?_map, hi, Option.map_some, process_of_advances hs hadvances hphase]

end Scheduler

namespace Workload

open Scheduler

variable {w : Workload} {config : Config} {policy : SlicePolicy w.size}

theorem timed_drive (calls : List (Scheduler.Call w.size)) :
    ((w.start config).drive policy calls).Timed := by
  refine drive_induction ?_ (fun _ _ hs h hmove => h.of_move hs hmove)
    (fun _ _ hs h hcut => h.of_cut hs hcut) calls
  intro i
  rw [process_start]
  exact .ofSpec _

theorem traced_drive (calls : List (Scheduler.Call w.size)) (hi : (w.spec i).Quotable config) :
    let s := (w.start config).drive policy calls
    (Row.ofProc (s.process i)).Traced (s.log.about (s.bank.pid i)) := by
  intro s
  have htold : s.FirstRunTold i := by
    refine drive_induction_of_quotable (P := (·.FirstRunTold i)) hi ?_
      (fun _ _ hs h hmove => h.of_move hs hmove) (fun _ _ hs h hi hcut => h.of_cut hs hi hcut) calls
    rw [Scheduler.FirstRunTold, process_start]
    rfl
  exact traced_of_told htold (lifeTold_drive hi calls)

/-- Only a clock out of the range of doubles and a job that cannot be named keep a report from
being made. -/
theorem exists_report (hlabels : ∀ i, (w.spec i).hasLabel)
    (calls : List (Scheduler.Call w.size)) :
    let s := (w.start config).drive policy calls
    s.clock < 2 ^ 1023 → ∃ r, s.report = .ok r := by
  intro s hclock
  have htimed : s.Timed := timed_drive calls
  have hs : s.Sound := sound_drive calls
  refine Report.exists_collect (fun p hp => ?_) fun p hp hcompleted => ?_
  · rw [toList_processes, List.mem_map] at hp
    obtain ⟨i, -, rfl⟩ := hp
    rw [show (s.process i).spec = w.spec i from spec_drive calls i]
    exact hlabels i
  · rw [toList_processes, List.mem_map] at hp
    obtain ⟨i, -, rfl⟩ := hp
    obtain ⟨time, htime⟩ := Option.isSome_iff_exists.mp hcompleted
    obtain ⟨first, hspans⟩ := (htimed i).spans (hs.process i) htime
    exact hspans.inRange (s.process i).spec.arrival_nonneg
      (Int.le_of_lt (s.process i).spec.burst_pos)
      (Int.lt_of_le_of_lt ((htimed i).completed time htime) hclock)

/-- A run ends with a completion. -/
theorem exists_last_completion (hpolicy : policy.Steady) (k : Nat) :
    let s := (w.start config).afterSteps policy k
    s.done → ∃ i, (s.process i).completion = some s.clock := by
  intro s hdone
  refine rounds_induction hpolicy
    (P := fun s => s.done → ∃ i, (s.process i).completion = some s.clock) ?_ ?_
    (not_stopped_of_done hpolicy hdone) hdone
  · intro hdone
    rw [done_start] at hdone
    cases hdone
  · intro s t hs _ hround hdone
    exact hround.completion_of_done hs hdone

/-- However a workload is driven, a report can be made while the clock is in the range of doubles
and every job has a name to show. It has one row for each job, and its groups count what has
completed. The row of a completed process accounts for its burst and its I/O, and it stays as it
is. The entries about a job that the log can quote tell the same times as its row. When the
workload is stepped to its end, the report ends with the last completion. -/
theorem report_agrees (w : Workload) (config : Config) :
    (∀ (policy : SlicePolicy w.size) calls,
      let s := (w.start config).drive policy calls
      ((∀ i, (w.spec i).hasLabel) → s.clock < 2 ^ 1023 → ∃ r, s.report = .ok r) ∧
      ∀ r, s.report = .ok r →
        r.rows.map (fun row => (row.pid, row.arrival, row.burst)) =
          w.specs.map (fun spec => (spec.pid, spec.arrival, spec.burst)) ∧
        (∀ row ∈ r.rows, ∀ time, row.completion = some time → ∃ first,
          row.Spans (yieldCount (s.log.about row.pid) * config.ioDuration) first time) ∧
        (∀ more r', (s.drive policy more).report = .ok r' →
          ∀ (k : Nat) (row : Row), r.rows[k]? = some row → row.completed →
            r'.rows[k]? = some row) ∧
        (r.complete ↔ s.done) ∧
        r.overall.count = s.completed ∧
        r.overall.count = r.ioBound.count + r.cpuBound.count ∧
        r.boosts = (s.log.ofKind .boost).length ∧
        (∀ (i : Fin w.size) (row : Row), (w.spec i).Quotable config →
          r.rows[(i : Nat)]? = some row → row.Traced (s.log.about row.pid)) ∧
        (w.Legible config → r.contextSwitches = (s.log.ofKind .dispatch).length)) ∧
    ∀ policy : SlicePolicy w.size, policy.Steady → ∀ k r,
      let s := (w.start config).afterSteps policy k
      s.done → s.report = .ok r → (r.rows.filterMap Row.completion).max? = some r.endTime := by
  constructor
  · intro policy calls s
    refine ⟨fun hlabels => exists_report hlabels calls, fun r hr => ?_⟩
    have hs : s.Sound := sound_drive calls
    have htimed : s.Timed := timed_drive calls
    have hspaced : s.Spaced := spaced_drive calls
    have hconfig : s.config = config := config_drive calls
    have hsums := sums_of_report hr
    refine ⟨?_, ?_, ?_, complete_iff hs hr, (count_eq hs hr).1, (count_eq hs hr).2, ?_, ?_,
      fun hw => ?_⟩
    · have hspec (i : Fin w.size) : (s.process i).spec = w.spec i := spec_drive calls i
      rw [rows_eq hr, List.map_map, ← List.map_get_finRange w.specs, List.map_map]
      refine List.map_congr_left fun i _ => ?_
      exact congrArg (fun spec => (spec.pid, spec.arrival, spec.burst)) (hspec i)
    · intro row hrow time htime
      obtain ⟨i, rfl⟩ := (mem_rows hr).mp hrow
      exact hconfig ▸ (htimed i).spans (hs.process i) htime
    · intro more r' hr' k row hrow hcompleted
      exact rows_of_advances hs (advances_drive policy hs more) hr hr' hrow hcompleted
    · rw [hsums.boosts, hspaced.count, boostTimes, List.length_map]
    · intro i row hi hrow
      rw [getElem?_rows hr] at hrow
      obtain rfl := Option.some.inj hrow
      exact traced_drive calls hi
    · have hentered : s.Entered := entered_drive hw calls
      rw [hsums.contextSwitches, hentered, Log.length_ofKind]
  · intro policy hpolicy k r s hdone hr
    obtain ⟨i, hi⟩ := exists_last_completion hpolicy k hdone
    obtain ⟨calls, hcalls⟩ := (w.start config).exists_drive policy k
    rw [List.max?_eq_some_iff, (sums_of_report hr).endTime]
    simp only [List.mem_filterMap, mem_rows hr]
    refine ⟨⟨_, ⟨i, rfl⟩, hi⟩, ?_⟩
    rintro time ⟨_, ⟨j, rfl⟩, htime⟩
    have htimed : s.Timed := by
      rw [show s = (w.start config).drive policy calls from hcalls]
      exact timed_drive calls
    exact (htimed j).completed time htime

/-- The row of a job whose burst time is too long to be written has a first run, of which the log
says nothing. -/
theorem long_burst_runs_untold :
    let s := (longBurst.start .standard).drive .standard [.arrivals, .dispatch]
    s.report.toOption.map (·.rows.map Row.firstRun) = some [some 0, none] ∧ s.log = #[] := by
  decide +kernel

end Workload

end FeedbackQueue
