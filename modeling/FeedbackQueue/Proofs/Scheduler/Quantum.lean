import Mathlib.Data.List.DropRight
import FeedbackQueue.Proofs.Scheduler.Timeline

/-!
# Partial slices

A process that is handed less than its quantum at a time keeps a count of what it used.
That count is the time of its slices since its quantum was last renewed: when it arrived,
was demoted, yielded for I/O, or was raised by a boost. It stays below the quantum of the
level at hand, although a boost changes the level under it.

A slice of a process whose pid is too long to be written is cut short where it would be
recorded: it is counted as used and not listed. The count of such a process stays below
its quantum as well, but its slices do not tell of it.
-/

namespace FeedbackQueue

-- ---------------------------------------------------------------------------
-- What the quanta depend on
-- ---------------------------------------------------------------------------

/-- What a call did to a process, as far as its quantum is concerned. -/
inductive Happening (n : Nat) where
  | arrival (i : Fin n)
  | raise (i : Fin n)
  | slice (i : Fin n) (b : Slice)
deriving DecidableEq, Repr

namespace Happening

/-- The process starts on a whole quantum afterwards. -/
def renews (i : Fin n) : Happening n → Bool
  | .arrival j => j = i
  | .raise j => j = i
  | .slice j b => j = i ∧ (b.outcome = .demoted ∨ b.outcome = .ioYield)

def slice? : Happening n → Option Slice
  | .slice _ b => some b
  | _ => none

def sliceOf? (i : Fin n) : Happening n → Option Slice
  | .slice j b => if j = i then some b else none
  | _ => none

end Happening

variable {past : List (Happening n)} {i : Fin n} {b : Slice} {l : List (Fin n)}

/-- All slices so far. -/
def ranSlices (past : List (Happening n)) : List Slice := past.filterMap Happening.slice?

/-- The slices of a process since its quantum was last renewed. -/
def stint (i : Fin n) (past : List (Happening n)) : List Slice :=
  (past.rtakeWhile fun e => !e.renews i).filterMap (·.sliceOf? i)

theorem stint_concat (i : Fin n) (past : List (Happening n)) (e : Happening n) :
    stint i (past ++ [e]) =
      if e.renews i then [] else stint i past ++ (e.sliceOf? i).toList := by
  cases h : e.renews i with
  | true => simp [stint, h]
  | false => cases hslice : e.sliceOf? i <;> simp [stint, h, hslice]

theorem stint_concat_slice (i : Fin n) (past : List (Happening n)) (b : Slice) :
    stint i (past ++ [.slice i b]) =
      if b.outcome = .demoted ∨ b.outcome = .ioYield then [] else stint i past ++ [b] := by
  simp [stint_concat, Happening.renews, Happening.sliceOf?]

theorem stint_concat_slice_of_ne (past : List (Happening n)) (h : j ≠ i) :
    stint i (past ++ [.slice j b]) = stint i past := by
  simp [stint_concat, Happening.renews, Happening.sliceOf?, h]

/-- Whoever arrives, or is raised, starts anew; nobody else is affected. -/
theorem stint_append_map {f : Fin n → Happening n} (hrenews : ∀ j, (f j).renews i = decide (j = i))
    (hslice : ∀ j, (f j).sliceOf? i = none) :
    stint i (past ++ l.map f) = if i ∈ l then [] else stint i past := by
  induction l using List.reverseRecOn with
  | nil => simp
  | append_singleton l j ih =>
    rw [List.map_append, List.map_singleton, ← List.append_assoc, stint_concat, hrenews, hslice, ih]
    by_cases hj : j = i
    · simp [hj]
    · simp [hj, Ne.symm hj]

-- ---------------------------------------------------------------------------
-- The laws
-- ---------------------------------------------------------------------------

theorem Proc.used_lt_of_requeued {p : Proc} (h : p.outcome quantum d = .requeued) :
    p.used < quantum := by
  unfold outcome at h
  split at h
  · cases h
  · split at h
    · cases h
    · split at h
      · cases h
      · omega

/-- Unless it has completed, the process has some of its quantum left. -/
def Proc.Unspent (config : Config) (p : Proc) : Prop :=
  p.completion = none → p.used < config.quantum p.level

namespace Proc.Unspent

variable {config : Config} {p : Proc}

theorem whole (h : p.used = 0) : p.Unspent config := fun _ => h ▸ Config.quantum_pos p.level

theorem admitted (hp : p.Unspent config) (h : p.due? = some t) : p.admitted.Unspent config := by
  rcases due?_eq_some.mp h with ⟨hphase, -⟩ | hphase
  · exact whole (by simp [Proc.admitted, hphase])
  · intro _
    simpa [Proc.admitted, hphase] using hp (completion_of_due h)

theorem dispatched (hp : p.Unspent config) (h : p.phase = .ready) :
    (p.dispatched now).Unspent config :=
  fun _ => hp (completion_of_ready h)

/-- Whatever outcome lets the process go on either renews its quantum or comes of what it has
left. -/
theorem settled :
    ((p.ran d).settled config now ((p.ran d).outcome (config.quantum p.level) d)).Unspent
      config := by
  cases ho : (p.ran d).outcome (config.quantum p.level) d with
  | completed => intro hlive; simp [Proc.settled, completion] at hlive
  | ioYield => exact whole rfl
  | demoted => exact whole rfl
  | requeued => exact fun _ => used_lt_of_requeued ho

end Proc.Unspent

/-- The counter is the time of the slices since the quantum was last renewed, which were all run
at the level of the process. -/
structure Proc.Counted (slices : List Slice) (p : Proc) : Prop where
  used : p.used = busyTime slices
  level : ∀ b ∈ slices, b.level = p.level

namespace Proc.Counted

variable {config : Config} {slices : List Slice} {p : Proc}

/-- A whole quantum lies ahead. -/
theorem renewed (h : p.used = 0) : p.Counted [] := ⟨h, nofun⟩

theorem congr {q : Proc} (h : p.Counted slices) (hused : q.used = p.used)
    (hlevel : q.level = p.level) : q.Counted slices :=
  ⟨hused.trans h.used, by rw [hlevel]; exact h.level⟩

/-- The process has just run the slice. Only a requeue leaves the quantum half used. -/
theorem settled (h : p.Counted slices) (hlevel : b.level = p.level) (hd : b.duration = d)
    (hlive : ((p.ran d).settled config now b.outcome).completion = none) :
    ((p.ran d).settled config now b.outcome).Counted
      (if b.outcome = .demoted ∨ b.outcome = .ioYield then [] else slices ++ [b]) := by
  cases hb : b.outcome with
  | completed => simp [hb, Proc.settled, completion] at hlive
  | ioYield => exact .renewed rfl
  | demoted => exact .renewed rfl
  | requeued =>
    have hused := h.used
    constructor
    · show p.used + d = busyTime (slices ++ [b])
      rw [busyTime_concat, hd, hused]
    · intro a ha
      rcases List.mem_append.mp ha with ha | ha
      · exact h.level a ha
      · exact List.mem_singleton.mp ha ▸ hlevel

end Proc.Counted

/-- What a cap on the slices makes of a slice of a job that comes after others. The stint holds
those of its own since its quantum was last renewed. -/
structure Slice.Metered (config : Config) (cap : Int) (spec : Spec) (earlier stint : List Slice)
    (b : Slice) : Prop where
  pid : b.pid = spec.pid
  quantum : b.quantum = config.quantum b.level
  duration : 0 < b.duration ∧ b.duration ≤ cap
  level : ∀ a ∈ stint, a.level = b.level
  served : busyTime stint + b.duration ≤ b.quantum - 1 + cap
  outcome : spec.ioBound = false → b.outcome =
    if delivered earlier spec.pid + b.duration = spec.burst then .completed
    else if busyTime stint + b.duration < b.quantum then .requeued
    else .demoted

/-- Every slice is metered. -/
def Metered (config : Config) (cap : Int) (spec : Fin n → Spec) (past : List (Happening n)) :
    Prop :=
  ∀ before e after, past = before ++ e :: after → ∀ i b, e = .slice i b →
    b.Metered config cap (spec i) (ranSlices before) (stint i before)

theorem Metered.append_map {config : Config} {cap : Int} {spec : Fin n → Spec}
    (h : Metered config cap spec past) {f : Fin n → Happening n}
    (hslice : ∀ j, (f j).slice? = none) : Metered config cap spec (past ++ l.map f) := by
  intro before e after heq i b he
  rcases append_eq_append_cons heq with ⟨tail, hpast⟩ | ⟨ahead, -, hnew⟩
  · exact h before e tail hpast i b he
  · have hmem : e ∈ l.map f := hnew ▸ by simp
    obtain ⟨j, -, hj⟩ := List.mem_map.mp hmem
    have hnone := hslice j
    simp [hj, he, Happening.slice?] at hnone

namespace Scheduler

variable {s : Scheduler n} {policy : SlicePolicy n} {cap : Int} {spec : Fin n → Spec}

/-- The processes that were new before and no longer are. -/
def entering (s t : Scheduler n) : List (Fin n) :=
  (List.finRange n).filter fun i => (s.process i).phase = .new ∧ (t.process i).phase ≠ .new

/-- What a stage did: whom it let enter, whom it answers that it raised, which slice it answers
that it ran. -/
def happeningsOf (policy : SlicePolicy n) (s : Scheduler n) : Call n → List (Happening n)
  | .arrivals => (s.entering (s.call policy .arrivals)).map .arrival
  | .boost =>
    match EStateM.run Sim.applyBoost s with
    | .ok moved _ => moved.map .raise
    | .error _ _ => []
  | .execute i =>
    match EStateM.run (Sim.execute policy i) s with
    | .ok b _ => [.slice i b]
    | .error _ _ => []
  | .dispatch | .fastForward | .step | .run => []

/-- What the stages of a drive did, in order. -/
def happenings (policy : SlicePolicy n) (s : Scheduler n) : List (Call n) → List (Happening n)
  | [] => []
  | c :: rest => s.happeningsOf policy c ++ (s.call policy c).happenings policy rest

theorem happenings_concat (stages : List (Call n)) (c : Call n) :
    s.happenings policy (stages ++ [c]) =
      s.happenings policy stages ++ (s.drive policy stages).happeningsOf policy c := by
  induction stages generalizing s with
  | nil => exact List.append_nil _
  | cons c' rest ih =>
    simp only [List.cons_append, happenings, ih, List.append_assoc]
    rfl

theorem happeningsOf_boost : s.happeningsOf policy .boost =
    if s.booster.due s.clock then s.bank.belowTop.map .raise else [] := by
  rw [happeningsOf, Sim.run_applyBoost]
  cases s.booster.due s.clock <;> rfl

theorem mem_entering {t : Scheduler n} :
    i ∈ s.entering t ↔ (s.process i).phase = .new ∧ (t.process i).phase ≠ .new := by
  simp [entering]

theorem arrival_mem_happeningsOf : .arrival i ∈ s.happeningsOf policy .arrivals ↔
    (s.process i).phase = .new ∧ ((s.call policy .arrivals).process i).phase ≠ .new := by
  rw [happeningsOf, ← mem_entering]
  simp

theorem raise_mem_happeningsOf (hs : s.Sound) :
    .raise i ∈ s.happeningsOf policy .boost ↔
      s.booster.due s.clock ∧ (s.process i).phase = .ready ∧ (s.process i).level ≠ 0 := by
  have hbelow : i ∈ s.bank.belowTop ↔ _ := hs.bank.mem_belowTop
  rw [happeningsOf_boost]
  cases s.booster.due s.clock <;> simp [hbelow, Scheduler.process]

-- ---------------------------------------------------------------------------
-- Stages keep the count
-- ---------------------------------------------------------------------------

/-- Nobody has used up the quantum of the level at hand. -/
def Unspent (s : Scheduler n) : Prop := ∀ i, (s.process i).Unspent s.config

theorem Unspent.of_move {t : Scheduler n} (hs : s.Sound) (h : s.Unspent)
    (hmove : Move policy s t) : t.Unspent := by
  intro i
  rw [hmove.config_eq]
  cases change_of_move hmove i with
  | keep hprocess => exact hprocess ▸ h i
  | enter hdue _ hprocess => exact hprocess ▸ (h i).admitted hdue
  | raise _ _ hprocess => exact hprocess ▸ .whole rfl
  | dispatch hdequeue hprocess => exact hprocess ▸ (h i).dispatched (hs.head_ready hdequeue)
  | execute _ _ _ _ hprocess => exact hprocess ▸ .settled

/-- The past accounts for the slices and for the quantum counters of all that have entered the
system and not left it, if their slices are listed. -/
structure Tallied (cap : Int) (spec : Fin n → Spec) (s : Scheduler n) (past : List (Happening n)) :
    Prop where
  timeline : ranSlices past = s.timeline.toList
  counted : ∀ i, Text.isWritable (s.process i).pid → (s.process i).phase ≠ .new →
    (s.process i).completion = none → (s.process i).Counted (stint i past)
  metered : Metered s.config cap spec past

namespace Tallied

/-- Whoever is admitted starts on a whole quantum or returns with one. -/
theorem admits {t : Scheduler n} (h : s.Tallied cap spec past) (hadmits : s.Admits l t) :
    t.Tallied cap spec (past ++ (s.entering t).map .arrival) := by
  have hconfig : t.config = s.config := by rw [hadmits.rest]
  have htimeline : t.timeline = s.timeline := by rw [hadmits.rest]
  constructor
  · rw [htimeline, ← h.timeline]
    simp [ranSlices, Happening.slice?]
  · intro i hpid hentered hlive
    have hmem : i ∈ s.entering t ↔ (s.process i).phase = .new :=
      mem_entering.trans (and_iff_left hentered)
    rw [stint_append_map (fun _ => rfl) (fun _ => rfl)]
    have hprocess := hadmits.process i
    by_cases hi : i ∈ l
    · rw [if_pos hi] at hprocess
      obtain ⟨time, htime, -⟩ := Proc.dueBy_iff.mp (hadmits.due i hi)
      rcases Proc.due?_eq_some.mp htime with ⟨hnew, -⟩ | hwaiting
      · rw [if_pos (hmem.mpr hnew)]
        exact .renewed (by simp [hprocess, Proc.admitted, hnew])
      · -- A return from I/O goes on with the quantum that the yield renewed.
        have hwritable : Text.isWritable (s.process i).pid := by
          rwa [hprocess, Proc.pid, Proc.spec_admitted] at hpid
        have hcounted := h.counted i hwritable (by simp [hwaiting]) (Proc.completion_of_due htime)
        rw [if_neg (by simp [hmem, hwaiting])]
        exact hcounted.congr (by simp [hprocess, Proc.admitted, hwaiting])
          (by simp [hprocess, Proc.admitted, hwaiting])
    · rw [if_neg hi] at hprocess
      rw [hprocess] at hpid hentered hlive ⊢
      rw [if_neg fun hnew => hentered (hmem.mp hnew)]
      exact h.counted i hpid hentered hlive
  · rw [hconfig]
    exact h.metered.append_map fun _ => rfl

theorem arrivals (hs : s.Sound) (h : s.Tallied cap spec past) (policy : SlicePolicy n) :
    (s.call policy .arrivals).Tallied cap spec (past ++ s.happeningsOf policy .arrivals) := by
  rw [happeningsOf]
  rcases Sim.admissible_or_cut s with hall | ⟨before, i, hcut⟩
  · rw [call_arrivals policy hs hall]
    exact h.admits admits_arrived
  · rw [call_arrivals_of_cut policy hs hcut]
    exact h.admits hcut.admits

theorem boosted (h : s.Tallied cap spec past) :
    s.boosted.Tallied cap spec (past ++ s.bank.belowTop.map .raise) := by
  constructor
  · rw [show s.boosted.timeline = s.timeline from rfl, ← h.timeline]
    simp [ranSlices, Happening.slice?]
  · intro i hpid hentered hlive
    rw [stint_append_map (fun _ => rfl) (fun _ => rfl), process_boosted]
    rw [process_boosted] at hpid hentered hlive
    by_cases hmem : i ∈ s.bank.belowTop
    · rw [if_pos hmem, if_pos hmem]
      exact .renewed rfl
    · rw [if_neg hmem] at hpid hentered hlive ⊢
      rw [if_neg hmem]
      exact h.counted i hpid hentered hlive
  · exact h.metered.append_map fun _ => rfl

theorem dispatched (hs : s.Sound) (h : s.Tallied cap spec past)
    (hdequeue : s.bank.dequeue = some (i, rest)) : (s.dispatched i rest).Tallied cap spec past := by
  refine ⟨h.timeline, fun j hpid hentered hlive => ?_, h.metered⟩
  rw [process_dispatched hdequeue] at hpid hentered hlive ⊢
  by_cases hj : j = i
  · subst j
    have hready := hs.head_ready hdequeue
    rw [if_pos rfl] at hpid ⊢
    have hcounted := h.counted i hpid (by simp [hready]) (Proc.completion_of_ready hready)
    exact hcounted.congr rfl rfl
  · rw [if_neg hj] at hpid hentered hlive ⊢
    exact h.counted j hpid hentered hlive

/-- Of a slice that is cut short the past tells nothing, but it was not run by anybody whose
slices are listed. -/
theorem unlisted (h : s.Tallied cap spec past)
    (hpid : Text.isWritable (s.process i).pid = false) :
    ((s.ran i d).unrecorded s).Tallied cap spec past := by
  refine ⟨h.timeline, fun j hwritable hentered hlive => ?_, h.metered⟩
  rw [process_unrecorded, process_ran] at hwritable hentered hlive ⊢
  by_cases hj : j = i
  · rw [if_pos hj, processAfter, Proc.pid, Proc.spec_settled, Proc.spec_ran, ← Proc.pid, hpid]
      at hwritable
    cases hwritable
  · rw [if_neg hj] at hwritable hentered hlive ⊢
    exact h.counted j hwritable hentered hlive

/-- The share of a running process under a cap. -/
theorem slice (hcharted : s.ChartedFor (Text.isWritable ·)) (hspec : (s.process i).spec = spec i)
    (hunspent : s.Unspent) (h : s.Tallied cap spec past) (hrunning : (s.process i).phase = .running)
    (hpid : Text.isWritable (s.process i).pid) (hpos : 0 < d) (hle : d ≤ cap) :
    (s.slice i d).Metered s.config cap (spec i) (ranSlices past) (stint i past) := by
  have hlive := Proc.completion_of_running hrunning
  have hcounted := h.counted i hpid (by simp [hrunning]) hlive
  have hused := hcounted.used
  have hlt := hunspent i hlive
  have howed := hcharted.remaining i hpid
  constructor
  case pid => exact congrArg Spec.pid hspec
  case quantum => rfl
  case duration => exact ⟨hpos, hle⟩
  case level => exact hcounted.level
  case served =>
    show busyTime (stint i past) + d ≤ s.config.quantum (s.process i).level - 1 + cap
    omega
  case outcome =>
    intro hcpu
    rw [Proc.pid, hspec, ← h.timeline] at howed
    have hdone : ((s.process i).ran d).done =
        decide (delivered (ranSlices past) (spec i).pid + d = (spec i).burst) := by
      rw [Proc.done, Proc.remaining_ran, beq_eq_decide, decide_eq_decide]
      omega
    have hquantum : s.config.quantum (s.process i).level ≤ (s.process i).used + d ↔
        ¬ busyTime (stint i past) + d < s.config.quantum (s.process i).level := by omega
    show Proc.outcome _ _ _ = if _ + d = _ then _ else if
      _ + d < s.config.quantum (s.process i).level then _ else _
    simp only [Proc.outcome, hdone, Proc.spec_ran, hspec, hcpu, Proc.level_ran, Proc.used_ran,
      hquantum, decide_eq_true_eq, Bool.false_eq_true, false_and, if_false]
    split
    · rfl
    · split <;> simp_all

theorem ran (hcharted : s.ChartedFor (Text.isWritable ·)) (hspec : (s.process i).spec = spec i)
    (hunspent : s.Unspent) (h : s.Tallied cap spec past) (hrunning : (s.process i).phase = .running)
    (hpid : Text.isWritable (s.process i).pid) (hpos : 0 < d) (hle : d ≤ cap) :
    (s.ran i d).Tallied cap spec (past ++ [.slice i (s.slice i d)]) := by
  have hslice := slice hcharted hspec hunspent h hrunning hpid hpos hle
  constructor
  · rw [show (s.ran i d).timeline.toList = _ from Array.toList_push, ← h.timeline]
    simp [ranSlices, Happening.slice?]
  · intro j hlisted hentered hlive
    rw [process_ran] at hlisted hentered hlive ⊢
    by_cases hj : j = i
    · subst j
      have hcounted := h.counted i hpid (by simp [hrunning]) (Proc.completion_of_running hrunning)
      rw [if_pos rfl] at hlive ⊢
      rw [stint_concat_slice]
      exact hcounted.settled rfl rfl hlive
    · rw [if_neg hj] at hlisted hentered hlive ⊢
      rw [stint_concat_slice_of_ne _ (Ne.symm hj)]
      exact h.counted j hlisted hentered hlive
  · refine forall_split_concat h.metered ?_
    rintro _ _ ⟨⟩
    exact hslice

/-- A running process always gets a share, so only a call for another one is refused. -/
theorem execute (hs : s.Sound) (hcharted : s.ChartedFor (Text.isWritable ·))
    (hspec : ∀ i, (s.process i).spec = spec i) (hunspent : s.Unspent) (hcap : 1 ≤ cap)
    (h : s.Tallied cap spec past) (i : Fin n) :
    (s.call (.capped cap) (.execute i)).Tallied cap spec
      (past ++ s.happeningsOf (.capped cap) (.execute i)) := by
  by_cases hrunning : (s.process i).phase = .running
  · have howes := hs.remaining_pos (Proc.completion_of_running hrunning)
    have hpolicy : SlicePolicy.capped cap s i = .ok (min cap (s.process i).remaining) := rfl
    cases hpid : Text.isWritable (s.process i).pid with
    | true =>
      have hrun := Sim.run_execute hs hrunning hpolicy (by omega) (by omega) hpid
      rw [call, Sim.after, happeningsOf, hrun]
      exact h.ran hcharted (hspec i) hunspent hrunning hpid (by omega) (by omega)
    | false =>
      have hrun := Sim.run_execute_refused hs hrunning hpolicy (by omega) (by omega) hpid
      rw [call, Sim.after, happeningsOf, hrun, List.append_nil]
      exact h.unlisted hpid
  · rw [call, Sim.after, happeningsOf, Sim.run_execute_of_not_running hrunning, List.append_nil]
    exact h

theorem stage (hs : s.Sound) (hcharted : s.ChartedFor (Text.isWritable ·))
    (hspec : ∀ i, (s.process i).spec = spec i) (hunspent : s.Unspent) (hcap : 1 ≤ cap)
    (h : s.Tallied cap spec past) {c : Call n} (hstage : c.IsStage) :
    (s.call (.capped cap) c).Tallied cap spec (past ++ s.happeningsOf (.capped cap) c) := by
  cases c with
  | arrivals => exact h.arrivals hs _
  | boost =>
    rw [call_boost, happeningsOf_boost]
    split
    · exact h.boosted
    · rwa [List.append_nil]
  | dispatch =>
    rw [happeningsOf, List.append_nil]
    cases hdequeue : s.bank.dequeue with
    | none => rwa [call_dispatch_none _ hdequeue]
    | some head =>
      have hdispatched := h.dispatched hs hdequeue
      rw [call_dispatch _ hs hdequeue]
      split
      · exact hdispatched
      · exact ⟨h.timeline, hdispatched.counted, h.metered⟩
  | execute i => exact h.execute hs hcharted hspec hunspent hcap i
  | fastForward =>
    rw [happeningsOf, List.append_nil]
    rcases s.after_fastForward with ⟨-, hstalled⟩ | ⟨target, -, hidled⟩
    · rw [call, hstalled]
      exact ⟨h.timeline, h.counted, h.metered⟩
    · rw [call, hidled]
      split
      · exact ⟨h.timeline, h.counted, h.metered⟩
      · exact h
  | step => exact hstage.elim
  | run => exact hstage.elim

end Tallied

end Scheduler

namespace Workload

open Scheduler

variable {w : Workload} {config : Config} {cap : Int}

theorem unspent_drive {policy : SlicePolicy w.size} (calls : List (Call w.size)) :
    ((w.start config).drive policy calls).Unspent := by
  refine drive_induction_of_unrecorded (fun i => ?_) (fun _ _ hs h hmove => h.of_move hs hmove)
    (fun _ _ h => h) calls
  rw [process_start]
  exact .whole rfl

theorem tallied_start : (w.start config).Tallied cap w.spec [] := by
  constructor
  · rfl
  · intro i _ hentered
    rw [process_start] at hentered
    exact absurd rfl hentered
  · rintro before e after heq
    simp at heq

theorem tallied_drive (hcap : 1 ≤ cap) {stages : List (Call w.size)}
    (hstages : ∀ c ∈ stages, c.IsStage) :
    ((w.start config).drive (.capped cap) stages).Tallied cap w.spec
      ((w.start config).happenings (.capped cap) stages) := by
  induction stages using List.reverseRecOn with
  | nil => exact tallied_start
  | append_singleton stages c ih =>
    have hbefore := ih fun c hc => hstages c (by simp [hc])
    rw [happenings_concat, drive_append]
    exact hbefore.stage (sound_drive stages) (charted_drive stages) (spec_drive stages)
      (unspent_drive stages) hcap (hstages c (by simp))

/-- With slices of at most `cap` units, and whatever is called, the counter of a process that is
ready or running stays below the quantum of its level, and if its pid can be written it is the
time of its slices since its quantum was last renewed. With the slice at hand it never exceeds the
quantum by more than `cap` less one, and a CPU-bound process that goes on is requeued while it is
below the quantum and demoted once it is not. A boost renews the quanta of those that wait below
the top level and of nobody else. -/
theorem quantum_accounted (w : Workload) (config : Config) (hcap : 1 ≤ cap)
    (calls : List (Call w.size)) :
    let policy : SlicePolicy w.size := .capped cap
    let start := w.start config
    let s := start.drive policy calls
    let stages := start.stages policy calls
    let past := start.happenings policy stages
    (∀ c ∈ stages, c.IsStage) ∧ start.drive policy stages = s ∧
    ranSlices past = s.timeline.toList ∧
    (∀ i, (s.process i).phase = .ready ∨ (s.process i).phase = .running →
      (∃ quantum, s.bank.quantum (s.process i).level = .ok quantum ∧
        0 ≤ (s.process i).used ∧ (s.process i).used < quantum) ∧
      (Text.isWritable (w.spec i).pid →
        (s.process i).used = ((stint i past).map Slice.duration).sum ∧
        ∀ b ∈ stint i past, b.level = (s.process i).level)) ∧
    (∀ before i b after, past = before ++ .slice i b :: after →
      b.Metered config cap (w.spec i) (ranSlices before) (stint i before)) ∧
    (∀ i, .arrival i ∈ s.happeningsOf policy .arrivals ↔
      (s.process i).phase = .new ∧ ((s.call policy .arrivals).process i).phase ≠ .new) ∧
    (∀ i, .raise i ∈ s.happeningsOf policy .boost ↔
      s.booster.due s.clock ∧ (s.process i).phase = .ready ∧ (s.process i).level ≠ 0) ∧
    ∀ i, (s.process i).phase = .ready → (s.process i).level = 0 →
      (s.call policy .boost).process i = s.process i := by
  intro policy start s stages past
  have hs : s.Sound := sound_drive calls
  have hconfig : s.config = config := config_drive calls
  have hspec (i) : (s.process i).spec = w.spec i := spec_drive calls i
  have hstages : ∀ c ∈ stages, c.IsStage := isStage_stages policy calls
  have hdrive : start.drive policy stages = s := drive_stages policy sound_start calls
  have h : s.Tallied cap w.spec past := hdrive ▸ tallied_drive hcap hstages
  refine ⟨hstages, hdrive, h.timeline, ?_, ?_, fun i => arrival_mem_happeningsOf,
    fun i => raise_mem_happeningsOf hs, ?_⟩
  · intro i hi
    have hlive := hi.elim Proc.completion_of_ready Proc.completion_of_running
    refine ⟨⟨_, quantum_of_quanta hs.quanta (hs.level_le i), (hs.process i).used_nonneg,
      unspent_drive calls i hlive⟩, fun hpid => ?_⟩
    rw [← hspec] at hpid
    have hcounted := h.counted i hpid (by rcases hi with hi | hi <;> simp [hi]) hlive
    exact ⟨hcounted.used, hcounted.level⟩
  · intro before i b after heq
    exact hconfig ▸ h.metered before _ after heq i b rfl
  · intro i _ hzero
    rw [call_boost]
    split
    · rw [process_boosted, if_neg fun hmem => (hs.bank.mem_belowTop.mp hmem).2 hzero]
    · rfl

/-- A cap of 4 lets the first job run three times at the top level, and the third slice takes it
to 12 of 10 units. -/
theorem quantum_accounted_reference :
    let calls : List (Call reference.size) := [.arrivals, .dispatch, .execute ⟨0, by decide⟩,
      .dispatch, .execute ⟨1, by decide⟩, .dispatch, .execute ⟨2, by decide⟩,
      .dispatch, .execute ⟨0, by decide⟩, .dispatch, .execute ⟨0, by decide⟩]
    let start := reference.start .standard
    let b : Slice := ⟨1, 16, 4, 0, 10, .demoted⟩
    (1 : Int) ≤ 4 ∧ ∃ before,
      start.happenings (.capped 4) (start.stages (.capped 4) calls) =
        before ++ .slice ⟨0, by decide⟩ b :: [] ∧
      busyTime (stint ⟨0, by decide⟩ before) = 8 ∧
      b.Metered .standard 4 (reference.spec ⟨0, by decide⟩) (ranSlices before)
        (stint ⟨0, by decide⟩ before) := by
  intro calls start b
  have hcap : (1 : Int) ≤ 4 := by decide
  have heq : start.happenings (.capped 4) (start.stages (.capped 4) calls) =
      (start.happenings (.capped 4) (start.stages (.capped 4) calls)).dropLast ++
        .slice ⟨0, by decide⟩ b :: [] := by decide +kernel
  exact ⟨hcap, _, heq, by decide +kernel,
    (quantum_accounted reference .standard hcap calls).2.2.2.2.1 _ _ _ _ heq⟩

/-- A job whose pid is too long to be written has used one unit of its quantum in a slice that is
not listed. -/
theorem long_pid_used_unlisted :
    let s := (longPid.start .standard).drive (.capped 1)
      [.arrivals, .dispatch, .execute ⟨0, by decide⟩]
    (s.process ⟨0, by decide⟩).phase = .ready ∧ (s.process ⟨0, by decide⟩).used = 1 ∧
      s.timeline = #[] := by
  decide +kernel

end Workload

end FeedbackQueue
