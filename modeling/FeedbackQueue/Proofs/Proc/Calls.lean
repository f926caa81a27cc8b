import FeedbackQueue.Proc

/-!
# Processes under any calls

The calls of a process may come in any order and with any arguments. `Takes` says once what
each of them does and when, and the invariants follow by its cases.

A call of `Proc` answers a whole process or a refusal, so it cannot show what a refused call
would leave behind half done. For that a process is also spelled out as the variables that a
call looks at and assigns one after the other, where nothing is taken back on failure. Both
forms end alike, and the main statement is about the variables.
-/

namespace FeedbackQueue

-- ---------------------------------------------------------------------------
-- What a call does
-- ---------------------------------------------------------------------------

namespace Proc

variable {p q : Proc} {c : Call}

/-- What a call makes of a process, unless it is refused. -/
inductive Takes (p : Proc) : Call → Proc → Prop
  | arrive : p.phase = .new → Takes p .arrive { p with phase := .ready, used := 0 }
  | dispatch : p.phase = .ready →
      Takes p (.dispatch now) { p with phase := .running, firstRun := p.firstRun.or (some now) }
  | preempt : p.phase = .running → Takes p .preempt { p with phase := .ready }
  | block : p.phase = .running →
      Takes p (.block time) { p with phase := .waiting time, used := 0 }
  | wake : p.phase = .waiting time → Takes p .wake { p with phase := .ready }
  | terminate : p.phase = .running → p.remaining = 0 →
      Takes p (.terminate now) { p with phase := .terminated now }
  | runFor : p.phase = .running → 0 ≤ d → d ≤ p.remaining →
      Takes p (.runFor d) { p with remaining := p.remaining - d, used := p.used + d }
  | resetQuantum : Takes p .resetQuantum { p with used := 0 }
  | setLevel : 0 ≤ k → Takes p (.setLevel k) { p with level := k.toNat }

theorem takes_of_perform (h : p.perform c = .ok q) : p.Takes c q := by
  cases c with
  | arrive =>
    cases hphase : p.phase <;> simp [perform, Proc.arrive, refuse, hphase] at h
    exact h ▸ .arrive hphase
  | dispatch now =>
    cases hphase : p.phase <;>
      simp only [perform, Proc.dispatch, refuse, hphase, Except.ok.injEq, reduceCtorEq] at h
    exact h ▸ .dispatch hphase
  | preempt =>
    cases hphase : p.phase <;> simp [perform, Proc.preempt, refuse, hphase] at h
    exact h ▸ .preempt hphase
  | block readyAt =>
    cases hphase : p.phase <;> simp [perform, Proc.block, refuse, hphase] at h
    exact h ▸ .block hphase
  | wake =>
    cases hphase : p.phase <;> simp [perform, Proc.wake, refuse, hphase] at h
    exact h ▸ .wake hphase
  | terminate now =>
    by_cases howed : p.remaining ≠ 0
    · simp [perform, Proc.terminate, howed] at h
    · simp only [perform, Proc.terminate, if_neg howed] at h
      cases hphase : p.phase <;> simp only [refuse, hphase, Except.ok.injEq, reduceCtorEq] at h
      exact h ▸ .terminate hphase (Decidable.not_not.mp howed)
  | runFor d =>
    simp only [perform, Proc.runFor] at h
    split at h
    · rename_i hphase
      by_cases hrange : 0 ≤ d ∧ d ≤ p.remaining
      · rw [if_pos hrange, Except.ok.injEq] at h
        exact h ▸ .runFor hphase hrange.1 hrange.2
      · simp [hrange] at h
    · simp [refuse] at h
  | resetQuantum =>
    simp [perform, Proc.resetQuantum] at h
    exact h ▸ .resetQuantum
  | setLevel level =>
    by_cases hlevel : 0 ≤ level <;> simp [perform, Proc.setLevel, hlevel] at h
    exact h ▸ .setLevel hlevel

/-- A refused call changes nothing. -/
def call (p : Proc) (c : Call) : Proc :=
  match p.perform c with
  | .ok q => q
  | .error _ => p

def drive (p : Proc) (calls : List Call) : Proc := calls.foldl call p

/-- A call is refused, or does what it should. -/
theorem call_cases (p : Proc) (c : Call) :
    ((∃ e, p.perform c = .error e) ∧ p.call c = p) ∨
      p.perform c = .ok (p.call c) ∧ p.Takes c (p.call c) := by
  unfold call
  cases h : p.perform c with
  | error e => exact .inl ⟨⟨e, rfl⟩, rfl⟩
  | ok q => exact .inr ⟨rfl, takes_of_perform h⟩

/-- The CPU time that a call asks for. -/
def Call.units : Call → Int
  | .runFor d => d
  | _ => 0

/-- The CPU time that calls deliver: what they ask for, unless they are refused. -/
def delivered (p : Proc) : List Call → Int
  | [] => 0
  | c :: rest =>
    match p.perform c with
    | .ok q => c.units + q.delivered rest
    | .error _ => p.delivered rest

-- ---------------------------------------------------------------------------
-- What every call keeps
-- ---------------------------------------------------------------------------

/-- How the numbers of a process go together with the phase, whatever is called. -/
structure Coherent (p : Proc) : Prop where
  remaining_nonneg : 0 ≤ p.remaining
  remaining_le : p.remaining ≤ p.spec.burst
  used_nonneg : 0 ≤ p.used
  used_le : p.used ≤ p.cpuTime
  unstarted : p.phase = .new → p.firstRun = none
  started : p.phase ≠ .new → p.phase ≠ .ready → p.firstRun.isSome
  paid : p.completion.isSome → p.remaining = 0

theorem coherent_ofSpec (spec : Spec) : (ofSpec spec).Coherent := by
  have hburst := spec.burst_pos
  constructor <;> simp [ofSpec, cpuTime, completion]
  omega

theorem Takes.spec_eq (h : p.Takes c q) : q.spec = p.spec := by
  cases h <;> rfl

theorem Takes.level_eq (h : p.Takes c q) (hc : ∀ k, c ≠ .setLevel k) : q.level = p.level := by
  cases h with
  | setLevel => exact absurd rfl (hc _)
  | _ => rfl

theorem Takes.coherent (h : p.Takes c q) (hp : p.Coherent) : q.Coherent := by
  obtain ⟨hnonneg, hle, hused, hspent, hunstarted, hstarted, hpaid⟩ := hp
  have hzero : 0 ≤ p.cpuTime := Int.le_trans hused hspent
  cases h with
  | arrive => exact ⟨hnonneg, hle, Int.le_refl 0, hzero, nofun, nofun, nofun⟩
  | dispatch => exact ⟨hnonneg, hle, hused, hspent, nofun, by simp, nofun⟩
  | preempt => exact ⟨hnonneg, hle, hused, hspent, nofun, nofun, nofun⟩
  | block hphase =>
    exact ⟨hnonneg, hle, Int.le_refl 0, hzero, nofun, fun _ _ => hstarted (by simp [hphase])
      (by simp [hphase]), nofun⟩
  | wake => exact ⟨hnonneg, hle, hused, hspent, nofun, nofun, nofun⟩
  | terminate hphase hpaid =>
    exact ⟨hnonneg, hle, hused, hspent, nofun, fun _ _ => hstarted (by simp [hphase])
      (by simp [hphase]), fun _ => hpaid⟩
  | @runFor d hphase hpos hdle =>
    refine ⟨?_, ?_, ?_, ?_, hunstarted, hstarted, ?_⟩
    · show 0 ≤ p.remaining - d
      omega
    · show p.remaining - d ≤ p.spec.burst
      omega
    · show 0 ≤ p.used + d
      omega
    · show p.used + d ≤ p.spec.burst - (p.remaining - d)
      have hcpu : p.cpuTime = p.spec.burst - p.remaining := rfl
      omega
    · simp [completion, hphase]
  | resetQuantum => exact ⟨hnonneg, hle, Int.le_refl 0, hzero, hunstarted, hstarted, hpaid⟩
  | setLevel => exact ⟨hnonneg, hle, hused, hspent, hunstarted, hstarted, hpaid⟩

theorem Takes.cpuTime_eq (h : p.Takes c q) : q.cpuTime = p.cpuTime + c.units := by
  cases h with
  | @runFor d =>
    show p.spec.burst - (p.remaining - d) = p.spec.burst - p.remaining + d
    omega
  | _ => exact (Int.add_zero _).symm

theorem Takes.firstRun_eq (h : p.Takes c q) (hset : p.firstRun.isSome) :
    q.firstRun = p.firstRun := by
  cases h with
  | dispatch =>
    obtain ⟨t, ht⟩ := Option.isSome_iff_exists.mp hset
    simp [ht]
  | _ => rfl

/-- Nothing but the bookkeeping of levels and quanta is left to a terminated process. -/
theorem Takes.of_terminated (h : p.Takes c q) (hend : p.completion.isSome) :
    (c = .resetQuantum ∨ ∃ level, c = .setLevel level) ∧ q.completion = p.completion := by
  cases hphase : p.phase <;> simp [completion, hphase] at hend
  cases h with
  | resetQuantum => exact ⟨.inl rfl, rfl⟩
  | setLevel => exact ⟨.inr ⟨_, rfl⟩, rfl⟩
  | _ => simp_all

theorem coherent_drive (hp : p.Coherent) (calls : List Call) : (p.drive calls).Coherent := by
  induction calls generalizing p with
  | nil => exact hp
  | cons c rest ih =>
    refine ih (p := p.call c) ?_
    rcases p.call_cases c with ⟨-, hsame⟩ | ⟨-, htakes⟩
    · exact hsame.symm ▸ hp
    · exact htakes.coherent hp

theorem spec_drive (p : Proc) (calls : List Call) : (p.drive calls).spec = p.spec := by
  induction calls generalizing p with
  | nil => rfl
  | cons c rest ih =>
    refine (ih (p.call c)).trans ?_
    rcases p.call_cases c with ⟨-, hsame⟩ | ⟨-, htakes⟩
    · rw [hsame]
    · exact htakes.spec_eq

theorem cpuTime_drive (p : Proc) (calls : List Call) :
    (p.drive calls).cpuTime = p.cpuTime + p.delivered calls := by
  induction calls generalizing p with
  | nil => exact (Int.add_zero _).symm
  | cons c rest ih =>
    rw [delivered, show p.drive (c :: rest) = (p.call c).drive rest from rfl, ih]
    rcases p.call_cases c with ⟨⟨e, he⟩, hsame⟩ | ⟨hok, htakes⟩
    · rw [he, hsame]
    · rw [hok, htakes.cpuTime_eq, Int.add_assoc]

theorem firstRun_drive (h : p.firstRun.isSome) (calls : List Call) :
    (p.drive calls).firstRun = p.firstRun := by
  induction calls generalizing p with
  | nil => rfl
  | cons c rest ih =>
    have hcall : (p.call c).firstRun = p.firstRun := by
      rcases p.call_cases c with ⟨-, hsame⟩ | ⟨-, htakes⟩
      · rw [hsame]
      · exact htakes.firstRun_eq h
    exact (ih (p := p.call c) (hcall ▸ h)).trans hcall

theorem completion_drive (h : p.completion.isSome) (calls : List Call) :
    (p.drive calls).completion = p.completion := by
  induction calls generalizing p with
  | nil => rfl
  | cons c rest ih =>
    have hcall : (p.call c).completion = p.completion := by
      rcases p.call_cases c with ⟨-, hsame⟩ | ⟨-, htakes⟩
      · rw [hsame]
      · exact (htakes.of_terminated h).2
    exact (ih (p := p.call c) (hcall ▸ h)).trans hcall

end Proc

-- ---------------------------------------------------------------------------
-- A process variable by variable
-- ---------------------------------------------------------------------------

/-- The phase of a process without its times. -/
inductive State where
  | new | ready | running | waiting | terminated
deriving DecidableEq, Repr

/-- The variables of a process. Nothing ties the times to the state. -/
structure Variables where
  state : State
  remaining : Int
  level : Int
  used : Int
  readyAt : Option Int
  firstRun : Option Int
  completion : Option Int
deriving DecidableEq, Repr

def Phase.state : Phase → State
  | .new => .new
  | .ready => .ready
  | .running => .running
  | .waiting _ => .waiting
  | .terminated _ => .terminated

def Proc.variables (p : Proc) : Variables :=
  ⟨p.phase.state, p.remaining, p.level, p.used, p.readyAt, p.firstRun, p.completion⟩

namespace Variables

/-- The phase as a refusal reports it. -/
def phase (v : Variables) : Phase :=
  match v.state with
  | .new => .new
  | .ready => .ready
  | .running => .running
  | .waiting => .waiting (v.readyAt.getD 0)
  | .terminated => .terminated (v.completion.getD 0)

/-- Checks and assignments in order. A failure keeps what was assigned before it. -/
abbrev Program := EStateM ProcError Variables Unit

def ofSpec (spec : Spec) : Variables :=
  ⟨.new, spec.burst, 0, 0, none, none, none⟩

def transition (pid : Int) (action : Action) (expected target : State) : Program := do
  let v ← get
  if v.state ≠ expected then throw (ProcError.wrongPhase action pid v.phase).raised
  set { v with state := target }

def program (pid : Int) : Proc.Call → Program
  | .arrive => do
    transition pid .arrive .new .ready
    modify fun v => { v with used := 0 }
  | .dispatch now => do
    transition pid .dispatch .ready .running
    if (← get).firstRun.isNone then modify fun v => { v with firstRun := some now }
  | .preempt => transition pid .preempt .running .ready
  | .block readyAt => do
    transition pid .block .running .waiting
    modify fun v => { v with readyAt := some readyAt }
    modify fun v => { v with used := 0 }
  | .wake => do
    transition pid .wake .waiting .ready
    modify fun v => { v with readyAt := none }
  | .terminate now => do
    let v ← get
    if v.remaining ≠ 0 then throw (ProcError.unfinished pid v.remaining).raised
    transition pid .terminate .running .terminated
    modify fun v => { v with completion := some now }
  | .runFor d => do
    let v ← get
    if v.state ≠ .running then throw (ProcError.wrongPhase .run pid v.phase).raised
    if d < 0 ∨ v.remaining < d then
      throw (ProcError.sliceOutside pid d v.remaining).raised
    modify fun v => { v with remaining := v.remaining - d }
    modify fun v => { v with used := v.used + d }
  | .resetQuantum => modify fun v => { v with used := 0 }
  | .setLevel level => do
    if level < 0 then throw (ProcError.negativeLevel level).raised
    modify fun v => { v with level }

/-- What a call leaves behind, whether or not it fails. -/
def call (pid : Int) (v : Variables) (c : Proc.Call) : Variables :=
  match EStateM.run (program pid c) v with
  | .ok _ w => w
  | .error _ w => w

def drive (pid : Int) (v : Variables) (calls : List Proc.Call) : Variables :=
  calls.foldl (call pid) v

/-- Both forms of a call end alike, also where it is refused. -/
theorem run_program (p : Proc) (c : Proc.Call) :
    EStateM.run (program p.pid c) p.variables =
      match p.perform c with
      | .ok q => .ok () q.variables
      | .error e => .error e p.variables := by
  obtain ⟨spec, phase, remaining, level, used, firstRun⟩ := p
  cases c with
  | arrive => cases phase <;> rfl
  | dispatch now => cases phase <;> cases firstRun <;> rfl
  | preempt => cases phase <;> rfl
  | block time => cases phase <;> rfl
  | wake => cases phase <;> rfl
  | terminate now =>
    by_cases howed : remaining = 0
    · subst howed
      cases phase <;> rfl
    · simp [program, Proc.variables, Proc.perform, Proc.terminate, Proc.pid, howed]
  | runFor d =>
    cases phase with
    | running =>
      have houtside : (d < 0 ∨ remaining < d) ↔ ¬ (0 ≤ d ∧ d ≤ remaining) := by omega
      by_cases hrange : 0 ≤ d ∧ d ≤ remaining <;>
        simp [program, Proc.variables, Proc.perform, Proc.runFor, Phase.state, Proc.readyAt,
          Proc.completion, Proc.pid, houtside, hrange]
    | _ => rfl
  | resetQuantum => rfl
  | setLevel k =>
    by_cases hlevel : 0 ≤ k
    · have hcast : (k.toNat : Int) = k := Int.toNat_of_nonneg hlevel
      simp [program, Proc.variables, Proc.perform, Proc.setLevel, Proc.readyAt, Proc.completion,
        hlevel, Int.not_lt.mpr hlevel, hcast]
    · simp [program, Proc.variables, Proc.perform, Proc.setLevel, hlevel, Int.not_le.mp hlevel]

theorem call_variables (p : Proc) (c : Proc.Call) :
    call p.pid p.variables c = (p.call c).variables := by
  rw [call, run_program, Proc.call]
  cases p.perform c <;> rfl

theorem drive_variables (p : Proc) (calls : List Proc.Call) :
    drive p.pid p.variables calls = (p.drive calls).variables := by
  induction calls generalizing p with
  | nil => rfl
  | cons c rest ih =>
    have hpid : (p.call c).pid = p.pid := congrArg Spec.pid (p.spec_drive [c])
    rw [drive, List.foldl_cons, call_variables, ← hpid]
    exact ih (p.call c)

theorem state_eq_new (p : Proc) : p.variables.state = .new ↔ p.phase = .new := by
  cases h : p.phase <;> simp [Proc.variables, Phase.state, h]

theorem state_eq_ready (p : Proc) : p.variables.state = .ready ↔ p.phase = .ready := by
  cases h : p.phase <;> simp [Proc.variables, Phase.state, h]

theorem state_eq_terminated (p : Proc) :
    p.variables.state = .terminated ↔ p.completion.isSome := by
  cases h : p.phase <;> simp [Proc.variables, Phase.state, Proc.completion, h]

theorem state_eq_waiting (p : Proc) : p.variables.state = .waiting ↔ p.readyAt.isSome := by
  cases h : p.phase <;> simp [Proc.variables, Phase.state, Proc.readyAt, h]

end Variables

/-- However a process is called, its variables read as `Proc` has them and fit together, and a
refused call leaves each of them alone. -/
theorem Variables.drive_coherent (spec : Spec) (calls : List Proc.Call) :
    let p := (Proc.ofSpec spec).drive calls
    let v := drive spec.pid (ofSpec spec) calls
    v = p.variables ∧
    (∀ c, EStateM.run (program spec.pid c) v =
      match p.perform c with
      | .ok q => .ok () q.variables
      | .error e => .error e v) ∧
    (0 ≤ v.remaining ∧ v.remaining ≤ spec.burst) ∧
    spec.burst - v.remaining = (Proc.ofSpec spec).delivered calls ∧
    (0 ≤ v.used ∧ v.used ≤ spec.burst - v.remaining) ∧
    0 ≤ v.level ∧
    (v.readyAt.isSome ↔ v.state = .waiting) ∧
    (v.completion.isSome ↔ v.state = .terminated) ∧
    (v.state = .terminated → v.remaining = 0) ∧
    (v.state = .new → v.firstRun = none) ∧
    (v.state = .running ∨ v.state = .waiting ∨ v.state = .terminated → v.firstRun.isSome) ∧
    (∀ more, v.firstRun.isSome → (drive spec.pid v more).firstRun = v.firstRun) ∧
    (∀ more, v.completion.isSome → (drive spec.pid v more).completion = v.completion) ∧
    (v.state = .terminated → ∀ c w, EStateM.run (program spec.pid c) v = .ok () w →
      c = .resetQuantum ∨ ∃ k, c = .setLevel k) := by
  intro p v
  have hv : v = p.variables := drive_variables (Proc.ofSpec spec) calls
  have hspec : p.spec = spec := (Proc.ofSpec spec).spec_drive calls
  have hp : p.Coherent := Proc.coherent_drive (Proc.coherent_ofSpec spec) calls
  have hpid : spec.pid = p.pid := congrArg Spec.pid hspec.symm
  have hcpu : p.cpuTime = spec.burst - p.remaining := by rw [Proc.cpuTime, hspec]
  have hrun (c) := run_program p c
  rw [hv, hpid]
  refine ⟨rfl, hrun, ⟨hp.remaining_nonneg, hspec ▸ hp.remaining_le⟩, ?_,
    ⟨hp.used_nonneg, hcpu ▸ hp.used_le⟩, Int.natCast_nonneg _, (state_eq_waiting p).symm,
    (state_eq_terminated p).symm, ?_, ?_, ?_, fun more h => ?_, fun more h => ?_, ?_⟩
  · have hdelivered := (Proc.ofSpec spec).cpuTime_drive calls
    rw [hcpu, show (Proc.ofSpec spec).cpuTime = 0 from Int.sub_self _, Int.zero_add] at hdelivered
    exact hdelivered
  · exact fun hend => hp.paid ((state_eq_terminated p).mp hend)
  · exact fun hnew => hp.unstarted ((state_eq_new p).mp hnew)
  · intro hstate
    refine hp.started ?_ ?_
    · rw [ne_eq, ← state_eq_new]
      rcases hstate with h | h | h <;> simp [h]
    · rw [ne_eq, ← state_eq_ready]
      rcases hstate with h | h | h <;> simp [h]
  · rw [drive_variables]
    exact Proc.firstRun_drive h more
  · rw [drive_variables]
    exact Proc.completion_drive h more
  · intro hend c w hw
    rw [hrun] at hw
    cases hperform : p.perform c with
    | error e => simp [hperform] at hw
    | ok q =>
      exact ((Proc.takes_of_perform hperform).of_terminated ((state_eq_terminated p).mp hend)).1

end FeedbackQueue
