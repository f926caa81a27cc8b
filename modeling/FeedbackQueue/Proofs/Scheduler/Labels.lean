import FeedbackQueue.Proofs.Scheduler.Correspondence

/-!
# Labels

A job is known to the outside by its pid and its name. This module gives the jobs of a
workload new ones and says how all that a scheduler tells of them reads then: processes,
slices, marks, rows of reports and errors. What a report computes does not change.
-/

namespace FeedbackQueue

/-- New pids and names. -/
structure Labels where
  pid : Int → Nat
  name : Int → Option String

variable {f : Labels}

-- ---------------------------------------------------------------------------
-- Jobs and what is told of them
-- ---------------------------------------------------------------------------

def Spec.relabelled (x : Spec) (f : Labels) : Spec :=
  { x with pid := f.pid x.pid, name := f.name x.pid, pid_nonneg := Int.natCast_nonneg _ }

def Proc.relabelled (p : Proc) (f : Labels) : Proc := { p with spec := p.spec.relabelled f }

@[simp] theorem Proc.phase_relabelled {p : Proc} : (p.relabelled f).phase = p.phase := rfl

@[simp] theorem Proc.remaining_relabelled {p : Proc} :
    (p.relabelled f).remaining = p.remaining := rfl

def Slice.relabelled (b : Slice) (f : Labels) : Slice := { b with pid := f.pid b.pid }

def Mark.relabelled (x : Mark) (f : Labels) : Mark :=
  { x with pid := x.pid.map fun pid => (f.pid pid : Int) }

/-- A job without a name of its own is named after its pid. -/
def Row.relabelled (row : Row) (f : Labels) : Row :=
  let pid : Int := f.pid row.pid
  { row with pid, name := (f.name row.pid).getD s!"P{pid}" }

def Report.relabelled (r : Report) (f : Labels) : Report :=
  { r with rows := r.rows.map (·.relabelled f) }

def ProcError.relabelled (f : Labels) : ProcError → ProcError
  | .wrongPhase action pid found => .wrongPhase action (f.pid pid) found
  | .unfinished pid remaining => .unfinished (f.pid pid) remaining
  | .sliceOutside pid duration remaining => .sliceOutside (f.pid pid) duration remaining
  | .negativeLevel level => .negativeLevel level
  | .numeral e => .numeral e

def QueueError.relabelled (f : Labels) : QueueError → QueueError
  | .alreadyQueued pid => .alreadyQueued (f.pid pid)
  | .index e => .index e
  | .process e => .process (e.relabelled f)
  | .numeral e => .numeral e

def SchedulerError.relabelled (f : Labels) : SchedulerError → SchedulerError
  | .process e => .process (e.relabelled f)
  | .queue e => .queue (e.relabelled f)
  | .stalled pending clock r => .stalled pending clock (r.relabelled f)
  | .range e => .range e
  | .report e => .report e
  | .numeral e => .numeral e
  | .endless => .endless

/-- The new labels of a job can be written if the old ones can, and only then. -/
structure Labels.AsWritable (f : Labels) (x : Spec) : Prop where
  pid : Text.isWritable (f.pid x.pid) = Text.isWritable x.pid
  label : (x.relabelled f).hasLabel = x.hasLabel

theorem ProcError.raised_relabelled {e : ProcError}
    (h : (e.relabelled f).phrase.isWritable = e.phrase.isWritable) :
    (e.relabelled f).raised = e.raised.relabelled f := by
  rw [raised, raised, Text.Phrase.raise, Text.Phrase.raise, h]
  split <;> rfl

-- ---------------------------------------------------------------------------
-- Reports
-- ---------------------------------------------------------------------------

namespace Averages

variable {rows : List Row} {time : Row → Option Int}

theorem mean_relabelled (htime : ∀ row, time (row.relabelled f) = time row) :
    mean (rows.map (·.relabelled f)) time = mean rows time := by
  simp [mean, total, List.foldr_map, htime]

theorem ofRows_relabelled : ofRows (rows.map (·.relabelled f)) = ofRows rows := by
  have hdone : (rows.map (·.relabelled f)).filter Row.completed =
      (rows.filter Row.completed).map (·.relabelled f) := List.filter_map
  rw [ofRows, hdone, List.isEmpty_map, List.length_map, mean_relabelled fun _ => rfl,
    mean_relabelled fun _ => rfl, mean_relabelled fun _ => rfl, ofRows]

end Averages

theorem Report.ofRows_relabelled (rows : List Row) (endTime switches boosts : Int) :
    Report.ofRows (rows.map (·.relabelled f)) endTime switches boosts =
      (Report.ofRows rows endTime switches boosts).map (·.relabelled f) := by
  have hfilter (kind : Row → Bool) (hkind : ∀ row, kind (row.relabelled f) = kind row) :
      (rows.map (·.relabelled f)).filter kind = (rows.filter kind).map (·.relabelled f) := by
    rw [List.filter_map]
    exact congrArg _ (List.filter_congr fun row _ => hkind row)
  have hall : (rows.map (·.relabelled f)).all Row.completed = rows.all Row.completed :=
    List.all_map
  rw [Report.ofRows, hfilter _ fun _ => rfl, hfilter _ fun _ => rfl, Averages.ofRows_relabelled,
    Averages.ofRows_relabelled, Averages.ofRows_relabelled, hall, Report.ofRows]
  cases Averages.ofRows rows with
  | error _ => rfl
  | ok _ =>
    cases Averages.ofRows (rows.filter (·.ioBound)) with
    | error _ => rfl
    | ok _ => cases Averages.ofRows (rows.filter (!·.ioBound)) <;> rfl

theorem Report.collect_relabelled {processes : List Proc}
    (h : ∀ p ∈ processes, f.AsWritable p.spec) (endTime switches boosts : Int) :
    Report.collect (processes.map (·.relabelled f)) endTime switches boosts =
      (Report.collect processes endTime switches boosts).map (·.relabelled f) := by
  have hlabels : (processes.map (·.relabelled f)).all (·.spec.hasLabel) =
      processes.all (·.spec.hasLabel) := by
    rw [List.all_map, Bool.eq_iff_iff, List.all_eq_true, List.all_eq_true]
    exact forall₂_congr fun p hp => by rw [← (h p hp).label]; rfl
  have hrows : (processes.map (·.relabelled f)).map Row.ofProc =
      (processes.map Row.ofProc).map (·.relabelled f) := by
    rw [List.map_map, List.map_map]
    rfl
  rw [Report.collect, Report.collect, hlabels, hrows, Report.ofRows_relabelled]
  split
  · cases Report.ofRows (processes.map Row.ofProc) endTime switches boosts <;> rfl
  · rfl

/-- Rows are found under their new pids as long as these tell them apart. -/
theorem Report.byPid_relabelled {r : Report} {pid : Int}
    (hinjective : ∀ row ∈ r.rows, f.pid row.pid = f.pid pid → row.pid = pid)
    (hfound : r.byPid pid = .ok row) :
    (r.relabelled f).byPid (f.pid pid) = .ok (row.relabelled f) := by
  have hrows : (r.rows.map (·.relabelled f)).find? (·.pid == (f.pid pid : Int)) =
      (r.rows.find? (·.pid == pid)).map (·.relabelled f) := by
    rw [List.find?_map]
    congr 1
    refine List.find?_congr fun row hrow => Bool.eq_iff_iff.mpr ?_
    simp only [Function.comp, Row.relabelled, beq_iff_eq, Int.ofNat_inj]
    exact ⟨hinjective row hrow, congrArg f.pid⟩
  rw [Report.byPid] at hfound ⊢
  rw [Report.relabelled, hrows]
  cases h : r.rows.find? (·.pid == pid) <;> rw [h] at hfound <;> cases hfound
  rfl

-- ---------------------------------------------------------------------------
-- Relabelled workloads
-- ---------------------------------------------------------------------------

/-- New labels that still tell the jobs of a workload apart. -/
structure Workload.Relabelling (w : Workload) extends Labels where
  injective : ∀ x ∈ w.specs, ∀ y ∈ w.specs, pid x.pid = pid y.pid → x.pid = y.pid

namespace Workload

/-- Every pid is put beyond what a message can quote. -/
def longLabels (w : Workload) : w.Relabelling where
  pid pid := pid.toNat + Text.digitBound
  name _ := none
  injective x _ y _ hsame := by
    have hx := x.pid_nonneg
    have hy := y.pid_nonneg
    omega

def relabelled (w : Workload) (f : w.Relabelling) : Workload where
  specs := w.specs.map (·.relabelled f.toLabels)
  nonempty := by simpa using w.nonempty
  distinct := by
    rw [List.map_map]
    refine List.Nodup.map_on ?_ (List.Nodup.of_map _ w.distinct)
    intro x hx y hy hsame
    have hpid := f.injective x hx y hy (Int.ofNat_inj.mp hsame)
    exact List.inj_on_of_nodup_map w.distinct hx hy hpid

variable {w : Workload} {f : w.Relabelling}

theorem size_relabelled : w.size = (w.relabelled f).size := by
  simp [size, relabelled]

theorem spec_relabelled (i : Fin w.size) :
    (w.relabelled f).spec (i.cast size_relabelled) = (w.spec i).relabelled f.toLabels := by
  have hlt : i.val < (w.specs.map (·.relabelled f.toLabels)).length := by
    rw [List.length_map]
    exact i.isLt
  exact @List.getElem_map _ _ (fun x : Spec => x.relabelled f.toLabels) w.specs i hlt

end Workload

-- ---------------------------------------------------------------------------
-- The translation to new labels
-- ---------------------------------------------------------------------------

namespace Labels

/-- Slots and times stay as they are. -/
def translation (f : Labels) (hsize : n = m) : Translation n m :=
  ⟨(Fin.castOrderIso hsize).toOrderEmbedding, 1, Int.one_pos, fun pid => f.pid pid⟩

variable {n m : Nat} {hsize : n = m}

@[simp] theorem translation_slot (i : Fin n) : (f.translation hsize).slot i = i.cast hsize := rfl

@[simp] theorem translation_pid (pid : Int) : (f.translation hsize).pid pid = f.pid pid := rfl

@[simp] theorem translation_time : (f.translation hsize).time = id := funext Int.one_mul

@[simp] theorem translation_phase : (f.translation hsize).phase = id := by
  funext phase
  cases phase <;> simp [Translation.phase]

theorem translation_slice : (f.translation hsize).slice = (·.relabelled f) := by
  funext b
  simp [Translation.slice, Slice.relabelled]

theorem translation_mark : (f.translation hsize).mark = (·.relabelled f) := by
  funext x
  cases hpid : x.pid <;> simp [Translation.mark, Mark.relabelled, hpid]

end Labels

variable {config : Config} {n m : Nat} {hsize : n = m}

theorem Config.alike_relabelled : config.Alike (f.translation hsize) config := by
  constructor <;> simp

theorem Spec.alike_relabelled {x : Spec} :
    x.Alike (f.translation hsize) config config (x.relabelled f) := by
  constructor <;> simp [Spec.relabelled]

end FeedbackQueue
