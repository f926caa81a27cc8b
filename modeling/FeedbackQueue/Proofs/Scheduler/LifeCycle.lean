import FeedbackQueue.Proofs.Scheduler.History
import FeedbackQueue.Proofs.Scheduler.Legible

/-!
# The life cycle in the log

Read for one process, the log tells a life: an arrival, turns on the CPU that lead back to a
queue, and a last turn that completes. The states of such a life are the phases of the
process, so the log is a word of a regular language with the phase as its state: every move
writes at most one entry about a process, and where it writes one, the phase changes along.
A move that cannot be recorded changes the phase alone, so all this is about processes whose
numbers the log can quote.
-/

namespace FeedbackQueue

open Relation (ReflTransGen)
open RegularExpression (char star)
open scoped Computability

-- ---------------------------------------------------------------------------
-- The language of lives
-- ---------------------------------------------------------------------------

section

open EventKind

/-- A turn on the CPU that leads back to a queue, at once or by way of I/O. -/
def turn : RegularExpression EventKind :=
  char dispatch * (char demotion + char requeue + char ioYield * char ioReturn)

/-- The life of a process each time it joins a queue. -/
def queued : RegularExpression EventKind :=
  char arrival * star turn

/-- The life of a process, from its arrival to its completion. -/
def lifeCycle : RegularExpression EventKind :=
  char arrival * star turn * (char dispatch * char completion)

/-- The events with which a life may begin. -/
def BeginsLife (kinds : List EventKind) : Prop :=
  ∃ rest, kinds ++ rest ∈ lifeCycle.matches'

/-- The events of a process until it stands in a phase. -/
inductive Past : List EventKind → Phase → Prop
  | new : Past [] .new
  | ready : kinds ∈ queued.matches' → Past kinds .ready
  | running : kinds ∈ queued.matches' → Past (kinds ++ [dispatch]) .running
  | waiting : kinds ∈ queued.matches' → Past (kinds ++ [dispatch, ioYield]) (.waiting readyAt)
  | terminated : kinds ∈ queued.matches' →
      Past (kinds ++ [dispatch, completion]) (.terminated time)

variable {kinds more : List EventKind} {phase : Phase}

theorem mem_char (kind : EventKind) : [kind] ∈ (char kind).matches' := rfl

theorem pair_mem (kind next : EventKind) : [kind, next] ∈ (char kind * char next).matches' :=
  Language.append_mem_mul (mem_char kind) (mem_char next)

theorem arrival_mem : [arrival] ∈ queued.matches' :=
  Language.append_mem_mul (mem_char arrival) (Language.nil_mem_kstar turn.matches')

theorem back_mem (hkind : kind = demotion ∨ kind = requeue) :
    [dispatch, kind] ∈ turn.matches' := by
  refine Language.append_mem_mul (mem_char dispatch) (.inl ?_)
  rcases hkind with rfl | rfl
  · exact .inl (mem_char demotion)
  · exact .inr (mem_char requeue)

theorem ioReturn_mem : [dispatch, ioYield, ioReturn] ∈ turn.matches' :=
  Language.append_mem_mul (mem_char dispatch) (.inr (pair_mem ioYield ioReturn))

/-- Whoever is back in a queue may have another turn. -/
theorem append_turn_mem (h : kinds ∈ queued.matches') (hturn : more ∈ turn.matches') :
    kinds ++ more ∈ queued.matches' := by
  obtain ⟨first, hfirst, turns, hturns, rfl⟩ := Language.mem_mul.mp h
  have hle : turn.matches'∗ * turn.matches' ≤ turn.matches'∗ := kstar_mul_le_kstar
  have hmore : turns ++ more ∈ turn.matches'∗ := hle (Language.append_mem_mul hturns hturn)
  rw [List.append_assoc]
  exact Language.append_mem_mul hfirst hmore

theorem completion_mem (h : kinds ∈ queued.matches') :
    kinds ++ [dispatch, completion] ∈ lifeCycle.matches' :=
  Language.append_mem_mul h (pair_mem dispatch completion)

/-- In no phase has a process lost the way to its completion. -/
theorem Past.beginsLife (h : Past kinds phase) : BeginsLife kinds := by
  cases h with
  | new => exact ⟨[arrival, dispatch, completion], completion_mem arrival_mem⟩
  | ready h => exact ⟨[dispatch, completion], completion_mem h⟩
  | running h =>
    refine ⟨[completion], ?_⟩
    rw [List.append_assoc]
    exact completion_mem h
  | waiting h =>
    refine ⟨[ioReturn, dispatch, completion], ?_⟩
    have hback := append_turn_mem h ioReturn_mem
    simpa using completion_mem hback
  | terminated h =>
    refine ⟨[], ?_⟩
    rw [List.append_nil]
    exact completion_mem h

end

-- ---------------------------------------------------------------------------
-- Lives
-- ---------------------------------------------------------------------------

/-- An entry about a process, between the phases before and after it. -/
inductive Event (config : Config) (spec : Spec) (e : Entry) : Phase → Phase → Prop
  | arrival : e.kind = .arrival → spec.arrival ≤ e.time → Event config spec e .new .ready
  | dispatch : e.kind = .dispatch → Event config spec e .ready .running
  | back : e.kind = .demotion ∨ e.kind = .requeue → Event config spec e .running .ready
  | ioYield : e.kind = .ioYield →
      Event config spec e .running (.waiting (e.time + config.ioDuration))
  | ioReturn : e.kind = .ioReturn → readyAt ≤ e.time →
      Event config spec e (.waiting readyAt) .ready
  | completion : e.kind = .completion → Event config spec e .running (.terminated e.time)

/-- The entries about a process until it stands in a phase. -/
inductive Life (config : Config) (spec : Spec) : List Entry → Phase → Prop
  | born : Life config spec [] .new
  | event : Life config spec entries before → Event config spec e before after →
      Life config spec (entries ++ [e]) after

/-- Where the last entry about a process leaves it. No entry of the last three kinds is about
a process. -/
def phaseAfter (config : Config) : Option Entry → Phase
  | none => .new
  | some e =>
    match e.kind with
    | .arrival | .ioReturn | .demotion | .requeue => .ready
    | .dispatch => .running
    | .ioYield => .waiting (e.time + config.ioDuration)
    | .completion => .terminated e.time
    | .boost | .idle | .error => .new

section

variable {config : Config} {spec : Spec} {e : Entry} {entries former : List Entry}
  {phase before after : Phase}

theorem Past.event (h : Past kinds before) (hevent : Event config spec e before after) :
    Past (kinds ++ [e.kind]) after := by
  cases hevent with
  | arrival hkind _ =>
    cases h with
    | new => exact hkind ▸ .ready arrival_mem
  | dispatch hkind =>
    cases h with
    | ready h => exact hkind ▸ .running h
  | back hkind =>
    cases h with
    | running h =>
      rw [List.append_assoc]
      exact .ready (append_turn_mem h (back_mem hkind))
  | ioYield hkind =>
    cases h with
    | running h =>
      rw [hkind, List.append_assoc]
      exact .waiting h
  | ioReturn hkind _ =>
    cases h with
    | waiting h =>
      rw [hkind, List.append_assoc]
      exact .ready (append_turn_mem h ioReturn_mem)
  | completion hkind =>
    cases h with
    | running h =>
      rw [hkind, List.append_assoc]
      exact .terminated h

theorem Event.phaseAfter_eq (h : Event config spec e before after) :
    phaseAfter config (some e) = after := by
  cases h with
  | back hkind => rcases hkind with hkind | hkind <;> simp [phaseAfter, hkind]
  | _ => simp [phaseAfter, *]

namespace Life

theorem past (h : Life config spec entries phase) : Past (entries.map Entry.kind) phase := by
  induction h with
  | born => exact .new
  | event _ hevent ih =>
    rw [List.map_append]
    exact ih.event hevent

theorem phase_eq (h : Life config spec entries phase) :
    phase = phaseAfter config entries.getLast? := by
  cases h with
  | born => rfl
  | event _ hevent => rw [List.getLast?_concat, hevent.phaseAfter_eq]

/-- A process waits for I/O from the entry on that says so. -/
theorem getLast_of_waiting (h : Life config spec entries (.waiting readyAt)) :
    ∃ e, entries.getLast? = some e ∧ e.kind = .ioYield ∧
      e.time + config.ioDuration = readyAt := by
  generalize hphase : Phase.waiting readyAt = phase at h
  cases h with
  | born => cases hphase
  | @event _ _ e _ _ hevent =>
    cases hevent with
    | ioYield hkind =>
      rw [Phase.waiting.injEq] at hphase
      exact ⟨e, List.getLast?_concat, hkind, hphase.symm⟩
    | _ => cases hphase

/-- Every entry continues the life before it. -/
theorem event_of_split (h : Life config spec entries phase) :
    ∀ former e rest, entries = former ++ e :: rest →
      ∃ before after, Life config spec former before ∧ Event config spec e before after := by
  induction h with
  | born => simp
  | event hlife hevent ih => exact forall_split_concat ih ⟨_, _, hlife, hevent⟩

theorem arrival_le (h : Life config spec entries phase) (he : e ∈ entries)
    (hkind : e.kind = .arrival) : spec.arrival ≤ e.time := by
  obtain ⟨former, rest, hsplit⟩ := List.append_of_mem he
  obtain ⟨_, _, -, hevent⟩ := h.event_of_split former e rest hsplit
  cases hevent with
  | arrival _ hle => exact hle
  | back h => rcases h with h | h <;> simp [hkind] at h
  | _ => simp [hkind] at *

/-- A return from I/O is preceded by the yield that it ends, and not early. -/
theorem ioYield_of_ioReturn (h : Life config spec entries phase)
    (hsplit : entries = former ++ e :: rest) (hkind : e.kind = .ioReturn) :
    ∃ yield : Entry, former.getLast? = some yield ∧ yield.kind = .ioYield ∧
      yield.time + config.ioDuration ≤ e.time := by
  obtain ⟨_, _, hlife, hevent⟩ := h.event_of_split former e rest hsplit
  cases hevent with
  | ioReturn _ hle =>
    obtain ⟨yield, hlast, hyield, htime⟩ := hlife.getLast_of_waiting
    exact ⟨yield, hlast, hyield, htime ▸ hle⟩
  | back h => rcases h with h | h <;> simp [hkind] at h
  | _ => simp [hkind] at *

end Life

end

-- ---------------------------------------------------------------------------
-- What a move writes about a process
-- ---------------------------------------------------------------------------

namespace Proc

variable {p : Proc}

theorem pid_admission : (p.admission now).pid = some p.pid := by
  unfold admission; split <;> rfl

theorem pid_settlement : (p.settlement config now o).pid = some p.pid := by
  cases o <;> rfl

theorem event_admission (hdue : p.due? = some time) (hle : time ≤ now) :
    Event config p.spec (p.admission now) p.phase p.admitted.phase := by
  rw [phase_admitted]
  rcases due?_eq_some.mp hdue with ⟨hphase, rfl⟩ | hphase
  · rw [admission, hphase]
    exact .arrival rfl hle
  · rw [admission, hphase]
    exact .ioReturn rfl hle

theorem event_settlement :
    Event config p.spec (p.settlement config now o) .running (p.settled config now o).phase := by
  cases o with
  | completed => exact .completion rfl
  | ioYield => exact .ioYield rfl
  | demoted => exact .back (.inl rfl)
  | requeued => exact .back (.inr rfl)

end Proc

/-- The entries about one process. -/
def Log.about (log : Log) (pid : Int) : List Entry :=
  log.filter ⟨none, none, some pid⟩

theorem Log.about_push {log : Log} : Log.about (log.push e) pid =
    if e.pid = some pid then Log.about log pid ++ [e] else Log.about log pid := by
  simp [Log.about, Log.filter_push, Criteria.accepts, eq_comm (a := some pid)]

theorem Log.about_push_of_eq {log : Log} (h : e.pid = some pid) :
    Log.about (log.push e) pid = Log.about log pid ++ [e] := by
  rw [about_push, if_pos h]

theorem Log.about_push_of_ne {log : Log} (h : e.pid ≠ some pid) :
    Log.about (log.push e) pid = Log.about log pid := by
  rw [about_push, if_neg h]

namespace Scheduler

variable {s t : Scheduler n} {policy : SlicePolicy n}

/-- The entry with which a slice of a duration ends if it starts now. -/
def settlement (s : Scheduler n) (i : Fin n) (d : Int) : Entry :=
  ((s.process i).ran d).settlement s.config (s.slice i d).stop (s.slice i d).outcome

/-- What a move does to one process, and what it writes about it. -/
inductive Told (s t : Scheduler n) (i : Fin n) : Prop
  | nothing : t.process i = s.process i ∨ t.process i = (s.process i).raise →
      t.log.about (s.bank.pid i) = s.log.about (s.bank.pid i) → Told s t i
  | enter : (s.process i).due? = some time → time ≤ s.clock →
      t.process i = (s.process i).admitted →
      t.log.about (s.bank.pid i) =
        s.log.about (s.bank.pid i) ++ [(s.process i).admission s.clock] → Told s t i
  | dispatch : (s.process i).phase = .ready →
      t.process i = (s.process i).dispatched s.clock →
      t.log.about (s.bank.pid i) = s.log.about (s.bank.pid i) ++
        [.dispatch s.clock ((s.process i).dispatched s.clock) quantum] → Told s t i
  | execute : (s.process i).phase = .running → 0 ≤ d → d ≤ (s.process i).remaining →
      t.clock = s.clock + d → t.process i = s.processAfter i d →
      t.log.about (s.bank.pid i) = s.log.about (s.bank.pid i) ++ [s.settlement i d] → Told s t i

theorem told_of_move (hs : s.Sound) (h : Move policy s t) (i : Fin n) : Told s t i := by
  have hother {j : Fin n} {e : Entry} (hpid : e.pid = some (s.bank.pid j)) (hi : ¬ i = j) :
      Log.about (s.log.push e) (s.bank.pid i) = s.log.about (s.bank.pid i) := by
    refine Log.about_push_of_ne ?_
    rw [hpid, ne_eq, Option.some.injEq]
    exact fun heq => hi (hs.bank.distinct heq.symm)
  cases h with
  | @enter _ _ j hdue hle =>
    by_cases hi : i = j
    · subst i
      exact .enter hdue hle (by rw [process_admitted, if_pos rfl])
        (Log.about_push_of_eq Proc.pid_admission)
    · exact .nothing (.inl (by rw [process_admitted, if_neg hi])) (hother Proc.pid_admission hi)
  | boost _ =>
    refine .nothing ?_ (Log.about_push_of_ne nofun)
    rw [process_boosted]
    split
    · exact .inr rfl
    · exact .inl rfl
  | @dispatch j rest _ hdequeue =>
    by_cases hi : i = j
    · subst i
      exact .dispatch (hs.head_ready hdequeue) (by rw [process_dispatched hdequeue, if_pos rfl])
        (Log.about_push_of_eq rfl)
    · exact .nothing (.inl (by rw [process_dispatched hdequeue, if_neg hi])) (hother rfl hi)
  | @execute _ j d hrunning _ h0 hd =>
    by_cases hi : i = j
    · subst i
      exact .execute hrunning h0 hd rfl (by rw [process_ran, if_pos rfl])
        (Log.about_push_of_eq Proc.pid_settlement)
    · exact .nothing (.inl (by rw [process_ran, if_neg hi])) (hother Proc.pid_settlement hi)
  | idle _ => exact .nothing (.inl rfl) (Log.about_push_of_ne nofun)
  | stall _ => exact .nothing (.inl rfl) (Log.about_push_of_ne nofun)

/-- What a move may write about a process. -/
inductive Written (s t : Scheduler n) (i : Fin n) : Prop
  | nothing : (t.process i).phase = (s.process i).phase →
      t.log.about (s.bank.pid i) = s.log.about (s.bank.pid i) → Written s t i
  | event : Event s.config (s.process i).spec e (s.process i).phase (t.process i).phase →
      t.log.about (s.bank.pid i) = s.log.about (s.bank.pid i) ++ [e] → Written s t i

theorem written_of_move (hs : s.Sound) (h : Move policy s t) (i : Fin n) : Written s t i := by
  cases told_of_move hs h i with
  | nothing hprocess hlog =>
    refine .nothing ?_ hlog
    rcases hprocess with hprocess | hprocess <;> rw [hprocess]
    rfl
  | enter hdue hle hprocess hlog => exact .event (hprocess ▸ Proc.event_admission hdue hle) hlog
  | dispatch hready hprocess hlog =>
    refine .event ?_ hlog
    rw [hprocess, hready]
    exact .dispatch rfl
  | @execute d hrunning _ _ _ hprocess hlog =>
    refine .event ?_ hlog
    rw [hprocess, hrunning]
    exact Proc.event_settlement (p := (s.process i).ran d)

theorem named_of_move (h : Move policy s t) :
    ∃ e, t.log = s.log.push e ∧ (e.pid = none ∨ ∃ i, e.pid = some (s.bank.pid i)) := by
  cases h with
  | @enter _ _ j _ _ => exact ⟨_, rfl, .inr ⟨j, Proc.pid_admission⟩⟩
  | @dispatch j _ _ _ => exact ⟨_, rfl, .inr ⟨j, rfl⟩⟩
  | @execute _ j _ _ _ _ _ => exact ⟨_, rfl, .inr ⟨j, Proc.pid_settlement⟩⟩
  | _ => exact ⟨_, rfl, .inl rfl⟩

/-- The log tells the life of a process. -/
def LifeTold (s : Scheduler n) (i : Fin n) : Prop :=
  Life s.config (s.process i).spec (s.log.about (s.bank.pid i)) (s.process i).phase

namespace LifeTold

theorem of_move (hs : s.Sound) (h : s.LifeTold i) (hmove : Move policy s t) : t.LifeTold i := by
  unfold LifeTold at h ⊢
  rw [hmove.config_eq, hmove.spec_eq, hmove.pid_eq]
  cases written_of_move hs hmove i with
  | nothing hphase hlog =>
    rw [hphase, hlog]
    exact h
  | event hevent hlog =>
    rw [hlog]
    exact h.event hevent

/-- A move that is cut short happens to a process that the log cannot quote. -/
theorem of_cut (hs : s.Sound) (h : s.LifeTold i) (hi : (s.process i).spec.Quotable s.config)
    (hcut : Cut policy s t) : t.LifeTold i := by
  have hprocess := process_of_cut hs hcut hi
  obtain ⟨u, hmove, rfl⟩ := hcut.exists_move
  have hconfig : (u.unrecorded s).config = s.config := hmove.config_eq
  have hpid : (u.unrecorded s).bank.pid i = s.bank.pid i := hmove.pid_eq i
  rw [LifeTold, hconfig, hprocess, hpid]
  exact h

end LifeTold

/-- The log tells the life of every process. -/
def Chronicled (s : Scheduler n) : Prop := ∀ i, s.LifeTold i

theorem Chronicled.of_moves (hs : s.Sound) (h : s.Chronicled)
    (hmoves : ReflTransGen (Move policy) s t) : t.Chronicled := by
  induction hmoves with
  | refl => exact h
  | tail hbefore hmove ih => exact fun i => (ih i).of_move (sound_of_moves hbefore hs) hmove

/-- The log tells nothing of those that there are not. -/
def Named (s : Scheduler n) : Prop := ∀ pid, (∀ i, s.bank.pid i ≠ pid) → s.log.about pid = []

theorem Named.of_move (h : s.Named) (hmove : Move policy s t) : t.Named := by
  intro pid hpid
  obtain ⟨e, hlog, he⟩ := named_of_move hmove
  have hpid' (i : Fin n) : s.bank.pid i ≠ pid := hmove.pid_eq i ▸ hpid i
  rw [hlog, Log.about_push, if_neg, h pid hpid']
  rcases he with hnone | ⟨i, hi⟩
  · simp [hnone]
  · simpa [hi] using hpid' i

theorem Named.of_cut (h : s.Named) (hcut : Cut policy s t) : t.Named := by
  obtain ⟨u, hmove, rfl⟩ := hcut.exists_move
  exact fun pid hpid => h pid fun i => hmove.pid_eq i ▸ hpid i

end Scheduler

-- ---------------------------------------------------------------------------
-- The life cycle in every log
-- ---------------------------------------------------------------------------

namespace Workload

variable {w : Workload} {config : Config} {policy : SlicePolicy w.size} {i : Fin w.size}

theorem lifeTold_start (i : Fin w.size) : (w.start config).LifeTold i := by
  rw [Scheduler.LifeTold, process_start]
  exact .born

theorem lifeTold_drive (hi : (w.spec i).Quotable config) (calls : List (Scheduler.Call w.size)) :
    ((w.start config).drive policy calls).LifeTold i :=
  drive_induction_of_quotable (P := (·.LifeTold i)) hi (lifeTold_start i)
    (fun _ _ hs h hmove => h.of_move hs hmove) (fun _ _ hs h hi hcut => h.of_cut hs hi hcut) calls

theorem chronicled_drive (hw : w.Legible config) (calls : List (Scheduler.Call w.size)) :
    ((w.start config).drive policy calls).Chronicled :=
  fun i => lifeTold_drive (hw.quotable i) calls

theorem named_drive (calls : List (Scheduler.Call w.size)) :
    ((w.start config).drive policy calls).Named :=
  drive_induction (fun _ _ => rfl) (fun _ _ _ h hmove => h.of_move hmove)
    (fun _ _ _ h hcut => h.of_cut hcut) calls

theorem chronicled_afterSteps (hpolicy : policy.Steady)
    (hk : ¬ (w.start config).Stopped policy k) :
    ((w.start config).afterSteps policy k).Chronicled :=
  rounds_induction hpolicy lifeTold_start
    (fun _ _ hs h hround => h.of_moves hs.sound hround.moves) hk

/-- However a workload is driven, the entries about each process that the log can quote tell the
beginning of a life. The last of them says which phase it is in. It did not arrive early, and each
return from I/O follows right on the yield that it ends and is not early either. There are no
entries about others. -/
theorem events_follow_life_cycle (w : Workload) (config : Config) (policy : SlicePolicy w.size)
    (calls : List (Scheduler.Call w.size)) :
    let s := (w.start config).drive policy calls
    (∀ pid, (∀ i, (w.spec i).pid ≠ pid) → s.log.about pid = []) ∧
    ∀ i, (w.spec i).Quotable config →
      let entries := s.log.about (w.spec i).pid
      BeginsLife (entries.map Entry.kind) ∧
      (s.process i).phase = phaseAfter config entries.getLast? ∧
      (∀ e ∈ entries, e.kind = .arrival → (w.spec i).arrival ≤ e.time) ∧
      ∀ before (e : Entry) after, entries = before ++ e :: after → e.kind = .ioReturn →
        ∃ yield : Entry, before.getLast? = some yield ∧ yield.kind = .ioYield ∧
          yield.time + config.ioDuration ≤ e.time := by
  intro s
  have hconfig : s.config = config := config_drive calls
  have hspec (i) : (s.process i).spec = w.spec i := spec_drive calls i
  have hpid (i) : s.bank.pid i = (w.spec i).pid := congrArg Spec.pid (hspec i)
  refine ⟨fun pid hothers => named_drive calls pid fun i => hpid i ▸ hothers i, fun i hi => ?_⟩
  have hlife : s.LifeTold i := lifeTold_drive hi calls
  rw [Scheduler.LifeTold, hconfig, hspec, hpid] at hlife
  exact ⟨hlife.past.beginsLife, hlife.phase_eq, fun _ => hlife.arrival_le,
    fun _ _ _ => hlife.ioYield_of_ioReturn⟩

/-- Two jobs are dispatched at once before the run. -/
theorem events_follow_life_cycle_reference :
    let s := (reference.start .standard).drive (.capped 3) [.arrivals, .dispatch, .dispatch, .run]
    (∀ i, (reference.spec i).Quotable .standard) ∧
      ∀ i, BeginsLife ((s.log.about (reference.spec i).pid).map Entry.kind) := by
  intro s
  have hquotable := recordable_reference.toLegible.quotable
  exact ⟨hquotable, fun i =>
    ((events_follow_life_cycle reference .standard _ _).2 i (hquotable i)).1⟩

/-- A job whose pid is too long to be written joins a queue, but no entry tells of that. -/
theorem long_pid_arrives_untold :
    let s := (longPid.start .standard).drive .standard [.arrivals]
    (s.process ⟨0, by decide⟩).phase = .ready ∧ s.log = #[] := by
  decide +kernel

end Workload

end FeedbackQueue
