import FeedbackQueue.Proofs.Scheduler.Boosting
import FeedbackQueue.Proofs.Scheduler.Consistency
import FeedbackQueue.Proofs.Scheduler.LifeCycle
import FeedbackQueue.Proofs.Scheduler.Priority

/-!
# The log, the timeline and the counters

A run is recorded three times: in the log, in the timeline and in the counters. The log and
the timeline agree after every call, as a slice whose end cannot be recorded is not listed
either. The counters and the processes are written before the log, so they agree with it where
nothing is too long to be written: as many processes are in a phase as entries have taken there
and not away from there.
-/

namespace FeedbackQueue

open Finset
open Relation (ReflTransGen)

/-- The kind of entry that tells how a slice ended. -/
def Outcome.kind : Outcome → EventKind
  | .completed => .completion
  | .ioYield => .ioYield
  | .demoted => .demotion
  | .requeued => .requeue

def EventKind.endsSlice : EventKind → Bool
  | .completion | .ioYield | .demotion | .requeue => true
  | _ => false

/-- The event concerns the scheduler as a whole. -/
def EventKind.isGlobal : EventKind → Bool
  | .boost | .idle | .error => true
  | _ => false

namespace Entry

/-- The entry tells that the process of a slice got the CPU for it. -/
structure Opens (e : Entry) (b : Slice) : Prop where
  kind : e.kind = .dispatch
  pid : e.pid = some b.pid
  time : e.time = b.start

/-- The entry tells how a slice ended. -/
structure Closes (e : Entry) (b : Slice) : Prop where
  kind : e.kind = b.outcome.kind
  pid : e.pid = some b.pid
  time : e.time = b.stop

end Entry

-- ---------------------------------------------------------------------------
-- Events and phases
-- ---------------------------------------------------------------------------

/-- Events of some kinds take a process into some phases, and events of other kinds take it
out of them again. -/
structure Tally (inside : Phase → Bool) (enters leaves : EventKind → Bool) : Prop where
  new : inside .new = false
  event : Event config spec e before after →
    (inside before).toNat + (enters e.kind).toNat = (inside after).toNat + (leaves e.kind).toNat
  enters_own : enters kind → kind.isGlobal = false
  leaves_own : leaves kind → kind.isGlobal = false

namespace Tally

variable {inside : Phase → Bool} {enters leaves : EventKind → Bool}

theorem life (h : Tally inside enters leaves) (hlife : Life config spec entries phase) :
    entries.countP (enters ·.kind) =
      entries.countP (leaves ·.kind) + (inside phase).toNat := by
  induction hlife with
  | born => simp [h.new]
  | @event entries before e after _ hevent ih =>
    have hstep := h.event hevent
    have hcount (f : EventKind → Bool) : (entries ++ [e]).countP (f ·.kind) =
        entries.countP (f ·.kind) + (f e.kind).toNat := by
      cases hf : f e.kind <;> simp [hf]
    rw [hcount, hcount]
    omega

theorem arrived : Tally (· ≠ .new) (· = .arrival) (fun _ => false) where
  new := rfl
  event h := by
    cases h with
    | back h => rcases h with h | h <;> simp [h]
    | _ => simp [*]
  enters_own h := by simp [of_decide_eq_true h, EventKind.isGlobal]
  leaves_own := nofun

theorem running : Tally (· = .running) (· = .dispatch) EventKind.endsSlice where
  new := rfl
  event h := by
    cases h with
    | back h => rcases h with h | h <;> simp [h, EventKind.endsSlice]
    | _ => simp [*, EventKind.endsSlice]
  enters_own h := by simp [of_decide_eq_true h, EventKind.isGlobal]
  leaves_own {kind} h := by cases kind <;> first | rfl | cases h

theorem waiting : Tally (· matches .waiting _) (· = .ioYield) (· = .ioReturn) where
  new := rfl
  event h := by
    cases h with
    | back h => rcases h with h | h <;> simp [h]
    | _ => simp [*]
  enters_own h := by simp [of_decide_eq_true h, EventKind.isGlobal]
  leaves_own h := by simp [of_decide_eq_true h, EventKind.isGlobal]

theorem terminated : Tally (· matches .terminated _) (· = .completion) (fun _ => false) where
  new := rfl
  event h := by
    cases h with
    | back h => rcases h with h | h <;> simp [h]
    | _ => simp [*]
  enters_own h := by simp [of_decide_eq_true h, EventKind.isGlobal]
  leaves_own := nofun

end Tally

-- ---------------------------------------------------------------------------
-- Entries of all processes
-- ---------------------------------------------------------------------------

theorem Log.about_eq {log : Log} : log.about pid = log.toList.filter (·.pid = some pid) := by
  refine List.filter_congr fun e _ => ?_
  simp [Criteria.accepts, Bool.beq_eq_decide_eq, eq_comm]

theorem Log.length_ofKind {log : Log} :
    (log.ofKind kind).length = log.toList.countP (·.kind = kind) := by
  rw [Log.ofKind_eq, List.countP_eq_length_filter]

/-- Entries that are about one of the processes may be counted process by process. -/
theorem sum_countP_pid {pid : Fin n → Int} (hpid : Function.Injective pid) {q : Entry → Bool}
    {entries : List Entry} (hown : ∀ e ∈ entries, q e → ∃ i, e.pid = some (pid i)) :
    ∑ i, (entries.filter (·.pid = some (pid i))).countP q = entries.countP q := by
  simp only [List.countP_filter]
  induction entries with
  | nil => simp
  | cons e rest ih =>
    have hrest := ih fun e he => hown e (by simp [he])
    simp only [List.countP_cons, Finset.sum_add_distrib, hrest]
    congr 1
    cases hq : q e with
    | false => simp
    | true =>
      obtain ⟨i, hi⟩ := hown e (by simp) hq
      rw [Fintype.sum_eq_single i]
      · simp [hi]
      · intro j hj
        simp [hi, hpid.eq_iff, hj.symm]

namespace Proc

variable {p : Proc}

theorem time_admission : (p.admission now).time = now := by
  unfold admission; split <;> rfl

theorem time_settlement : (p.settlement config now o).time = now := by
  cases o <;> rfl

theorem kind_settlement : (p.settlement config now o).kind = o.kind := by
  cases o <;> rfl

end Proc

theorem Outcome.endsSlice_kind (o : Outcome) : o.kind.endsSlice := by
  cases o <;> rfl

namespace Scheduler

variable {s t : Scheduler n} {policy : SlicePolicy n}

theorem closes_settlement : (s.settlement i d).Closes (s.slice i d) :=
  ⟨Proc.kind_settlement, Proc.pid_settlement, Proc.time_settlement⟩

/-- What the log says, as one list, by itself and about the timeline. -/
structure Logged (s : Scheduler n) : Prop where
  ordered : s.log.toList.Pairwise fun e e' => e.time ≤ e'.time
  within : ∀ e ∈ s.log.toList, e.time ≤ s.clock
  own : ∀ e ∈ s.log.toList, e.kind.isGlobal = false → ∃ i, e.pid = some (s.bank.pid i)
  closes : List.Forall₂ Entry.Closes (s.log.toList.filter (·.kind.endsSlice)) s.timeline.toList

namespace Logged

/-- A move records one entry, and a slice if the entry ends one. -/
theorem push (h : s.Logged) (hlog : t.log = s.log.push e) (hpid : t.bank.pid = s.bank.pid)
    (hstart : s.clock ≤ e.time) (hstop : e.time ≤ t.clock)
    (hown : e.kind.isGlobal = false → ∃ i, e.pid = some (s.bank.pid i))
    (htimeline : t.timeline.toList = s.timeline.toList ++ new)
    (hcloses : List.Forall₂ Entry.Closes ([e].filter (·.kind.endsSlice)) new) : t.Logged := by
  have hentries : t.log.toList = s.log.toList ++ [e] := by rw [hlog, Array.toList_push]
  constructor
  · rw [hentries, List.pairwise_append]
    refine ⟨h.ordered, List.pairwise_singleton _ _, fun a ha b hb => ?_⟩
    obtain rfl := List.mem_singleton.mp hb
    exact Int.le_trans (h.within a ha) hstart
  · intro a ha
    rw [hentries, List.mem_append, List.mem_singleton] at ha
    rcases ha with ha | rfl
    · exact Int.le_trans (h.within a ha) (Int.le_trans hstart hstop)
    · exact hstop
  · intro a ha
    rw [hentries, List.mem_append, List.mem_singleton] at ha
    rw [hpid]
    rcases ha with ha | rfl
    · exact h.own a ha
    · exact hown
  · rw [hentries, List.filter_append, htimeline]
    exact List.rel_append h.closes hcloses

/-- Nothing but a slice has an end to be recorded. -/
theorem push_other (h : s.Logged) (hlog : t.log = s.log.push e) (hpid : t.bank.pid = s.bank.pid)
    (htime : e.time = s.clock) (hclock : s.clock ≤ t.clock) (hkind : e.kind.endsSlice = false)
    (hown : e.kind.isGlobal = false → ∃ i, e.pid = some (s.bank.pid i))
    (htimeline : t.timeline = s.timeline) : t.Logged := by
  have hsame : t.timeline.toList = s.timeline.toList ++ [] := by rw [htimeline, List.append_nil]
  refine h.push hlog hpid (Int.le_of_eq htime.symm) (htime ▸ hclock) hown hsame ?_
  simp [hkind]

theorem of_move (h : s.Logged) (hmove : Move policy s t) : t.Logged := by
  have hpid : t.bank.pid = s.bank.pid := funext hmove.pid_eq
  cases hmove with
  | @enter _ _ i _ _ =>
    have hown : ∃ j, ((s.process i).admission s.clock).pid = some (s.bank.pid j) :=
      ⟨i, Proc.pid_admission⟩
    rcases kind_admission (s.process i) s.clock with hkind | hkind <;>
      exact h.push_other rfl hpid Proc.time_admission (Int.le_refl _) (by rw [hkind]; rfl)
        (fun _ => hown) rfl
  | boost _ => exact h.push_other rfl hpid rfl (Int.le_refl _) rfl nofun rfl
  | @dispatch i _ _ _ =>
    exact h.push_other rfl hpid rfl (Int.le_refl _) rfl (fun _ => ⟨i, rfl⟩) rfl
  | @execute _ i d _ _ h0 _ =>
    have hcloses : (s.settlement i d).Closes (s.slice i d) := closes_settlement
    have hkind : (s.settlement i d).kind.endsSlice := by
      rw [hcloses.kind]
      exact Outcome.endsSlice_kind _
    have hslice : (s.ran i d).timeline.toList = s.timeline.toList ++ [s.slice i d] :=
      Array.toList_push
    refine h.push rfl hpid ?_ (Int.le_of_eq hcloses.time) (fun _ => ⟨i, hcloses.pid⟩) hslice ?_
    · have htime : (s.settlement i d).time = s.clock + d := hcloses.time
      exact Int.le_trans (Int.le_add_of_nonneg_right h0) (Int.le_of_eq htime.symm)
    · show List.Forall₂ _ ([s.settlement i d].filter _) _
      simp [hkind, hcloses]
  | idle _ => exact h.push_other rfl hpid rfl (Int.le_max_right _ _) rfl nofun rfl
  | stall _ => exact h.push_other rfl hpid rfl (Int.le_refl _) rfl nofun rfl

/-- What is not recorded is missing in both. -/
theorem of_cut (h : s.Logged) (hcut : Cut policy s t) : t.Logged := by
  have hadvance : Advance policy s t := .cut hcut
  have hpid : t.bank.pid = s.bank.pid := funext hadvance.pid_eq
  have hclock := hadvance.clock_le
  have hlog := log_of_cut hcut
  have htimeline := timeline_of_cut hcut
  constructor
  · rw [hlog]
    exact h.ordered
  · rw [hlog]
    exact fun e he => Int.le_trans (h.within e he) hclock
  · rw [hlog, hpid]
    exact h.own
  · rw [hlog, htimeline]
    exact h.closes

/-- Every end that is recorded is the end of a slice. -/
theorem exists_slice (h : s.Logged) (he : e ∈ s.log.toList) (hkind : e.kind.endsSlice) :
    ∃ b ∈ s.timeline.toList, e.Closes b := by
  obtain ⟨hlength, hcloses⟩ := List.forall₂_iff_get.mp h.closes
  have hmem : e ∈ s.log.toList.filter (·.kind.endsSlice) := List.mem_filter.mpr ⟨he, hkind⟩
  obtain ⟨k, hk, rfl⟩ := List.mem_iff_getElem.mp hmem
  exact ⟨_, List.getElem_mem (hlength ▸ hk), hcloses k hk (hlength ▸ hk)⟩

end Logged

/-- Every dispatch that was counted has its entry. -/
def Entered (s : Scheduler n) : Prop := s.switches = s.log.toList.countP (·.kind = .dispatch)

theorem Entered.push (h : s.Entered) (hlog : t.log = s.log.push e)
    (hswitches : t.switches = s.switches + if e.kind = .dispatch then 1 else 0) : t.Entered := by
  rw [Entered, hlog, Array.toList_push, List.countP_append, List.countP_singleton, hswitches, h]
  simp

theorem Entered.of_move (h : s.Entered) (hmove : Move policy s t) : t.Entered := by
  cases hmove with
  | @enter _ _ i _ _ =>
    refine h.push rfl ?_
    rw [if_neg (kind_admission_ne_dispatch _ _)]
    rfl
  | boost _ => exact h.push rfl rfl
  | dispatch _ => exact h.push rfl rfl
  | execute _ _ _ _ =>
    refine h.push rfl ?_
    rw [if_neg (kind_settlement_ne_dispatch _)]
    rfl
  | idle _ => exact h.push rfl rfl
  | stall _ => exact h.push rfl rfl

theorem Entered.of_moves (h : s.Entered) (hmoves : ReflTransGen (Move policy) s t) :
    t.Entered := by
  induction hmoves with
  | refl => exact h
  | tail _ hmove ih => exact ih.of_move hmove

theorem card_filter_process (q : Proc → Bool) :
    #{i | q (s.process i)} = s.bank.processes.countP q := by
  rw [← Vector.countP_toList, toList_processes, List.countP_map, List.countP_eq_length_filter,
    Finset.card_def, Finset.filter_val, Fin.univ_def]
  simp [Function.comp_def]

-- ---------------------------------------------------------------------------
-- Counting processes
-- ---------------------------------------------------------------------------

/-- Of the entries of some kinds, those that let a process in are as many as those that let
one out again and the processes that are still there. -/
theorem countP_of_tally (hs : s.Sound) (hlogged : s.Logged) (h : s.Chronicled)
    (htally : Tally inside enters leaves) :
    s.log.toList.countP (enters ·.kind) =
      s.log.toList.countP (leaves ·.kind) + #{i | inside (s.process i).phase} := by
  have hsum (q : EventKind → Bool) (hq : ∀ kind, q kind → kind.isGlobal = false) :
      ∑ i, (s.log.about (s.bank.pid i)).countP (q ·.kind) = s.log.toList.countP (q ·.kind) := by
    simp only [Log.about_eq]
    exact sum_countP_pid hs.bank.distinct fun e he hkind => hlogged.own e he (hq _ hkind)
  rw [← hsum enters fun _ => htally.enters_own, ← hsum leaves fun _ => htally.leaves_own,
    Finset.card_filter, ← Finset.sum_add_distrib]
  refine Finset.sum_congr rfl fun i _ => ?_
  rw [htally.life (h i)]
  cases inside (s.process i).phase <;> rfl

/-- Every dispatch so far led to a slice or to a process that still holds the CPU. -/
theorem switches_eq (hs : s.Sound) (hlogged : s.Logged) (hentered : s.Entered)
    (h : s.Chronicled) :
    s.switches = s.timeline.size + #{i | (s.process i).phase = .running} := by
  have hcount := countP_of_tally hs hlogged h .running
  have hends := hlogged.closes.length_eq
  rw [← List.countP_eq_length_filter, Array.length_toList] at hends
  rw [Entered] at hentered
  simpa [hentered, hends] using hcount

-- ---------------------------------------------------------------------------
-- The entries of a round
-- ---------------------------------------------------------------------------

@[simp] theorem switches_prepared : s.prepared.switches = s.switches := by
  have harrived : s.arrived.switches = s.switches := by rw [arrived_eq]
  unfold prepared
  split <;> exact harrived

/-- Between two steps nobody holds the CPU, so as many dispatches as slices are recorded. -/
theorem AtRest.dispatches_prepared (hs : s.AtRest policy) (hlogged : s.Logged)
    (hentered : s.Entered) (h : s.Chronicled) :
    s.prepared.log.toList.countP (·.kind = .dispatch) = s.timeline.toList.length := by
  have hfree : #{i | (s.process i).phase = .running} = 0 := by
    simp [hs.free]
  have hprepared : s.prepared.Entered := hentered.of_moves (moves_prepared .standard)
  rw [← hprepared, switches_prepared, switches_eq hs.sound hlogged hentered h, hfree]
  simp

/-- A slice that follows right on the dispatch. -/
theorem opens_slice (h : s.bank.dequeue = some (i, rest)) :
    (Entry.dispatch s.clock ((s.process i).dispatched s.clock) quantum).Opens
      ((s.dispatched i rest).slice i d) := by
  have hpid : ((s.dispatched i rest).process i).pid = (s.process i).pid :=
    apply_dispatched Proc.pid h fun _ _ => rfl
  exact ⟨rfl, congrArg some hpid.symm, rfl⟩

/-- A slice of a round is recorded by two entries in a row. -/
theorem Round.log_eq (h : Round policy s t)
    (hconcat : t.timeline.toList = s.timeline.toList ++ [b]) :
    ∃ e e', t.log.toList = s.prepared.log.toList ++ [e, e'] ∧ e.Opens b ∧ e'.Closes b := by
  cases h with
  | idle _ _ =>
    rw [show (Scheduler.idled _ _).timeline = _ from timeline_prepared] at hconcat
    simp at hconcat
  | @slice i rest d hdequeue _ _ _ =>
    rw [timeline_ran_prepared, List.append_cancel_left_eq, List.singleton_inj] at hconcat
    subst hconcat
    refine ⟨.dispatch s.prepared.clock ((s.prepared.process i).dispatched s.prepared.clock)
      (s.prepared.config.quantum (s.prepared.process i).level),
      (s.prepared.dispatched i rest).settlement i d, ?_, opens_slice hdequeue, closes_settlement⟩
    simp [ran, dispatched, settlement, Proc.dispatched]

end Scheduler

namespace Workload

open Scheduler

variable {w : Workload} {config : Config} {policy : SlicePolicy w.size}

theorem logged_drive (calls : List (Scheduler.Call w.size)) :
    ((w.start config).drive policy calls).Logged := by
  refine drive_induction ?_ (fun _ _ _ h hmove => h.of_move hmove)
    (fun _ _ _ h hcut => h.of_cut hcut) calls
  exact ⟨.nil, nofun, nofun, .nil⟩

theorem logged_afterSteps (k : Nat) : ((w.start config).afterSteps policy k).Logged := by
  obtain ⟨calls, hcalls⟩ := (w.start config).exists_drive policy k
  exact hcalls ▸ logged_drive calls

theorem entered_drive (hw : w.Legible config) (calls : List (Scheduler.Call w.size)) :
    ((w.start config).drive policy calls).Entered :=
  drive_induction_of_legible hw (P := Scheduler.Entered) rfl (fun _ _ _ h hmove => h.of_move hmove)
    calls

theorem entered_afterSteps (hpolicy : policy.Steady) (hk : ¬ (w.start config).Stopped policy k) :
    ((w.start config).afterSteps policy k).Entered :=
  rounds_induction hpolicy (P := Scheduler.Entered) rfl
    (fun _ _ _ h hround => h.of_moves hround.moves) hk

theorem log_prefix_afterSteps (hpolicy : policy.Steady) (hjk : j ≤ k) :
    ((w.start config).afterSteps policy j).log.toList <+:
      ((w.start config).afterSteps policy k).log.toList := by
  induction hjk with
  | refl => exact List.prefix_refl _
  | @step k _ ih =>
    refine ih.trans ?_
    rcases atRest_start.afterSteps_cases hpolicy k with hsame | ⟨-, ⟨-, hround⟩ | hhalt⟩
    · rw [hsame]
    · exact log_prefix_of_advances (advances_of_moves hround.moves)
    · have hadvances : ReflTransGen (Advance policy) _ _ := hhalt.advances
      exact log_prefix_of_advances hadvances

/-- When a workload is stepped, as many dispatches have been recorded before a slice as there
were slices, and the entry of its own dispatch is followed at once by that of its end. -/
theorem opened_and_closed (config : Config) (hpolicy : policy.Steady) (k : Nat)
    (heq : ((w.start config).afterSteps policy k).timeline.toList = before ++ b :: after) :
    ∃ former e e' latter,
      ((w.start config).afterSteps policy k).log.toList = former ++ e :: e' :: latter ∧
        former.countP (·.kind = .dispatch) = before.length ∧ e.Opens b ∧ e'.Closes b := by
  obtain ⟨j, hj, hnext⟩ := exists_nextRuns hpolicy k before b after heq
  obtain ⟨e, e', hlog, hopens, hcloses⟩ := hnext.round.log_eq (hnext.before_eq ▸ hnext.concat_eq)
  have hearlier := not_stopped_of_le hnext.not_stopped (Nat.le_succ j)
  obtain ⟨latter, hlatter⟩ : ((w.start config).afterSteps policy (j + 1)).log.toList <+:
    ((w.start config).afterSteps policy k).log.toList := log_prefix_afterSteps hpolicy hj
  refine ⟨((w.start config).afterSteps policy j).prepared.log.toList, e, e', latter, ?_, ?_, hopens,
    hcloses⟩
  · rw [← hlatter, hlog]
    simp
  · rw [(hnext.atRest hpolicy).dispatches_prepared (logged_afterSteps j)
      (entered_afterSteps hpolicy hearlier) (chronicled_afterSteps hpolicy hearlier),
      hnext.before_eq]

/-- However a workload is driven, the log is in the order of time and ends by now, its entries
about ends of slices are the timeline, and the boosts are counted. When the workload is stepped,
the entry of each dispatch is followed by the end of the slice. Where the log can quote the jobs
and the queues, the other counters are the numbers of its entries as well: it has an arrival for
everybody who is not new, a dispatch for every slice and for everybody who runs, and a yield for
every return from I/O and for everybody who waits. -/
theorem records_agree (w : Workload) (config : Config) :
    (∀ (policy : SlicePolicy w.size) calls,
      let s := (w.start config).drive policy calls
      (s.log.toList.Pairwise fun e e' => e.time ≤ e'.time) ∧
      (∀ e ∈ s.log.toList, e.time ≤ s.clock) ∧
      List.Forall₂ Entry.Closes (s.log.toList.filter (·.kind.endsSlice)) s.timeline.toList ∧
      s.booster.count = (s.log.ofKind .boost).length ∧
      (w.Legible config →
        s.switches = (s.log.ofKind .dispatch).length ∧
        s.switches = s.timeline.size + #{i | (s.process i).phase = .running} ∧
        s.completed = (s.log.ofKind .completion).length ∧
        (s.log.ofKind .arrival).length = #{i | (s.process i).phase ≠ .new} ∧
        (s.log.ofKind .ioYield).length =
          (s.log.ofKind .ioReturn).length + #{i | (s.process i).phase matches .waiting _})) ∧
    ∀ policy : SlicePolicy w.size, policy.Steady → ∀ k before (b : Slice) after,
      let s := (w.start config).afterSteps policy k
      s.timeline.toList = before ++ b :: after →
        ∃ former e e' latter, s.log.toList = former ++ e :: e' :: latter ∧
          former.countP (·.kind = .dispatch) = before.length ∧ e.Opens b ∧ e'.Closes b := by
  constructor
  · intro policy calls s
    have hs : s.Sound := sound_drive calls
    have hlogged : s.Logged := logged_drive calls
    have hspaced : s.Spaced := spaced_drive calls
    refine ⟨hlogged.ordered, hlogged.within, hlogged.closes, ?_, fun hw => ?_⟩
    · rw [hspaced.count, boostTimes, List.length_map]
    · have hentered : s.Entered := entered_drive hw calls
      have hlives : s.Chronicled := chronicled_drive hw calls
      have harrivals := countP_of_tally hs hlogged hlives .arrived
      have hyields := countP_of_tally hs hlogged hlives .waiting
      have hcompletions := countP_of_tally hs hlogged hlives .terminated
      simp only [Log.length_ofKind]
      refine ⟨hentered, switches_eq hs hlogged hentered hlives, ?_, ?_, hyields⟩
      · rw [hs.consistent.completed, ← card_filter_process]
        simp only [List.countP_false, Function.const_apply, Nat.zero_add] at hcompletions
        exact hcompletions.symm
      · simpa using harrivals
  · intro policy hpolicy k before b after s heq
    exact opened_and_closed config hpolicy k heq

/-- A dispatch that cannot be recorded is counted all the same. -/
theorem long_pid_dispatched_untold :
    let s := (longPid.start .standard).drive .standard [.arrivals, .dispatch]
    s.switches = 1 ∧ s.log.ofKind .dispatch = [] := by
  decide +kernel

end Workload

end FeedbackQueue
