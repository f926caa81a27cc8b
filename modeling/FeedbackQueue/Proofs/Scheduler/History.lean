import FeedbackQueue.Proofs.Scheduler.Rounds

/-!
# What a run leaves behind

The log entries of one kind and the executed slices are the history of a run. This
module says which entries a round adds, and how a property of every slice and the
slices before it is kept when one more slice is recorded.
-/

namespace FeedbackQueue

open Relation (ReflTransGen)

/-- A property of every element and those before it holds of a longer list as soon as
it holds of the new element. -/
theorem forall_split_concat {P : List α → α → Prop} {l : List α}
    (h : ∀ before b after, l = before ++ b :: after → P before b) (hx : P l x) :
    ∀ before b after, l ++ [x] = before ++ b :: after → P before b := by
  intro before b after heq
  rcases List.eq_nil_or_concat after with rfl | ⟨middle, y, rfl⟩
  · obtain ⟨rfl, hxb⟩ := List.append_inj' heq rfl
    obtain rfl := List.singleton_inj.mp hxb
    exact hx
  · have heq' : l ++ [x] = (before ++ b :: middle) ++ [y] := by simpa using heq
    obtain ⟨hl, -⟩ := List.append_inj' heq' rfl
    exact h before b middle hl

/-- Where an element of a list in two parts stands. -/
theorem append_eq_append_cons {l new before after : List α} (h : l ++ new = before ++ x :: after) :
    (∃ tail, l = before ++ x :: tail) ∨
      ∃ ahead, before = l ++ ahead ∧ new = ahead ++ x :: after := by
  rcases List.append_eq_append_iff.mp h with ⟨ahead, hbefore, hnew⟩ | ⟨tail, hl, htail⟩
  · exact .inr ⟨ahead, hbefore, hnew⟩
  · rcases List.cons_eq_append_iff.mp htail with ⟨rfl, hnew⟩ | ⟨tail, rfl, -⟩
    · exact .inr ⟨[], by simpa using hl.symm, hnew⟩
    · exact .inl ⟨tail, hl⟩

theorem Log.filter_push {log : Log} : Log.filter (log.push e) c =
    if c.accepts e then log.filter c ++ [e] else log.filter c := by
  rw [Log.filter, Log.filter, Array.toList_push, List.filter_append, List.filter_singleton]
  cases c.accepts e with
  | true => rfl
  | false => exact List.append_nil _

/-- The entries of one kind. -/
def Log.ofKind (log : Log) (kind : EventKind) : List Entry :=
  log.filter ⟨none, some kind, none⟩

theorem Log.ofKind_eq {log : Log} : log.ofKind kind = log.toList.filter (·.kind = kind) := by
  refine List.filter_congr fun e _ => ?_
  simp [Criteria.accepts, Bool.beq_eq_decide_eq, eq_comm]

namespace Scheduler

variable {s t : Scheduler n} {policy : SlicePolicy n}

/-! ## The log -/

theorem ofKind_eq_nil_of_append {log log' : Log} (hlog : log'.toList = log.toList ++ new)
    (hsame : log'.ofKind kind = log.ofKind kind) : ∀ e ∈ new, e.kind ≠ kind := by
  rw [Log.ofKind, Log.filter, hlog, List.filter_append] at hsame
  have hnone : new.filter (Criteria.accepts ⟨none, some kind, none⟩) = [] :=
    List.append_right_eq_self.mp hsame
  rintro e he rfl
  exact List.filter_eq_nil_iff.mp hnone e he (by simp [Criteria.accepts])

theorem ofKind_push {log : Log} : Log.ofKind (log.push e) kind =
    if e.kind = kind then Log.ofKind log kind ++ [e] else Log.ofKind log kind := by
  simp [Log.ofKind, Log.filter_push, Criteria.accepts, eq_comm (a := kind)]

theorem log_of_move (h : Move policy s t) : ∃ e, t.log = s.log.push e := by
  cases h <;> exact ⟨_, rfl⟩

/-- A move that is cut short leaves no record. -/
theorem log_of_cut (h : Cut policy s t) : t.log = s.log := by
  cases h <;> rfl

theorem timeline_of_cut (h : Cut policy s t) : t.timeline = s.timeline := by
  cases h <;> rfl

theorem log_prefix_of_advances (h : ReflTransGen (Advance policy) s t) :
    s.log.toList <+: t.log.toList := by
  induction h with
  | refl => exact List.prefix_refl _
  | tail _ hadvance ih =>
    cases hadvance with
    | move hmove =>
      obtain ⟨e, he⟩ := log_of_move hmove
      rw [he, Array.toList_push]
      exact ih.trans (List.prefix_append _ _)
    | cut hcut => exact log_of_cut hcut ▸ ih

theorem kind_admission (p : Proc) (now : Int) :
    (p.admission now).kind = .arrival ∨ (p.admission now).kind = .ioReturn := by
  unfold Proc.admission
  split
  · exact .inl rfl
  · exact .inr rfl

theorem kind_admission_ne_dispatch (p : Proc) (now : Int) :
    (p.admission now).kind ≠ .dispatch := by
  rcases kind_admission p now with h | h <;> simp [h]

/-- Boosts and idle jumps are recorded by nothing else. -/
theorem kind_settlement {p : Proc} {config : Config} (o : Outcome) :
    (p.settlement config now o).kind ≠ .boost ∧ (p.settlement config now o).kind ≠ .idle := by
  cases o <;> exact ⟨nofun, nofun⟩

theorem kind_settlement_ne_dispatch {p : Proc} {config : Config} (o : Outcome) :
    (p.settlement config now o).kind ≠ .dispatch := by
  cases o <;> exact nofun

theorem kind_settlement_ne_arrival {p : Proc} {config : Config} (o : Outcome) :
    (p.settlement config now o).kind ≠ .arrival := by
  cases o <;> exact nofun

/-- Admissions are recorded as arrivals or as returns from I/O. -/
theorem Admits.ofKind_eq (h : s.Admits l t) (harrival : kind ≠ .arrival)
    (hreturn : kind ≠ .ioReturn) : t.log.ofKind kind = s.log.ofKind kind := by
  obtain ⟨new, hnew, hkind⟩ := h.log
  have hnone : new.filter (·.kind = kind) = [] := by
    refine List.filter_eq_nil_iff.mpr fun e he => ?_
    rcases hkind e he with h' | h' <;> simp [h', harrival.symm, hreturn.symm]
  rw [Log.ofKind_eq, Log.ofKind_eq, hnew, List.filter_append, hnone, List.append_nil]

theorem ofKind_arrived (hkind : kind = .boost ∨ kind = .idle) :
    s.arrived.log.ofKind kind = s.log.ofKind kind := by
  rcases hkind with rfl | rfl <;> exact admits_arrived.ofKind_eq (by decide) (by decide)

theorem idles_prepared : s.prepared.log.ofKind .idle = s.log.ofKind .idle := by
  cases hdue : s.booster.due s.clock with
  | true =>
    rw [prepared_of_due hdue, boosted, ofKind_push, ofKind_arrived (.inr rfl)]
    simp [Entry.boost]
  | false =>
    rw [prepared_of_not_due hdue, ofKind_arrived (.inr rfl)]

/-- A step that halts has not moved the clock. -/
theorem Halt.idles_eq (h : s.Halt t) : t.log.ofKind .idle = s.log.ofKind .idle := by
  cases h with
  | admission hcut => exact hcut.admits.ofKind_eq (by decide) (by decide)
  | dispatch _ _ => exact idles_prepared
  | idle _ _ _ => exact idles_prepared

theorem ofKind_dispatched (hkind : kind = .boost ∨ kind = .idle) :
    (s.dispatched i rest).log.ofKind kind = s.log.ofKind kind := by
  rw [dispatched, ofKind_push, if_neg]
  intro h
  rcases hkind with rfl | rfl <;> cases h

theorem ofKind_ran (hkind : kind = .boost ∨ kind = .idle) :
    (s.ran i d).log.ofKind kind = s.log.ofKind kind := by
  rw [ran, ofKind_push, if_neg]
  rcases hkind with rfl | rfl
  · exact (kind_settlement _).1
  · exact (kind_settlement _).2

theorem boosts_idled : (s.idled target).log.ofKind .boost = s.log.ofKind .boost := ofKind_push

end Scheduler

namespace Workload

variable {w : Workload} {config : Config} {policy : SlicePolicy w.size}

theorem config_drive (calls : List (Scheduler.Call w.size)) :
    ((w.start config).drive policy calls).config = config := by
  refine drive_induction_of_unrecorded (P := fun s => s.config = config) rfl ?_ (fun _ _ h => h)
    calls
  intro s t _ hs hmove
  exact hmove.config_eq.trans hs

theorem config_afterSteps (k : Nat) : ((w.start config).afterSteps policy k).config = config := by
  obtain ⟨calls, hcalls⟩ := (w.start config).exists_drive policy k
  exact hcalls ▸ config_drive calls

end Workload

end FeedbackQueue
