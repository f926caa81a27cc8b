import FeedbackQueue.Web
import FeedbackQueue.Proofs.Config.Reading
import FeedbackQueue.Proofs.Scheduler.Reporting
import FeedbackQueue.Proofs.Workload.Reading

/-!
# Answers to posted workloads

A posted document is refused for what is wrong with it, or it describes a workload and a
configuration and is answered with the whole run. What is wrong may be too long to be quoted, but
not in a document whose integers can all be written. A run is no trouble in itself: it ends with
everything completed. What can go wrong are the numbers, an integer that is too long to be
written in a message or in the answer, or a mean that is out of the range of doubles.
-/

namespace FeedbackQueue

-- ---------------------------------------------------------------------------
-- How a run ends
-- ---------------------------------------------------------------------------

namespace Workload

variable {w : Workload} {config : Config}

/-- The run of a workload ends with everything completed and with the report on that, or it stops
at a message that cannot be written. -/
theorem finish_eq (w : Workload) (config : Config) :
    (∃ k, ((w.start config).afterSteps .standard k).done ∧
      (w.start config).finish =
        ⟨((w.start config).afterSteps .standard k).report.mapError .report,
          (w.start config).afterSteps .standard k⟩) ∨
    ∃ k t, (w.start config).Stopped .standard k ∧
      (w.start config).finish = ⟨.error (.numeral .tooLong), t⟩ := by
  rcases w.run_start config .standard with
    ⟨k, hdone, hrun⟩ | ⟨k, t, hstopped, hrun⟩
  · refine .inl ⟨k, hdone, ?_⟩
    rw [Sim.run_report] at hrun
    rw [Scheduler.finish, hrun]
    cases ((w.start config).afterSteps .standard k).report <;> rfl
  · refine .inr ⟨k, t, hstopped, ?_⟩
    rw [Scheduler.finish, hrun]

/-- A mean is too large only if the clock is out of the range of doubles. -/
theorem clock_of_average (k : Nat) :
    let s := (w.start config).afterSteps .standard k
    s.report = .error (.average e) → 2 ^ 1023 ≤ s.clock := by
  intro s h
  obtain ⟨calls, hcalls⟩ : ∃ calls, s = (w.start config).drive .standard calls :=
    (w.start config).exists_drive .standard k
  refine Int.not_lt.mp fun hclock => ?_
  have hlabels (i : Fin w.size) : (w.spec i).hasLabel := by
    have hmem : s.process i ∈ s.bank.processes.toList := by
      rw [Scheduler.toList_processes]
      exact List.mem_map_of_mem (List.mem_finRange i)
    exact (spec_afterSteps (w := w) k i) ▸ Report.hasLabel_of_average h _ hmem
  obtain ⟨r, hr⟩ := exists_report hlabels calls (hcalls ▸ hclock)
  rw [← hcalls] at hr
  cases hr.symm.trans h

end Workload

namespace Web

-- ---------------------------------------------------------------------------
-- Documents that are refused
-- ---------------------------------------------------------------------------

/-- What a posted document is refused for, the workload being looked at first. -/
inductive Refused (document : Option Json.Value) : String → Prop where
  | noProcesses (h : ∀ members, document = some (.obj members) →
      members.lookup "processes" = none) :
    Refused document "Missing 'processes' field"
  | badProcesses (hdocument : document = some (.obj members))
    (hprocesses : members.lookup "processes" = some processes)
    (h : Workload.parse processes = .error (.rejected e)) :
    Refused document e.message
  | badOverrides (hdocument : document = some (.obj members))
    (hprocesses : members.lookup "processes" = some processes)
    (hworkload : Workload.parse processes = .ok workload)
    (h : members.lookup "config" = some found) (hnull : found ≠ .null)
    (hobj : ∀ overrides, found ≠ .obj overrides) :
    Refused document "'config' must be an object"
  | badConfig (hdocument : document = some (.obj members))
    (hprocesses : members.lookup "processes" = some processes)
    (hworkload : Workload.parse processes = .ok workload)
    (hoverrides : members.lookup "config" = some (.obj overrides))
    (h : Config.ofMembers overrides = .error (.rejected e)) :
    Refused document e.message

/-- A posted document describes a workload, and the configuration to run it with: the one in
force, or one of its own. -/
inductive Accepted (inForce : Config) (document : Option Json.Value) :
    Workload → Config → Prop where
  | plain (hdocument : document = some (.obj members))
    (hprocesses : members.lookup "processes" = some processes)
    (hworkload : Workload.parse processes = .ok workload)
    (h : members.lookup "config" = none ∨ members.lookup "config" = some .null) :
    Accepted inForce document workload inForce
  | overridden (hdocument : document = some (.obj members))
    (hprocesses : members.lookup "processes" = some processes)
    (hworkload : Workload.parse processes = .ok workload)
    (hoverrides : members.lookup "config" = some (.obj overrides))
    (h : Config.ofMembers overrides = .ok config) :
    Accepted inForce document workload config

/-- What is wrong with a posted document cannot be told. -/
inductive Unquotable (document : Option Json.Value) : Prop where
  | processes (hdocument : document = some (.obj members))
    (hprocesses : members.lookup "processes" = some processes)
    (h : Workload.parse processes = .error (.fault fault)) :
    Unquotable document
  | config (hdocument : document = some (.obj members))
    (hprocesses : members.lookup "processes" = some processes)
    (hworkload : Workload.parse processes = .ok workload)
    (hoverrides : members.lookup "config" = some (.obj overrides))
    (h : Config.ofMembers overrides = .error (.fault fault)) :
    Unquotable document

variable {inForce config : Config} {document : Option Json.Value} {workload : Workload}
  {message : String}

theorem refused_or_accepted (inForce : Config) (document : Option Json.Value) :
    (∃ message, Refused document message) ∨
      (∃ workload config, Accepted inForce document workload config) ∨ Unquotable document := by
  by_cases hobj : ∃ members, document = some (.obj members)
  · obtain ⟨members, hdocument⟩ := hobj
    cases hprocesses : members.lookup "processes" with
    | none =>
      refine .inl ⟨_, .noProcesses fun other hother => ?_⟩
      cases hdocument.symm.trans hother
      exact hprocesses
    | some processes =>
      cases hworkload : Workload.parse processes with
      | error f =>
        cases f with
        | rejected e => exact .inl ⟨_, .badProcesses hdocument hprocesses hworkload⟩
        | fault f => exact .inr (.inr (.processes hdocument hprocesses hworkload))
      | ok workload =>
        cases hconfig : members.lookup "config" with
        | none => exact .inr (.inl ⟨_, _, .plain hdocument hprocesses hworkload (.inl hconfig)⟩)
        | some found =>
          cases found with
          | null => exact .inr (.inl ⟨_, _, .plain hdocument hprocesses hworkload (.inr hconfig)⟩)
          | obj overrides =>
            cases h : Config.ofMembers overrides with
            | error f =>
              cases f with
              | rejected e => exact .inl ⟨_, .badConfig hdocument hprocesses hworkload hconfig h⟩
              | fault f => exact .inr (.inr (.config hdocument hprocesses hworkload hconfig h))
            | ok config =>
              exact .inr (.inl ⟨_, _, .overridden hdocument hprocesses hworkload hconfig h⟩)
          | _ => exact .inl ⟨_, .badOverrides hdocument hprocesses hworkload hconfig nofun nofun⟩
  · exact .inl ⟨_, .noProcesses fun members h => absurd ⟨members, h⟩ hobj⟩

/-- Messages quote integers of the document only. -/
theorem Unquotable.not_isWritable (h : Unquotable document) :
    ∃ data, document = some data ∧ data.isWritable = false := by
  cases h with
  | @processes members processes _ hdocument hprocesses h =>
    refine ⟨_, hdocument, Bool.eq_false_iff.mpr fun hdata => ?_⟩
    obtain ⟨e, -, he⟩ :=
      Workload.rejected_of_parse (Json.Value.isWritable_of_lookup hdata hprocesses) h
    cases he
  | @config members processes _ overrides _ hdocument _ _ hoverrides h =>
    refine ⟨_, hdocument, Bool.eq_false_iff.mpr fun hdata => ?_⟩
    obtain ⟨e, -, he⟩ :=
      Config.rejected_of_ofMembers (Json.Value.isWritable_of_lookup hdata hoverrides) h
    cases he

theorem refusal_eq (message : String) :
    refusal message = ⟨400, some (.obj [("error", .str message)])⟩ := rfl

theorem Refused.answer (h : Refused document message) (inForce : Config) :
    answerPosted inForce document = ⟨400, some (.obj [("error", .str message)])⟩ := by
  cases h with
  | noProcesses h =>
    unfold answerPosted
    split
    · next members => simp only [h members rfl, refusal_eq]
    · rfl
  | badProcesses hdocument hprocesses h =>
    simp only [answerPosted, hdocument, hprocesses, h, refusal_eq]
  | @badOverrides members _ _ found hdocument hprocesses hworkload h hnull hobj =>
    have hconfig : effectiveConfig inForce members = .error (.rejected .overridesNotObject) := by
      cases found with
      | null => exact absurd rfl hnull
      | obj overrides => exact absurd rfl (hobj overrides)
      | _ => simp only [effectiveConfig, h]
    simp only [answerPosted, hdocument, hprocesses, hworkload, hconfig, refusal_eq]
    rfl
  | badConfig hdocument hprocesses hworkload hoverrides h =>
    simp only [answerPosted, hdocument, hprocesses, hworkload, effectiveConfig, hoverrides, h,
      refusal_eq]

theorem Accepted.answer (h : Accepted inForce document workload config) :
    answerPosted inForce document = simulate config workload := by
  cases h with
  | plain hdocument hprocesses hworkload h =>
    rcases h with h | h <;>
      simp only [answerPosted, hdocument, hprocesses, hworkload, effectiveConfig, h]
  | overridden hdocument hprocesses hworkload hoverrides h =>
    simp only [answerPosted, hdocument, hprocesses, hworkload, effectiveConfig, hoverrides, h]

theorem Unquotable.answer (h : Unquotable document) (inForce : Config) :
    answerPosted inForce document = ⟨500, none⟩ := by
  cases h with
  | processes hdocument hprocesses h =>
    simp only [answerPosted, hdocument, hprocesses, h, Response.bare]
  | config hdocument hprocesses hworkload hoverrides h =>
    simp only [answerPosted, hdocument, hprocesses, hworkload, effectiveConfig, hoverrides, h,
      Response.bare]

-- ---------------------------------------------------------------------------
-- Runs that are answered
-- ---------------------------------------------------------------------------

/-- Everything about a run. -/
def wholeRun (config : Config) (s : Scheduler n) (r : Report) : Json.Value := .obj [
  ("config", .obj config.toMembers),
  ("report", r.toValue),
  ("events", eventValues s.log),
  ("timeline", .arr (s.timeline.toList.map sliceValue))]

/-- What a run that has ended is answered with: everything about it, or a failure when a mean is
out of the range of doubles or an integer is too long to be written. -/
inductive Reported (config : Config) (s : Scheduler n) : Response → Prop where
  | whole (h : s.report = .ok r) (hcomplete : r.complete)
    (hbody : (wholeRun config s r).isWritable) :
    Reported config s ⟨200, some (wholeRun config s r)⟩
  | overflow (hclock : 2 ^ 1023 ≤ s.clock) (h : s.report = .error (.average .overflow)) :
    Reported config s ⟨500, none⟩
  | unwritable (h : s.report = .error (.numeral .tooLong) ∨
      ∃ r, s.report = .ok r ∧ (wholeRun config s r).isWritable = false) :
    Reported config s ⟨500, none⟩

theorem simulate_reported (hdone : ((workload.start config).afterSteps .standard k).done)
    (hfinish : (workload.start config).finish =
      ⟨((workload.start config).afterSteps .standard k).report.mapError .report,
        (workload.start config).afterSteps .standard k⟩) :
    Reported config ((workload.start config).afterSteps .standard k)
      (simulate config workload) := by
  have hsound : ((workload.start config).afterSteps .standard k).Sound :=
    Workload.sound_afterSteps k
  have hclock : ((workload.start config).afterSteps .standard k).report =
      .error (.average .overflow) →
        2 ^ 1023 ≤ ((workload.start config).afterSteps .standard k).clock :=
    Workload.clock_of_average k
  generalize (workload.start config).afterSteps .standard k = s at *
  cases hr : s.report with
  | error e =>
    have hanswer : simulate config workload = ⟨500, none⟩ := by
      simp only [simulate, hfinish, hr]
      rfl
    cases e with
    | numeral e => exact hanswer ▸ .unwritable (.inl hr)
    | average e => exact hanswer ▸ .overflow (hclock hr) hr
  | ok r =>
    have hcomplete : r.complete := (Scheduler.complete_iff hsound hr).mpr hdone
    have hanswer : simulate config workload = .document 200 (wholeRun config s r) := by
      simp only [simulate, hfinish, hr]
      rfl
    rw [hanswer, Response.document]
    split
    · next hbody => exact .whole hr hcomplete hbody
    · next hbody => exact .unwritable (.inr ⟨r, hr, Bool.eq_false_iff.mpr hbody⟩)

/-- Every posted document is refused with status 400, or it describes a run and is answered with
it: status 200, if the numbers can be written. Only in a document that holds an integer too long
to be written can what is wrong be something that cannot be told. -/
theorem posted_answered (inForce : Config) (document : Option Json.Value) :
    ((∃ message, Refused document message) ∨
      (∃ workload config, Accepted inForce document workload config) ∨ Unquotable document) ∧
    (∀ message, Refused document message →
      answerPosted inForce document = ⟨400, some (.obj [("error", .str message)])⟩) ∧
    (Unquotable document → (∃ data, document = some data ∧ data.isWritable = false) ∧
      answerPosted inForce document = ⟨500, none⟩) ∧
    ∀ workload config, Accepted inForce document workload config →
      (∃ k, ((workload.start config).afterSteps .standard k).done ∧
        Reported config ((workload.start config).afterSteps .standard k)
          (answerPosted inForce document)) ∨
      ¬ workload.Recordable config ∧ (∃ k, (workload.start config).Stopped .standard k) ∧
        answerPosted inForce document = ⟨500, none⟩ := by
  refine ⟨refused_or_accepted inForce document, fun message h => h.answer inForce,
    fun h => ⟨h.not_isWritable, h.answer inForce⟩, fun workload config h => ?_⟩
  rw [h.answer]
  rcases workload.finish_eq config with ⟨k, hdone, hfinish⟩ | ⟨k, t, hstopped, hfinish⟩
  · exact .inl ⟨k, hdone, simulate_reported hdone hfinish⟩
  · refine .inr ⟨fun hw => ?_, ⟨k, hstopped⟩, ?_⟩
    · exact Workload.not_stopped hw .standard k hstopped
    · simp only [simulate, hfinish]
      rfl

theorem posted_answered_single :
    let processes : Json.Value := .arr [.obj [
      ("pid", .int 1), ("arrival_time", .int 0), ("burst_time", .int 25)]]
    Refused none "Missing 'processes' field" ∧
      answerPosted .standard none
        = ⟨400, some (.obj [("error", .str "Missing 'processes' field")])⟩ ∧
      ∃ workload, workload.specs.map Spec.burst = [25] ∧
        Accepted .standard (some (.obj [("processes", processes)])) workload .standard ∧
        ∃ k, ((workload.start .standard).afterSteps .standard k).done ∧
          Reported .standard ((workload.start .standard).afterSteps .standard k)
            (answerPosted .standard (some (.obj [("processes", processes)]))) := by
  intro processes
  have hrefused : Refused none "Missing 'processes' field" := .noProcesses nofun
  have haccepted : Accepted .standard (some (.obj [("processes", processes)]))
      ⟨[⟨1, 0, 25, false, none, by decide, by decide, by decide⟩], by decide, by decide⟩
      .standard := .plain rfl rfl rfl (.inl rfl)
  obtain ⟨-, hanswer, -, -⟩ := posted_answered .standard none
  obtain ⟨-, -, -, hrun⟩ := posted_answered .standard (some (.obj [("processes", processes)]))
  refine ⟨hrefused, hanswer _ hrefused, _, rfl, haccepted, (hrun _ _ haccepted).resolve_right ?_⟩
  rintro ⟨hrecordable, -⟩
  exact hrecordable ⟨⟨by decide +kernel, by decide +kernel, by decide +kernel⟩, by decide +kernel⟩

-- ---------------------------------------------------------------------------
-- Means that are too large
-- ---------------------------------------------------------------------------

/-- One job of a single slice, longer than every double. -/
def longJob : Json.Value := .obj [
  ("processes", .arr [.obj [
    ("pid", .int 1), ("arrival_time", .int 0), ("burst_time", .int (10 ^ 400))]]),
  ("config", .obj [("base_quantum", .int (10 ^ 400))])]

theorem long_job_not_answered :
    (∃ workload config, Accepted .standard (some longJob) workload config) ∧
      (answerPosted .standard (some longJob)).status = 500 := by
  have hstatus : (answerPosted .standard (some longJob)).status = 500 := by decide +kernel
  have hwritable : longJob.isWritable := by decide +kernel
  refine ⟨((refused_or_accepted .standard (some longJob)).resolve_left ?_).resolve_right ?_,
    hstatus⟩
  · rintro ⟨message, hrefused⟩
    rw [hrefused.answer] at hstatus
    cases hstatus
  · intro hunquotable
    obtain ⟨_, ⟨⟩, hdata⟩ := hunquotable.not_isWritable
    cases hwritable.symm.trans hdata

end Web

end FeedbackQueue
