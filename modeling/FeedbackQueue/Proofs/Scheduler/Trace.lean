import FeedbackQueue.Proofs.Scheduler.History
import FeedbackQueue.Proofs.Text.Reading

/-!
# The printed trace

The trace of a run that is stepped can be read back. Every line has one of ten forms, which tell
each other apart, with integers in fixed places, and the slices are read off the lines of the
dispatches and of the ends of slices. So two runs that print the same did the same.
-/

namespace FeedbackQueue

-- ---------------------------------------------------------------------------
-- Notes
-- ---------------------------------------------------------------------------

/-- What the entries of a run can tell, with the numbers that they print. -/
inductive Note where
  | arrival (time pid burst : Int) (ioBound : Bool)
  | ioReturn (time pid : Int) (level : Nat)
  | boost (time : Int) (moved : Nat)
  | dispatch (time pid : Int) (level : Nat) (remaining quantum : Int)
  | completion (time pid : Int)
  | ioYield (time pid : Int) (level : Nat)
  | demotion (time pid : Int) (level : Nat)
  | requeue (time pid : Int) (level : Nat)
  | idle (time target : Int)

/-- The form of a line. -/
inductive LineForm where
  | arrival (ioBound : Bool)
  | ioReturn | boost | dispatch | completion | ioYield | demotion | requeue | idle
deriving DecidableEq, Fintype

/-- What follows each of the integers in a line, the first of which is the time. -/
def LineForm.words : LineForm → List String
  | .arrival ioBound =>
    [": Process ", " arrives (burst=", ", type=" ++ kindLabel ioBound ++ ")"]
  | .ioReturn => [": Process ", " returns from I/O (priority=", ")"]
  | .boost => [": Priority boost! (", " process(es) moved to priority=0)"]
  | .dispatch =>
    [": Running Process ", " (priority=", ", remaining=", ", quantum=", ")"]
  | .completion => [": Process ", " completed"]
  | .ioYield => [": Process ", " yields for I/O (keeps priority=", ")"]
  | .demotion => [": Process ", " used full quantum, demoted to priority=", ""]
  | .requeue => [": Process ", " returned to queue (priority=", ")"]
  | .idle => [": CPU idle until time ", ""]

namespace Note

def form : Note → LineForm
  | arrival _ _ _ ioBound => .arrival ioBound
  | ioReturn .. => .ioReturn
  | boost .. => .boost
  | dispatch .. => .dispatch
  | completion .. => .completion
  | ioYield .. => .ioYield
  | demotion .. => .demotion
  | requeue .. => .requeue
  | idle .. => .idle

def numbers : Note → List Int
  | arrival time pid burst _ => [time, pid, burst]
  | ioReturn time pid level => [time, pid, level]
  | boost time moved => [time, moved]
  | dispatch time pid level remaining quantum => [time, pid, level, remaining, quantum]
  | completion time pid => [time, pid]
  | ioYield time pid level => [time, pid, level]
  | demotion time pid level => [time, pid, level]
  | requeue time pid level => [time, pid, level]
  | idle time target => [time, target]

def entry : Note → Entry
  | arrival time pid burst ioBound =>
    ⟨time, .arrival,
      ["Process ", pid, " arrives (burst=", burst, ", type=", kindLabel ioBound, ")"],
      .info, some pid⟩
  | ioReturn time pid level =>
    ⟨time, .ioReturn, ["Process ", pid, " returns from I/O (priority=", Entry.ordinal level, ")"],
      .info, some pid⟩
  | boost time moved =>
    ⟨time, .boost,
      ["Priority boost! (", Entry.ordinal moved, " process(es) moved to priority=0)"],
      .info, none⟩
  | dispatch time pid level remaining quantum =>
    ⟨time, .dispatch,
      ["Running Process ", pid, " (priority=", Entry.ordinal level, ", remaining=", remaining,
        ", quantum=", quantum, ")"],
      .debug, some pid⟩
  | completion time pid => ⟨time, .completion, ["Process ", pid, " completed"], .info, some pid⟩
  | ioYield time pid level =>
    ⟨time, .ioYield,
      ["Process ", pid, " yields for I/O (keeps priority=", Entry.ordinal level, ")"],
      .info, some pid⟩
  | demotion time pid level =>
    ⟨time, .demotion,
      ["Process ", pid, " used full quantum, demoted to priority=", Entry.ordinal level],
      .info, some pid⟩
  | requeue time pid level =>
    ⟨time, .requeue, ["Process ", pid, " returned to queue (priority=", Entry.ordinal level, ")"],
      .debug, some pid⟩
  | idle time target => ⟨time, .idle, ["CPU idle until time ", target], .info, none⟩

/-- The outcome and the time of the end of a slice. -/
def ending? : Note → Option (Int × Outcome)
  | completion time _ => some (time, .completed)
  | ioYield time _ _ => some (time, .ioYield)
  | demotion time _ _ => some (time, .demoted)
  | requeue time _ _ => some (time, .requeued)
  | _ => none

theorem length_numbers (e : Note) : e.numbers.length = e.form.words.length := by
  cases e <;> rfl

theorem text_ordinal (k : Nat) : (Entry.ordinal k).text = toString (k : Int) := rfl

theorem toList_line (e : Note) : e.entry.line.text.toList
    = "Time ".toList ++ Text.fill e.form.words e.numbers := by
  cases e <;> simp only [entry, Entry.line, Text.Phrase.text, List.map_cons, List.map_nil,
    text_ordinal] <;> simp [Text.Piece.text, Text.fill, form, numbers, LineForm.words]

theorem eq_of_numbers {e e' : Note} (hform : e.form = e'.form)
    (hnumbers : e.numbers = e'.numbers) : e = e' := by
  cases e <;> cases e' <;> cases hform <;> simp_all [numbers]

end Note

theorem LineForm.separate (f : LineForm) : Text.Separate f.words := by
  cases f with
  | arrival ioBound =>
    cases ioBound <;> simp [words, kindLabel, Text.Separate, Text.Stops, Text.inNumeral]
  | _ => simp [words, Text.Separate, Text.Stops, Text.inNumeral]

theorem LineForm.eq_or_clash (f f' : LineForm) : f = f' ∨ Text.Clash f.words f'.words := by
  revert f f'
  decide +kernel

namespace Note

/-- A line tells which note it was printed from. -/
theorem line_inj {e e' : Note} (h : e.entry.line.text = e'.entry.line.text) : e = e' := by
  have hchars := congrArg String.toList h
  rw [toList_line, toList_line, List.append_cancel_left_eq] at hchars
  have hwords : e.form.words = e'.form.words ∨ Text.Clash e.form.words e'.form.words :=
    (e.form.eq_or_clash e'.form).imp_left (congrArg LineForm.words)
  obtain ⟨hsame, hnumbers⟩ := Text.fill_inj e.form.separate e'.form.separate e.length_numbers
    e'.length_numbers hwords hchars
  have hform : e.form = e'.form := by
    refine (e.form.eq_or_clash e'.form).resolve_right fun hclash => ?_
    rw [hsame] at hclash
    exact Text.not_clash_self _ hclash
  exact eq_of_numbers hform hnumbers

theorem line_ne_empty (e : Note) : e.entry.line.text ≠ "" := by
  intro h
  have hchars := toList_line e
  rw [h] at hchars
  cases hchars

theorem not_mem_line (e : Note) : '\n' ∉ e.entry.line.text.toList := by
  have hwords : ∀ f : LineForm, ∀ w ∈ f.words, '\n' ∉ w.toList := by decide
  rw [toList_line, List.mem_append, not_or]
  exact ⟨by decide, Text.not_mem_fill (by decide) (hwords e.form)⟩

end Note

-- ---------------------------------------------------------------------------
-- Texts of notes
-- ---------------------------------------------------------------------------

theorem Note.lines_text (notes : List Note) :
    Text.lines (Log.text (notes.map entry)).text.toList
      = notes.map fun e => e.entry.line.text.toList := by
  have hnotes : (Log.text (notes.map entry)).text.toList
      = ['\n'].intercalate (notes.map fun e => e.entry.line.text.toList) := by
    rw [Log.text, Text.toList_join, List.map_map, List.map_map]
    rfl
  rw [hnotes, Text.lines_intercalate]
  · simp [not_mem_line]
  · simp [line_ne_empty]

theorem Note.text_inj {notes notes' : List Note}
    (h : (Log.text (notes.map entry)).text = (Log.text (notes'.map entry)).text) :
    notes = notes' := by
  have hlines := lines_text notes
  rw [h, lines_text notes'] at hlines
  have hinj : Function.Injective fun e : Note => e.entry.line.text.toList :=
    fun e e' h => line_inj (String.toList_inj.mp h)
  exact (List.map_injective_iff.mpr hinj hlines).symm

-- ---------------------------------------------------------------------------
-- The timeline in the notes
-- ---------------------------------------------------------------------------

/-- The slices that have been read, and the one that is begun, which lacks its end. -/
structure Gantt where
  begun : Option (Int → Outcome → Slice)
  slices : List Slice

namespace Gantt

def read (g : Gantt) (e : Note) : Gantt :=
  match e, e.ending?, g.begun with
  | .dispatch time pid level _ quantum, _, _ =>
    { g with begun := some fun stop outcome => ⟨pid, time, stop - time, level, quantum, outcome⟩ }
  | _, some (stop, outcome), some slice => ⟨none, g.slices ++ [slice stop outcome]⟩
  | _, _, _ => g

/-- The timeline that notes tell. -/
def timeline (notes : List Note) : List Slice := (notes.foldl read ⟨none, []⟩).slices

/-- A note says nothing about slices. -/
def Quiet (e : Note) : Prop := ∀ g : Gantt, g.read e = g

theorem timeline_concat (h : Quiet e) : timeline (notes ++ [e]) = timeline notes := by
  rw [timeline, List.foldl_append, List.foldl_cons, h]
  rfl

/-- A dispatch and the end of a slice right after it are the slice. -/
theorem timeline_slice (h : e.ending? = some (stop, outcome)) :
    timeline (notes ++ [.dispatch time pid level remaining quantum, e])
      = timeline notes ++ [⟨pid, time, stop - time, level, quantum, outcome⟩] := by
  rw [timeline, List.foldl_append, List.foldl_cons, List.foldl_cons]
  cases e <;> cases h <;> rfl

end Gantt

namespace Proc

theorem exists_admission (p : Proc) (now : Int) :
    ∃ e : Note, p.admission now = e.entry ∧ Gantt.Quiet e := by
  unfold admission
  split
  · exact ⟨.arrival now p.pid p.spec.burst p.spec.ioBound, rfl, fun _ => rfl⟩
  · exact ⟨.ioReturn now p.pid p.level, rfl, fun _ => rfl⟩

theorem exists_settlement (p : Proc) (config : Config) (now : Int) (o : Outcome) :
    ∃ e : Note, p.settlement config now o = e.entry ∧ e.ending? = some (now, o) := by
  cases o with
  | completed => exact ⟨.completion now p.pid, rfl, rfl⟩
  | ioYield => exact ⟨.ioYield now p.pid p.level, rfl, rfl⟩
  | demoted => exact ⟨.demotion now p.pid (min (p.level + 1) config.lowestLevel), rfl, rfl⟩
  | requeued => exact ⟨.requeue now p.pid p.level, rfl, rfl⟩

end Proc

namespace Scheduler

variable {s t : Scheduler n} {policy : SlicePolicy n}

/-- The log consists of notes that tell the timeline. -/
def Drawn (s : Scheduler n) : Prop :=
  ∃ notes : List Note, s.log.toList = notes.map Note.entry ∧
    s.timeline.toList = Gantt.timeline notes

/-- What is noted of a process that gets the CPU. -/
def dispatchNote (s : Scheduler n) (i : Fin n) : Note :=
  .dispatch s.clock (s.process i).pid (s.process i).level (s.process i).remaining
    (s.config.quantum (s.process i).level)

/-- A slice right after the dispatch has what the dispatch notes. -/
theorem slice_dispatched (hdequeue : s.bank.dequeue = some (i, rest)) :
    (s.dispatched i rest).slice i d =
      ⟨(s.process i).pid, s.clock, s.clock + d - s.clock, (s.process i).level,
        s.config.quantum (s.process i).level, ((s.dispatched i rest).slice i d).outcome⟩ := by
  have hprocess : (s.dispatched i rest).process i = (s.process i).dispatched s.clock := by
    rw [process_dispatched hdequeue, if_pos rfl]
  have hd : s.clock + d - s.clock = d := add_sub_cancel_left s.clock d
  rw [hd]
  simp only [Scheduler.slice, hprocess]
  rfl

theorem exists_end_of_slice (s : Scheduler n) (i : Fin n) (rest : Bank n) (d : Int) :
    ∃ e : Note,
      e.ending? = some (s.clock + d, ((s.dispatched i rest).slice i d).outcome) ∧
      ((s.dispatched i rest).ran i d).log.toList
        = s.log.toList ++ [s.dispatchNote i, e].map Note.entry := by
  obtain ⟨e, he, hending⟩ := (((s.dispatched i rest).process i).ran d).exists_settlement s.config
    (s.clock + d) ((s.dispatched i rest).slice i d).outcome
  refine ⟨e, hending, ?_⟩
  have hlog : ((s.dispatched i rest).ran i d).log = (s.dispatched i rest).log.push e.entry :=
    congrArg (s.dispatched i rest).log.push he
  rw [hlog, Array.toList_push, dispatched, Array.toList_push, List.append_assoc]
  rfl

namespace Drawn

theorem push (h : s.Drawn) (hquiet : Gantt.Quiet e) (hlog : t.log = s.log.push e.entry)
    (htimeline : t.timeline = s.timeline) : t.Drawn := by
  obtain ⟨notes, hnotes, hslices⟩ := h
  refine ⟨notes ++ [e], ?_, ?_⟩
  · rw [hlog, Array.toList_push, hnotes, List.map_append]
    rfl
  · rw [htimeline, hslices, Gantt.timeline_concat hquiet]

theorem admitted (h : s.Drawn) (i : Fin n) : (s.admitted i).Drawn := by
  obtain ⟨e, he, hquiet⟩ := (s.process i).exists_admission s.clock
  exact h.push hquiet (congrArg s.log.push he) rfl

theorem foldl_admitted (h : s.Drawn) (l : List (Fin n)) : (l.foldl Scheduler.admitted s).Drawn := by
  induction l generalizing s with
  | nil => exact h
  | cons i rest ih => exact ih (h.admitted i)

theorem prepared (h : s.Drawn) : s.prepared.Drawn := by
  have harrived : s.arrived.Drawn := h.foldl_admitted s.dueSlots
  unfold Scheduler.prepared
  split
  · exact harrived.push (e := .boost s.arrived.clock s.arrived.bank.belowTop.length)
      (fun _ => rfl) rfl rfl
  · exact harrived

theorem slice (h : s.Drawn) (hdequeue : s.bank.dequeue = some (i, rest)) :
    ((s.dispatched i rest).ran i d).Drawn := by
  obtain ⟨notes, hnotes, hslices⟩ := h
  obtain ⟨e, hending, hlog⟩ := exists_end_of_slice s i rest d
  refine ⟨notes ++ [s.dispatchNote i, e], ?_, ?_⟩
  · rw [hlog, hnotes, List.map_append]
  · have htimeline : ((s.dispatched i rest).ran i d).timeline.toList
        = s.timeline.toList ++ [(s.dispatched i rest).slice i d] := Array.toList_push
    rw [htimeline, slice_dispatched hdequeue, hslices, dispatchNote, Gantt.timeline_slice hending]

theorem of_round (h : s.Drawn) (hround : Round policy s t) : t.Drawn := by
  cases hround with
  | @idle target _ _ =>
    exact h.prepared.push (e := .idle s.prepared.clock (max target s.prepared.clock))
      (fun _ => rfl) rfl rfl
  | slice hdequeue _ _ _ => exact h.prepared.slice hdequeue

/-- What is missing in the log when a step halts is missing in the timeline as well. -/
theorem of_halt (h : s.Drawn) (hhalt : s.Halt t) : t.Drawn := by
  cases hhalt with
  | @admission before _ _ => exact h.foldl_admitted before
  | dispatch _ _ => exact h.prepared
  | idle _ _ _ => exact h.prepared

end Drawn

end Scheduler

namespace Workload

open Scheduler

theorem drawn_afterSteps (w : Workload) (config : Config) (k : Nat) :
    ((w.start config).afterSteps .standard k).Drawn :=
  steps_induction .standard ⟨[], rfl, rfl⟩ (fun _ _ _ h hround => h.of_round hround)
    (fun _ _ _ h hhalt => h.of_halt hhalt) k

/-- The printed trace of a run that is stepped has a line for each entry, and no two runs that
differ in a slice or in an entry print the same. -/
theorem trace_faithful :
    (∀ (w : Workload) config k,
      let s := (w.start config).afterSteps .standard k
      Text.lines (Log.text s.log.toList).text.toList
        = s.log.toList.map fun e => e.line.text.toList) ∧
    ∀ (w w' : Workload) config config' k k',
      let s := (w.start config).afterSteps .standard k
      let t := (w'.start config').afterSteps .standard k'
      (Log.text s.log.toList).text = (Log.text t.log.toList).text →
        s.timeline = t.timeline ∧ s.log = t.log := by
  constructor
  · intro w config k s
    obtain ⟨notes, hnotes, -⟩ := w.drawn_afterSteps config k
    rw [hnotes, Note.lines_text, List.map_map]
    rfl
  · intro w w' config config' k k' s t htext
    obtain ⟨notes, hnotes, hslices⟩ := w.drawn_afterSteps config k
    obtain ⟨notes', hnotes', hslices'⟩ := w'.drawn_afterSteps config' k'
    rw [hnotes, hnotes'] at htext
    obtain rfl := Note.text_inj htext
    exact ⟨Array.toList_inj.mp (hslices.trans hslices'.symm),
      Array.toList_inj.mp (hnotes.trans hnotes'.symm)⟩

/-- A job of three units, and one with a name that is stepped once more under a longer boost
interval. -/
theorem trace_faithful_single :
    let w : Workload :=
      ⟨[⟨1, 0, 3, false, none, by decide, by decide, by decide⟩], by decide, by decide⟩
    let w' : Workload :=
      ⟨[⟨1, 0, 3, false, some "job", by decide, by decide, by decide⟩], by decide, by decide⟩
    let config : Config :=
      { Config.standard with boostInterval := 70, boostInterval_pos := by decide }
    (Log.text ((w.start .standard).afterSteps .standard 1).log.toList).text
        = (Log.text ((w'.start config).afterSteps .standard 2).log.toList).text ∧
      ((w.start .standard).afterSteps .standard 1).timeline
        = ((w'.start config).afterSteps .standard 2).timeline := by
  intro w w' config
  have htext : (Log.text ((w.start .standard).afterSteps .standard 1).log.toList).text
      = (Log.text ((w'.start config).afterSteps .standard 2).log.toList).text := by
    decide +kernel
  exact ⟨htext, (trace_faithful.2 w w' .standard config 1 2 htext).1⟩

end Workload

end FeedbackQueue
