import FeedbackQueue.Proofs.Basic
import FeedbackQueue.Workload.Document
import Mathlib.Data.List.Forall2
import Mathlib.Data.List.Sort

/-!
# Workloads that are read

A document is a workload exactly when it lists records that describe jobs with pairwise distinct
pids. Every other document is refused, for the first record that describes no job if there is
one, and for the pids that repeat only if there is none. What is found wrong may be too long to be
quoted, and then that is all that is reported.

Documents are decoded before they are read. In the decoded form an unpaired surrogate is the
replacement character, so a name or a key is a text that can always be shown, and keys that differ
in unpaired surrogates alone are one.
-/

namespace FeedbackQueue

theorem SpecError.raised_of_isWritable {e : SpecError} (h : e.phrase.isWritable) : e.raised = e :=
  Text.Phrase.raise_of_isWritable h

/-- A message that can be written is reported as it is. -/
theorem WorkloadError.raised_of_isWritable {e : WorkloadError} (h : e.phrase.isWritable) :
    e.raised = .rejected e := by
  cases e with
  | spec e => rw [raised, SpecError.raised_of_isWritable h]
  | notInteger => rw [raised, Text.Phrase.raise_of_isWritable h]
  | _ => exact Text.Phrase.raise_of_isWritable h

-- ---------------------------------------------------------------------------
-- Jobs
-- ---------------------------------------------------------------------------

/-- Why three integers make no job, each reason in the absence of those before it. -/
inductive Unschedulable (pid arrival burst : Int) : SpecError → Prop where
  | negativePid (h : pid < 0) : Unschedulable pid arrival burst (.negativePid pid)
  | negativeArrival (hpid : 0 ≤ pid) (h : arrival < 0) :
    Unschedulable pid arrival burst (.negativeArrival pid arrival)
  | nonpositiveBurst (hpid : 0 ≤ pid) (harrival : 0 ≤ arrival) (h : burst ≤ 0) :
    Unschedulable pid arrival burst (.nonpositiveBurst pid burst)

theorem schedulable_or (pid arrival burst : Int) :
    (0 ≤ pid ∧ 0 ≤ arrival ∧ 0 < burst) ∨ ∃ e, Unschedulable pid arrival burst e := by
  by_cases hpid : 0 ≤ pid
  · by_cases harrival : 0 ≤ arrival
    · by_cases hburst : 0 < burst
      · exact .inl ⟨hpid, harrival, hburst⟩
      · exact .inr ⟨_, .nonpositiveBurst hpid harrival (Int.not_lt.mp hburst)⟩
    · exact .inr ⟨_, .negativeArrival hpid (Int.not_le.mp harrival)⟩
  · exact .inr ⟨_, .negativePid (Int.not_le.mp hpid)⟩

theorem Unschedulable.make (h : Unschedulable pid arrival burst e) :
    Spec.make pid arrival burst ioBound name = .error e.raised := by
  cases h with
  | negativePid h => rw [Spec.make, dif_neg (Int.not_le.mpr h)]
  | negativeArrival hpid h => rw [Spec.make, dif_pos hpid, dif_neg (Int.not_le.mpr h)]
  | nonpositiveBurst hpid harrival h =>
    rw [Spec.make, dif_pos hpid, dif_pos harrival, dif_neg (Int.not_lt.mpr h)]

theorem Spec.make_self (spec : Spec) :
    Spec.make spec.pid spec.arrival spec.burst spec.ioBound spec.name = .ok spec := by
  rw [Spec.make, dif_pos spec.pid_nonneg, dif_pos spec.arrival_nonneg, dif_pos spec.burst_pos]

namespace Workload

-- ---------------------------------------------------------------------------
-- Records and documents
-- ---------------------------------------------------------------------------

/-- The integers of a record, in the order in which they are looked up. -/
def integerKeys : List String := ["pid", "arrival_time", "burst_time"]

/-- What a record says about I/O. If it says nothing the job is CPU-bound. -/
inductive SaysIoBound (members : Json.Members) : Bool → Prop where
  | absent (h : members.lookup "io_bound" = none) : SaysIoBound members false
  | given (h : members.lookup "io_bound" = some (.bool b)) : SaysIoBound members b

/-- The name that a record gives, if any. -/
inductive SaysName (members : Json.Members) : Option String → Prop where
  | absent (h : members.lookup "name" = none) : SaysName members none
  | null (h : members.lookup "name" = some .null) : SaysName members none
  | given (h : members.lookup "name" = some (.str name)) : SaysName members (some name)

inductive Describes : Json.Value → Spec → Prop where
  | record {spec : Spec} (hpid : members.lookup "pid" = some (.int spec.pid))
    (harrival : members.lookup "arrival_time" = some (.int spec.arrival))
    (hburst : members.lookup "burst_time" = some (.int spec.burst))
    (hioBound : SaysIoBound members spec.ioBound) (hname : SaysName members spec.name) :
    Describes (.obj members) spec

/-- A record that describes a job, whichever it is. -/
structure WellFormed (members : Json.Members) : Prop where
  pid : ∃ n, members.lookup "pid" = some (.int n) ∧ 0 ≤ n
  arrival : ∃ n, members.lookup "arrival_time" = some (.int n) ∧ 0 ≤ n
  burst : ∃ n, members.lookup "burst_time" = some (.int n) ∧ 0 < n
  ioBound : ∀ found, members.lookup "io_bound" = some found → ∃ b, found = .bool b
  name : ∀ found, members.lookup "name" = some found → found = .null ∨ ∃ s, found = .str s

/-- What is wrong with the record at an index, each fault in the absence of those before it. -/
inductive Malformed (index : Nat) : Json.Value → WorkloadError → Prop where
  | notObject (h : ∀ members, found ≠ .obj members) :
    Malformed index found (.notObject index found)
  | ioBound (h : members.lookup "io_bound" = some found) (hbool : ∀ b, found ≠ .bool b) :
    Malformed index (.obj members) (.ioBoundNotBool index found)
  | name (hioBound : SaysIoBound members ioBound) (h : members.lookup "name" = some found)
    (hnull : found ≠ .null) (hstr : ∀ s, found ≠ .str s) :
    Malformed index (.obj members) (.nameNotString index found)
  | missing (hioBound : SaysIoBound members ioBound) (hname : SaysName members name)
    (hkeys : integerKeys = before ++ key :: after)
    (hbefore : ∀ k ∈ before, ∃ n, members.lookup k = some (.int n))
    (h : members.lookup key = none) :
    Malformed index (.obj members) (.missing index key)
  | notInteger (hioBound : SaysIoBound members ioBound) (hname : SaysName members name)
    (hkeys : integerKeys = before ++ key :: after)
    (hbefore : ∀ k ∈ before, ∃ n, members.lookup k = some (.int n))
    (h : members.lookup key = some found) (hint : ∀ n, found ≠ .int n) :
    Malformed index (.obj members) (.notInteger index key found)
  | spec (hioBound : SaysIoBound members ioBound) (hname : SaysName members name)
    (hpid : members.lookup "pid" = some (.int pid))
    (harrival : members.lookup "arrival_time" = some (.int arrival))
    (hburst : members.lookup "burst_time" = some (.int burst))
    (h : Unschedulable pid arrival burst e) :
    Malformed index (.obj members) (.spec e)

/-- The value under `pid`, if there is one. -/
def pidOf : Json.Value → Option Json.Value
  | .obj members => members.lookup "pid"
  | _ => none

/-- The elements of one list are those that occur in another more than once, in ascending order. -/
structure Repeats (l pids : List Int) : Prop where
  ascending : pids.Pairwise (· < ·)
  mem_iff : ∀ pid, pid ∈ pids ↔ 1 < l.count pid

/-- Why a document is no workload. -/
inductive Refused (data : Json.Value) : WorkloadError → Prop where
  | notList (h : ∀ records, recordsOf data ≠ .arr records) : Refused data .notList
  | malformed (hrecords : recordsOf data = .arr (before ++ record :: after))
    (hbefore : ∀ r ∈ before, ∃ members, r = .obj members ∧ WellFormed members)
    (h : Malformed before.length record e) : Refused data e
  | empty (hrecords : recordsOf data = .arr []) : Refused data .empty
  | repeated {specs : List Spec} (hrecords : recordsOf data = .arr records)
    (hspecs : List.Forall₂ Describes records specs) (hpids : Repeats (specs.map Spec.pid) pids)
    (hne : pids ≠ []) : Refused data (.duplicatePids pids)

-- ---------------------------------------------------------------------------
-- Records are read
-- ---------------------------------------------------------------------------

section
variable {members : Json.Members} {record : Json.Value} {spec : Spec} {e : WorkloadError}
  {index : Nat} {f : LoadError WorkloadError}

theorem SaysIoBound.ioBoundOf (h : SaysIoBound members b) (index : Nat) :
    ioBoundOf index members = .ok b := by
  cases h <;> simp only [Workload.ioBoundOf, *]

theorem SaysName.nameOf (h : SaysName members name) (index : Nat) :
    nameOf index members = .ok name := by
  cases h <;> simp only [Workload.nameOf, *]

theorem saysIoBound_or (members : Json.Members) :
    (∃ b, SaysIoBound members b) ∨
      ∃ found, members.lookup "io_bound" = some found ∧ ∀ b, found ≠ .bool b := by
  cases h : members.lookup "io_bound" with
  | none => exact .inl ⟨_, .absent h⟩
  | some found =>
    cases found with
    | bool b => exact .inl ⟨b, .given h⟩
    | _ => exact .inr ⟨_, rfl, nofun⟩

theorem saysName_or (members : Json.Members) :
    (∃ name, SaysName members name) ∨
      ∃ found, members.lookup "name" = some found ∧ found ≠ .null ∧ ∀ s, found ≠ .str s := by
  cases h : members.lookup "name" with
  | none => exact .inl ⟨_, .absent h⟩
  | some found =>
    cases found with
    | null => exact .inl ⟨_, .null h⟩
    | str s => exact .inl ⟨_, .given h⟩
    | _ => exact .inr ⟨_, rfl, nofun, nofun⟩

theorem integerOf_of_lookup (h : members.lookup key = some (.int n)) :
    integerOf index members key = .ok n := by
  simp only [integerOf, h]

theorem ioBoundOf_eq_error (h : members.lookup "io_bound" = some found)
    (hbool : ∀ b, found ≠ .bool b) :
    ioBoundOf index members = .error (WorkloadError.ioBoundNotBool index found).raised := by
  cases found with
  | bool b => exact absurd rfl (hbool b)
  | _ => simp only [ioBoundOf, h]

theorem nameOf_eq_error (h : members.lookup "name" = some found) (hnull : found ≠ .null)
    (hstr : ∀ s, found ≠ .str s) :
    nameOf index members = .error (WorkloadError.nameNotString index found).raised := by
  cases found with
  | null => exact absurd rfl hnull
  | str s => exact absurd rfl (hstr s)
  | _ => simp only [nameOf, h]

theorem integerOf_eq_error (h : members.lookup key = some found) (hint : ∀ n, found ≠ .int n) :
    integerOf index members key = .error (WorkloadError.notInteger index key found).raised := by
  cases found with
  | int n => exact absurd rfl (hint n)
  | _ => simp only [integerOf, h]

theorem Describes.specOf (h : Describes record spec) (index : Nat) :
    specOf index record = .ok spec := by
  cases h with
  | record hpid harrival hburst hioBound hname =>
    simp only [Workload.specOf, hioBound.ioBoundOf, hname.nameOf, integerOf_of_lookup hpid,
      integerOf_of_lookup harrival, integerOf_of_lookup hburst, Spec.make_self, Except.mapError,
      bind, Except.bind]

/-- The first integer that cannot be read is what a record is refused for. -/
theorem specOf_of_integerOf (hioBound : SaysIoBound members ioBound)
    (hname : SaysName members name) (hkeys : integerKeys = before ++ key :: after)
    (hbefore : ∀ k ∈ before, ∃ n, members.lookup k = some (.int n))
    (h : integerOf index members key = .error f) : specOf index (.obj members) = .error f := by
  simp only [specOf, hioBound.ioBoundOf, hname.nameOf, bind, Except.bind]
  -- One case for each key, with those before it as the integers that were read.
  rcases before with _ | ⟨k, _ | ⟨l, _ | ⟨m, before⟩⟩⟩ <;>
    simp only [integerKeys, List.nil_append, List.cons_append, List.cons.injEq] at hkeys
  · obtain ⟨rfl, rfl⟩ := hkeys
    simp only [h]
  · obtain ⟨rfl, rfl, rfl⟩ := hkeys
    obtain ⟨pid, hpid⟩ := hbefore "pid" (by simp)
    simp only [integerOf_of_lookup hpid, h]
  · obtain ⟨rfl, rfl, rfl, rfl⟩ := hkeys
    obtain ⟨pid, hpid⟩ := hbefore "pid" (by simp)
    obtain ⟨arrival, harrival⟩ := hbefore "arrival_time" (by simp)
    simp only [integerOf_of_lookup hpid, integerOf_of_lookup harrival, h]
  · simp at hkeys

theorem Malformed.specOf (h : Malformed index record e) :
    specOf index record = .error e.raised := by
  cases h with
  | notObject h =>
    unfold Workload.specOf
    split
    · exact absurd rfl (h _)
    · rfl
  | ioBound h hbool =>
    simp only [Workload.specOf, ioBoundOf_eq_error h hbool, bind, Except.bind]
  | name hioBound h hnull hstr =>
    simp only [Workload.specOf, hioBound.ioBoundOf, nameOf_eq_error h hnull hstr, bind, Except.bind]
  | missing hioBound hname hkeys hbefore h =>
    exact specOf_of_integerOf hioBound hname hkeys hbefore (by simp only [integerOf, h])
  | notInteger hioBound hname hkeys hbefore h hint =>
    exact specOf_of_integerOf hioBound hname hkeys hbefore (integerOf_eq_error h hint)
  | spec hioBound hname hpid harrival hburst h =>
    simp only [Workload.specOf, hioBound.ioBoundOf, hname.nameOf, integerOf_of_lookup hpid,
      integerOf_of_lookup harrival, integerOf_of_lookup hburst, h.make, Except.mapError, bind,
      Except.bind]
    rfl

theorem describes_or_malformed (index : Nat) (record : Json.Value) :
    (∃ spec, Describes record spec) ∨ ∃ e, Malformed index record e := by
  by_cases hobj : ∃ members, record = .obj members
  · obtain ⟨members, rfl⟩ := hobj
    rcases saysIoBound_or members with ⟨ioBound, hioBound⟩ | ⟨found, hfound, hbool⟩
    · rcases saysName_or members with ⟨name, hname⟩ | ⟨found, hfound, hnull, hstr⟩
      · rcases forall_or_first (fun key => ∃ n, members.lookup key = some (.int n)) integerKeys with
          hall | ⟨before, key, after, hkeys, hbefore, hkey⟩
        · obtain ⟨pid, hpid⟩ := hall "pid" (by decide)
          obtain ⟨arrival, harrival⟩ := hall "arrival_time" (by decide)
          obtain ⟨burst, hburst⟩ := hall "burst_time" (by decide)
          rcases schedulable_or pid arrival burst with ⟨h1, h2, h3⟩ | ⟨e, he⟩
          · exact .inl ⟨⟨pid, arrival, burst, ioBound, name, h1, h2, h3⟩,
              .record hpid harrival hburst hioBound hname⟩
          · exact .inr ⟨_, .spec hioBound hname hpid harrival hburst he⟩
        · cases h : members.lookup key with
          | none => exact .inr ⟨_, .missing hioBound hname hkeys hbefore h⟩
          | some found =>
            refine .inr ⟨_, .notInteger hioBound hname hkeys hbefore h ?_⟩
            rintro n rfl
            exact hkey ⟨n, h⟩
      · exact .inr ⟨_, .name hioBound hfound hnull hstr⟩
    · exact .inr ⟨_, .ioBound hfound hbool⟩
  · exact .inr ⟨_, .notObject fun members h => hobj ⟨members, h⟩⟩

theorem SaysIoBound.found (h : SaysIoBound members ioBound) :
    ∀ found, members.lookup "io_bound" = some found → ∃ b, found = .bool b := by
  intro found hfound
  cases h with
  | absent h => cases h.symm.trans hfound
  | given h =>
    cases h.symm.trans hfound
    exact ⟨_, rfl⟩

theorem SaysName.found (h : SaysName members name) :
    ∀ found, members.lookup "name" = some found → found = .null ∨ ∃ s, found = .str s := by
  intro found hfound
  cases h with
  | absent h => cases h.symm.trans hfound
  | null h =>
    cases h.symm.trans hfound
    exact .inl rfl
  | given h =>
    cases h.symm.trans hfound
    exact .inr ⟨_, rfl⟩

theorem exists_describes_iff :
    (∃ spec, Describes record spec) ↔ ∃ members, record = .obj members ∧ WellFormed members := by
  constructor
  · rintro ⟨spec, h⟩
    cases h with
    | record hpid harrival hburst hioBound hname =>
      exact ⟨_, rfl, ⟨_, hpid, spec.pid_nonneg⟩, ⟨_, harrival, spec.arrival_nonneg⟩,
        ⟨_, hburst, spec.burst_pos⟩, hioBound.found, hname.found⟩
  · rintro ⟨members, rfl, ⟨pid, hpid, h1⟩, ⟨arrival, harrival, h2⟩, ⟨burst, hburst, h3⟩, hioBound,
      hname⟩
    rcases saysIoBound_or members with ⟨ioBound, hsays⟩ | ⟨found, hfound, hbool⟩
    · rcases saysName_or members with ⟨name, hsays'⟩ | ⟨found, hfound, hnull, hstr⟩
      · exact ⟨⟨pid, arrival, burst, ioBound, name, h1, h2, h3⟩,
          .record hpid harrival hburst hsays hsays'⟩
      · rcases hname found hfound with rfl | ⟨s, rfl⟩
        · exact absurd rfl hnull
        · exact absurd rfl (hstr s)
    · obtain ⟨b, rfl⟩ := hioBound found hfound
      exact absurd rfl (hbool b)

-- ---------------------------------------------------------------------------
-- Lists of records are read
-- ---------------------------------------------------------------------------

variable {records before after : List Json.Value} {specs : List Spec}

theorem specsOf_of_describes (h : List.Forall₂ Describes records specs) (index : Nat) :
    specsOf index records = .ok specs := by
  induction h generalizing index with
  | nil => rfl
  | cons hrecord _ ih =>
    simp only [specsOf, hrecord.specOf, ih, bind, Except.bind, pure, Except.pure]

theorem specsOf_of_malformed (hbefore : ∀ r ∈ before, ∃ spec, Describes r spec)
    (h : Malformed (index + before.length) record e) :
    specsOf index (before ++ record :: after) = .error e.raised := by
  induction before generalizing index with
  | nil =>
    have hrecord : specOf index record = .error e.raised := h.specOf
    simp only [List.nil_append, specsOf, hrecord, bind, Except.bind]
  | cons r rest ih =>
    obtain ⟨⟨spec, hspec⟩, hrest⟩ := List.forall_mem_cons.mp hbefore
    rw [List.length_cons, ← Nat.add_assoc, Nat.add_right_comm] at h
    simp only [List.cons_append, specsOf, hspec.specOf, ih hrest h, bind, Except.bind]

theorem exists_specs (h : ∀ r ∈ records, ∃ spec, Describes r spec) :
    ∃ specs, List.Forall₂ Describes records specs := by
  induction records with
  | nil => exact ⟨[], .nil⟩
  | cons r rest ih =>
    obtain ⟨⟨spec, hspec⟩, hrest⟩ := List.forall_mem_cons.mp h
    obtain ⟨specs, hspecs⟩ := ih hrest
    exact ⟨spec :: specs, .cons hspec hspecs⟩

theorem map_pidOf (h : List.Forall₂ Describes records specs) :
    records.map pidOf = specs.map fun spec => some (.int spec.pid) := by
  induction h with
  | nil => rfl
  | cons hrecord _ ih =>
    cases hrecord with
    | record hpid => rw [List.map_cons, List.map_cons, ih, pidOf, hpid]

theorem nodup_pidOf (h : List.Forall₂ Describes records specs) :
    (records.map pidOf).Nodup ↔ (specs.map Spec.pid).Nodup := by
  have hinjective : Function.Injective fun pid : Int => some (Json.Value.int pid) := by
    intro a b hab
    simpa using hab
  rw [map_pidOf h, ← List.nodup_map_iff hinjective, List.map_map]
  rfl

-- ---------------------------------------------------------------------------
-- Pids that repeat
-- ---------------------------------------------------------------------------

theorem Repeats.unique (h : Repeats l pids) (h' : Repeats l pids') : pids = pids' :=
  h.ascending.eq_of_mem_iff h'.ascending fun pid => (h.mem_iff pid).trans (h'.mem_iff pid).symm

theorem Repeats.eq_nil_iff (h : Repeats l pids) : pids = [] ↔ l.Nodup := by
  simp only [List.eq_nil_iff_forall_not_mem, h.mem_iff, Nat.not_lt, List.nodup_iff_count_le_one]

theorem nodup_eraseDups [BEq α] [LawfulBEq α] (l : List α) : l.eraseDups.Nodup := by
  cases l with
  | nil => simp
  | cons x rest =>
    rw [List.eraseDups_cons, List.nodup_cons]
    exact ⟨by simp, nodup_eraseDups _⟩
termination_by l.length
decreasing_by simpa using Nat.lt_succ_of_le (List.length_filter_le _ rest)

theorem repeats_repeatedPids (l : List Int) : Repeats l (repeatedPids l) := by
  constructor
  · have hle : (repeatedPids l).Pairwise (· ≤ ·) := List.pairwise_mergeSort' (· ≤ ·) _
    have hnodup : (repeatedPids l).Nodup :=
      (List.mergeSort_perm _ _).nodup_iff.mpr (nodup_eraseDups _)
    exact hle.and hnodup |>.imp fun h => Int.lt_iff_le_and_ne.mpr h
  · intro pid
    rw [repeatedPids, List.mem_mergeSort, List.mem_eraseDups, List.mem_filter, decide_eq_true_iff]
    exact and_iff_right_of_imp fun h => List.count_pos_iff.mp (Nat.zero_lt_of_lt h)

-- ---------------------------------------------------------------------------
-- Documents are read
-- ---------------------------------------------------------------------------

variable {data : Json.Value} {w : Workload}

theorem parse_of_describes (hrecords : recordsOf data = .arr records)
    (h : List.Forall₂ Describes records w.specs) : parse data = .ok w := by
  simp only [parse, hrecords, specsOf_of_describes h, bind, Except.bind, dif_pos w.nonempty,
    dif_pos w.distinct]
  rfl

theorem Refused.parse (h : Refused data e) : parse data = .error e.raised := by
  cases h with
  | notList h =>
    unfold Workload.parse
    split
    · exact absurd ‹_› (h _)
    · rfl
  | @malformed before record after _ hrecords hbefore h =>
    have hspecs : specsOf 0 (before ++ record :: after) = .error e.raised :=
      specsOf_of_malformed (fun r hr => exists_describes_iff.mpr (hbefore r hr))
        ((Nat.zero_add _).symm ▸ h)
    simp only [Workload.parse, hrecords, hspecs, bind, Except.bind]
  | empty hrecords =>
    simp only [Workload.parse, hrecords]
    rfl
  | @repeated records pids specs hrecords hspecs hpids hne =>
    have hrepeated : ¬ (specs.map Spec.pid).Nodup := hpids.eq_nil_iff.not.mp hne
    have hnonempty : specs ≠ [] := by
      rintro rfl
      exact hrepeated .nil
    simp only [Workload.parse, hrecords, specsOf_of_describes hspecs, bind, Except.bind,
      dif_pos hnonempty, dif_neg hrepeated, (repeats_repeatedPids _).unique hpids]
    rfl

theorem described_or_refused (data : Json.Value) :
    (∃ (w : Workload) (records : _), recordsOf data = .arr records ∧
      List.Forall₂ Describes records w.specs) ∨ ∃ e, Refused data e := by
  by_cases hlist : ∃ records, recordsOf data = .arr records
  · obtain ⟨records, hrecords⟩ := hlist
    rcases forall_or_first (fun r => ∃ spec, Describes r spec) records with
      hall | ⟨before, record, after, rfl, hbefore, hrecord⟩
    · obtain ⟨specs, hspecs⟩ := exists_specs hall
      by_cases hempty : specs = []
      · subst hempty
        cases hspecs
        exact .inr ⟨_, .empty hrecords⟩
      · by_cases hdistinct : (specs.map Spec.pid).Nodup
        · exact .inl ⟨⟨specs, hempty, hdistinct⟩, records, hrecords, hspecs⟩
        · have hrepeats := repeats_repeatedPids (specs.map Spec.pid)
          exact .inr ⟨_, .repeated hrecords hspecs hrepeats (hrepeats.eq_nil_iff.not.mpr hdistinct)⟩
    · refine .inr ((describes_or_malformed before.length record).resolve_left hrecord |>.imp ?_)
      exact fun e he => .malformed hrecords (fun r hr => exists_describes_iff.mp (hbefore r hr)) he
  · exact .inr ⟨_, .notList fun records h => hlist ⟨records, h⟩⟩

theorem parse_eq_ok : parse data = .ok w ↔
    ∃ records, recordsOf data = .arr records ∧ List.Forall₂ Describes records w.specs := by
  refine ⟨fun h => ?_, fun ⟨records, hrecords, hspecs⟩ => parse_of_describes hrecords hspecs⟩
  rcases described_or_refused data with ⟨w', records, hrecords, hspecs⟩ | ⟨e, he⟩
  · cases (parse_of_describes hrecords hspecs).symm.trans h
    exact ⟨records, hrecords, hspecs⟩
  · cases he.parse.symm.trans h

theorem parse_eq_error : parse data = .error f ↔ ∃ e, Refused data e ∧ f = e.raised := by
  refine ⟨fun h => ?_, fun ⟨e, he, heq⟩ => heq ▸ he.parse⟩
  rcases described_or_refused data with ⟨w, records, hrecords, hspecs⟩ | ⟨e, he⟩
  · cases (parse_of_describes hrecords hspecs).symm.trans h
  · cases he.parse.symm.trans h
    exact ⟨e, he, rfl⟩

theorem exists_parse_iff : (∃ w, parse data = .ok w) ↔
    ∃ records, recordsOf data = .arr records ∧ records ≠ [] ∧
      (∀ r ∈ records, ∃ members, r = .obj members ∧ WellFormed members) ∧
      (records.map pidOf).Nodup := by
  constructor
  · rintro ⟨w, h⟩
    obtain ⟨records, hrecords, hspecs⟩ := parse_eq_ok.mp h
    refine ⟨records, hrecords, ?_, fun r hr => exists_describes_iff.mp ?_,
      (nodup_pidOf hspecs).mpr w.distinct⟩
    · rintro rfl
      exact w.nonempty (List.forall₂_nil_left_iff.mp hspecs)
    · obtain ⟨k, hk, rfl⟩ := List.getElem_of_mem hr
      exact ⟨_, hspecs.get hk (hspecs.length_eq ▸ hk)⟩
  · rintro ⟨records, hrecords, hne, hall, hdistinct⟩
    obtain ⟨specs, hspecs⟩ := exists_specs fun r hr => exists_describes_iff.mpr (hall r hr)
    have hnonempty : specs ≠ [] := by
      rintro rfl
      exact hne (List.forall₂_nil_right_iff.mp hspecs)
    exact ⟨⟨specs, hnonempty, (nodup_pidOf hspecs).mp hdistinct⟩,
      parse_eq_ok.mpr ⟨records, hrecords, hspecs⟩⟩

-- ---------------------------------------------------------------------------
-- What messages quote
-- ---------------------------------------------------------------------------

theorem Malformed.isWritable (h : Malformed index record e) (hrecord : record.isWritable) :
    e.phrase.isWritable := by
  cases h with
  | ioBound h _ =>
    simp [WorkloadError.phrase, WorkloadError.record, Json.Value.isWritable_display,
      Json.Value.isWritable_of_lookup hrecord h]
  | name _ h _ _ =>
    simp [WorkloadError.phrase, WorkloadError.record, Json.Value.isWritable_display,
      Json.Value.isWritable_of_lookup hrecord h]
  | notInteger _ _ _ _ h _ =>
    simp [WorkloadError.phrase, WorkloadError.record, Json.Value.isWritable_display,
      Json.Value.isWritable_of_lookup hrecord h]
  | spec _ _ hpid harrival hburst h =>
    have hpid : Text.isWritable _ := Json.Value.isWritable_of_lookup hrecord hpid
    have harrival : Text.isWritable _ := Json.Value.isWritable_of_lookup hrecord harrival
    have hburst : Text.isWritable _ := Json.Value.isWritable_of_lookup hrecord hburst
    cases h <;> simp [WorkloadError.phrase, SpecError.phrase, hpid, harrival, hburst]
  | _ => rfl

theorem Describes.pid_isWritable (h : Describes record spec) (hrecord : record.isWritable) :
    Text.isWritable spec.pid := by
  cases h with
  | record hpid => exact Json.Value.isWritable_of_lookup hrecord hpid

theorem isWritable_recordsOf (hdata : data.isWritable) : (recordsOf data).isWritable := by
  unfold recordsOf
  split
  · next members =>
    cases h : members.lookup "processes" with
    | none => exact hdata
    | some records => exact Json.Value.isWritable_of_lookup hdata h
  · exact hdata

/-- A message quotes parts of the document only. -/
theorem Refused.isWritable (h : Refused data e) (hdata : data.isWritable) :
    e.phrase.isWritable := by
  have hrecords := isWritable_recordsOf hdata
  cases h with
  | malformed heq _ h =>
    rw [heq] at hrecords
    exact h.isWritable (Json.Value.isWritable_of_mem hrecords (by simp))
  | repeated heq hspecs hpids _ =>
    rw [heq] at hrecords
    simp only [WorkloadError.phrase, Text.Phrase.isWritable_cons, Text.Piece.isWritable_words,
      Text.Phrase.isWritable_join, Bool.true_and, List.all_map, List.all_eq_true]
    intro pid hpid
    have hcount := (hpids.mem_iff pid).mp hpid
    obtain ⟨spec, hspec, rfl⟩ := List.mem_map.mp (List.count_pos_iff.mp (Nat.zero_lt_of_lt hcount))
    obtain ⟨k, hk, rfl⟩ := List.getElem_of_mem hspec
    have hk' := hspecs.length_eq ▸ hk
    have hpid := (hspecs.get hk' hk).pid_isWritable
      (Json.Value.isWritable_of_mem hrecords (List.getElem_mem hk'))
    simpa using hpid
  | _ => rfl

/-- What is wrong with a document whose integers can all be written can be told. -/
theorem rejected_of_parse (hdata : data.isWritable) (h : parse data = .error f) :
    ∃ e, Refused data e ∧ f = .rejected e := by
  obtain ⟨e, he, rfl⟩ := parse_eq_error.mp h
  exact ⟨e, he, WorkloadError.raised_of_isWritable (he.isWritable hdata)⟩

-- ---------------------------------------------------------------------------
-- Records that are written
-- ---------------------------------------------------------------------------

/-- A record of everything about a job. -/
def recordOf (spec : Spec) : Json.Value := .obj [
  ("pid", .int spec.pid),
  ("arrival_time", .int spec.arrival),
  ("burst_time", .int spec.burst),
  ("io_bound", .bool spec.ioBound),
  ("name", .ofStr? spec.name)]

theorem describes_recordOf (spec : Spec) : Describes (recordOf spec) spec := by
  refine .record rfl rfl rfl (.given rfl) ?_
  cases h : spec.name with
  | none => exact .null rfl
  | some name => exact .given rfl

theorem describes_map_recordOf (specs : List Spec) :
    List.Forall₂ Describes (specs.map recordOf) specs := by
  rw [List.forall₂_map_left_iff, List.forall₂_same]
  exact fun spec _ => describes_recordOf spec

/-- A list of records is the records of a document, by itself and wrapped in an object. -/
theorem recordsOf_wrapped (h : members.lookup "processes" = some (.arr records)) :
    recordsOf (.obj members) = .arr records := by
  simp [recordsOf, h]

end

/-- A document is read as a workload exactly when it lists at least one record, all records
describe jobs, and no two have one pid. The jobs are then those described, in order, and can be
scheduled. Otherwise it is refused for the first record that describes no job, or for the pids
that repeat if there is no such record. The message quotes no integer that the document does not
contain, so in a document whose integers can all be written nothing but the refusal is reported.
However the jobs of a workload are described, by a list of records or an object with that list in
it, they are read as that workload. -/
theorem documents_read (data : Json.Value) (w : Workload) :
    ((∃ read, parse data = .ok read) ↔
      ∃ records, recordsOf data = .arr records ∧ records ≠ [] ∧
        (∀ r ∈ records, ∃ members, r = .obj members ∧ WellFormed members) ∧
        (records.map pidOf).Nodup) ∧
    (∀ read, parse data = .ok read →
      (∃ records, recordsOf data = .arr records ∧ List.Forall₂ Describes records read.specs) ∧
      ofSpecs read.specs = .ok read) ∧
    (∀ f, parse data = .error f ↔ ∃ e, Refused data e ∧ f = e.raised) ∧
    (data.isWritable → ∀ f, parse data = .error f ↔ ∃ e, Refused data e ∧ f = .rejected e) ∧
    List.Forall₂ Describes (w.specs.map recordOf) w.specs ∧
    ∀ records, List.Forall₂ Describes records w.specs →
      parse (.arr records) = .ok w ∧
      ∀ members : Json.Members, members.lookup "processes" = some (.arr records) →
        parse (.obj members) = .ok w := by
  refine ⟨exists_parse_iff, fun read h => ⟨parse_eq_ok.mp h, ?_⟩, fun f => parse_eq_error,
    fun hdata f => parse_eq_error.trans ?_, describes_map_recordOf w.specs,
    fun records h => ⟨?_, fun members hmembers => ?_⟩⟩
  · rw [ofSpecs, dif_pos read.nonempty, dif_pos read.distinct]
  · refine exists_congr fun e => and_congr_right fun he => ?_
    rw [WorkloadError.raised_of_isWritable (he.isWritable hdata)]
  · exact parse_of_describes rfl h
  · exact parse_of_describes (recordsOf_wrapped hmembers) h

/-- A record whose `io_bound` is an integer with too many digits. -/
def longFlag : Json.Value := .arr [.obj [
  ("pid", .int 1), ("arrival_time", .int 0), ("burst_time", .int 1),
  ("io_bound", .int Text.digitBound)]]

/-- It describes no job, which is not what is reported. -/
theorem long_flag_unreported :
    Refused longFlag (.ioBoundNotBool 0 (.int Text.digitBound)) ∧
      parse longFlag = .error (.fault (.numeral .tooLong)) := by
  have hrecords : ∃ record, recordsOf longFlag = .arr ([] ++ record :: []) ∧
      Malformed 0 record (.ioBoundNotBool 0 (.int Text.digitBound)) :=
    ⟨_, rfl, .ioBound rfl nofun⟩
  have hrefused : Refused longFlag (.ioBoundNotBool 0 (.int Text.digitBound)) := by
    obtain ⟨record, hrecords, hmalformed⟩ := hrecords
    exact .malformed hrecords nofun hmalformed
  refine ⟨hrefused, hrefused.parse.trans (congrArg Except.error ?_)⟩
  refine Text.Phrase.raise_of_not_isWritable ?_
  simp [WorkloadError.phrase, WorkloadError.record, Json.Value.isWritable_display,
    Json.Value.isWritable]

end Workload

end FeedbackQueue
