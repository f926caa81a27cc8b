import FeedbackQueue.Report.Text
import FeedbackQueue.Proofs.Scheduler.Reporting
import FeedbackQueue.Proofs.Text.Reading

/-!
# The results table

The table of a report has a line for each row, and four lines of frame. A cell is filled up to
the width of its column and never cut, so a line is longer than the frame by what its texts have
no room for, and the table is a rectangle exactly when every text fits its column. In a run the
times fit as long as the clock is early enough; names and bursts fit or not from the start.
-/

namespace FeedbackQueue

-- ---------------------------------------------------------------------------
-- Phrases
-- ---------------------------------------------------------------------------

namespace Text

variable {k : Nat} {n : Int} {c : Char}

namespace Phrase

theorem toList_concat (ps : List Phrase) :
    (concat ps).text.toList = ps.flatMap fun p => p.text.toList := by
  induction ps with
  | nil => rfl
  | cons p ps ih =>
    rw [List.flatMap_cons, ← ih]
    simp [concat, text]

@[simp] theorem text_nil : text [] = "" := rfl

@[simp] theorem text_cons (piece : Piece) (p : Phrase) :
    text (piece :: p) = piece.text ++ p.text := by
  simp [text]

end Phrase

/-- A number that is not negative has no sign, only digits. -/
theorem length_repr_le_iff (h : 0 ≤ n) (hk : 0 < k) : n.repr.length ≤ k ↔ n < 10 ^ k := by
  obtain ⟨m, rfl⟩ := Int.eq_ofNat_of_zero_le h
  have hdigits : (Int.ofNat m).repr.length ≤ k ↔ m < 10 ^ k := Nat.length_repr_le_iff hk
  exact_mod_cast hdigits

end Text

-- ---------------------------------------------------------------------------
-- Cells and lines
-- ---------------------------------------------------------------------------

namespace Table

variable {columns : List (String × Nat)} {values : List Text.Phrase} {c : Char}

/-- The length of a line in which every text fits. -/
def width : Nat := (tableColumns.map (·.2 + 1)).sum + 1

/-- By how much texts are too long for the columns that they are put in. -/
def overhangs (columns : List (String × Nat)) (values : List Text.Phrase) : List Nat :=
  List.zipWith (fun column value => value.text.length - (column.2 - 2)) columns values

def excess (values : List Text.Phrase) : Nat := (overhangs tableColumns values).sum

def cells (columns : List (String × Nat)) (values : List Text.Phrase) : List Text.Phrase :=
  List.zipWith (fun column value => cell column.2 value) columns values

theorem line_eq (values : List Text.Phrase) :
    line values = .concat [["|"], .join "|" (cells tableColumns values), ["|"]] := rfl

/-- A printable character of ASCII, among them all characters of the frame. -/
def isPlain (c : Char) : Bool := ' ' ≤ c && c ≤ '~'

theorem toList_cell (n : Nat) (value : Text.Phrase) : (cell n value).text.toList =
    ' ' :: value.text.toList ++ List.replicate (n - 2 - value.text.length) ' ' ++ [' '] := by
  rw [cell, Text.Phrase.toList_concat]
  simp [Text.Piece.text]

theorem length_cell (value : Text.Phrase) (hroom : 2 ≤ n) :
    (cell n value).text.toList.length = n + (value.text.length - (n - 2)) := by
  rw [toList_cell]
  simp only [List.length_append, List.length_cons, List.length_replicate, List.length_nil,
    String.length_toList]
  omega

theorem toList_line (hlength : values.length = tableColumns.length) : (line values).text.toList =
    (cells tableColumns values).flatMap (fun p => '|' :: p.text.toList) ++ ['|'] := by
  obtain ⟨value, values, rfl⟩ := List.exists_cons_of_length_eq_add_one hlength
  rw [line_eq, Text.Phrase.toList_concat]
  simp only [cells, tableColumns, List.zipWith_cons_cons, List.flatMap_cons, List.flatMap_nil,
    Text.toList_join, List.map_cons, Text.intercalate_cons, List.flatMap_map]
  simp [Text.Piece.text]

theorem sum_length_cells (hlength : values.length = columns.length)
    (hroom : ∀ column ∈ columns, 2 ≤ column.2) :
    ((cells columns values).map fun p => p.text.toList.length + 1).sum =
      (columns.map (·.2 + 1)).sum + (overhangs columns values).sum := by
  induction columns generalizing values with
  | nil => simp [cells, overhangs]
  | cons column columns ih =>
    obtain ⟨value, values, rfl⟩ := List.exists_cons_of_length_eq_add_one hlength
    obtain ⟨hcolumn, hcolumns⟩ := List.forall_mem_cons.mp hroom
    have hrest := ih (Nat.succ.inj hlength) hcolumns
    simp only [cells, overhangs, List.zipWith_cons_cons, List.map_cons, List.sum_cons,
      length_cell value hcolumn] at hrest ⊢
    omega

theorem length_line (hlength : values.length = tableColumns.length) :
    (line values).text.toList.length = width + excess values := by
  have hcells := sum_length_cells hlength (by decide)
  rw [toList_line hlength, List.length_append, List.length_flatMap]
  simp only [List.length_cons, List.length_nil, width, excess]
  omega

theorem mem_cell (h : c ∈ (cell n value).text.toList) : c = ' ' ∨ c ∈ value.text.toList := by
  rw [toList_cell] at h
  simp only [List.cons_append, List.mem_cons, List.mem_append, List.mem_replicate] at h
  tauto

theorem isPlain_of_mem_line (hlength : values.length = tableColumns.length)
    (h : c ∈ (line values).text.toList) : isPlain c ∨ ∃ value ∈ values, c ∈ value.text.toList := by
  rw [toList_line hlength, List.mem_append, List.mem_flatMap] at h
  rcases h with ⟨p, hp, h⟩ | h
  · rw [cells, ← List.map_uncurry_zip_eq_zipWith] at hp
    obtain ⟨⟨column, value⟩, hpair, rfl⟩ := List.mem_map.mp hp
    rcases List.mem_cons.mp h with rfl | h
    · exact .inl (by decide)
    · rcases mem_cell h with rfl | h
      · exact .inl (by decide)
      · exact .inr ⟨value, (List.of_mem_zip hpair).2, h⟩
  · obtain rfl := List.mem_singleton.mp h
    exact .inl (by decide)

theorem isPlain_of_inNumeral (h : Text.inNumeral c) : isPlain c := by
  rcases Bool.or_eq_true_iff.mp h with h | h
  · obtain ⟨hlow, hhigh⟩ := Bool.and_eq_true_iff.mp h
    have hlow : ' ' ≤ c := Char.le_trans (by decide) (of_decide_eq_true hlow)
    have hhigh : c ≤ '~' := Char.le_trans (of_decide_eq_true hhigh) (by decide)
    simp [isPlain, hlow, hhigh]
  · obtain rfl := of_decide_eq_true h
    decide

theorem isPlain_of_mem_time (h : c ∈ (time o).text.toList) : isPlain c := by
  cases o with
  | none =>
    obtain rfl : c = '-' := by simpa [time, Text.Piece.text] using h
    decide
  | some t =>
    have hdigit : c ∈ t.repr.toList := by simpa [time, Text.Piece.text] using h
    exact isPlain_of_inNumeral (Text.inNumeral_repr t c hdigit)

theorem length_time_le_iff (h : ∀ t ∈ o, 0 ≤ t) (hk : 0 < k) :
    (time o).text.length ≤ k ↔ ∀ t ∈ o, t < 10 ^ k := by
  cases o with
  | none => simpa [time, Text.Piece.text, show "-".length = 1 from rfl] using Nat.succ_le_of_lt hk
  | some t => simpa [time, Text.Piece.text] using Text.length_repr_le_iff (h t rfl) hk

theorem isWritable_time (o : Option Int) : (time o).isWritable = o.toList.all Text.isWritable := by
  cases o <;> simp [time, Text.Phrase.isWritable, Text.Piece.isWritable]

theorem isWritable_cell (n : Nat) (value : Text.Phrase) :
    (cell n value).isWritable = value.isWritable := by
  rw [cell, Text.Phrase.isWritable_concat]
  simp [Text.Phrase.isWritable, Text.Piece.isWritable]

end Table

-- ---------------------------------------------------------------------------
-- Rows
-- ---------------------------------------------------------------------------

namespace Row

variable {row : Row} {c : Char}

/-- What a row shows, column by column. -/
def values (row : Row) : List Text.Phrase :=
  [[row.name], [row.kind], [row.burst], Table.time row.response, Table.time row.completion,
    Table.time row.turnaround, Table.time row.waiting]

/-- The times that a row shows. -/
def times (row : Row) : List Int :=
  row.response.toList ++ row.completion.toList ++ row.turnaround.toList ++ row.waiting.toList

theorem mem_times {row : Row} : time ∈ row.times ↔ row.response = some time ∨
    row.completion = some time ∨ row.turnaround = some time ∨ row.waiting = some time := by
  simp [times]

/-- All integers that a row shows. -/
def numbers (row : Row) : List Int := row.burst :: row.times

/-- Every text of a row has room in its column, where no number is negative. -/
structure Fits (row : Row) : Prop where
  name : row.name.length ≤ 4
  burst : row.burst < 10 ^ 6
  response : ∀ time ∈ row.response, time < 10 ^ 9
  completion : ∀ time ∈ row.completion, time < 10 ^ 10
  turnaround : ∀ time ∈ row.turnaround, time < 10 ^ 12
  waiting : ∀ time ∈ row.waiting, time < 10 ^ 8

theorem isPlain_of_mem_kind (h : c ∈ (Text.Phrase.text [row.kind]).toList) : Table.isPlain c := by
  have hkind : row.kind.toList.all Table.isPlain := by
    unfold kind kindLabel
    cases row.ioBound <;> decide
  exact List.all_eq_true.mp hkind c (by simpa [Text.Piece.text] using h)

theorem line_eq (row : Row) : row.line = Table.line row.values := rfl

theorem length_line (row : Row) :
    row.line.text.toList.length = Table.width + Table.excess row.values :=
  Table.length_line rfl

theorem isPlain_of_mem_line (h : c ∈ row.line.text.toList) :
    Table.isPlain c ∨ c ∈ row.name.toList := by
  rcases Table.isPlain_of_mem_line rfl h with h | ⟨value, hvalue, h⟩
  · exact .inl h
  · simp only [List.mem_cons, List.not_mem_nil, or_false] at hvalue
    rcases hvalue with rfl | rfl | rfl | rfl | rfl | rfl | rfl
    · exact .inr (by simpa [Text.Piece.text] using h)
    · exact .inl (isPlain_of_mem_kind h)
    · exact .inl (Table.isPlain_of_mem_time (o := some row.burst) h)
    all_goals exact .inl (Table.isPlain_of_mem_time h)

/-- Without a sign a number has room exactly when it is below a power of ten. -/
theorem excess_eq_zero_iff (h : ∀ n ∈ row.numbers, 0 ≤ n) :
    Table.excess row.values = 0 ↔ row.Fits := by
  have hkind : row.kind.length = 9 := by
    unfold kind kindLabel
    cases row.ioBound <;> rfl
  have hlengths : Table.excess row.values = 0 ↔ row.name.length ≤ 4 ∧
      (Table.time (some row.burst)).text.length ≤ 6 ∧ (Table.time row.response).text.length ≤ 9 ∧
      (Table.time row.completion).text.length ≤ 10 ∧
      (Table.time row.turnaround).text.length ≤ 12 ∧ (Table.time row.waiting).text.length ≤ 8 := by
    simp [Table.excess, Table.overhangs, values, tableColumns, Table.time, Nat.sub_eq_zero_iff_le,
      Text.Piece.text, hkind]
  obtain ⟨hburst, htimes⟩ := List.forall_mem_cons.mp h
  have hfits {o : Option Int} {k : Nat} (ho : ∀ time ∈ o, time ∈ row.times) (hk : 0 < k) :
      (Table.time o).text.length ≤ k ↔ ∀ time ∈ o, time < 10 ^ k :=
    Table.length_time_le_iff (fun time htime => htimes time (ho time htime)) hk
  rw [hlengths, Table.length_time_le_iff (by simpa using hburst) (by decide),
    hfits (by simp +contextual [mem_times]) (by decide),
    hfits (by simp +contextual [mem_times]) (by decide),
    hfits (by simp +contextual [mem_times]) (by decide),
    hfits (by simp +contextual [mem_times]) (by decide)]
  constructor
  · rintro ⟨hname, hburst, hresponse, hcompletion, hturnaround, hwaiting⟩
    exact ⟨hname, hburst _ rfl, hresponse, hcompletion, hturnaround, hwaiting⟩
  · rintro ⟨hname, hburst, hresponse, hcompletion, hturnaround, hwaiting⟩
    exact ⟨hname, by simpa using hburst, hresponse, hcompletion, hturnaround, hwaiting⟩

theorem isWritable_line (row : Row) :
    row.line.isWritable = row.numbers.all Text.isWritable := by
  have hwords (s : String) : Text.Phrase.isWritable [s] = true := rfl
  have hburst : Text.Phrase.isWritable [row.burst] = Text.isWritable row.burst := by
    simp [Text.Phrase.isWritable, Text.Piece.isWritable]
  simp only [line_eq, Table.line_eq, Text.Phrase.isWritable_concat, Text.Phrase.isWritable_join,
    Table.cells, tableColumns, values, List.zipWith_cons_cons, List.zipWith_nil_left,
    List.all_cons, List.all_nil, Table.isWritable_cell, Table.isWritable_time, hwords, hburst,
    numbers, times, List.all_append, Bool.and_true, Bool.true_and, Bool.and_assoc]

/-- Numbers that fit their columns are short enough to be written. -/
theorem Fits.isWritable (h : row.Fits) (hnonneg : ∀ n ∈ row.numbers, 0 ≤ n) :
    ∀ n ∈ row.numbers, Text.isWritable n := by
  have hshort (n : Int) (h0 : 0 ≤ n) (hlt : n < 10 ^ 12) : Text.isWritable n := by
    refine Text.isWritable_of_lt (k := 12) ?_ (by decide)
    show n.natAbs < 10 ^ 12
    omega
  intro n hn
  refine hshort n (hnonneg n hn) ?_
  rcases List.mem_cons.mp hn with rfl | hn
  · exact h.burst.trans (by decide)
  · rcases mem_times.mp hn with hn | hn | hn | hn
    · exact (h.response n hn).trans (by decide)
    · exact (h.completion n hn).trans (by decide)
    · exact h.turnaround n hn
    · exact (h.waiting n hn).trans (by decide)

/-- In a row of a narrow job all times fit that come from an early clock. -/
theorem fits_of_times_lt (hname : row.name.length ≤ 4) (hburst : row.burst < 10 ^ 6)
    (htimes : ∀ time ∈ row.times, time < 10 ^ 8) : row.Fits where
  name := hname
  burst := hburst
  response time h := (htimes time (mem_times.mpr (.inl h))).trans (by decide)
  completion time h := (htimes time (mem_times.mpr (.inr (.inl h)))).trans (by decide)
  turnaround time h := (htimes time (mem_times.mpr (.inr (.inr (.inl h))))).trans (by decide)
  waiting time h := htimes time (mem_times.mpr (.inr (.inr (.inr h))))

end Row

-- ---------------------------------------------------------------------------
-- Reports
-- ---------------------------------------------------------------------------

namespace Report

variable {r : Report} {line : Text.Phrase} {c : Char}

def separatorLine : Text.Phrase := [Table.separator]

/-- The line that names the columns. -/
def headerLine : Text.Phrase := Table.line (tableColumns.map fun column => [column.1])

theorem tableLines_eq (r : Report) : r.tableLines =
    [separatorLine, headerLine, separatorLine] ++ r.rows.map Row.line ++ [separatorLine] := rfl

theorem toList_separatorLine : separatorLine.text.toList = Table.separator.toList := by
  simp [separatorLine, Text.Piece.text]

theorem length_headerLine : headerLine.text.toList.length = Table.width := Table.length_line rfl

theorem lengths_tableLines (r : Report) :
    r.tableLines.map (fun line => line.text.toList.length) =
      [Table.width, Table.width, Table.width] ++
        r.rows.map (fun row => Table.width + Table.excess row.values) ++ [Table.width] := by
  have hseparator : Table.separator.toList.length = Table.width := by decide
  simp only [tableLines_eq, List.map_append, List.map_cons, List.map_nil, List.map_map,
    Function.comp_def, toList_separatorLine, hseparator, length_headerLine, Row.length_line]

theorem cases_of_mem_tableLines (h : line ∈ r.tableLines) :
    line = separatorLine ∨ line = headerLine ∨ ∃ row ∈ r.rows, row.line = line := by
  simp only [tableLines_eq, List.mem_append, List.mem_cons, List.not_mem_nil, or_false,
    List.mem_map] at h
  rcases h with ((h | h | h) | h) | h
  · exact .inl h
  · exact .inr (.inl h)
  · exact .inl h
  · exact .inr (.inr h)
  · exact .inl h

theorem isPlain_of_mem_headerLine (h : c ∈ headerLine.text.toList) : Table.isPlain c := by
  have hnames : tableColumns.all fun column => column.1.toList.all Table.isPlain := by decide
  rcases Table.isPlain_of_mem_line rfl h with h | ⟨value, hvalue, h⟩
  · exact h
  · obtain ⟨column, hcolumn, rfl⟩ := List.mem_map.mp hvalue
    exact List.all_eq_true.mp (List.all_eq_true.mp hnames column hcolumn) c
      (by simpa [Text.Piece.text] using h)

theorem isPlain_of_mem_tableLines (hline : line ∈ r.tableLines) (hc : c ∈ line.text.toList) :
    Table.isPlain c ∨ ∃ row ∈ r.rows, c ∈ row.name.toList := by
  have hseparator : Table.separator.toList.all Table.isPlain := by decide
  rcases cases_of_mem_tableLines hline with rfl | rfl | ⟨row, hrow, rfl⟩
  · rw [toList_separatorLine] at hc
    exact .inl (List.all_eq_true.mp hseparator c hc)
  · exact .inl (isPlain_of_mem_headerLine hc)
  · exact (Row.isPlain_of_mem_line hc).imp_right fun h => ⟨row, hrow, h⟩

/-- The lines of a table come apart again, unless a name has a line break of its own. -/
theorem lines_table (hbreak : ∀ row ∈ r.rows, '\n' ∉ row.name.toList) :
    Text.lines r.table.text.toList = r.tableLines.map fun line => line.text.toList := by
  rw [table, Text.toList_join]
  refine Text.lines_intercalate ?_ fun hempty => ?_
  · intro l hl hc
    obtain ⟨line, hline, rfl⟩ := List.mem_map.mp hl
    rcases isPlain_of_mem_tableLines hline hc with hplain | ⟨row, hrow, hname⟩
    · exact absurd hplain (by decide)
    · exact hbreak row hrow hname
  · have hzero := List.mem_map_of_mem (f := List.length) hempty
    rw [List.map_map, Function.comp_def, lengths_tableLines] at hzero
    simp [Table.width, tableColumns] at hzero

theorem isWritable_table (r : Report) :
    r.table.isWritable = r.rows.all fun row => row.numbers.all Text.isWritable := by
  have hseparator : separatorLine.isWritable := rfl
  have hheader : headerLine.isWritable := by decide
  simp only [table, Text.Phrase.isWritable_join, tableLines_eq, List.all_append, List.all_cons,
    List.all_nil, List.all_map, hseparator, hheader, Function.comp_def, Row.isWritable_line,
    Bool.true_and, Bool.and_true]

theorem write_table (r : Report) : r.table.write =
    if ∀ row ∈ r.rows, ∀ n ∈ row.numbers, Text.isWritable n then .ok r.table.text
    else .error .tooLong := by
  simp only [Text.Phrase.write, isWritable_table, List.all_eq_true]

theorem lengths_lines (hbreak : ∀ row ∈ r.rows, '\n' ∉ row.name.toList) :
    (Text.lines r.table.text.toList).map List.length =
      [Table.width, Table.width, Table.width] ++
        r.rows.map (fun row => Table.width + Table.excess row.values) ++ [Table.width] := by
  rw [lines_table hbreak, List.map_map]
  exact r.lengths_tableLines

/-- All lines are as long as those of the frame exactly when the rows are. -/
theorem rectangular_iff (hbreak : ∀ row ∈ r.rows, '\n' ∉ row.name.toList)
    (hnonneg : ∀ row ∈ r.rows, ∀ n ∈ row.numbers, 0 ≤ n) :
    let lines := Text.lines r.table.text.toList
    (∀ l ∈ lines, ∀ l' ∈ lines, l.length = l'.length) ↔ ∀ row ∈ r.rows, row.Fits := by
  intro lines
  have hlengths : lines.map List.length = _ := lengths_lines hbreak
  have hmem (n : Nat) : (∃ l ∈ lines, l.length = n) ↔
      n = Table.width ∨ ∃ row ∈ r.rows, Table.width + Table.excess row.values = n := by
    rw [← List.mem_map, hlengths]
    simp [or_comm]
  have hexcess : (∀ row ∈ r.rows, row.Fits) ↔ ∀ row ∈ r.rows, Table.excess row.values = 0 :=
    forall₂_congr fun row hrow => (Row.excess_eq_zero_iff (hnonneg row hrow)).symm
  rw [hexcess]
  constructor
  · -- Every row has the frame to be compared with.
    intro h row hrow
    obtain ⟨l, hl, hwidth⟩ := (hmem _).mpr (.inl rfl)
    obtain ⟨l', hl', hlong⟩ := (hmem _).mpr (.inr ⟨row, hrow, rfl⟩)
    have heq := h l hl l' hl'
    omega
  · intro h
    have hall (l : List Char) (hl : l ∈ lines) : l.length = Table.width := by
      rcases (hmem _).mp ⟨l, hl, rfl⟩ with hwidth | ⟨row, hrow, hlong⟩
      · exact hwidth
      · rw [← hlong, h row hrow, Nat.add_zero]
    intro l hl l' hl'
    rw [hall l hl, hall l' hl']

end Report

-- ---------------------------------------------------------------------------
-- Tables of runs
-- ---------------------------------------------------------------------------

theorem Spec.label_eq {spec : Spec} (h : spec.name = none) :
    spec.label = "P" ++ spec.pid.repr := by
  rw [label, h]
  rfl

/-- A default name is as long as its pid. -/
theorem Spec.length_label_le_iff {spec : Spec} (h : spec.name = none) (hk : 0 < k) :
    spec.label.length ≤ k + 1 ↔ spec.pid < 10 ^ k := by
  rw [label_eq h, String.length_append, Nat.add_comm, show "P".length = 1 from rfl,
    Nat.add_le_add_iff_right]
  exact Text.length_repr_le_iff spec.pid_nonneg hk

/-- A job whose name and burst fit their columns; without a name it is shown by its pid. -/
structure Spec.Narrow (spec : Spec) : Prop where
  name : ∀ name ∈ spec.name, name.length ≤ 4
  pid : spec.name = none → spec.pid < 10 ^ 3
  burst : spec.burst < 10 ^ 6

theorem Spec.Narrow.label {spec : Spec} (h : spec.Narrow) : spec.label.length ≤ 4 := by
  cases hname : spec.name with
  | none => exact (Spec.length_label_le_iff hname (by decide)).mpr (h.pid hname)
  | some name =>
    rw [Spec.label, hname]
    exact h.name name hname

/-- A line break in the name shown for a job is one in its own name. -/
theorem Spec.not_mem_label {spec : Spec} (h : ∀ name ∈ spec.name, '\n' ∉ name.toList) :
    '\n' ∉ spec.label.toList := by
  cases hname : spec.name with
  | none =>
    rw [label_eq hname, String.toList_append]
    intro hmem
    rcases List.mem_append.mp hmem with hmem | hmem
    · exact absurd hmem (by decide)
    · exact absurd (Text.inNumeral_repr spec.pid _ hmem) (by decide)
  | some name =>
    rw [Spec.label, hname]
    exact h name hname

namespace Workload

open Scheduler

variable {w : Workload} {config : Config} {policy : SlicePolicy w.size}

/-- No time that a row shows is negative, or later than the clock. -/
theorem times_within (calls : List (Scheduler.Call w.size)) (i : Fin w.size) :
    let s := (w.start config).drive policy calls
    ∀ time ∈ (Row.ofProc (s.process i)).times, 0 ≤ time ∧ time ≤ s.clock := by
  intro s time htime
  have htimed : s.Timed := timed_drive calls
  have hs : s.Sound := sound_drive calls
  have harrival := (s.process i).spec.arrival_nonneg
  have hburst := (s.process i).spec.burst_pos
  -- Between arrival and completion there was at least the burst.
  have hserved {completion : Int} (h : (s.process i).completion = some completion) :
      (s.process i).spec.arrival + (s.process i).spec.burst ≤ completion ∧
        completion ≤ s.clock := by
    obtain ⟨first, hspans⟩ := (htimed i).spans (hs.process i) h
    have hfirst : (s.process i).spec.arrival ≤ first := hspans.arrival_le
    have hlast : first + (s.process i).spec.burst ≤ completion := hspans.burst_le
    exact ⟨by omega, (htimed i).completed completion h⟩
  rcases Row.mem_times.mp htime with hresponse | hcompletion | hturnaround | hwaiting
  · obtain ⟨first, hfirst, rfl⟩ := Option.map_eq_some_iff.mp hresponse
    have hclock : first ≤ s.clock := (htimed i).begun first hfirst
    have harrived : (s.process i).spec.arrival ≤ first := ((htimed i).served first hfirst).1
    omega
  · obtain ⟨hlast, hclock⟩ := hserved hcompletion
    omega
  · obtain ⟨completion, hcompletion, rfl⟩ := Option.map_eq_some_iff.mp hturnaround
    obtain ⟨hlast, hclock⟩ := hserved hcompletion
    omega
  · obtain ⟨turnaround, hturnaround, rfl⟩ := Option.map_eq_some_iff.mp hwaiting
    obtain ⟨completion, hcompletion, rfl⟩ := Option.map_eq_some_iff.mp hturnaround
    obtain ⟨hlast, hclock⟩ := hserved hcompletion
    omega

/-- The row of a job has its name and its burst, and times of the run. -/
theorem row_of_report {r : Report} (calls : List (Scheduler.Call w.size)) :
    let s := (w.start config).drive policy calls
    s.report = .ok r → row ∈ r.rows → ∃ spec ∈ w.specs, row.name = spec.label ∧
      row.burst = spec.burst ∧ ∀ time ∈ row.times, 0 ≤ time ∧ time ≤ s.clock := by
  intro s hr hrow
  obtain ⟨i, rfl⟩ := (mem_rows hr).mp hrow
  have hspec : (s.process i).spec = w.spec i := spec_drive calls i
  exact ⟨w.spec i, mem_specs.mpr ⟨i, rfl⟩, congrArg Spec.label hspec, congrArg Spec.burst hspec,
    times_within calls i⟩

/-- However a workload is driven, the table of its report has a line for each row and four lines
of frame, as long as no name has a line break. A row is longer than the frame by what its texts
have no room for, so the lines are equally long exactly when every text fits its column, and all
of them fit while the jobs are narrow and the clock is early. Besides printable ASCII only names
bring characters into the table, and only a number that is too long keeps it from being
written. -/
theorem table_rectangular_iff (w : Workload) (config : Config) (policy : SlicePolicy w.size)
    (calls : List (Scheduler.Call w.size))
    (hbreak : ∀ spec ∈ w.specs, ∀ name ∈ spec.name, '\n' ∉ name.toList) :
    let s := (w.start config).drive policy calls
    ∀ r, s.report = .ok r →
      let lines := Text.lines r.table.text.toList
      (r.table.write = if ∀ row ∈ r.rows, ∀ n ∈ row.numbers, Text.isWritable n
        then .ok r.table.text else .error .tooLong) ∧
      lines.length = r.rows.length + 4 ∧
      (∀ l ∈ lines, ∀ c ∈ l, Table.isPlain c ∨ ∃ spec ∈ w.specs, c ∈ spec.label.toList) ∧
      lines.map List.length =
        [80, 80, 80] ++ r.rows.map (fun row => 80 + Table.excess row.values) ++ [80] ∧
      ((∀ l ∈ lines, ∀ l' ∈ lines, l.length = l'.length) ↔ ∀ row ∈ r.rows, row.Fits) ∧
      ((∀ row ∈ r.rows, row.Fits) → r.table.write = .ok r.table.text) ∧
      ((∀ spec ∈ w.specs, spec.Narrow) → s.clock < 10 ^ 8 → ∀ row ∈ r.rows, row.Fits) := by
  intro s r hr lines
  have hrows (row : Row) (hrow : row ∈ r.rows) := row_of_report calls hr hrow
  have hbreak' : ∀ row ∈ r.rows, '\n' ∉ row.name.toList := by
    intro row hrow
    obtain ⟨spec, hspec, hname, -⟩ := hrows row hrow
    rw [hname]
    exact Spec.not_mem_label (hbreak spec hspec)
  have hnonneg : ∀ row ∈ r.rows, ∀ n ∈ row.numbers, 0 ≤ n := by
    intro row hrow n hn
    obtain ⟨spec, -, -, hburst, htimes⟩ := hrows row hrow
    rcases List.mem_cons.mp hn with rfl | hn
    · exact hburst ▸ Int.le_of_lt spec.burst_pos
    · exact (htimes n hn).1
  have hlengths : lines.map List.length = _ := r.lengths_lines hbreak'
  refine ⟨r.write_table, ?_, ?_, hlengths, r.rectangular_iff hbreak' hnonneg, ?_, ?_⟩
  · rw [← List.length_map List.length, hlengths]
    simp
  · intro l hl c hc
    rw [show lines = _ from r.lines_table hbreak'] at hl
    obtain ⟨line, hline, rfl⟩ := List.mem_map.mp hl
    refine (Report.isPlain_of_mem_tableLines hline hc).imp_right ?_
    rintro ⟨row, hrow, hc⟩
    obtain ⟨spec, hspec, hname, -⟩ := hrows row hrow
    exact ⟨spec, hspec, hname ▸ hc⟩
  · intro hfits
    rw [r.write_table, if_pos fun row hrow => (hfits row hrow).isWritable (hnonneg row hrow)]
  · intro hnarrow hclock row hrow
    obtain ⟨spec, hspec, hname, hburst, htimes⟩ := hrows row hrow
    refine Row.fits_of_times_lt ?_ ?_ fun time htime => (htimes time htime).2.trans_lt hclock
    · exact hname ▸ (hnarrow spec hspec).label
    · exact hburst ▸ (hnarrow spec hspec).burst

/-- A job without a name and one with a name, both unfinished. -/
theorem table_rectangular_narrow :
    let w : Workload :=
      ⟨[⟨999, 0, 25, false, none, by decide, by decide, by decide⟩,
        ⟨7, 3, 4, true, some "α β", by decide, by decide, by decide⟩], by decide, by decide⟩
    let s := (w.start .standard).drive .standard [.step, .step]
    (∀ spec ∈ w.specs, ∀ name ∈ spec.name, '\n' ∉ name.toList) ∧
      (∀ spec ∈ w.specs, spec.Narrow) ∧ s.clock = 12 ∧
      ∃ r, s.report = .ok r ∧ r.table.write = .ok r.table.text ∧
        ∀ l ∈ Text.lines r.table.text.toList, ∀ l' ∈ Text.lines r.table.text.toList,
          l.length = l'.length := by
  intro w s
  have hbreak : ∀ spec ∈ w.specs, ∀ name ∈ spec.name, '\n' ∉ name.toList := by decide
  have hnarrow : ∀ spec ∈ w.specs, spec.Narrow := by
    simp only [w, List.forall_mem_cons]
    refine ⟨⟨by simp, fun _ => by decide, by decide⟩, ⟨?_, by simp, by decide⟩, by simp⟩
    rintro name ⟨⟩
    decide
  have hclock : s.clock = 12 := by decide +kernel
  obtain ⟨r, hr⟩ : ∃ r, s.report = .ok r :=
    exists_report (by decide +kernel) _ (hclock ▸ by decide +kernel)
  obtain ⟨-, -, -, -, hrectangular, hwrite, hfits⟩ :=
    table_rectangular_iff w .standard .standard [.step, .step] hbreak r hr
  have hall := hfits hnarrow (hclock ▸ by decide)
  exact ⟨hbreak, hnarrow, hclock, r, hr, hwrite hall, hrectangular.mpr hall⟩

/-- The default name that a pid of four digits makes is too long for its column. -/
theorem default_name_widens_table :
    let w : Workload :=
      ⟨[⟨1000, 0, 1, false, none, by decide, by decide, by decide⟩], by decide, by decide⟩
    let s := (w.start .standard).afterSteps .standard 1
    s.done ∧ ∃ r, s.report = .ok r ∧ r.table.write = .ok r.table.text ∧
      (Text.lines r.table.text.toList).map List.length = [80, 80, 80, 81, 80] := by
  intro w s
  obtain ⟨calls, hcalls⟩ := (w.start .standard).exists_drive .standard 1
  have hclock : s.clock < 2 ^ 1023 := by decide +kernel
  obtain ⟨r, hr⟩ : ∃ r, s.report = .ok r := by
    rw [show s = (w.start .standard).drive .standard calls from hcalls] at hclock ⊢
    exact exists_report (by decide +kernel) calls hclock
  have hbreak : ∀ row ∈ r.rows, '\n' ∉ row.name.toList := by
    rw [rows_eq hr]
    decide +kernel
  refine ⟨by decide +kernel, r, hr, ?_, ?_⟩
  · rw [r.write_table, rows_eq hr]
    exact if_pos (by decide +kernel)
  · rw [r.lengths_lines hbreak, rows_eq hr]
    decide +kernel

end Workload

end FeedbackQueue
