import FeedbackQueue.CommandLine.Session
import FeedbackQueue.Proofs.Config.Reading
import FeedbackQueue.Proofs.Workload.Reading

/-!
# Files that are loaded

A file yields a valid configuration or workload, or is rejected with a reason, and an invocation
that names a rejected file exits with status 1 and prints the reason. This holds of every path
that can be looked up and of all contents, but for one kind of text: one with a run of digits
that is too long to be read as an integer. There the loaders break off.

What a file is decoded to has the replacement character for every unpaired surrogate that the
text escapes, so keys that differ in these alone are one and a name that is loaded can always be
shown. Arguments are parsed by the conventions of one release.
-/

namespace FeedbackQueue

-- ---------------------------------------------------------------------------
-- Plain texts
-- ---------------------------------------------------------------------------

namespace Text

variable {octets : List UInt8} {s done : List Char} {offset : Nat}

theorem Utf8.scan_ascii (hascii : ∀ b ∈ octets, b.toNat < 0x80) :
    Utf8.scan done none offset octets
      = .ok (done.reverse ++ octets.map fun b => Char.ofNat b.toNat) := by
  induction octets generalizing done offset with
  | nil => simp [Utf8.scan]
  | cons b rest ih =>
    obtain ⟨hb, hrest⟩ := List.forall_mem_cons.mp hascii
    simp [Utf8.scan, hb, ih hrest]

theorem Utf8.decode_ascii (hascii : ∀ b ∈ octets, b.toNat < 0x80) :
    Utf8.decode octets = .ok (octets.map fun b => Char.ofNat b.toNat) :=
  Utf8.scan_ascii hascii

theorem unifyLineEnds_eq_self (h : '\r' ∉ s) : unifyLineEnds s = s := by
  fun_induction unifyLineEnds s with
  | case1 => rfl
  | case2 => simp at h
  | case3 => simp at h
  | case4 c rest _ _ ih => rw [ih (List.not_mem_of_not_mem_cons h)]

end Text

-- ---------------------------------------------------------------------------
-- What the contents of a file come to
-- ---------------------------------------------------------------------------

/-- The contents found at a path come to a document, or to the reason why there is none. -/
inductive Found (path : String) : Contents → Except String Json.Value → Prop where
  | unreadable (fault : FileFault) :
    Found path (.error fault) (.error (fault.message (Path.parse path).text))
  | undecodable (h : Text.Utf8.decode octets = .error fault) :
    Found path (.ok octets) (.error fault.message)
  | malformed (htext : Text.Utf8.decode octets = .ok text)
    (h : Json.parse (some Text.digitLimit) (Text.unifyLineEnds text)
      = .error (.malformed cause place)) :
    Found path (.ok octets) (.error (Json.ParseError.malformed cause place).message)
  | document (htext : Text.Utf8.decode octets = .ok text)
    (h : Json.parse (some Text.digitLimit) (Text.unifyLineEnds text) = .ok data) :
    Found path (.ok octets) (.ok data)

/-- No NUL stands in the path, and no run of digits in the text is too long to be read. -/
structure Ordinary (path : String) (contents : Contents) : Prop where
  path : '\x00' ∉ path.toList
  digits : ∀ octets text n, contents = .ok octets → Text.Utf8.decode octets = .ok text →
    Json.HasDigits n (Text.unifyLineEnds text) → n ≤ Text.digitLimit

section
variable {path : String} {contents : Contents} {octets : List UInt8} {text : List Char}

/-- A text that can be decoded is read under the limit on integers. -/
theorem Json.ofContents_text (hpath : '\x00' ∉ path.toList)
    (htext : Text.Utf8.decode octets = .ok text) :
    Json.ofContents path (.ok octets) =
      match Json.parse (some Text.digitLimit) (Text.unifyLineEnds text) with
      | .ok data => .ok data
      | .error (.longInteger limit digits) => .error (.fault (.longInteger limit digits))
      | .error e => .error (.rejected e.message) := by
  simp only [Json.ofContents, List.contains_iff_mem, hpath, Except.mapError, bind, Except.bind,
    htext]
  rfl

theorem Ordinary.found (h : Ordinary path contents) :
    ∃ found, Found path contents found ∧
      Json.ofContents path contents = found.mapError .rejected := by
  cases contents with
  | error fault =>
    refine ⟨_, .unreadable fault, ?_⟩
    simp [Json.ofContents, h.path, Except.mapError, bind, Except.bind]
  | ok octets =>
    cases htext : Text.Utf8.decode octets with
    | error fault =>
      refine ⟨_, .undecodable htext, ?_⟩
      simp [Json.ofContents, h.path, htext, Except.mapError, bind, Except.bind]
    | ok text =>
      rw [Json.ofContents_text h.path htext]
      cases hparse : Json.parse (some Text.digitLimit) (Text.unifyLineEnds text) with
      | ok data => exact ⟨_, .document htext hparse, rfl⟩
      | error e =>
        cases e with
        | malformed cause place => exact ⟨_, .malformed htext hparse, rfl⟩
        | longInteger most n =>
          obtain ⟨hmost, hlt, hdigits⟩ := Json.literal_of_parse hparse
          have hle := h.digits octets text n rfl htext hdigits
          cases hmost
          exact absurd hle (Nat.not_le_of_lt hlt)

-- ---------------------------------------------------------------------------
-- Loaders
-- ---------------------------------------------------------------------------

/-- The configuration in what a file has come to. -/
def Config.ofFound : Except String Json.Value → Except (LoadError ConfigError) Config
  | .error reason => .error (.rejected (.unreadable reason))
  | .ok (.obj members) => Config.ofMembers members
  | .ok _ => .error (.rejected .notObject)

/-- The workload in what a file has come to. -/
def Workload.ofFound : Except String Json.Value → Except (LoadError WorkloadError) Workload
  | .error reason => .error (.rejected (.unreadable reason))
  | .ok data => Workload.parse data

variable {found : Except String Json.Value}

theorem Config.ofContents_of_found
    (h : Json.ofContents path contents = found.mapError .rejected) :
    Config.ofContents path contents = Config.ofFound found := by
  simp only [Config.ofContents, h]
  cases found with
  | error reason => rfl
  | ok data => cases data <;> rfl

theorem Workload.ofContents_of_found
    (h : Json.ofContents path contents = found.mapError .rejected) :
    Workload.ofContents path contents = Workload.ofFound found := by
  simp only [Workload.ofContents, h]
  cases found <;> rfl

theorem Found.isWritable (h : Found path contents (.ok data)) : data.isWritable := by
  cases h with
  | document _ h => exact Json.isWritable_of_parse h

theorem Found.config (h : Found path contents found) :
    (∃ config, Config.ofFound found = .ok config) ∨
      ∃ e, Config.ofFound found = .error (.rejected e) := by
  cases hresult : Config.ofFound found with
  | ok config => exact .inl ⟨config, rfl⟩
  | error f =>
    refine .inr ?_
    cases found with
    | error reason =>
      cases hresult
      exact ⟨_, rfl⟩
    | ok data =>
      cases data with
      | obj members =>
        obtain ⟨e, -, rfl⟩ := Config.rejected_of_ofMembers h.isWritable hresult
        exact ⟨e, rfl⟩
      | _ =>
        cases hresult
        exact ⟨_, rfl⟩

theorem Found.workload (h : Found path contents found) :
    (∃ workload, Workload.ofFound found = .ok workload) ∨
      ∃ e, Workload.ofFound found = .error (.rejected e) := by
  cases hresult : Workload.ofFound found with
  | ok workload => exact .inl ⟨workload, rfl⟩
  | error f =>
    refine .inr ?_
    cases found with
    | error reason =>
      cases hresult
      exact ⟨_, rfl⟩
    | ok data =>
      obtain ⟨e, -, rfl⟩ := Workload.rejected_of_parse h.isWritable hresult
      exact ⟨e, rfl⟩

theorem Ordinary.config (h : Ordinary path contents) :
    (∃ config, Config.ofContents path contents = .ok config) ∨
      ∃ e, Config.ofContents path contents = .error (.rejected e) := by
  obtain ⟨found, hfound, hcontents⟩ := h.found
  exact Config.ofContents_of_found hcontents ▸ hfound.config

theorem Ordinary.workload (h : Ordinary path contents) :
    (∃ workload, Workload.ofContents path contents = .ok workload) ∨
      ∃ e, Workload.ofContents path contents = .error (.rejected e) := by
  obtain ⟨found, hfound, hcontents⟩ := h.found
  exact Workload.ofContents_of_found hcontents ▸ hfound.workload

end

namespace CommandLine

/-- What an invocation comes to: a file is rejected, the configuration before the workload, or
everything is loaded and the simulation runs. -/
inductive Answered (read : String → Contents) (options : Options) :
    Except Failure Output → Prop where
  | badConfig (hpath : options.config = some (some path))
    (h : Config.ofContents path (read path) = .error (.rejected e)) :
    Answered read options (.ok ⟨1, "", s!"py-mlfq: error: {e.message}\n"⟩)
  | badWorkload (hpath : options.workload = some path)
    (hconfig : ∀ other, options.config = some (some other) →
      ∃ config, Config.ofContents other (read other) = .ok config)
    (h : Workload.ofContents path (read path) = .error (.rejected e)) :
    Answered read options (.ok ⟨1, "", s!"py-mlfq: error: {e.message}\n"⟩)
  | simulated (h : inputs read options = .ok (config, workload)) :
    Answered read options (simulate options.quiet config workload)

/-- A path at which an invocation looks up a file. -/
def Options.Names (options : Options) (path : String) : Prop :=
  options.config = some (some path) ∨ options.workload = some path

variable {read : String → Contents} {options : Options} {arguments : List String}

/-- The configuration of an invocation. -/
def configOf (read : String → Contents) :
    Option (Option String) → Except (LoadError String) Config
  | none => .ok .standard
  | some none => .error (.fault .noPath)
  | some (some path) => (Config.ofContents path (read path)).mapError (·.map ConfigError.message)

/-- The workload of an invocation. -/
def workloadOf (read : String → Contents) : Option String → Except (LoadError String) Workload
  | none => .ok .reference
  | some path => (Workload.ofContents path (read path)).mapError (·.map WorkloadError.message)

theorem inputs_eq (read : String → Contents) (options : Options) :
    inputs read options = do
      let config ← configOf read options.config
      let workload ← workloadOf read options.workload
      return (config, workload) := by
  unfold inputs configOf workloadOf
  rcases options.config with _ | _ | path <;> cases options.workload <;> rfl

theorem exists_config (h : configOf read options.config = .ok config) :
    ∀ path, options.config = some (some path) →
      ∃ config, Config.ofContents path (read path) = .ok config := by
  intro path hpath
  rw [hpath, configOf] at h
  cases hload : Config.ofContents path (read path) with
  | ok config => exact ⟨config, rfl⟩
  | error e =>
    rw [hload] at h
    cases h

theorem answered_of_config (hparse : parse arguments = .ok options)
    (hconfig : configOf read options.config = .ok config)
    (hordinary : ∀ path, options.Names path → Ordinary path (read path)) :
    Answered read options (run read arguments) := by
  have hinputs := inputs_eq read options
  rw [hconfig] at hinputs
  cases hpath : options.workload with
  | none =>
    rw [hpath] at hinputs
    have hrun : run read arguments = simulate options.quiet config .reference := by
      simp only [run, hparse, hinputs]
      rfl
    exact hrun ▸ .simulated hinputs
  | some path =>
    rw [hpath, workloadOf] at hinputs
    rcases (hordinary path (.inr hpath)).workload with ⟨workload, hload⟩ | ⟨e, hload⟩
    · rw [hload] at hinputs
      have hrun : run read arguments = simulate options.quiet config workload := by
        simp only [run, hparse, hinputs]
        rfl
      exact hrun ▸ .simulated hinputs
    · rw [hload] at hinputs
      have hrun : run read arguments = .ok (refusal e.message) := by
        simp only [run, hparse, hinputs]
        rfl
      exact hrun ▸ .badWorkload hpath (exists_config hconfig) hload

theorem answered (hparse : parse arguments = .ok options) (hconfig : options.config ≠ some none)
    (hordinary : ∀ path, options.Names path → Ordinary path (read path)) :
    Answered read options (run read arguments) := by
  rcases hchosen : options.config with _ | _ | path
  · exact answered_of_config hparse (congrArg (configOf read) hchosen) hordinary
  · exact absurd hchosen hconfig
  · have hloaded : configOf read options.config
        = (Config.ofContents path (read path)).mapError (·.map ConfigError.message) :=
      congrArg (configOf read) hchosen
    rcases (hordinary path (.inl hchosen)).config with ⟨config, hload⟩ | ⟨e, hload⟩
    · rw [hload] at hloaded
      exact answered_of_config hparse hloaded hordinary
    · have hinputs := inputs_eq read options
      rw [hloaded, hload] at hinputs
      have hrun : run read arguments = .ok (refusal e.message) := by
        simp only [run, hparse, hinputs]
        rfl
      exact hrun ▸ .badConfig hchosen hload

/-- Every ordinary file is loaded or rejected for what it comes to, and an invocation that names
only such files is answered. -/
theorem files_answered (read : String → Contents) :
    (∀ path, Ordinary path (read path) → ∃ found, Found path (read path) found ∧
      Config.ofContents path (read path) = Config.ofFound found ∧
      ((∃ config, Config.ofFound found = .ok config) ∨
        ∃ e, Config.ofFound found = .error (.rejected e)) ∧
      Workload.ofContents path (read path) = Workload.ofFound found ∧
      ((∃ workload, Workload.ofFound found = .ok workload) ∨
        ∃ e, Workload.ofFound found = .error (.rejected e))) ∧
    ∀ arguments options, parse arguments = .ok options → options.config ≠ some none →
      (∀ path, options.Names path → Ordinary path (read path)) →
        Answered read options (run read arguments) := by
  refine ⟨fun path h => ?_, fun arguments options => answered⟩
  obtain ⟨found, hfound, hcontents⟩ := h.found
  exact ⟨found, hfound, Config.ofContents_of_found hcontents, hfound.config,
    Workload.ofContents_of_found hcontents, hfound.workload⟩

theorem files_answered_undecodable :
    Ordinary "jobs.json" (.ok [0xff]) ∧
      parse ["jobs.json"] = .ok ⟨some "jobs.json", none, false⟩ ∧
      (∃ found, Found "jobs.json" (.ok [0xff]) found ∧
        Workload.ofContents "jobs.json" (.ok [0xff]) = Workload.ofFound found) ∧
      Answered (fun _ => .ok [0xff]) ⟨some "jobs.json", none, false⟩
        (run (fun _ => .ok [0xff]) ["jobs.json"]) := by
  have hdecode : Text.Utf8.decode [0xff] = .error ⟨0xff, 0, 1, .invalidStart⟩ := by decide
  have hordinary : Ordinary "jobs.json" (.ok [0xff]) := by
    refine ⟨by decide, ?_⟩
    rintro _ text n ⟨⟩ htext
    cases hdecode.symm.trans htext
  have hparse : parse ["jobs.json"] = .ok ⟨some "jobs.json", none, false⟩ := by rfl
  obtain ⟨hfiles, hrun⟩ := files_answered fun _ => .ok [0xff]
  obtain ⟨found, hfound, -, -, hworkload, -⟩ := hfiles "jobs.json" hordinary
  refine ⟨hordinary, hparse, ⟨found, hfound, hworkload⟩, hrun _ _ hparse nofun ?_⟩
  rintro _ (⟨⟨⟩⟩ | ⟨⟨⟩⟩)
  exact hordinary

-- ---------------------------------------------------------------------------
-- Integers that are too long
-- ---------------------------------------------------------------------------

/-- A file of nothing but ones, more than an integer may have. -/
theorem ofContents_ones {path : String} (hpath : '\x00' ∉ path.toList)
    (hn : Text.digitLimit < n) :
    Json.ofContents path (.ok (List.replicate n 49))
      = .error (.fault (.longInteger Text.digitLimit n)) := by
  obtain ⟨m, rfl⟩ : ∃ m, n = m + 1 := Nat.exists_eq_add_one.mpr (Nat.zero_lt_of_lt hn)
  have htext : Text.Utf8.decode (List.replicate (m + 1) 49)
      = .ok ('1' :: List.replicate m '1') := by
    rw [Text.Utf8.decode_ascii (fun b hb => by rw [List.eq_of_mem_replicate hb]; decide)]
    simp [List.replicate_succ]
  have hends : Text.unifyLineEnds ('1' :: List.replicate m '1') = '1' :: List.replicate m '1' :=
    Text.unifyLineEnds_eq_self (by simp)
  have hones : ∀ c ∈ List.replicate m '1', Json.isDigit c := fun c hc => by
    rw [List.eq_of_mem_replicate hc]
    decide
  have hlong : Text.digitLimit < ('1' :: List.replicate m '1').length := by simpa using hn
  rw [Json.ofContents_text hpath htext, hends,
    Json.parse_digits (by decide) (by decide) hones hlong]
  simp

/-- Neither loader answers such a file, and neither does an invocation that names it. -/
theorem long_literal_unanswered :
    Config.ofContents "c.json" (.ok (List.replicate 4301 49))
        = .error (.fault (.longInteger 4300 4301)) ∧
      Workload.ofContents "c.json" (.ok (List.replicate 4301 49))
        = .error (.fault (.longInteger 4300 4301)) ∧
      run (fun _ => .ok (List.replicate 4301 49)) ["c.json"]
        = .error (.read (.longInteger 4300 4301)) := by
  have h : Json.ofContents "c.json" (.ok (List.replicate 4301 49))
      = .error (.fault (.longInteger 4300 4301)) := ofContents_ones (by decide) (by decide)
  have hconfig : Config.ofContents "c.json" (.ok (List.replicate 4301 49))
      = .error (.fault (.longInteger 4300 4301)) := by
    simp only [Config.ofContents, h]
    rfl
  have hworkload : Workload.ofContents "c.json" (.ok (List.replicate 4301 49))
      = .error (.fault (.longInteger 4300 4301)) := by
    simp only [Workload.ofContents, h]
    rfl
  have hparse : parse ["c.json"] = .ok ⟨some "c.json", none, false⟩ := by rfl
  refine ⟨hconfig, hworkload, ?_⟩
  simp only [run, hparse, inputs, hworkload]
  rfl

end CommandLine

end FeedbackQueue
