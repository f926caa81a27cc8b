import FeedbackQueue.Config.Document
import FeedbackQueue.Proofs.Json.Reading
import FeedbackQueue.Proofs.Report.Laws
import FeedbackQueue.Proofs.Scheduler.Slicing

/-!
# Configurations that are read

An object is a configuration exactly when it has no other members than settings and `quanta`, its
settings are integers, and these with the standard ones in place of the missing ones are within
the limits. The limits are set at the top level only, and they are enough for all levels. What is
found wrong with an object may be too long to be quoted, and then that is all that is reported.

Objects are decoded before they are read. In the decoded form an unpaired surrogate is the
replacement character, so keys that differ in unpaired surrogates alone are one.
-/

namespace FeedbackQueue

/-- A message that can be written is reported as it is. -/
theorem ConfigError.raised_of_isWritable {e : ConfigError} (h : e.phrase.isWritable) :
    e.raised = .rejected e :=
  Text.Phrase.raise_of_isWritable h

-- ---------------------------------------------------------------------------
-- Limits
-- ---------------------------------------------------------------------------

namespace Settings

structure Valid (s : Settings) : Prop where
  numQueues : 0 < s.numQueues
  baseQuantum : 0 < s.baseQuantum
  boostInterval : 0 < s.boostInterval
  ioDuration : 0 ≤ s.ioDuration
  ioSliceDivisor : 0 < s.ioSliceDivisor
  ioSlice : s.ioSliceDivisor ≤ s.baseQuantum

/-- The first limit that settings break. -/
inductive Broken (s : Settings) : ConfigError → Prop where
  | numQueues (h : s.numQueues ≤ 0) : Broken s (.numQueues s.numQueues)
  | baseQuantum (hn : 0 < s.numQueues) (h : s.baseQuantum ≤ 0) :
    Broken s (.baseQuantum s.baseQuantum)
  | boostInterval (hn : 0 < s.numQueues) (hq : 0 < s.baseQuantum) (h : s.boostInterval ≤ 0) :
    Broken s (.boostInterval s.boostInterval)
  | ioDuration (hn : 0 < s.numQueues) (hq : 0 < s.baseQuantum) (hb : 0 < s.boostInterval)
    (h : s.ioDuration < 0) : Broken s (.ioDuration s.ioDuration)
  | ioSliceDivisor (hn : 0 < s.numQueues) (hq : 0 < s.baseQuantum) (hb : 0 < s.boostInterval)
    (hi : 0 ≤ s.ioDuration) (h : s.ioSliceDivisor ≤ 0) :
    Broken s (.ioSliceDivisor s.ioSliceDivisor)
  | ioSlice (hn : 0 < s.numQueues) (hq : 0 < s.baseQuantum) (hb : 0 < s.boostInterval)
    (hi : 0 ≤ s.ioDuration) (hd : 0 < s.ioSliceDivisor) (h : s.baseQuantum < s.ioSliceDivisor) :
    Broken s (.emptySlice s.baseQuantum s.ioSliceDivisor)

/-- Every setting is short enough to be written. -/
structure Legible (s : Settings) : Prop where
  numQueues : Text.isWritable s.numQueues
  baseQuantum : Text.isWritable s.baseQuantum
  boostInterval : Text.isWritable s.boostInterval
  ioDuration : Text.isWritable s.ioDuration
  ioSliceDivisor : Text.isWritable s.ioSliceDivisor

variable {s : Settings} {c : Config} {e : ConfigError}

theorem Broken.isWritable (h : Broken s e) (hs : s.Legible) : e.phrase.isWritable := by
  obtain ⟨hn, hq, hb, hi, hd⟩ := hs
  cases h <;> simp [ConfigError.phrase, *]

theorem valid_or_broken (s : Settings) : s.Valid ∨ ∃ e, Broken s e := by
  by_cases hn : 0 < s.numQueues
  · by_cases hq : 0 < s.baseQuantum
    · by_cases hb : 0 < s.boostInterval
      · by_cases hi : 0 ≤ s.ioDuration
        · by_cases hd : 0 < s.ioSliceDivisor
          · by_cases hle : s.ioSliceDivisor ≤ s.baseQuantum
            · exact .inl ⟨hn, hq, hb, hi, hd, hle⟩
            · exact .inr ⟨_, .ioSlice hn hq hb hi hd (Int.not_le.mp hle)⟩
          · exact .inr ⟨_, .ioSliceDivisor hn hq hb hi (Int.not_lt.mp hd)⟩
        · exact .inr ⟨_, .ioDuration hn hq hb (Int.not_le.mp hi)⟩
      · exact .inr ⟨_, .boostInterval hn hq (Int.not_lt.mp hb)⟩
    · exact .inr ⟨_, .baseQuantum hn (Int.not_lt.mp hq)⟩
  · exact .inr ⟨_, .numQueues (Int.not_lt.mp hn)⟩

theorem Broken.validate (h : Broken s e) : s.validate = .error e.raised := by
  cases h with
  | numQueues h => rw [Settings.validate, dif_neg (by omega)]
  | baseQuantum hn h => rw [Settings.validate, dif_pos hn, dif_neg (by omega)]
  | boostInterval hn hq h => rw [Settings.validate, dif_pos hn, dif_pos hq, dif_neg (by omega)]
  | ioDuration hn hq hb h =>
    rw [Settings.validate, dif_pos hn, dif_pos hq, dif_pos hb, dif_neg (by omega)]
  | ioSliceDivisor hn hq hb hi h =>
    rw [Settings.validate, dif_pos hn, dif_pos hq, dif_pos hb, dif_pos hi, dif_neg (by omega)]
  | ioSlice hn hq hb hi hd h =>
    rw [Settings.validate, dif_pos hn, dif_pos hq, dif_pos hb, dif_pos hi, dif_pos hd,
      dif_neg (by omega)]

/-- Settings within the limits make the configuration that has these settings. -/
theorem Valid.validate (h : s.Valid) : ∃ c, s.validate = .ok c ∧ c.settings = s := by
  refine ⟨⟨s.numQueues.toNat, s.baseQuantum, s.boostInterval, s.ioDuration, s.ioSliceDivisor, ?_,
    h.baseQuantum, h.boostInterval, h.ioDuration, h.ioSliceDivisor, h.ioSlice⟩, ?_, ?_⟩
  · exact Int.lt_toNat.mpr h.numQueues
  · rw [Settings.validate, dif_pos h.numQueues, dif_pos h.baseQuantum, dif_pos h.boostInterval,
      dif_pos h.ioDuration, dif_pos h.ioSliceDivisor, dif_pos h.ioSlice]
  · have hn : (s.numQueues.toNat : Int) = s.numQueues :=
      Int.toNat_of_nonneg (Int.le_of_lt h.numQueues)
    simp [Config.settings, hn]

theorem valid_settings (c : Config) : c.settings.Valid :=
  ⟨Int.natCast_pos.mpr c.numQueues_pos, c.baseQuantum_pos, c.boostInterval_pos,
    c.ioDuration_nonneg, c.ioSliceDivisor_pos, c.ioSliceDivisor_le⟩

theorem settings_injective : Function.Injective Config.settings := by
  rintro ⟨⟩ ⟨⟩ h
  simpa [Config.settings] using h

theorem validate_eq_ok : s.validate = .ok c ↔ c.settings = s := by
  constructor
  · intro h
    rcases valid_or_broken s with hvalid | ⟨e, he⟩
    · obtain ⟨c', hc', hsettings⟩ := hvalid.validate
      cases hc'.symm.trans h
      exact hsettings
    · cases he.validate.symm.trans h
  · rintro rfl
    obtain ⟨c', hc', hsettings⟩ := (valid_settings c).validate
    rw [hc', settings_injective hsettings]

end Settings

-- ---------------------------------------------------------------------------
-- Objects
-- ---------------------------------------------------------------------------

/-- The integer under a key, or a fallback if there is none. -/
def Json.Members.integerOr (members : Json.Members) (fallback : Int) (key : String) : Int :=
  match members.lookup key with
  | some (.int n) => n
  | _ => fallback

/-- The settings of an object, the standard ones in place of those that are missing. -/
def Settings.completed (members : Json.Members) : Settings where
  numQueues := members.integerOr standard.numQueues "num_queues"
  baseQuantum := members.integerOr standard.baseQuantum "base_quantum"
  boostInterval := members.integerOr standard.boostInterval "boost_interval"
  ioDuration := members.integerOr standard.ioDuration "io_duration"
  ioSliceDivisor := members.integerOr standard.ioSliceDivisor "io_slice_divisor"

theorem Settings.legible_standard : Settings.standard.Legible := by
  have hsmall {n : Int} (h : n.natAbs < Nat.pow 10 2) : Text.isWritable n :=
    Text.isWritable_of_lt h (by decide)
  exact ⟨hsmall (by decide), hsmall (by decide), hsmall (by decide), hsmall (by decide),
    hsmall (by decide)⟩

theorem Json.Members.isWritable_integerOr {members : Json.Members}
    (hmembers : (Json.Value.obj members).isWritable) (hfallback : Text.isWritable fallback)
    (key : String) : Text.isWritable (members.integerOr fallback key) := by
  unfold integerOr
  split
  · next h => exact Json.Value.isWritable_of_lookup hmembers h
  · exact hfallback

theorem Settings.legible_completed {members : Json.Members}
    (hmembers : (Json.Value.obj members).isWritable) : (Settings.completed members).Legible := by
  obtain ⟨hn, hq, hb, hi, hd⟩ := Settings.legible_standard
  have hkey {fallback : Int} (hfallback : Text.isWritable fallback) (key : String) :
      Text.isWritable (members.integerOr fallback key) :=
    Json.Members.isWritable_integerOr hmembers hfallback key
  exact ⟨hkey hn _, hkey hq _, hkey hb _, hkey hi _, hkey hd _⟩

theorem Settings.completed_congr {members members' : Json.Members}
    (h : ∀ key ∈ Settings.keys, members.lookup key = members'.lookup key) :
    Settings.completed members = Settings.completed members' := by
  have hkey (fallback : Int) {key : String} (hkey : key ∈ Settings.keys) :
      members.integerOr fallback key = members'.integerOr fallback key := by
    rw [Json.Members.integerOr, Json.Members.integerOr, h key hkey]
  rw [completed, completed, hkey _ (by decide), hkey _ (by decide), hkey _ (by decide),
    hkey _ (by decide), hkey _ (by decide)]

namespace Config

/-- All members are settings, but for `quanta`. -/
def Known (members : Json.Members) : Prop :=
  ∀ key ∈ members.map (·.1), key ∈ Settings.keys ∨ key = "quanta"

/-- All settings that are given are integers. -/
def Integral (members : Json.Members) : Prop :=
  ∀ key ∈ Settings.keys, ∀ value, members.lookup key = some value → ∃ n, value = .int n

/-- Why an object is no configuration. Which of several settings is named that are no integers is
left open. -/
inductive Refused (members : Json.Members) : ConfigError → Prop where
  | unknownKeys (hsorted : keys.Pairwise (· ≤ ·)) (hne : keys ≠ [])
    (hkeys : ∀ key, key ∈ keys ↔
      key ∈ members.map (·.1) ∧ ¬ (key ∈ Settings.keys ∨ key = "quanta")) :
    Refused members (.unknownKeys keys)
  | notInteger (hknown : Known members) (hkey : key ∈ Settings.keys)
    (h : members.lookup key = some value) (hint : ∀ n, value ≠ .int n) :
    Refused members (.notInteger key value)
  | broken (hknown : Known members) (hintegral : Integral members)
    (h : (Settings.completed members).Broken e) : Refused members e

section
variable {members members' : Json.Members} {c : Config} {e : ConfigError}
  {f : LoadError ConfigError}

theorem mem_unknownKeys : key ∈ members.unknownKeys ↔
    key ∈ members.map (·.1) ∧ ¬ (key ∈ Settings.keys ∨ key = "quanta") := by
  simp only [Json.Members.unknownKeys, List.mem_mergeSort, List.mem_filter, decide_eq_true_eq,
    List.mem_cons, or_comm]

theorem unknownKeys_eq_nil : members.unknownKeys = [] ↔ Known members := by
  simp only [List.eq_nil_iff_forall_not_mem, mem_unknownKeys, Known, not_and, not_not]

theorem pairwise_unknownKeys : members.unknownKeys.Pairwise (· ≤ ·) :=
  List.pairwise_mergeSort' (· ≤ ·) _

theorem settingOr_of_integral
    (h : ∀ value, members.lookup key = some value → ∃ n, value = .int n) :
    members.settingOr fallback key = .ok (members.integerOr fallback key) := by
  unfold Json.Members.settingOr Json.Members.integerOr
  cases hlookup : members.lookup key with
  | none => rfl
  | some value =>
    obtain ⟨n, rfl⟩ := h value hlookup
    rfl

theorem settingOr_eq_error (h : members.settingOr fallback key = .error f) :
    ∃ value, members.lookup key = some value ∧ (∀ n, value ≠ .int n) ∧
      f = (ConfigError.notInteger key value).raised := by
  unfold Json.Members.settingOr at h
  split at h
  · cases h
  · cases h
  · next value hint hlookup =>
    cases h
    exact ⟨value, hlookup, hint, rfl⟩

theorem integral_of_settingOr (h : members.settingOr fallback key = .ok n) :
    ∀ value, members.lookup key = some value → ∃ n, value = .int n := by
  unfold Json.Members.settingOr at h
  intro value hvalue
  cases value with
  | int n => exact ⟨n, rfl⟩
  | _ =>
    rw [hvalue] at h
    cases h

/-- Once the members are known, reading looks at the five settings only. -/
theorem settings_eq (hknown : Known members) : Settings.ofMembers members = do
    return {
      numQueues := ← members.settingOr Settings.standard.numQueues "num_queues"
      baseQuantum := ← members.settingOr Settings.standard.baseQuantum "base_quantum"
      boostInterval := ← members.settingOr Settings.standard.boostInterval "boost_interval"
      ioDuration := ← members.settingOr Settings.standard.ioDuration "io_duration"
      ioSliceDivisor :=
        ← members.settingOr Settings.standard.ioSliceDivisor "io_slice_divisor" } := by
  rw [Settings.ofMembers, if_neg (not_not_intro (unknownKeys_eq_nil.mpr hknown))]

theorem settings_of_integral (hknown : Known members) (h : Integral members) :
    Settings.ofMembers members = .ok (Settings.completed members) := by
  have hkey (fallback : Int) {key : String} (hkey : key ∈ Settings.keys) :
      members.settingOr fallback key = .ok (members.integerOr fallback key) :=
    settingOr_of_integral (h key hkey)
  rw [settings_eq hknown, hkey _ (by decide), hkey _ (by decide), hkey _ (by decide),
    hkey _ (by decide), hkey _ (by decide)]
  rfl

theorem integral_of_settings (hknown : Known members) (h : Settings.ofMembers members = .ok s) :
    Integral members := by
  rw [settings_eq hknown] at h
  obtain ⟨_, hn, h⟩ := exists_of_bind_ok h
  obtain ⟨_, hq, h⟩ := exists_of_bind_ok h
  obtain ⟨_, hb, h⟩ := exists_of_bind_ok h
  obtain ⟨_, hi, h⟩ := exists_of_bind_ok h
  obtain ⟨_, hd, -⟩ := exists_of_bind_ok h
  simp only [Integral, Settings.keys, List.forall_mem_cons]
  exact ⟨integral_of_settingOr hn, integral_of_settingOr hq, integral_of_settingOr hb,
    integral_of_settingOr hi, integral_of_settingOr hd, nofun⟩

theorem refused_of_settings (hknown : Known members) (h : Settings.ofMembers members = .error f) :
    ∃ e, Refused members e ∧ f = e.raised := by
  have hrefused {fallback : Int} {key : String} (hkey : key ∈ Settings.keys)
      (herror : members.settingOr fallback key = .error f) :
      ∃ e, Refused members e ∧ f = e.raised := by
    obtain ⟨value, hvalue, hint, hf⟩ := settingOr_eq_error herror
    exact ⟨_, .notInteger hknown hkey hvalue hint, hf⟩
  rw [settings_eq hknown] at h
  rcases error_of_bind h with hn | ⟨_, -, h⟩
  · exact hrefused (by decide) hn
  rcases error_of_bind h with hq | ⟨_, -, h⟩
  · exact hrefused (by decide) hq
  rcases error_of_bind h with hb | ⟨_, -, h⟩
  · exact hrefused (by decide) hb
  rcases error_of_bind h with hi | ⟨_, -, h⟩
  · exact hrefused (by decide) hi
  rcases error_of_bind h with hd | ⟨_, -, h⟩
  · exact hrefused (by decide) hd
  · cases h

theorem ofMembers_of_unknown (hknown : ¬ Known members) :
    ofMembers members = .error (ConfigError.unknownKeys members.unknownKeys).raised := by
  rw [ofMembers, Settings.ofMembers, if_pos (unknownKeys_eq_nil.not.mpr hknown)]
  rfl

theorem ofMembers_of_integral (hknown : Known members) (h : Integral members) :
    ofMembers members = (Settings.completed members).validate := by
  rw [ofMembers, settings_of_integral hknown h]
  rfl

theorem ofMembers_eq_ok : ofMembers members = .ok c ↔
    Known members ∧ Integral members ∧ c.settings = Settings.completed members := by
  constructor
  · intro h
    by_cases hknown : Known members
    · obtain ⟨s, hs, -⟩ := exists_of_bind_ok h
      have hintegral := integral_of_settings hknown hs
      rw [ofMembers_of_integral hknown hintegral] at h
      exact ⟨hknown, hintegral, Settings.validate_eq_ok.mp h⟩
    · cases (ofMembers_of_unknown hknown).symm.trans h
  · rintro ⟨hknown, hintegral, hsettings⟩
    rw [ofMembers_of_integral hknown hintegral]
    exact Settings.validate_eq_ok.mpr hsettings

theorem exists_ofMembers_iff : (∃ c, ofMembers members = .ok c) ↔
    Known members ∧ Integral members ∧ (Settings.completed members).Valid := by
  constructor
  · rintro ⟨c, h⟩
    obtain ⟨hknown, hintegral, hsettings⟩ := ofMembers_eq_ok.mp h
    exact ⟨hknown, hintegral, hsettings ▸ Settings.valid_settings c⟩
  · rintro ⟨hknown, hintegral, hvalid⟩
    obtain ⟨c, -, hsettings⟩ := hvalid.validate
    exact ⟨c, ofMembers_eq_ok.mpr ⟨hknown, hintegral, hsettings⟩⟩

theorem refused_of_ofMembers (h : ofMembers members = .error f) :
    ∃ e, Refused members e ∧ f = e.raised := by
  by_cases hknown : Known members
  · rcases error_of_bind h with hsettings | ⟨s, hs, hvalidate⟩
    · exact refused_of_settings hknown hsettings
    · have hintegral := integral_of_settings hknown hs
      rw [ofMembers_of_integral hknown hintegral] at h
      rcases Settings.valid_or_broken (Settings.completed members) with hvalid | ⟨e, he⟩
      · obtain ⟨c, hc, -⟩ := hvalid.validate
        cases hc.symm.trans h
      · cases he.validate.symm.trans h
        exact ⟨e, .broken hknown hintegral he, rfl⟩
  · cases (ofMembers_of_unknown hknown).symm.trans h
    exact ⟨_, .unknownKeys pairwise_unknownKeys (unknownKeys_eq_nil.not.mpr hknown)
      fun _ => mem_unknownKeys, rfl⟩

/-- A message quotes parts of the object only, and settings that are standard. -/
theorem Refused.isWritable (h : Refused members e)
    (hmembers : (Json.Value.obj members).isWritable) : e.phrase.isWritable := by
  cases h with
  | unknownKeys => rfl
  | notInteger _ _ h _ =>
    simp [ConfigError.phrase, Json.Value.isWritable_display,
      Json.Value.isWritable_of_lookup hmembers h]
  | broken _ _ h => exact h.isWritable (Settings.legible_completed hmembers)

/-- What is wrong with an object whose integers can all be written can be told. -/
theorem rejected_of_ofMembers (hmembers : (Json.Value.obj members).isWritable)
    (h : ofMembers members = .error f) : ∃ e, Refused members e ∧ f = .rejected e := by
  obtain ⟨e, he, rfl⟩ := refused_of_ofMembers h
  exact ⟨e, he, ConfigError.raised_of_isWritable (he.isWritable hmembers)⟩

/-- Neither the order of the members nor `quanta` matters. -/
theorem ofMembers_congr (hknown : Known members) (hknown' : Known members')
    (h : ∀ key ∈ Settings.keys, members.lookup key = members'.lookup key) :
    ofMembers members = .ok c ↔ ofMembers members' = .ok c := by
  have hintegral : Integral members ↔ Integral members' := by
    refine forall₂_congr fun key hkey => ?_
    rw [h key hkey]
  rw [ofMembers_eq_ok, ofMembers_eq_ok, Settings.completed_congr h, hintegral]
  simp only [hknown, hknown']

theorem ofMembers_toMembers (c : Config) : ofMembers c.toMembers = .ok c := by
  refine ofMembers_eq_ok.mpr ⟨?_, ?_, rfl⟩
  · simp [Known, toMembers, Settings.keys]
  · simp [Integral, toMembers, Settings.keys, List.lookup_cons]

end

-- ---------------------------------------------------------------------------
-- Levels
-- ---------------------------------------------------------------------------

section
variable {c : Config}

theorem quantumFor_eq (hk : k < c.numQueues) : c.quantumFor k = .ok (c.quantum k) := by
  simp [quantumFor, hk]

theorem ioPart_le_quantum (k : Nat) : c.ioPart k ≤ c.quantum k :=
  Int.ediv_le_self _ (Int.le_of_lt (quantum_pos k))

theorem ioPart_lt_quantum_iff : c.ioPart k < c.quantum k ↔ 2 ≤ c.ioSliceDivisor := by
  have hdivisor := c.ioSliceDivisor_pos
  constructor
  · intro h
    by_contra hlt
    have hone : c.ioSliceDivisor = 1 := by omega
    rw [ioPart, hone, Int.ediv_one] at h
    exact Int.lt_irrefl _ h
  · intro h
    exact Int.ediv_lt_self_of_pos_of_ne_one (quantum_pos k) (by omega)

end

/-- An object is a configuration exactly when it has no unknown members, the settings it gives
are integers and with the standard ones for the others they are within the limits. These are the
settings of the configuration, whatever the order of the members and whatever `quanta` holds. Any
other object is refused, with a message that quotes no integer that the object does not contain,
but for standard ones, so if the integers of an object can all be written nothing but the refusal
is reported. A configuration that is written is read as itself. At every level the quantum is a
power of two times that of level 0, and an I/O slice is at least one unit and no longer than the
quantum, and shorter unless the divisor is 1. -/
theorem objects_decoded (members : Json.Members) (c : Config) :
    ((∃ read, ofMembers members = .ok read) ↔
      Known members ∧ Integral members ∧ (Settings.completed members).Valid) ∧
    (∀ read, ofMembers members = .ok read → read.settings = Settings.completed members) ∧
    (∀ f, ofMembers members = .error f → ∃ e, Refused members e ∧ f = e.raised) ∧
    ((Json.Value.obj members).isWritable →
      ∀ f, ofMembers members = .error f → ∃ e, Refused members e ∧ f = .rejected e) ∧
    (∀ members', Known members → Known members' →
      (∀ key ∈ Settings.keys, members.lookup key = members'.lookup key) →
      ∀ read, ofMembers members = .ok read ↔ ofMembers members' = .ok read) ∧
    ofMembers c.toMembers = .ok c ∧
    c.quanta = (List.range c.numQueues).map (fun level => c.baseQuantum * 2 ^ level) ∧
    ∀ level : Nat, level < c.numQueues → ∃ quantum slice,
      c.quantumFor level = .ok quantum ∧ c.ioSlice level = .ok slice ∧
      quantum = c.baseQuantum * 2 ^ level ∧ 1 ≤ slice ∧ slice ≤ quantum ∧
      (slice < quantum ↔ 2 ≤ c.ioSliceDivisor) := by
  have hquantum (level : Nat) : c.quantum level = c.baseQuantum * 2 ^ level := by
    simp [quantum]
  refine ⟨exists_ofMembers_iff, fun read h => (ofMembers_eq_ok.mp h).2.2,
    fun f h => refused_of_ofMembers h, fun hmembers f h => rejected_of_ofMembers hmembers h,
    fun members' hknown hknown' h read => ofMembers_congr hknown hknown' h,
    ofMembers_toMembers c, ?_, fun level hlevel => ?_⟩
  · exact List.map_congr_left fun level _ => hquantum level
  · have hlowest : level ≤ c.lowestLevel := Nat.le_sub_one_of_lt hlevel
    exact ⟨c.quantum level, c.ioPart level, quantumFor_eq hlevel, ioSlice_eq hlowest,
      hquantum level, ioPart_pos level, ioPart_le_quantum level, ioPart_lt_quantum_iff⟩

/-- A quantum that is negative and has too many digits. -/
def longDebt : Json.Members := [("base_quantum", .int (-Text.digitBound))]

/-- It is out of the limits, which is not what is reported. -/
theorem long_debt_unreported :
    Refused longDebt (.baseQuantum (-Text.digitBound)) ∧
      ofMembers longDebt = .error (.fault (.numeral .tooLong)) := by
  have hknown : Known longDebt := by simp [Known, longDebt, Settings.keys]
  have hintegral : Integral longDebt := by
    simp [Integral, longDebt, Settings.keys, List.lookup_cons]
  have hbroken : (Settings.completed longDebt).Broken (.baseQuantum (-Text.digitBound)) :=
    .baseQuantum (by decide) (by simp [Settings.completed, longDebt, Json.Members.integerOr])
  refine ⟨.broken hknown hintegral hbroken, ?_⟩
  rw [ofMembers_of_integral hknown hintegral, hbroken.validate]
  refine congrArg Except.error (Text.Phrase.raise_of_not_isWritable ?_)
  simp [ConfigError.phrase, Text.isWritable]

end Config

end FeedbackQueue
