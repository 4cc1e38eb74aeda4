import BlockPurge.Session
import Mathlib.Control.Monad.Basic

/-!
# Command line over file over default

What an invocation takes from where. Each option has the value of the command line if it is given
there, and otherwise that of the configuration, which has a default for every option that it does
not mention. Only the values that are taken are looked at: a value that the command line overrides
may be as wrong as it likes. So it makes no difference how options are spread over the command line
and a file.
-/
namespace BlockPurge

theorem Persistence.ofWord?_eq_some_iff {word : String} {p : Persistence} :
    Persistence.ofWord? word = some p ↔ word = p.word := by
  constructor
  · intro h
    rw [ofWord?] at h
    have hword : p.word = word := by simpa using List.find?_some h
    exact hword.symm
  · rintro rfl
    cases p <;> decide

theorem Persistence.ofWord?_word (p : Persistence) : Persistence.ofWord? p.word = some p :=
  Persistence.ofWord?_eq_some_iff.mpr rfl

namespace Invocation

/-! ## What is asked for -/

/-- The metadata path as it is written: on the command line, or else in the configuration. -/
inductive Written (a : Arguments) (b : Config) : String → Prop
  | commandLine {path : String} : a.mpath = some path → Written a b path
  | file {path : String} : a.mpath = none → b.mpath = some path → Written a b path

/-- A path as it is written leads to an absolute one. -/
def Leads (env : Environment) (v : Volume) (written : String) (path : Bytes) : Prop :=
  ∃ expanded, Path.expand env written = .ok expanded ∧ absolute v expanded = .ok path

/-- Why a command line and a configuration come to no invocation. -/
inductive Refused (env : Environment) (v : Volume) (a : Arguments) (b : Config) : Prop
  | noPath : a.mpath = none → b.mpath = none → Refused env v a b
  | blankPath {written : String} : Written a b written → Text.isBlankText written = true →
      Refused env v a b
  | astray {written : String} : Written a b written → (∀ path, ¬Leads env v written path) →
      Refused env v a b
  | persistence : a.persistence = none → (∀ p : Persistence, b.persist ≠ p.word) →
      Refused env v a b
  | blankProgram : Text.isBlankText (a.program.getD b.program) = true → Refused env v a b

/-- An invocation that takes each option from the command line, or else from a configuration. -/
structure Obeys (env : Environment) (v : Volume) (a : Arguments) (b : Config) (i : Invocation) :
    Prop where
  mpath : ∃ written, Written a b written ∧ Leads env v written i.settings.mpath
  /-- The persistence of the command line, or else the one that the configuration names. -/
  persistence : a.persistence = some i.settings.persistence ∨
    a.persistence = none ∧ b.persist = i.settings.persistence.word
  program : i.settings.program = a.program.getD b.program
  deviceStart : i.settings.deviceStart = a.deviceStart.getD b.deviceStart
  dryRun : i.settings.dryRun = (a.dry || b.dry)
  quiet : i.quiet = (a.quiet || b.quiet)

/-! ## Whatever leads to a path

How a path as it is written leads to an absolute one makes no difference to the options, so the path
is kept apart from them.
-/

/-- The metadata path, with some way to make a path absolute from how it is written. -/
def pathBy (resolve : String → Except Fault Bytes) (a : Arguments) (b : Config) :
    Except Fault Bytes :=
  match a.mpath.or b.mpath with
  | none => .error .noPath
  | some written => if Text.isBlankText written then .error .blankPath else resolve written

/-- The invocation for a metadata path that may have been found. -/
def ofPath (found : Except Fault Bytes) (a : Arguments) (b : Config) : Except Fault Invocation :=
  match found with
  | .error fault => .error fault
  | .ok mpath =>
    match persistence a b with
    | .error fault => .error fault
    | .ok persistence =>
      match program a b with
      | .error fault => .error fault
      | .ok program =>
        .ok ⟨⟨mpath, a.dry || b.dry, persistence, program, a.deviceStart.getD b.deviceStart⟩,
          a.quiet || b.quiet⟩

theorem ofConfig_eq_ofPath (env : Environment) (v : Volume) (a : Arguments) (b : Config) :
    ofConfig env v a b = ofPath (pathBy (resolve env v) a b) a b :=
  rfl

/-! ## One option at a time -/

section
variable {env : Environment} {v : Volume} {a : Arguments} {b : Config}

theorem written_iff {written : String} :
    Written a b written ↔ a.mpath.or b.mpath = some written := by
  rw [Option.or_eq_some_iff]
  constructor
  · rintro (h | ⟨hnone, h⟩)
    · exact .inl h
    · exact .inr ⟨hnone, h⟩
  · rintro (h | ⟨hnone, h⟩)
    · exact .commandLine h
    · exact .file hnone h

theorem resolve_eq_ok_iff {written : String} {path : Bytes} :
    resolve env v written = .ok path ↔ Leads env v written path := by
  unfold resolve Leads
  cases Path.expand env written with
  | error fault => simp
  | ok expanded => cases habs : absolute v expanded <;> simp [habs]

theorem pathBy_eq_ok_iff {resolve : String → Except Fault Bytes} {path : Bytes} :
    pathBy resolve a b = .ok path ↔
      ∃ written, Written a b written ∧ Text.isBlankText written = false ∧
        resolve written = .ok path := by
  simp only [written_iff, pathBy]
  cases a.mpath.or b.mpath with
  | none => simp
  | some written => cases hblank : Text.isBlankText written <;> simp [hblank]

theorem metadataPath_eq_ok_iff {path : Bytes} :
    metadataPath env v a b = .ok path ↔
      ∃ written, Written a b written ∧ Text.isBlankText written = false ∧
        Leads env v written path := by
  simp only [← resolve_eq_ok_iff]
  exact pathBy_eq_ok_iff

theorem persistence_eq_ok_iff {p : Persistence} :
    persistence a b = .ok p ↔
      a.persistence = some p ∨ a.persistence = none ∧ b.persist = p.word := by
  rw [← Persistence.ofWord?_eq_some_iff, persistence, Config.persistence]
  cases a.persistence with
  | none => cases Persistence.ofWord? b.persist <;> simp
  | some given => simp

theorem program_eq_ok_iff {name : String} :
    program a b = .ok name ↔ name = a.program.getD b.program ∧
      Text.isBlankText (a.program.getD b.program) = false := by
  rw [program]
  generalize a.program.getD b.program = taken
  cases hblank : Text.isBlankText taken <;> simp [eq_comm]

theorem ofPath_eq_ok_iff {found : Except Fault Bytes} {i : Invocation} :
    ofPath found a b = .ok i ↔
      found = .ok i.settings.mpath ∧
      persistence a b = .ok i.settings.persistence ∧ program a b = .ok i.settings.program ∧
      i.settings.deviceStart = a.deviceStart.getD b.deviceStart ∧
      i.settings.dryRun = (a.dry || b.dry) ∧ i.quiet = (a.quiet || b.quiet) := by
  obtain ⟨⟨mpath, dryRun, time, name, deviceStart⟩, quiet⟩ := i
  unfold ofPath
  cases found with
  | error fault => simp
  | ok path =>
    cases persistence a b with
    | error fault => simp
    | ok p =>
      cases program a b with
      | error fault => simp
      | ok taken =>
        simp only [Except.ok.injEq, Invocation.mk.injEq, Purge.Settings.mk.injEq]
        constructor
        · rintro ⟨⟨rfl, rfl, rfl, rfl, rfl⟩, rfl⟩
          exact ⟨rfl, rfl, rfl, rfl, rfl, rfl⟩
        · rintro ⟨rfl, rfl, rfl, rfl, rfl, rfl⟩
          exact ⟨⟨rfl, rfl, rfl, rfl, rfl⟩, rfl⟩

theorem ofConfig_eq_ok_iff {i : Invocation} :
    ofConfig env v a b = .ok i ↔
      metadataPath env v a b = .ok i.settings.mpath ∧
      persistence a b = .ok i.settings.persistence ∧ program a b = .ok i.settings.program ∧
      i.settings.deviceStart = a.deviceStart.getD b.deviceStart ∧
      i.settings.dryRun = (a.dry || b.dry) ∧ i.quiet = (a.quiet || b.quiet) := by
  rw [ofConfig_eq_ofPath]
  exact ofPath_eq_ok_iff

/-- What comes of a command line and a configuration obeys them. -/
theorem obeys_of_ok {i : Invocation} (h : ofConfig env v a b = .ok i) : Obeys env v a b i := by
  obtain ⟨hpath, hpersistence, hprogram, hdevice, hdry, hquiet⟩ := ofConfig_eq_ok_iff.mp h
  obtain ⟨written, hwritten, -, hleads⟩ := metadataPath_eq_ok_iff.mp hpath
  constructor
  case mpath => exact ⟨written, hwritten, hleads⟩
  case persistence => exact persistence_eq_ok_iff.mp hpersistence
  case program => exact (program_eq_ok_iff.mp hprogram).1
  case deviceStart => exact hdevice
  case dryRun => exact hdry
  case quiet => exact hquiet

/-! ## Refusals -/

theorem refused_of_metadataPath {fault : Fault} (h : metadataPath env v a b = .error fault) :
    Refused env v a b := by
  cases hwritten : a.mpath.or b.mpath with
  | none =>
    obtain ⟨ha, hb⟩ := Option.or_eq_none_iff.mp hwritten
    exact .noPath ha hb
  | some written =>
    have taken := written_iff.mpr hwritten
    cases hblank : Text.isBlankText written with
    | true => exact .blankPath taken hblank
    | false =>
      refine .astray taken fun path hleads => ?_
      have hok := metadataPath_eq_ok_iff.mpr ⟨written, taken, hblank, hleads⟩
      cases h.symm.trans hok

theorem refused_of_persistence {fault : Fault} (h : persistence a b = .error fault) :
    Refused env v a b := by
  have hnot : ∀ p, ¬(a.persistence = some p ∨ a.persistence = none ∧ b.persist = p.word) := by
    intro p hp
    cases h.symm.trans (persistence_eq_ok_iff.mpr hp)
  cases hgiven : a.persistence with
  | some p => exact absurd (.inl hgiven) (hnot p)
  | none => exact .persistence hgiven fun p hp => hnot p (.inr ⟨hgiven, hp⟩)

theorem refused_of_program {fault : Fault} (h : program a b = .error fault) :
    Refused env v a b := by
  cases hblank : Text.isBlankText (a.program.getD b.program) with
  | true => exact .blankProgram hblank
  | false => cases h.symm.trans (program_eq_ok_iff.mpr ⟨rfl, hblank⟩)

theorem refused_of_error {fault : Fault} (h : ofConfig env v a b = .error fault) :
    Refused env v a b := by
  cases hpath : metadataPath env v a b with
  | error _ => exact refused_of_metadataPath hpath
  | ok path =>
    cases hpersistence : persistence a b with
    | error _ => exact refused_of_persistence hpersistence
    | ok p =>
      cases hprogram : program a b with
      | error _ => exact refused_of_program hprogram
      | ok name => simp [ofConfig, hpath, hpersistence, hprogram] at h

theorem not_refused_of_ok {i : Invocation} (h : ofConfig env v a b = .ok i) :
    ¬Refused env v a b := by
  obtain ⟨hpath, hpersistence, hprogram, -⟩ := ofConfig_eq_ok_iff.mp h
  obtain ⟨written, hwritten, hfilled, hleads⟩ := metadataPath_eq_ok_iff.mp hpath
  have unique : ∀ {other}, Written a b other → other = written := by
    intro other hother
    exact Option.some.inj ((written_iff.mp hother).symm.trans (written_iff.mp hwritten))
  intro refused
  cases refused with
  | noPath ha hb =>
    have hnone := written_iff.mp hwritten
    rw [ha, hb] at hnone
    cases hnone
  | blankPath hother hblank =>
    rw [unique hother, hfilled] at hblank
    cases hblank
  | astray hother hastray => exact hastray _ (unique hother ▸ hleads)
  | persistence hnone hunknown =>
    rcases persistence_eq_ok_iff.mp hpersistence with hgiven | ⟨-, hword⟩
    · cases hnone.symm.trans hgiven
    · exact hunknown _ hword
  | blankProgram hblank => cases (program_eq_ok_iff.mp hprogram).2.symm.trans hblank

end

/-! ## Options here and there -/

end Invocation

/-- The options of a command line that belong to chosen fields. -/
def Arguments.only (a : Arguments) (chosen : Config.Field → Bool) : Arguments where
  config := a.config
  mpath := if chosen .mpath then a.mpath else none
  dry := chosen .dry && a.dry
  persistence := if chosen .persist then a.persistence else none
  program := if chosen .program then a.program else none
  deviceStart := if chosen .deviceStart then a.deviceStart else none
  quiet := chosen .quiet && a.quiet

/-- The configuration that gives what a command line gives, and nothing else. -/
def Arguments.toConfig (a : Arguments) : Config where
  mpath := a.mpath
  dry := a.dry
  persist := (a.persistence.map Persistence.word).getD Config.default.persist
  program := a.program.getD Config.default.program
  deviceStart := a.deviceStart.getD Config.default.deviceStart
  quiet := a.quiet

/-- The options of a command line can stand in a file: none of its texts is blank that must not be.
-/
structure Arguments.Filled (a : Arguments) : Prop where
  mpath : ∀ path ∈ a.mpath, Text.isBlankText path = false
  program : ∀ name ∈ a.program, Text.isBlankText name = false

theorem Arguments.Filled.only {a : Arguments} (filled : a.Filled)
    (chosen : Config.Field → Bool) : (a.only chosen).Filled := by
  constructor
  case mpath =>
    intro path hpath
    cases hc : chosen .mpath with
    | false => simp [Arguments.only, hc] at hpath
    | true => exact filled.mpath path (by simpa [Arguments.only, hc] using hpath)
  case program =>
    intro name hname
    cases hc : chosen .program with
    | false => simp [Arguments.only, hc] at hname
    | true => exact filled.program name (by simpa [Arguments.only, hc] using hname)

/-- The configuration of a command line is valid if its texts are filled. -/
theorem Arguments.Filled.validate {a : Arguments} (filled : a.Filled) :
    a.toConfig.validate = .ok () := by
  have hpersistence : ∃ p, a.toConfig.persistence = .ok p := by
    cases hp : a.persistence with
    | none =>
      refine ⟨.perBlock, ?_⟩
      simp [Config.persistence, toConfig, hp, Config.default, Persistence.ofWord?_word]
    | some p =>
      refine ⟨p, ?_⟩
      simp [Config.persistence, toConfig, hp, Persistence.ofWord?_word]
  have hprogram : Text.isBlankText a.toConfig.program = false := by
    cases hname : a.program with
    | none =>
      have hdefault : Text.isBlankText Config.default.program = false := by decide +kernel
      simpa [toConfig, hname] using hdefault
    | some name => simpa [toConfig, hname] using filled.program name hname
  have hmpath : a.toConfig.mpath.any Text.isBlankText = false := by
    cases hpath : a.mpath with
    | none => simp [toConfig, hpath]
    | some path => simpa [toConfig, hpath] using filled.mpath path hpath
  obtain ⟨p, hp⟩ := hpersistence
  simp [Config.validate, hp, hprogram, hmpath]

namespace Invocation

section
variable (env : Environment) (v : Volume) (a : Arguments) (chosen : Config.Field → Bool)

theorem metadataPath_split :
    metadataPath env v (a.only chosen) (a.only (!chosen ·)).toConfig =
      metadataPath env v a Config.default := by
  have hmpath : (a.only chosen).mpath.or (a.only (!chosen ·)).toConfig.mpath =
      a.mpath.or Config.default.mpath := by
    cases hc : chosen .mpath <;> simp [Arguments.only, Arguments.toConfig, hc, Config.default]
  simp only [metadataPath, hmpath]

theorem persistence_split :
    persistence (a.only chosen) (a.only (!chosen ·)).toConfig = persistence a Config.default := by
  cases hc : chosen .persist <;> cases hp : a.persistence <;>
    simp [persistence, Config.persistence, Arguments.only, Arguments.toConfig, hc, hp,
      Persistence.ofWord?_word]

theorem program_split :
    program (a.only chosen) (a.only (!chosen ·)).toConfig = program a Config.default := by
  have hprogram : (a.only chosen).program.getD (a.only (!chosen ·)).toConfig.program =
      a.program.getD Config.default.program := by
    cases hc : chosen .program <;> simp [Arguments.only, Arguments.toConfig, hc]
  simp only [program, hprogram]

/-- Options on the command line with the others in a configuration come to what all of them on the
command line come to. -/
theorem ofConfig_split :
    ofConfig env v (a.only chosen) (a.only (!chosen ·)).toConfig =
      ofConfig env v a Config.default := by
  have hdevice : (a.only chosen).deviceStart.getD (a.only (!chosen ·)).toConfig.deviceStart =
      a.deviceStart.getD Config.default.deviceStart := by
    cases hc : chosen .deviceStart <;> simp [Arguments.only, Arguments.toConfig, hc]
  have hdry : ((a.only chosen).dry || (a.only (!chosen ·)).toConfig.dry) =
      (a.dry || Config.default.dry) := by
    cases hc : chosen .dry <;> simp [Arguments.only, Arguments.toConfig, hc, Config.default]
  have hquiet : ((a.only chosen).quiet || (a.only (!chosen ·)).toConfig.quiet) =
      (a.quiet || Config.default.quiet) := by
    cases hc : chosen .quiet <;> simp [Arguments.only, Arguments.toConfig, hc, Config.default]
  simp only [ofConfig, metadataPath_split, persistence_split, program_split, hdevice, hdry, hquiet]

/-- A command line is merged with every configuration as it should be. -/
structure Merges : Prop where
  /-- It fails for the reasons that are given, and for no others. -/
  refused : ∀ c : Option Config, (∃ fault, merge env v a c = .error fault) ↔
    Refused env v a (c.getD Config.default)
  obeyed : ∀ c : Option Config, ¬Refused env v a (c.getD Config.default) →
    ∃ i, merge env v a c = .ok i ∧ Obeys env v a (c.getD Config.default) i
  /-- Any of its options may stand in a configuration instead. -/
  spread : ∀ chosen, merge env v (a.only chosen) (some (a.only (!chosen ·)).toConfig) =
    merge env v a none
  /-- So may all of them. -/
  alone : merge env v { Arguments.empty with config := a.config } (some a.toConfig) =
    merge env v a none
  /-- A file may hold them, if they are valid there. -/
  file : a.Filled → ∀ chosen path,
    Config.load v (Text.encode path) = .ok (a.only (!chosen ·)).toConfig →
    Session.invocation env v { a.only chosen with config := some path } =
      Session.invocation env v { a with config := none }

theorem merge_obeys : Merges env v a := by
  constructor
  case refused =>
    intro c
    constructor
    · rintro ⟨fault, h⟩
      exact refused_of_error h
    · intro refused
      cases h : merge env v a c with
      | error fault => exact ⟨fault, rfl⟩
      | ok i => exact absurd refused (not_refused_of_ok h)
  case obeyed =>
    intro c accepted
    cases h : merge env v a c with
    | error fault => exact absurd (refused_of_error h) accepted
    | ok i => exact ⟨i, rfl, obeys_of_ok h⟩
  case spread => exact fun chosen => ofConfig_split env v a chosen
  case alone => exact ofConfig_split env v a fun _ => false
  case file =>
    intro filled chosen path hload
    have hvalid : (a.only (!chosen ·)).toConfig.validate = .ok () := (filled.only _).validate
    have hmerge : merge env v { a.only chosen with config := some path }
        (some (a.only (!chosen ·)).toConfig) = merge env v { a with config := none } none :=
      ofConfig_split env v a chosen
    simp only [Session.invocation, Session.configuration, hload, hvalid, hmerge]

end

/-! ## A command line and a file -/

/-- A command line with most options. -/
def spreadArguments : Arguments :=
  ⟨none, some "~/m", true, some .onCompletion, some "erase", none, true⟩

/-- The text of a file that gives all of them but the metadata path. -/
def spreadText : String :=
  "\x7b\"persist\": \"on_completion\", \"dry\": true, \"quiet\": true, " ++
    "\"program\": \"erase\"\x7d"

def spreadVolume : Volume :=
  ⟨[([[99]], .file (Text.encode spreadText) 0o644)], [], false⟩

theorem merge_obeys_spread :
    spreadArguments.Filled ∧
    Config.load spreadVolume (Text.encode "/c") =
      .ok (spreadArguments.only (· ≠ .mpath)).toConfig ∧
    Session.invocation [Text.encode "HOME=/h"] spreadVolume
        { Arguments.empty with mpath := some "~/m", config := some "/c" } =
      .ok ⟨⟨Text.encode "/h/m", true, .onCompletion, "erase", "/dev/"⟩, true⟩ := by
  have filled : spreadArguments.Filled := by
    constructor
    case mpath =>
      rintro _ ⟨⟩
      decide +kernel
    case program =>
      rintro _ ⟨⟩
      decide +kernel
  have hload : Config.load spreadVolume (Text.encode "/c") =
      .ok (spreadArguments.only (· ≠ .mpath)).toConfig := by decide +kernel
  refine ⟨filled, hload, ?_⟩
  have hfile := (merge_obeys [Text.encode "HOME=/h"] spreadVolume spreadArguments).file filled
    (· = .mpath) "/c" hload
  refine Eq.trans hfile ?_
  decide +kernel

end Invocation

end BlockPurge
