import BlockPurge.Proofs.Invocation.Merging
import BlockPurge.Proofs.Purge.Endings
import BlockPurge.Proofs.Purge.Outcome
import BlockPurge.Proofs.Volume.Rooted

/-!
# The checks agree

A configuration is checked when it is loaded, its options are looked at again when it is merged with
a command line, and the settings are checked once more when a run starts. The later checks find
nothing that the earlier ones let pass: what merging comes to is fit for a run, and a valid
configuration with a path that leads somewhere comes to something. All of this holds for any way to
expand a path, and for any way to make one absolute that gives absolute paths alone.
-/
namespace BlockPurge

/-! ## Absolute paths -/

namespace Path

theorem isAbsolute_join {folder : Bytes} (h : isAbsolute folder = true) (name : Bytes) :
    isAbsolute (join folder name) = true := by
  cases folder with
  | nil => cases h
  | cons b rest =>
    unfold join
    split
    · exact h
    · exact h

theorem isAbsolute_joinAll (names : List Bytes) {folder : Bytes} (h : isAbsolute folder = true) :
    isAbsolute (names.foldl join folder) = true := by
  induction names generalizing folder with
  | nil => exact h
  | cons name rest ih => exact ih (isAbsolute_join h name)

/-- The absolute form of a path is absolute, if that of the current folder is. -/
theorem isAbsolute_absolute {here path : Bytes}
    (h : isAbsolute path = false → isAbsolute here = true) :
    isAbsolute (absolute here path) = true := by
  have hstart : isAbsolute (if isAbsolute path then
      if [slash, slash].isPrefixOf path && !([slash, slash, slash].isPrefixOf path) then
        [slash, slash]
      else [slash]
    else here) = true := by
    cases hp : isAbsolute path with
    | false => exact h hp
    | true =>
      rw [if_pos rfl]
      split
      · rfl
      · rfl
  have hfull := isAbsolute_joinAll (components path) hstart
  unfold absolute
  dsimp only
  split
  · exact isAbsolute_join hfull []
  · exact hfull

end Path

/-! ## Settings that are fit for a run -/

namespace Purge

theorem Settings.validate_of_absolute {settings : Settings}
    (mpath : Path.isAbsolute settings.mpath = true)
    (program : Text.isBlankText settings.program = false) : settings.validate = .ok () := by
  have hne : settings.mpath.isEmpty = false := by
    cases hp : settings.mpath with
    | nil =>
      rw [hp] at mpath
      cases mpath
    | cons b rest => rfl
  simp [Settings.validate, hne, program]

/-- A run with fit settings does not complain of them, if the utility does not. -/
theorem result_ne_config {settings : Settings} {utility : Utility}
    (valid : settings.validate = .ok ())
    (quiet : ∀ v c reason, (utility v c).1 ≠ .error (.config reason)) (bar : Nat) (draws : Draws)
    (v : Volume)
    (reason : String) : (run settings utility bar draws v).result ≠ .error (.config reason) := by
  intro h
  cases hl : Metadata.load v settings.mpath with
  | error failure =>
    rw [run_unread utility bar draws valid hl] at h
    obtain rfl := Except.error.inj h
    cases Metadata.unloadable_of_load hl
  | ok m =>
    cases hb : Backup.take v settings.mpath with
    | error failure =>
      obtain ⟨before, -, he⟩ := run_uncopied utility bar draws valid hl hb
      obtain ⟨fault, rfl⟩ := Backup.io_of_take hb
      rw [he] at h
      cases h
    | ok taken =>
      -- From the backup on only the last call can be at fault, and the utility answers that.
      have hends : Ends (run settings utility bar draws v).deeds
          (run settings utility bar draws v).result := ends_of_taken valid hl hb
      rw [h] at hends
      obtain ⟨call, hlast, ha⟩ := hends.last_call (by simp)
      cases hd : settings.dryRun with
      | true =>
        obtain ⟨report, hok⟩ := (run_accounts settings utility bar draws v).rehearsed hd valid hl hb
        cases h.symm.trans hok
      | false =>
        obtain ⟨main, haround, hgoes⟩ := goes_of_load utility bar draws hl hd
        have hmem : call ∈ calls main := haround.calls ▸ List.mem_of_getLast? hlast
        exact quiet _ _ _ ((hgoes.called call hmem).symm.trans ha)

end Purge

/-- The utility of a host fails only to be launched. -/
theorem Host.launch_of_error {host : Host} {quiet : Bool} {v : Volume} {c : Command}
    {failure : Failure} (h : (host.utility quiet v c).1 = .error failure) :
    ∃ fault, failure = .launch c.program fault := by
  unfold Host.utility Launch.utility at h
  split at h
  · exact ⟨_, (Except.error.inj h).symm⟩
  split at h
  · exact ⟨_, (Except.error.inj h).symm⟩
  split at h
  · exact ⟨_, (Except.error.inj h).symm⟩
  · cases h

theorem Config.persistence_eq_ok_iff {c : Config} {p : Persistence} :
    c.persistence = .ok p ↔ c.persist = p.word := by
  rw [← Persistence.ofWord?_eq_some_iff, persistence]
  cases Persistence.ofWord? c.persist <;> simp

/-- What makes a configuration valid. -/
theorem Config.validate_eq_ok_iff {c : Config} :
    c.validate = .ok () ↔ (∃ p : Persistence, c.persist = p.word) ∧
      Text.isBlankText c.program = false ∧
      ∀ path, c.mpath = some path → Text.isBlankText path = false := by
  simp only [← persistence_eq_ok_iff, validate]
  cases c.persistence with
  | error fault => simp
  | ok p =>
    cases hprogram : Text.isBlankText c.program with
    | true => simp
    | false =>
      cases c.mpath with
      | none => simp
      | some path => cases hblank : Text.isBlankText path <;> simp [hblank]

namespace Invocation

/-! ## Merging with any expansion -/

/-- The absolute path that a path as it is written leads to, with some expansion and some way to
make a path absolute. -/
def resolveBy (expand : String → Except Path.ExpansionFault String)
    (absolute : String → Except BlockPurge.Fault Bytes) (written : String) : Except Fault Bytes :=
  match expand written with
  | .error fault => .error (.expansion written fault)
  | .ok expanded =>
    match absolute expanded with
    | .error fault => .error (.resolution expanded fault)
    | .ok path => .ok path

/-- What a command line and perhaps a configuration come to with these. -/
def mergeBy (expand : String → Except Path.ExpansionFault String)
    (absolute : String → Except BlockPurge.Fault Bytes) (a : Arguments) (c : Option Config) :
    Except Fault Invocation :=
  ofPath (pathBy (resolveBy expand absolute) a (c.getD Config.default)) a
    (c.getD Config.default)

/-- A way to make paths absolute, which may refuse some, and gives nothing but absolute ones. -/
def Absolutizes (absolute : String → Except BlockPurge.Fault Bytes) : Prop :=
  ∀ text path, absolute text = .ok path → Path.isAbsolute path = true

theorem merge_eq_mergeBy (env : Environment) (v : Volume) :
    merge env v = mergeBy (Path.expand env) (absolute v) :=
  rfl

/-- The way of a volume is one: it looks at the current folder, whose path is absolute. -/
theorem absolutizes (v : Volume) : Absolutizes (absolute v) := by
  intro text path h
  unfold absolute at h
  dsimp only at h
  split at h
  · cases h
  split at h
  · rename_i hp
    cases h
    exact Path.isAbsolute_absolute fun hn => absurd hp (by simp [hn])
  split at h
  · rename_i here hhere
    cases h
    refine Path.isAbsolute_absolute fun _ => ?_
    unfold Volume.currentPath at hhere
    split at hhere
    · cases hhere
    · cases hhere
      exact Volume.isAbsolute_pathOf _
  · cases h

/-- Merging whose result the checks before and after it agree with. -/
structure Agrees (merged : Arguments → Option Config → Except Fault Invocation)
    (leads : String → Bytes → Prop) : Prop where
  /-- What it comes to has an absolute path, and is fit for a run. -/
  accepted : ∀ a c i, merged a c = .ok i →
    Path.isAbsolute i.settings.mpath = true ∧ i.settings.validate = .ok ()
  /-- So no run of a host complains of its settings. -/
  started : ∀ a c i, merged a c = .ok i →
    ∀ (host : Host) (bar : Nat) (draws : Purge.Draws) (v : Volume) (reason : String),
      (Purge.run i.settings (host.utility i.quiet) bar draws v).result ≠ .error (.config reason)
  /-- A valid configuration has no fault in its persistence. -/
  persistence : ∀ a c, (∀ b ∈ c, b.validate = .ok ()) →
    ∀ fault, merged a c ≠ .error (.persist fault)
  /-- Alone it comes to something exactly if it is valid and has a path that leads somewhere. -/
  alone : ∀ a c, a.mpath = none → a.persistence = none → a.program = none →
    ((∃ i, merged a (some c) = .ok i) ↔
      c.validate = .ok () ∧ ∃ written, c.mpath = some written ∧ ∃ path, leads written path)

section
variable {expand : String → Except Path.ExpansionFault String}
  {absolute : String → Except BlockPurge.Fault Bytes} {a : Arguments}

theorem resolveBy_eq_ok_iff {written : String} {path : Bytes} :
    resolveBy expand absolute written = .ok path ↔
      ∃ expanded, expand written = .ok expanded ∧ absolute expanded = .ok path := by
  unfold resolveBy
  cases expand written with
  | error fault => simp
  | ok expanded => cases habs : absolute expanded <;> simp [habs]

theorem accepted_of_mergeBy (absolutizes : Absolutizes absolute) {c : Option Config}
    {i : Invocation} (h : mergeBy expand absolute a c = .ok i) :
    Path.isAbsolute i.settings.mpath = true ∧ i.settings.validate = .ok () := by
  obtain ⟨hpath, -, hprogram, -⟩ := ofPath_eq_ok_iff.mp h
  obtain ⟨written, -, -, hresolved⟩ := pathBy_eq_ok_iff.mp hpath
  obtain ⟨expanded, -, habsolute⟩ := resolveBy_eq_ok_iff.mp hresolved
  obtain ⟨htaken, hfilled⟩ := program_eq_ok_iff.mp hprogram
  have hmpath := absolutizes expanded i.settings.mpath habsolute
  exact ⟨hmpath, Purge.Settings.validate_of_absolute hmpath (htaken ▸ hfilled)⟩

/-- The default configuration is valid too. -/
theorem persistence_of_valid {c : Option Config} (valid : ∀ b ∈ c, b.validate = .ok ()) :
    ∃ p, persistence a (c.getD Config.default) = .ok p := by
  have hvalid : (c.getD Config.default).validate = .ok () := by
    cases c with
    | none => decide +kernel
    | some b => exact valid b rfl
  obtain ⟨p, hp⟩ := (Config.validate_eq_ok_iff.mp hvalid).1
  cases hgiven : a.persistence with
  | some given => exact ⟨given, persistence_eq_ok_iff.mpr (.inl hgiven)⟩
  | none => exact ⟨p, persistence_eq_ok_iff.mpr (.inr ⟨hgiven, hp⟩)⟩

/-- Neither the path nor the program is refused for a persistence. -/
theorem pathBy_ne_persist {b : Config} (fault : Config.Fault) :
    pathBy (resolveBy expand absolute) a b ≠ .error (.persist fault) := by
  intro h
  unfold pathBy resolveBy at h
  split at h
  · cases h
  split at h
  · cases h
  split at h
  · cases h
  split at h
  · cases h
  · cases h

theorem program_ne_persist {b : Config} (fault : Config.Fault) :
    program a b ≠ .error (.persist fault) := by
  intro h
  unfold program at h
  dsimp only at h
  split at h
  · cases h
  · cases h

theorem mergeBy_ne_persist {c : Option Config} (valid : ∀ b ∈ c, b.validate = .ok ())
    (fault : Config.Fault) : mergeBy expand absolute a c ≠ .error (.persist fault) := by
  obtain ⟨p, hp⟩ := persistence_of_valid (a := a) valid
  intro h
  unfold mergeBy ofPath at h
  split at h
  · rename_i hpath
    cases h
    exact pathBy_ne_persist fault hpath
  · rw [hp] at h
    dsimp only at h
    split at h
    · rename_i hprogram
      cases h
      exact program_ne_persist fault hprogram
    · cases h

/-- An invocation is had exactly if nothing of it is refused. -/
theorem exists_ofPath_iff {found : Except Fault Bytes} {b : Config} :
    (∃ i, ofPath found a b = .ok i) ↔ (∃ path, found = .ok path) ∧
      (∃ p, persistence a b = .ok p) ∧ ∃ name, program a b = .ok name := by
  constructor
  · intro h
    obtain ⟨i, h⟩ := h
    obtain ⟨hpath, hpersistence, hprogram, -⟩ := ofPath_eq_ok_iff.mp h
    exact ⟨⟨_, hpath⟩, ⟨_, hpersistence⟩, ⟨_, hprogram⟩⟩
  · intro h
    obtain ⟨⟨path, hpath⟩, ⟨p, hpersistence⟩, ⟨name, hprogram⟩⟩ := h
    exact ⟨⟨⟨path, a.dry || b.dry, p, name, a.deviceStart.getD b.deviceStart⟩,
      a.quiet || b.quiet⟩, ofPath_eq_ok_iff.mpr ⟨hpath, hpersistence, hprogram, rfl, rfl, rfl⟩⟩

/-- With nothing given on the command line all is taken from the configuration. -/
theorem mergeBy_alone {c : Config} (mpath : a.mpath = none) (persist : a.persistence = none)
    (name : a.program = none) :
    (∃ i, mergeBy expand absolute a (some c) = .ok i) ↔
      c.validate = .ok () ∧ ∃ written, c.mpath = some written ∧
        ∃ path, resolveBy expand absolute written = .ok path := by
  have hwritten (written : String) : Written a c written ↔ c.mpath = some written := by
    rw [written_iff, mpath, Option.none_or]
  have hpersistence : (∃ p, persistence a c = .ok p) ↔ ∃ p : Persistence, c.persist = p.word := by
    simp [persistence_eq_ok_iff, persist]
  have hprogram : (∃ name, program a c = .ok name) ↔ Text.isBlankText c.program = false := by
    simp [program_eq_ok_iff, name]
  have hmerge : mergeBy expand absolute a (some c) =
      ofPath (pathBy (resolveBy expand absolute) a c) a c := rfl
  rw [hmerge, exists_ofPath_iff, hpersistence, hprogram, Config.validate_eq_ok_iff]
  simp only [pathBy_eq_ok_iff, hwritten]
  constructor
  · intro h
    obtain ⟨⟨path, written, hw, hfilled, hresolved⟩, hp, hn⟩ := h
    refine ⟨⟨hp, hn, ?_⟩, written, hw, path, hresolved⟩
    intro other hother
    cases hw.symm.trans hother
    exact hfilled
  · intro h
    obtain ⟨⟨hp, hn, hfilled⟩, written, hw, path, hresolved⟩ := h
    exact ⟨⟨path, written, hw, hfilled written hw, hresolved⟩, hp, hn⟩

/-- The checks agree with any expansion and any way to make a path absolute. -/
theorem agrees_mergeBy (absolutizes : Absolutizes absolute) :
    Agrees (mergeBy expand absolute) fun written path =>
      ∃ expanded, expand written = .ok expanded ∧ absolute expanded = .ok path where
  accepted _ _ _ h := accepted_of_mergeBy absolutizes h
  started a c i h host bar v reason := by
    refine Purge.result_ne_config (accepted_of_mergeBy absolutizes h).2 ?_ bar v reason
    intro w command other hother
    obtain ⟨fault, hlaunch⟩ := Host.launch_of_error hother
    cases hlaunch
  persistence _ _ valid := mergeBy_ne_persist valid
  alone a c mpath persist name := by
    simp only [← resolveBy_eq_ok_iff]
    exact mergeBy_alone mpath persist name

end

/-- **The checks agree**, in every environment and on every volume, and however paths are expanded
and made absolute. -/
theorem merge_agrees :
    (∀ (env : Environment) (v : Volume), Agrees (merge env v) (Leads env v)) ∧
    ∀ expand absolute, Absolutizes absolute → Agrees (mergeBy expand absolute)
      fun written path =>
        ∃ expanded, expand written = .ok expanded ∧ absolute expanded = .ok path := by
  constructor
  · intro env v
    rw [merge_eq_mergeBy]
    exact agrees_mergeBy (absolutizes v)
  · intro expand absolute given
    exact agrees_mergeBy given

/-- The default configuration with a path that is a variable, or stands behind one. -/
def variableConfig (path : String) : Config :=
  { Config.default with mpath := some path }

/-- A variable may stand in a path. A path that is nothing but a variable without a value is valid
in a configuration, and it is refused when the two are merged. -/
theorem merge_agrees_variable :
    (variableConfig "$D/m").validate = .ok () ∧
    (∃ i, merge [Text.encode "D=/d"] spreadVolume .empty (some (variableConfig "$D/m")) = .ok i) ∧
    (variableConfig "$D").validate = .ok () ∧
    ¬ ∃ i, mergeBy (Path.expand [Text.encode "D="]) (absolute spreadVolume) .empty
      (some (variableConfig "$D")) = .ok i := by
  have valid : (variableConfig "$D/m").validate = .ok () := by decide +kernel
  have leads : Leads [Text.encode "D=/d"] spreadVolume "$D/m" (Text.encode "/d/m") :=
    ⟨"/d/m", by decide +kernel, by decide +kernel⟩
  have agrees := merge_agrees.1 [Text.encode "D=/d"] spreadVolume
  have agrees' := merge_agrees.2 (Path.expand [Text.encode "D="]) (absolute spreadVolume)
    (absolutizes spreadVolume)
  refine ⟨valid, (agrees.alone .empty _ rfl rfl rfl).mpr ⟨valid, "$D/m", rfl, _, leads⟩,
    by decide +kernel, fun h => ?_⟩
  obtain ⟨-, written, hwritten, path, expanded, hexpanded, habsolute⟩ :=
    (agrees'.alone .empty _ rfl rfl rfl).mp h
  cases hwritten
  have hnothing : Path.expand [Text.encode "D="] "$D" = .ok "" := by decide +kernel
  cases hexpanded.symm.trans hnothing
  cases habsolute

end Invocation

end BlockPurge
