/-
What the environment of `shr install` leaves in `config.json`.

The settings are saved as they are in memory, where those of the environment
have replaced those of the file.  They are then the settings of every later
process.
-/

import Shr.Install

namespace Shr

/-! ### Settings of a process -/

def overridable : List Key :=
  [.listenPort, .verbose, .logLevel]

def envValue (env : Environment) (key : Key) : Option Assignment :=
  (envAssignments env).find? fun assignment => assignment.key = key

section Settings

variable (library : JsonLibrary) (home : Home)

def plainSetting (file : Option Bytes) (key : Key) : Assignment :=
  (loadConfig library home .empty true file .zero).2.setting key

def effectiveSetting (env : Environment) (file : Option Bytes) (key : Key) : Assignment :=
  (envValue env key).getD (plainSetting library home file key)

def SameSettings (first second : Option Bytes) : Prop :=
  ∀ key ∈ overridable, plainSetting library home first key = plainSetting library home second key

/-- What an installation makes of a setting: the value it runs with, or the
default where the file is cut off. -/
def keptSetting (env : Environment) (world : InstallWorld) (disk : Disk) (key : Key) :
    Assignment :=
  if WholeWritten library world.saving
      (installedConfig world (loadedProcess library home env world disk).cfg) then
    effectiveSetting library home env disk.config key
  else plainSetting library home none key

end Settings

section Lemmas

variable {library : JsonLibrary} {home : Home} {env : Environment} {world : InstallWorld}
  {disk : Disk}

theorem assignAll_setting_congr {first second : AppConfig} {key : Key}
    (same : first.setting key = second.setting key) (assignments : List Assignment) :
    (first.assignAll assignments).setting key = (second.assignAll assignments).setting key := by
  induction assignments generalizing first second with
  | nil => exact same
  | cons assignment rest ih =>
      rw [AppConfig.assignAll_cons, AppConfig.assignAll_cons]
      apply ih
      by_cases hit : assignment.key = key
      · rw [← hit, AppConfig.assign_setting_self, AppConfig.assign_setting_self]
      · rw [AppConfig.assign_setting_of_ne _ hit, AppConfig.assign_setting_of_ne _ hit, same]

theorem applyEnvOverrides_setting (cfg : AppConfig) (key : Key) :
    (applyEnvOverrides env cfg).setting key = (envValue env key).getD (cfg.setting key) := by
  unfold envValue
  cases found : (envAssignments env).find? fun assignment => assignment.key = key with
  | none =>
      apply AppConfig.assignAll_setting_of_notMem
      intro member
      obtain ⟨assignment, present, isKey⟩ := List.mem_map.mp member
      have other := List.find?_eq_none.mp found assignment present
      exact other (decide_eq_true isKey)
  | some assignment =>
      have holds := applyEnvOverrides_holds env cfg assignment (List.mem_of_find?_eq_some found)
      have hit := List.find?_some found
      have isKey : assignment.key = key := of_decide_eq_true hit
      unfold AppConfig.Holds at holds
      rw [isKey] at holds
      exact holds

theorem loadConfig_setting {readable : Bool} {file : Option Bytes}
    (loads : ConfigLoads library readable file) (key : Key) :
    (loadConfig library home env readable file .zero).2.setting key =
      effectiveSetting library home env file key := by
  unfold effectiveSetting plainSetting
  rcases loads with absent | ⟨json, reads, whole⟩
  · rw [absent]
    exact applyEnvOverrides_setting _ key
  · obtain ⟨opens, isRead⟩ := reads
    rw [loadConfig_of_reads ⟨opens, isRead⟩, loadConfig_of_reads ⟨rfl, isRead⟩, whole,
      if_neg (by decide), if_neg (by decide)]
    simp only [applyEnvOverrides_empty]
    rw [applyEnvOverrides_setting]
    cases found : envValue env key with
    | some assignment => rfl
    | none =>
        apply assignAll_setting_congr
        unfold startConfig
        rw [applyEnvOverrides_setting, found, applyEnvOverrides_empty]
        rfl

theorem plainSetting_of_unread {file : Option Bytes}
    (unread : ∀ readable json, ¬Reads library readable file json) (key : Key) :
    plainSetting library home file key = plainSetting library home none key := by
  unfold plainSetting
  rw [loadConfig_of_not_reads (unread true)]
  rfl

theorem plainSetting_leftBehind {saving : Saving} {cfg : AppConfig} (valid : StringsValid cfg)
    (key : Key) :
    plainSetting library home (some (leftBehind library saving cfg)) key =
      if WholeWritten library saving cfg then cfg.setting key
      else plainSetting library home none key := by
  split
  next whole => exact (restores_leftBehind_iff.mpr ⟨valid, whole⟩).2 key
  next cut =>
      apply plainSetting_of_unread
      exact unread_leftBehind fun saved => cut saved.2

theorem installedConfig_setting {cfg : AppConfig} {key : Key} (other : key ≠ .userId) :
    (installedConfig world cfg).setting key = cfg.setting key := by
  cases key with
  | userId => exact absurd rfl other
  | listenPort | maxConcurrent | retryLimit | retryDelayMs | logLevel | verbose => rfl

theorem overridable_ne_userId {key : Key} (member : key ∈ overridable) : key ≠ .userId := by
  rintro rfl
  exact absurd member (by decide)

theorem plainSetting_installed (absent : NotInstalled library home disk.config)
    (succeeds : (cmdInstall library home env world disk).1 = some 0) {key : Key}
    (other : key ≠ .userId) :
    plainSetting library home (cmdInstall library home env world disk).2.2.config key =
      keptSetting library home env world disk key := by
  obtain ⟨loads, ready, _opens⟩ := (cmdInstall_zero_iff absent).mp succeeds
  rw [(cmdInstall_of_loads absent loads).2, identityInstall_written ready,
    plainSetting_leftBehind (stringsValid_installedConfig_iff.mpr ready.valid),
    installedConfig_setting other]
  unfold keptSetting
  congr 1
  exact loadConfig_setting loads key

end Lemmas

/-- After two successful installations over one file the settings are the same if
and only if the environments make the same of them. -/
theorem overrides_stay_iff (library : JsonLibrary) (home : Home) (first second : Environment)
    (firstWorld secondWorld : InstallWorld) (disk : Disk)
    (absent : NotInstalled library home disk.config)
    (firstSucceeds : (cmdInstall library home first firstWorld disk).1 = some 0)
    (secondSucceeds : (cmdInstall library home second secondWorld disk).1 = some 0) :
    SameSettings library home (cmdInstall library home first firstWorld disk).2.2.config
        (cmdInstall library home second secondWorld disk).2.2.config ↔
      ∀ key ∈ overridable, keptSetting library home first firstWorld disk key =
        keptSetting library home second secondWorld disk key := by
  refine forall₂_congr fun key member => ?_
  have other := overridable_ne_userId member
  rw [plainSetting_installed absent firstSucceeds other,
    plainSetting_installed absent secondSucceeds other]

namespace Reference

def verboseEnvironment (value : Text) : Environment :=
  { Environment.empty with shrVerbose := some value }

def quiet : Text :=
  bindText (ascii "0")

theorem quiet_valid : Utf8.Valid (startConfig home (verboseEnvironment quiet) .zero).logLevel :=
  defaults_valid

theorem givenPort_valid :
    Utf8.Valid (startConfig home (portEnvironment givenPort) .zero).logLevel :=
  defaults_valid

theorem calm_keptSetting (env : Environment) (key : Key) :
    keptSetting jsonLibrary home env (calmWorld env true) emptyDisk key =
      effectiveSetting jsonLibrary home env none key :=
  if_pos (wholeSaving_whole _)

/-- An override that says what the defaults say stays in the process. -/
theorem quiet_stays :
    SameSettings jsonLibrary home
      (cmdInstall jsonLibrary home .empty (calmWorld .empty true) emptyDisk).2.2.config
      (cmdInstall jsonLibrary home (verboseEnvironment quiet)
        (calmWorld (verboseEnvironment quiet) true) emptyDisk).2.2.config := by
  refine (overrides_stay_iff _ _ _ _ _ _ _ emptyDisk_notInstalled
    (calmWorld_succeeds defaults_valid) (calmWorld_succeeds quiet_valid)).mpr ?_
  intro key member
  rw [calm_keptSetting, calm_keptSetting]
  cases key with
  | listenPort => rfl
  | verbose => decide
  | logLevel => rfl
  | userId | maxConcurrent | retryLimit | retryDelayMs => exact absurd member (by decide)

/-- The port of the environment is that of every later process. -/
theorem port_persists :
    ¬∀ (library : JsonLibrary) (home : Home) (first second : Environment)
      (firstWorld secondWorld : InstallWorld) (disk : Disk),
      NotInstalled library home disk.config →
      (cmdInstall library home first firstWorld disk).1 = some 0 →
      (cmdInstall library home second secondWorld disk).1 = some 0 →
        SameSettings library home (cmdInstall library home first firstWorld disk).2.2.config
          (cmdInstall library home second secondWorld disk).2.2.config := by
  intro same
  have default := calmWorld_succeeds defaults_valid
  have overridden := calmWorld_succeeds givenPort_valid
  have ports := same _ _ _ _ _ _ _ emptyDisk_notInstalled default overridden .listenPort (by decide)
  rw [plainSetting_installed emptyDisk_notInstalled default (by decide),
    plainSetting_installed emptyDisk_notInstalled overridden (by decide),
    calm_keptSetting, calm_keptSetting] at ports
  revert ports
  decide

end Reference

end Shr
