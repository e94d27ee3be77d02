/-
What a call of `shr install` leaves in memory and on disk.

`Identity::install` sets the identity in memory before anything can fail, and
`Config::save` puts it on disk before the database is opened.  Nothing is taken
back.
-/

import Shr.Config.Saving
import Shr.Crypto

namespace Shr

/-! ### The command -/

structure Disk where
  config : Option Bytes
  keys : KeyFiles

structure Process where
  cfg : AppConfig
  id : Bytes
  crypto : Crypto

def Process.start : Process :=
  { cfg := .zero
    id := []
    crypto := .zero }

def Process.identityInstalled (process : Process) : Bool :=
  process.id ≠ [] && process.cfg.isInstalled

/-- How the world takes a call: whether `config.json` opens for reading, the
random bytes, whether `create_directories` comes back, the key files and the
keypair that is drawn, the writing of `config.json`, and `Database::open`. -/
structure InstallWorld where
  readable : Bool
  random : Random
  createsDirs : Bool
  keys : KeyAccess
  drawn : KeyPair
  saving : Saving
  opensDb : Bool

def installedConfig (world : InstallWorld) (cfg : AppConfig) : AppConfig :=
  { cfg with userId := generateUuid world.random }

section Commands

variable (library : JsonLibrary) (home : Home) (env : Environment) (world : InstallWorld)

/-- `Identity::install`: what it returns, `none` where it throws, and what it
leaves. -/
def identityInstall (process : Process) (disk : Disk) : Option Bool × Process × Disk :=
  let process :=
    { process with
      cfg := installedConfig world process.cfg
      id := generateUuid world.random }
  if world.createsDirs = false then (none, process, disk)
  else
    let generated := loadOrGenerateKeypair world.keys world.drawn disk.keys process.crypto
    let process := { process with crypto := generated.2.2 }
    let disk := { disk with keys := generated.2.1 }
    if generated.1 = some true then
      let saved := saveConfig library world.saving process.cfg disk.config
      (saved.1, process, { disk with config := saved.2 })
    else (generated.1, process, disk)

def loadedProcess (disk : Disk) : Process :=
  { Process.start with
    cfg := (loadConfig library home env world.readable disk.config .zero).2 }

/-- `cmd_install` in a new process: the exit code, `none` where something throws,
and what it leaves. -/
def cmdInstall (disk : Disk) : Option Int × Process × Disk :=
  let process := loadedProcess library home env world disk
  if (loadConfig library home env world.readable disk.config .zero).1 = false then
    (some 1, process, disk)
  else if process.cfg.isInstalled = true then (some 0, process, disk)
  else
    let installed := identityInstall library world process disk
    match installed.1 with
    | none => (none, installed.2)
    | some false => (some 1, installed.2)
    | some true => (some (if world.opensDb = false then 1 else 0), installed.2)

end Commands

/-! ### When a call succeeds -/

section Outcomes

variable (library : JsonLibrary) (home : Home) (env : Environment) (world : InstallWorld)

/-- No later process finds an identity in the file. -/
def NotInstalled (file : Option Bytes) : Prop :=
  ∀ env readable, (loadConfig library home env readable file .zero).2.isInstalled = false

/-- There is no file, or it is read and every key converts. -/
def ConfigLoads (readable : Bool) (file : Option Bytes) : Prop :=
  file = none ∨ ∃ json, Reads library readable file json ∧ (readKeys json loadOrder).2 = true

/-- The key files open, and were there or can be restricted. -/
def KeysReady (files : KeyFiles) : Prop :=
  world.keys.bothOpen = true ∧ (files.bothExist = true ∨ world.keys.permits = true)

structure IdentityReady (files : KeyFiles) (cfg : AppConfig) : Prop where
  createsDirs : world.createsDirs = true
  keysReady : KeysReady world files
  opens : world.saving.opens = true
  valid : Utf8.Valid cfg.logLevel
  good : world.saving.good = true

/-- Everything goes well up to key files that do not open, or to a configuration
that cannot be written. -/
def IdentityFails (files : KeyFiles) (cfg : AppConfig) : Prop :=
  world.createsDirs = true ∧
    (world.keys.bothOpen = false ∨ KeysReady world files ∧
      (world.saving.opens = false ∨ Utf8.Valid cfg.logLevel ∧ world.saving.good = false))

end Outcomes

section Lemmas

variable {library : JsonLibrary} {home : Home} {env : Environment} {world : InstallWorld}
  {process : Process} {disk : Disk}

theorem loadConfig_fst_iff {readable : Bool} {file : Option Bytes} {cfg : AppConfig} :
    (loadConfig library home env readable file cfg).1 = true ↔
      ConfigLoads library readable file := by
  unfold ConfigLoads
  by_cases reads : ∃ json, Reads library readable file json
  · obtain ⟨json, reads⟩ := reads
    have present : file ≠ none := by
      obtain ⟨_readable, text, isText, _parsed⟩ := reads
      rw [isText]
      exact Option.some_ne_none text
    rw [loadConfig_of_reads reads, or_iff_right present]
    constructor
    · intro loads
      refine ⟨json, reads, ?_⟩
      by_contra failed
      rw [if_pos (Bool.eq_false_iff.mpr failed)] at loads
      cases loads
    · rintro ⟨second, again, whole⟩
      rw [reads.unique again, if_neg (by rw [whole]; decide)]
  · have unread : ¬∃ json, Reads library readable file json ∧
        (readKeys json loadOrder).2 = true := by
      rintro ⟨json, isRead, _whole⟩
      exact reads ⟨json, isRead⟩
    rw [or_iff_left unread, loadConfig_of_not_reads (not_exists.mp reads)]
    exact Option.isNone_iff_eq_none

theorem saveConfig_fst {saving : Saving} {cfg : AppConfig} {old : Option Bytes} :
    (saveConfig library saving cfg old).1 =
      if saving.opens = false then some false
      else if StringsValid cfg then some saving.good else none := by
  unfold saveConfig
  cases saving.opens with
  | false => rfl
  | true =>
      simp only [Bool.true_eq_false, if_false, ← @dump_savedFields_isSome_iff library]
      cases library.dump (savedFields cfg) <;> rfl

theorem generateUuid_ne_nil (random : Random) : generateUuid random ≠ [] := by
  unfold generateUuid
  rw [List.finRange_succ, List.flatMap_cons]
  intro nothing
  obtain ⟨first, _rest⟩ := List.append_eq_nil_iff.mp nothing
  cases first

theorem stringsValid_installedConfig_iff {cfg : AppConfig} :
    StringsValid (installedConfig world cfg) ↔ Utf8.Valid cfg.logLevel := by
  refine and_iff_right ?_
  apply Utf8.valid_of_ascii
  intro byte member
  exact (generateUuid_bounds member).2

theorem identityInstall_installed :
    (identityInstall library world process disk).2.1.cfg.isInstalled = true := by
  have fresh : (installedConfig world process.cfg).isInstalled = true :=
    decide_eq_true (generateUuid_ne_nil world.random)
  unfold identityInstall
  simp only
  split
  · exact fresh
  · split <;> exact fresh

theorem keysReady_iff {crypto : Crypto} :
    (loadOrGenerateKeypair world.keys world.drawn disk.keys crypto).1 = some true ↔
      KeysReady world disk.keys := by
  rw [loadOrGenerateKeypair_fst]
  unfold KeysReady
  cases world.keys.bothOpen with
  | false => simp
  | true =>
      simp only [Bool.true_eq_false, if_false, true_and]
      split
      next ready => exact iff_of_true rfl ready
      next unready => exact iff_of_false nofun unready

theorem keysFail_iff {crypto : Crypto} :
    (loadOrGenerateKeypair world.keys world.drawn disk.keys crypto).1 = some false ↔
      world.keys.bothOpen = false := by
  rw [loadOrGenerateKeypair_fst]
  cases world.keys.bothOpen with
  | false => simp
  | true =>
      simp only [Bool.true_eq_false, if_false, iff_false]
      split <;> simp

theorem identityInstall_ready (createsDirs : world.createsDirs = true)
    (keys : KeysReady world disk.keys) :
    (identityInstall library world process disk).1 =
        (saveConfig library world.saving (installedConfig world process.cfg) disk.config).1 ∧
      (identityInstall library world process disk).2.2.config =
        (saveConfig library world.saving (installedConfig world process.cfg) disk.config).2 := by
  unfold identityInstall
  simp only [createsDirs, Bool.true_eq_false, if_false, keysReady_iff.mpr keys, if_true,
    and_self]

theorem identityInstall_unready
    (stopped : ¬(world.createsDirs = true ∧ KeysReady world disk.keys)) :
    (identityInstall library world process disk).1 =
        (if world.createsDirs = true ∧ world.keys.bothOpen = false then some false else none) ∧
      (identityInstall library world process disk).2.2.config = disk.config := by
  unfold identityInstall
  cases createsDirs : world.createsDirs with
  | false => simp
  | true =>
      have unready : ¬KeysReady world disk.keys := fun keys => stopped ⟨createsDirs, keys⟩
      simp only [Bool.true_eq_false, if_false, mt keysReady_iff.mp unready, true_and, and_true]
      by_cases opens : world.keys.bothOpen = false
      · rw [if_pos opens, keysFail_iff.mpr opens]
      · rw [if_neg opens]
        cases result :
          (loadOrGenerateKeypair world.keys world.drawn disk.keys process.crypto).1 with
        | none => rfl
        | some returned =>
            cases returned with
            | false => exact absurd (keysFail_iff.mp result) opens
            | true => exact absurd (keysReady_iff.mp result) unready

theorem identityInstall_true_iff :
    (identityInstall library world process disk).1 = some true ↔
      IdentityReady world disk.keys process.cfg := by
  by_cases ready : world.createsDirs = true ∧ KeysReady world disk.keys
  · rw [(identityInstall_ready ready.1 ready.2).1, saveConfig_fst,
      if_congr stringsValid_installedConfig_iff rfl rfl]
    constructor
    · intro saved
      split at saved
      next => cases saved
      next opens =>
          split at saved
          next valid =>
              exact ⟨ready.1, ready.2, by simpa using opens, valid, Option.some.inj saved⟩
          next => cases saved
    · rintro ⟨_createsDirs, _keys, opens, valid, good⟩
      rw [opens, if_neg (by decide), if_pos valid, good]
  · rw [(identityInstall_unready ready).1]
    refine iff_of_false ?_ ?_
    · split <;> simp
    · intro whole
      exact ready ⟨whole.createsDirs, whole.keysReady⟩

theorem identityInstall_false_iff :
    (identityInstall library world process disk).1 = some false ↔
      IdentityFails world disk.keys process.cfg := by
  unfold IdentityFails
  by_cases ready : world.createsDirs = true ∧ KeysReady world disk.keys
  · have opens : world.keys.bothOpen ≠ false := by simp [ready.2.1]
    rw [(identityInstall_ready ready.1 ready.2).1, saveConfig_fst, and_iff_right ready.1,
      or_iff_right opens, and_iff_right ready.2, if_congr stringsValid_installedConfig_iff rfl rfl]
    cases world.saving.opens with
    | false => simp
    | true =>
        by_cases valid : Utf8.Valid process.cfg.logLevel
        · simp [valid]
        · simp [valid]
  · rw [(identityInstall_unready ready).1]
    constructor
    · intro failed
      split at failed
      next stopped => exact ⟨stopped.1, .inl stopped.2⟩
      next => cases failed
    · rintro ⟨createsDirs, closed | keys⟩
      · rw [if_pos ⟨createsDirs, closed⟩]
      · exact absurd ⟨createsDirs, keys.1⟩ ready

theorem identityInstall_written (ready : IdentityReady world disk.keys process.cfg) :
    (identityInstall library world process disk).2.2.config =
      some (leftBehind library world.saving (installedConfig world process.cfg)) := by
  rw [(identityInstall_ready ready.createsDirs ready.keysReady).2]
  exact saveConfig_opened ready.opens

theorem notInstalled_of_no_id {file : Option Bytes}
    (noId : ∀ readable json, Reads library readable file json →
      json.field Key.userId.name = none) :
    NotInstalled library home file := by
  intro env readable
  have fresh : (startConfig home env .zero).userId = [] := startConfig_userId
  suffices nothing : (loadConfig library home env readable file .zero).2.userId = [] by
    simp only [AppConfig.isInstalled, nothing, ne_eq, not_true_eq_false, decide_false]
  by_cases reads : ∃ json, Reads library readable file json
  · obtain ⟨json, reads⟩ := reads
    have untouched := AppConfig.assignAll_setting_of_notMem (startConfig home env .zero)
      (readKeys_absent (noId readable json reads) loadOrder)
    have sameId := (Assignment.userId.inj untouched).trans fresh
    rw [loadConfig_of_reads reads]
    split
    · exact sameId
    · exact (applyEnvOverrides_userId env _).trans sameId
  · rw [loadConfig_of_not_reads (not_exists.mp reads)]
    exact fresh

theorem notInstalled_leftBehind_iff {saving : Saving} {cfg : AppConfig}
    (fresh : cfg.userId ≠ []) :
    NotInstalled library home (some (leftBehind library saving cfg)) ↔
      ¬(StringsValid cfg ∧ WholeWritten library saving cfg) := by
  constructor
  · intro absent saved
    have restored := (@restores_leftBehind_iff library home saving cfg).mpr saved
    have sameId := Assignment.userId.inj (restored.2 .userId)
    have nothing : (loadConfig library home .empty true
        (some (leftBehind library saving cfg)) .zero).2.userId = [] := by
      simpa [AppConfig.isInstalled] using absent .empty true
    exact fresh (sameId.symm.trans nothing)
  · intro unsaved
    apply notInstalled_of_no_id
    intro readable json reads
    exact absurd reads (unread_leftBehind unsaved readable json)

theorem notInstalled_loaded (absent : NotInstalled library home disk.config) :
    (loadedProcess library home env world disk).cfg.isInstalled = false :=
  absent env world.readable

theorem cmdInstall_of_not_loads (fails : ¬ConfigLoads library world.readable disk.config) :
    cmdInstall library home env world disk =
      (some 1, loadedProcess library home env world disk, disk) := by
  have failed : (loadConfig library home env world.readable disk.config .zero).1 = false :=
    Bool.eq_false_iff.mpr (mt loadConfig_fst_iff.mp fails)
  unfold cmdInstall
  rw [failed, if_pos rfl]

theorem cmdInstall_of_loads (absent : NotInstalled library home disk.config)
    (loads : ConfigLoads library world.readable disk.config) :
    (cmdInstall library home env world disk).1 =
        (identityInstall library world (loadedProcess library home env world disk) disk).1.map
          (fun installed => if installed = true ∧ world.opensDb = true then 0 else 1) ∧
      (cmdInstall library home env world disk).2 =
        (identityInstall library world (loadedProcess library home env world disk) disk).2 := by
  have loaded : (loadConfig library home env world.readable disk.config .zero).1 = true :=
    loadConfig_fst_iff.mpr loads
  unfold cmdInstall
  simp only [loaded, notInstalled_loaded absent, Bool.true_eq_false, Bool.false_eq_true, if_false]
  cases (identityInstall library world (loadedProcess library home env world disk) disk).1 with
  | none => exact ⟨rfl, rfl⟩
  | some installed =>
      cases installed with
      | false => exact ⟨rfl, rfl⟩
      | true => cases world.opensDb <;> exact ⟨rfl, rfl⟩

theorem cmdInstall_zero_iff (absent : NotInstalled library home disk.config) :
    (cmdInstall library home env world disk).1 = some 0 ↔
      ConfigLoads library world.readable disk.config ∧
        IdentityReady world disk.keys (loadedProcess library home env world disk).cfg ∧
        world.opensDb = true := by
  by_cases loads : ConfigLoads library world.readable disk.config
  · rw [(cmdInstall_of_loads absent loads).1, and_iff_right loads,
      ← @identityInstall_true_iff library, Option.map_eq_some_iff]
    constructor
    · rintro ⟨installed, ends, isExit⟩
      split at isExit
      next both => exact ⟨both.1 ▸ ends, both.2⟩
      next => cases isExit
    · rintro ⟨ends, opens⟩
      exact ⟨true, ends, if_pos ⟨rfl, opens⟩⟩
  · refine iff_of_false ?_ (fun whole => loads whole.1)
    rw [cmdInstall_of_not_loads loads]
    exact fun returned => absurd (Option.some.inj returned) (by decide)

end Lemmas

/-! ### All or nothing -/

section Outcomes

variable (library : JsonLibrary) (home : Home) (env : Environment) (world : InstallWorld)
  (disk : Disk)

/-- A failed command leaves a node that is not installed, on disk and, where
`Identity::install` failed, in memory; and a file that a later command can load. -/
structure AllOrNothing : Prop where
  onDisk : ∀ code, (cmdInstall library home env world disk).1 = some code → code ≠ 0 →
    NotInstalled library home (cmdInstall library home env world disk).2.2.config ∧
      ConfigLoads library true (cmdInstall library home env world disk).2.2.config
  inMemory : (loadConfig library home env world.readable disk.config .zero).1 = true →
    (identityInstall library world (loadedProcess library home env world disk) disk).1 =
      some false →
    (cmdInstall library home env world disk).2.1.cfg.isInstalled = false ∧
      (cmdInstall library home env world disk).2.1.identityInstalled = false

/-- The configuration, if there is one, is one that loads; and where it opens,
`Identity::install` does not fail, and where this succeeds the database opens. -/
def InstallSafe : Prop :=
  ConfigLoads library true disk.config ∧
    (ConfigLoads library world.readable disk.config →
      ¬IdentityFails world disk.keys (loadedProcess library home env world disk).cfg ∧
        (IdentityReady world disk.keys (loadedProcess library home env world disk).cfg →
          world.opensDb = true))

end Outcomes

section Lemmas

variable {library : JsonLibrary} {home : Home} {env : Environment} {world : InstallWorld}
  {disk : Disk}

theorem ConfigLoads.opened {readable : Bool} {file : Option Bytes}
    (loads : ConfigLoads library readable file) : ConfigLoads library true file := by
  rcases loads with nothing | ⟨json, ⟨_readable, text, present, parsed⟩, whole⟩
  · exact .inl nothing
  · exact .inr ⟨json, ⟨rfl, text, present, parsed⟩, whole⟩

theorem leftBehind_installed_or_broken {saving : Saving} {cfg : AppConfig}
    (fresh : cfg.userId ≠ []) :
    ¬(NotInstalled library home (some (leftBehind library saving cfg)) ∧
      ConfigLoads library true (some (leftBehind library saving cfg))) := by
  rintro ⟨absent, nothing | ⟨json, reads, _whole⟩⟩
  · cases nothing
  · have unsaved := (notInstalled_leftBehind_iff fresh).mp absent
    exact unread_leftBehind unsaved true json reads

theorem allOrNothing_of_not_loads (absent : NotInstalled library home disk.config)
    (fails : ¬ConfigLoads library world.readable disk.config) :
    AllOrNothing library home env world disk ↔ ConfigLoads library true disk.config := by
  have stays := @cmdInstall_of_not_loads library home env world disk fails
  constructor
  · intro whole
    have left := (whole.onDisk 1 (by rw [stays]) (by decide)).2
    rw [stays] at left
    exact left
  · intro loads
    constructor
    · intro code _returned _nonzero
      rw [stays]
      exact ⟨absent, loads⟩
    · intro loaded
      exact absurd (loadConfig_fst_iff.mp loaded) fails

theorem allOrNothing_of_loads (absent : NotInstalled library home disk.config)
    (loads : ConfigLoads library world.readable disk.config) :
    AllOrNothing library home env world disk ↔
      ¬IdentityFails world disk.keys (loadedProcess library home env world disk).cfg ∧
        (IdentityReady world disk.keys (loadedProcess library home env world disk).cfg →
          world.opensDb = true) := by
  obtain ⟨code, left⟩ := @cmdInstall_of_loads library home env world disk absent loads
  have fresh : (installedConfig world
      (loadedProcess library home env world disk).cfg).userId ≠ [] :=
    generateUuid_ne_nil world.random
  rw [← @identityInstall_false_iff library, ← @identityInstall_true_iff library]
  constructor
  · intro whole
    refine ⟨?_, ?_⟩
    · intro failed
      have gone := (whole.inMemory (loadConfig_fst_iff.mpr loads) failed).1
      rw [left, identityInstall_installed] at gone
      cases gone
    · intro installed
      by_contra closed
      have ready := identityInstall_true_iff.mp installed
      have failed : (cmdInstall library home env world disk).1 = some 1 := by
        rw [code, installed, Option.map_some, if_neg fun both => closed both.2]
      have again := whole.onDisk 1 failed (by decide)
      rw [left, identityInstall_written ready] at again
      exact leftBehind_installed_or_broken fresh again
  · rintro ⟨unfailed, succeeds⟩
    constructor
    · intro exit returned nonzero
      rw [code, Option.map_eq_some_iff] at returned
      obtain ⟨installed, ends, isExit⟩ := returned
      cases installed with
      | false => exact absurd ends unfailed
      | true =>
          rw [if_pos ⟨rfl, succeeds ends⟩] at isExit
          exact absurd isExit.symm nonzero
    · intro _loaded failed
      exact absurd failed unfailed

theorem allOrNothing_iff (absent : NotInstalled library home disk.config) :
    AllOrNothing library home env world disk ↔ InstallSafe library home env world disk := by
  unfold InstallSafe
  by_cases loads : ConfigLoads library world.readable disk.config
  · rw [allOrNothing_of_loads absent loads, and_iff_right loads.opened, forall_prop_of_true loads]
  · rw [allOrNothing_of_not_loads absent loads, and_iff_left fun again => absurd again loads]

end Lemmas

/-- On a node that is not installed, a failed command leaves it so, and ready for
another, if and only if the configuration is one that loads, and neither
`Identity::install` returns false nor the database fails to open after it. -/
theorem all_or_nothing_iff (library : JsonLibrary) (home : Home) (env : Environment)
    (world : InstallWorld) (disk : Disk) (absent : NotInstalled library home disk.config) :
    AllOrNothing library home env world disk ↔ InstallSafe library home env world disk :=
  allOrNothing_iff absent

namespace Reference

def emptyDisk : Disk :=
  { config := none
    keys := { priv := none, pub := none } }

theorem emptyDisk_notInstalled : NotInstalled jsonLibrary home emptyDisk.config := by
  apply notInstalled_of_no_id
  rintro readable json ⟨_readable, text, present, _parsed⟩
  cases present

def zeroRandom : Random :=
  fun _index => 0

def freshConfig (env : Environment) : AppConfig :=
  { startConfig home env .zero with userId := generateUuid zeroRandom }

def wholeSaving (cfg : AppConfig) : Saving :=
  { opens := true
    written := ((jsonLibrary.dump (savedFields cfg)).getD []).length
    good := true }

theorem wholeSaving_whole (cfg : AppConfig) : WholeWritten jsonLibrary (wholeSaving cfg) cfg := by
  intro text dumped
  unfold wholeSaving
  rw [dumped]
  exact Nat.le_refl _

def calmWorld (env : Environment) (opensDb : Bool) : InstallWorld :=
  { readable := true
    random := zeroRandom
    createsDirs := true
    keys := openAccess
    drawn := drawnPair
    saving := wholeSaving (freshConfig env)
    opensDb := opensDb }

theorem calmWorld_loads (env : Environment) (opensDb : Bool) :
    ConfigLoads jsonLibrary (calmWorld env opensDb).readable emptyDisk.config :=
  .inl rfl

theorem calmWorld_ready {env : Environment}
    (valid : Utf8.Valid (startConfig home env .zero).logLevel) (opensDb : Bool) :
    IdentityReady (calmWorld env opensDb) emptyDisk.keys
      (loadedProcess jsonLibrary home env (calmWorld env opensDb) emptyDisk).cfg :=
  { createsDirs := rfl
    keysReady := ⟨rfl, .inr rfl⟩
    opens := rfl
    valid := valid
    good := rfl }

theorem calmWorld_succeeds {env : Environment}
    (valid : Utf8.Valid (startConfig home env .zero).logLevel) :
    (cmdInstall jsonLibrary home env (calmWorld env true) emptyDisk).1 = some 0 :=
  (cmdInstall_zero_iff emptyDisk_notInstalled).mpr
    ⟨calmWorld_loads env true, calmWorld_ready valid true, rfl⟩

theorem defaults_valid : Utf8.Valid (startConfig home .empty .zero).logLevel := by
  decide

/-- With a database that opens nothing is left half done. -/
theorem calm_all_or_nothing :
    AllOrNothing jsonLibrary home .empty (calmWorld .empty true) emptyDisk := by
  refine (all_or_nothing_iff _ _ _ _ _ emptyDisk_notInstalled).mpr ⟨.inl rfl, ?_⟩
  intro _loads
  refine ⟨?_, ?_⟩
  · rintro ⟨_createsDirs, closed | ⟨_keys, closed | ⟨_valid, bad⟩⟩⟩
    · cases closed
    · cases closed
    · cases bad
  · intro _ready
    rfl

/-- A database that does not open leaves an installed node. -/
theorem database_fails_installed :
    ¬∀ (library : JsonLibrary) (home : Home) (env : Environment) (world : InstallWorld)
      (disk : Disk), NotInstalled library home disk.config →
        AllOrNothing library home env world disk := by
  intro holds
  have safe := (allOrNothing_iff emptyDisk_notInstalled).mp
    (holds jsonLibrary home .empty (calmWorld .empty false) emptyDisk emptyDisk_notInstalled)
  have ready := calmWorld_ready defaults_valid false
  have opens := (safe.2 (calmWorld_loads .empty false)).2 ready
  cases opens

end Reference

end Shr
