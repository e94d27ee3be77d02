/-
One installation over many processes.

Every command is a process of its own, and what it knows of earlier ones is in
the files.  The configuration is written only by an installation that found no
identity in it, and key files that are both there are never written again.  So
the processes of an installation agree on who they are, in whatever order the
commands come.
-/

import Shr.Commands
import Shr.Library.Runs

namespace Shr

/-! ### What the files say -/

section Files

variable (library : JsonLibrary)

def givenId (file : Option Bytes) : Option Bytes :=
  (((file.bind library.parse).bind fun json => json.field Key.userId.name).bind
    JsonValue.asString).filter fun userId => userId ≠ []

def heldPair (files : KeyFiles) : Option KeyPair :=
  match files.priv, files.pub with
  | some priv, some pub =>
      some
        { privKey := Crypto.zero.keypair.privKey.readFile priv
          pubKey := Crypto.zero.keypair.pubKey.readFile pub }
  | _, _ => none

end Files

section Loading

variable {library : JsonLibrary} {home : Home} {env : Environment} {readable : Bool}
  {file : Option Bytes}

theorem assignAll_readKeys_userId (cfg : AppConfig) (json : Json) :
    (cfg.assignAll (readKeys json loadOrder).1).userId =
      ((json.field Key.userId.name).bind JsonValue.asString).getD cfg.userId := by
  have untouched : ∀ start : AppConfig,
      (start.assignAll (readKeys json loadOrder.tail).1).userId = start.userId := by
    intro start
    have absent : Key.userId ∉ (readKeys json loadOrder.tail).1.map Assignment.key :=
      fun member => absurd ((readKeys_sublist json loadOrder.tail).subset member) (by decide)
    exact Assignment.userId.inj (AppConfig.assignAll_setting_of_notMem start absent)
  have split : loadOrder = .userId :: loadOrder.tail := rfl
  rw [split, readKeys]
  cases json.field Key.userId.name with
  | none => exact untouched cfg
  | some value =>
      simp only [Key.convert, Option.bind_some]
      cases value.asString with
      | none => rfl
      | some userId => exact untouched _

theorem loadConfig_userId :
    (loadConfig library home env readable file .zero).2.userId =
      if readable = true then (givenId library file).getD [] else [] := by
  have fresh : (startConfig home env .zero).userId = [] := startConfig_userId
  by_cases reads : ∃ json, Reads library readable file json
  · obtain ⟨json, reads⟩ := reads
    have result := @assignAll_readKeys_userId (startConfig home env .zero) json
    obtain ⟨opens, text, present, parsed⟩ := reads
    have given : (givenId library file).getD [] =
        ((json.field Key.userId.name).bind JsonValue.asString).getD [] := by
      unfold givenId
      rw [present, Option.bind_some, parsed, Option.bind_some]
      cases (json.field Key.userId.name).bind JsonValue.asString with
      | none => rfl
      | some userId => cases userId <;> rfl
    rw [fresh] at result
    rw [loadConfig_of_reads ⟨opens, text, present, parsed⟩, if_pos opens, given, ← result]
    split
    · rfl
    · exact applyEnvOverrides_userId env _
  · rw [loadConfig_of_not_reads (not_exists.mp reads), fresh]
    split
    · next opens =>
        unfold givenId
        cases present : file with
        | none => rfl
        | some text =>
            cases parsed : library.parse text with
            | none => simp [parsed]
            | some json => exact absurd ⟨json, opens, text, present, parsed⟩ reads
    · rfl

theorem loadConfig_userId_cases (cfg : AppConfig) {userId : Bytes}
    (shown : (loadConfig library home env readable file cfg).2.userId = userId)
    (nonempty : userId ≠ []) : cfg.userId = userId ∨ givenId library file = some userId := by
  have started : (startConfig home env cfg).userId = cfg.userId := startConfig_userId
  by_cases reads : ∃ json, Reads library readable file json
  · obtain ⟨json, reads⟩ := reads
    have result := @assignAll_readKeys_userId (startConfig home env cfg) json
    have same : (loadConfig library home env readable file cfg).2.userId =
        ((startConfig home env cfg).assignAll (readKeys json loadOrder).1).userId := by
      rw [loadConfig_of_reads reads]
      split
      · rfl
      · exact applyEnvOverrides_userId env _
    obtain ⟨_opens, text, present, parsed⟩ := reads
    rw [same, result, started] at shown
    unfold givenId
    rw [present, Option.bind_some, parsed, Option.bind_some]
    cases field : (json.field Key.userId.name).bind JsonValue.asString with
    | none =>
        rw [field] at shown
        exact .inl shown
    | some given =>
        rw [field, Option.getD_some] at shown
        rw [shown]
        exact .inr (by simp [Option.filter, nonempty])
  · rw [loadConfig_of_not_reads (not_exists.mp reads), started] at shown
    exact .inl shown

end Loading

/-! ### What a process does to the files -/

section Keys

variable {access : KeyAccess} {drawn : KeyPair} {files : KeyFiles}

def openedKeys (access : KeyAccess) (drawn : KeyPair) (files : KeyFiles) :
    Option Bool × KeyFiles × Crypto :=
  loadOrGenerateKeypair access drawn files .zero

theorem openedKeys_files {pair : KeyPair} (held : heldPair files = some pair) :
    (openedKeys access drawn files).2.1 = files := by
  obtain ⟨priv, pub⟩ := files
  cases priv with
  | none => cases held
  | some priv =>
      cases pub with
      | none => cases held
      | some pub =>
          unfold openedKeys
          rw [loadOrGenerateKeypair_load rfl rfl]
          split <;> rfl

theorem openedKeys_held {pair : KeyPair} (held : heldPair files = some pair)
    (returned : (openedKeys access drawn files).1 = some true) :
    (openedKeys access drawn files).2.2.keypair = pair := by
  obtain ⟨priv, pub⟩ := files
  cases priv with
  | none => cases held
  | some priv =>
      cases pub with
      | none => cases held
      | some pub =>
          unfold openedKeys at returned ⊢
          rw [loadOrGenerateKeypair_load rfl rfl] at returned ⊢
          split at returned
          · cases returned
          · next opens =>
              rw [if_neg opens]
              exact Option.some.inj held

theorem openedKeys_works {pair : KeyPair} (held : heldPair files = some pair)
    (opens : access.bothOpen = true) :
    openedKeys access drawn files = (some true, files, { keypair := pair, loaded := true }) := by
  obtain ⟨priv, pub⟩ := files
  cases priv with
  | none => cases held
  | some priv =>
      cases pub with
      | none => cases held
      | some pub =>
          unfold openedKeys
          rw [loadOrGenerateKeypair_load rfl rfl, opens, if_neg (by decide),
            ← Option.some.inj held]

theorem heldPair_store (keypair : KeyPair) (privWhole : 32 ≤ access.priv.written)
    (pubWhole : 32 ≤ access.pub.written) :
    heldPair (access.store keypair) = some keypair := by
  have readBack : ∀ (start block : Block 32) (count : Nat), 32 ≤ count →
      start.readFile (block.val.take count) = block := by
    intro start block count whole
    apply Subtype.ext
    rw [Block.take_all block whole, Block.readFile_long start (Nat.le_of_eq block.property.symm),
      Block.take_all block (Nat.le_refl 32)]
  unfold heldPair KeyAccess.store
  simp only [readBack _ _ _ privWhole, readBack _ _ _ pubWhole]

/-- What a call returns true with is what a later process reads. -/
theorem openedKeys_stored (privWhole : 32 ≤ access.priv.written)
    (pubWhole : 32 ≤ access.pub.written)
    (returned : (openedKeys access drawn files).1 = some true) :
    heldPair (openedKeys access drawn files).2.1 =
      some (openedKeys access drawn files).2.2.keypair := by
  cases held : heldPair files with
  | some pair =>
      rw [openedKeys_files held, openedKeys_held held returned, held]
  | none =>
      have missing : files.bothExist = false := by
        obtain ⟨priv, pub⟩ := files
        cases priv with
        | none => rfl
        | some priv =>
            cases pub with
            | none => rfl
            | some pub => cases held
      unfold openedKeys at returned ⊢
      rw [loadOrGenerateKeypair_generate missing] at returned ⊢
      split at returned
      · cases returned
      · next opens =>
          split at returned
          · cases returned
          · next permits =>
              rw [if_neg opens, if_neg permits]
              exact heldPair_store drawn privWhole pubWhole

theorem openedKeys_loaded_iff :
    (openedKeys access drawn files).2.2.loaded = true ↔
      (openedKeys access drawn files).1 = some true := by
  have generated : files.bothExist = false →
      ((openedKeys access drawn files).2.2.loaded = true ↔
        (openedKeys access drawn files).1 = some true) := by
    intro missing
    unfold openedKeys
    rw [loadOrGenerateKeypair_generate missing]
    cases access.bothOpen <;> cases access.permits <;> simp [Crypto.zero]
  obtain ⟨priv, pub⟩ := files
  cases priv with
  | none => exact generated rfl
  | some priv =>
      cases pub with
      | none => exact generated rfl
      | some pub =>
          unfold openedKeys
          rw [loadOrGenerateKeypair_load rfl rfl]
          cases access.bothOpen <;> simp [Crypto.zero]

end Keys

section StartUp

variable {library : JsonLibrary} {home : Home} {env : Environment} {world : InstallWorld}
  {disk : Disk} {requireInstall : Bool}

theorem loadedProcess_userId
    (loads : (loadConfig library home env world.readable disk.config .zero).1 = true) :
    (loadedProcess library home env world disk).cfg.userId =
      (givenId library disk.config).getD [] := by
  have known := @loadConfig_userId library home env world.readable disk.config
  cases readable : world.readable with
  | true =>
      rw [readable, if_pos rfl] at known
      unfold loadedProcess
      rw [readable]
      exact known
  | false =>
      have absent : disk.config = none := by
        rcases loadConfig_fst_iff.mp loads with absent | ⟨json, ⟨opens, _isRead⟩, _whole⟩
        · exact absent
        · rw [readable] at opens
          cases opens
      have nothing : givenId library disk.config = none := by
        rw [absent]
        rfl
      rw [readable, if_neg (by decide)] at known
      unfold loadedProcess
      rw [readable, nothing]
      exact known

theorem loadedProcess_isInstalled_iff
    (loads : (loadConfig library home env world.readable disk.config .zero).1 = true) :
    (loadedProcess library home env world disk).cfg.isInstalled = true ↔
      givenId library disk.config =
        some (loadedProcess library home env world disk).cfg.userId := by
  unfold AppConfig.isInstalled
  rw [loadedProcess_userId loads, decide_eq_true_iff]
  cases given : givenId library disk.config with
  | none => simp
  | some userId =>
      refine iff_of_true ?_ rfl
      simpa using (Option.filter_eq_some_iff.mp given).2

theorem configLoads_open {readable : Bool} {file : Option Bytes}
    (loads : ConfigLoads library readable file) : ConfigLoads library true file := by
  rcases loads with absent | ⟨json, ⟨_opens, isRead⟩, whole⟩
  · exact .inl absent
  · exact .inr ⟨json, ⟨rfl, isRead⟩, whole⟩

theorem initApp_cfg :
    (initApp library home env world requireInstall disk).2.1.cfg =
      (loadedProcess library home env world disk).cfg := by
  unfold initApp
  simp only
  split
  · rfl
  · split
    · rfl
    · split
      · split <;> rfl
      · rfl

theorem initApp_cases :
    (initApp library home env world requireInstall disk).2.2 = disk ∧
        (initApp library home env world requireInstall disk).2.1.crypto = .zero ∧
        ((initApp library home env world requireInstall disk).1 = some true →
          requireInstall = false) ∨
      (loadConfig library home env world.readable disk.config .zero).1 = true ∧
        (loadedProcess library home env world disk).cfg.isInstalled = true ∧
        initApp library home env world requireInstall disk =
          ((openedKeys world.keys world.drawn disk.keys).1,
            { loadedProcess library home env world disk with
              id := (loadedProcess library home env world disk).cfg.userId
              crypto := (openedKeys world.keys world.drawn disk.keys).2.2 },
            { disk with keys := (openedKeys world.keys world.drawn disk.keys).2.1 }) := by
  unfold initApp
  simp only
  split
  next => exact .inl ⟨rfl, rfl, fun returned => by cases returned⟩
  next loads =>
      split
      next => exact .inl ⟨rfl, rfl, fun returned => by cases returned⟩
      next required =>
          split
          next installed =>
              split
              next => exact .inl ⟨rfl, rfl, fun returned => by cases returned⟩
              next => exact .inr ⟨by simpa using loads, installed, rfl⟩
          next absent =>
              refine .inl ⟨rfl, rfl, fun _returned => ?_⟩
              by_contra demanded
              exact required ⟨by simpa using demanded, by simpa using absent⟩

theorem initApp_works {userId : Bytes} {pair : KeyPair} (readable : world.readable = true)
    (keysOpen : world.keys.bothOpen = true) (opensDb : world.opensDb = true)
    (loads : ConfigLoads library true disk.config)
    (given : givenId library disk.config = some userId) (held : heldPair disk.keys = some pair) :
    (initApp library home env world true disk).1 = some true ∧
      (initApp library home env world true disk).2.1.session
          (initApp library home env world true disk).2.1.id =
        { userId := userId, keypair := some pair } := by
  have loaded : (loadConfig library home env world.readable disk.config .zero).1 = true := by
    rw [readable]
    exact loadConfig_fst_iff.mpr loads
  have known := loadedProcess_userId loaded
  rw [given, Option.getD_some] at known
  have installed := (loadedProcess_isInstalled_iff loaded).mpr (by rw [given, known])
  have opened := @openedKeys_works world.keys world.drawn disk.keys pair held keysOpen
  unfold openedKeys at opened
  have start : (loadedProcess library home env world disk).crypto = .zero := rfl
  unfold initApp
  simp only [loaded, installed, opensDb, start, opened, Bool.true_eq_false, and_false, if_false,
    if_true, known, Process.session, and_self]

theorem identityInstall_userId {process : Process} :
    (identityInstall library world process disk).2.1.cfg.userId = generateUuid world.random := by
  unfold identityInstall
  simp only
  split
  · rfl
  · split <;> rfl

theorem identityInstall_keys {process : Process} (fresh : process.crypto = .zero) :
    (identityInstall library world process disk).1 = none ∧
        (identityInstall library world process disk).2.2.keys = disk.keys ∨
      (identityInstall library world process disk).2.2.keys =
          (openedKeys world.keys world.drawn disk.keys).2.1 ∧
        (identityInstall library world process disk).2.1.crypto =
          (openedKeys world.keys world.drawn disk.keys).2.2 := by
  unfold identityInstall openedKeys
  simp only [fresh]
  split
  · exact .inl ⟨rfl, rfl⟩
  · split
    · exact .inr ⟨rfl, rfl⟩
    · exact .inr ⟨rfl, rfl⟩

end StartUp

/-! ### One process -/

namespace Launch

section Commands

variable {library : JsonLibrary} {home : Home} {launch : Launch} {disk : Disk}

/-- What holds of every kind of command holds of a process. -/
theorem by_command {property : Disk → Option Session → Prop}
    (install : launch.command = .install →
      property (cmdInstall library home launch.env launch.world disk).2.2
        (if (cmdInstall library home launch.env launch.world disk).1 = some 0 then
          some ((cmdInstall library home launch.env launch.world disk).2.1.session
            (cmdInstall library home launch.env launch.world disk).2.1.cfg.userId)
        else none))
    (config :
      property (cmdConfig library home launch.env launch.world launch.readableAgain disk).2.2
        (if (cmdConfig library home launch.env launch.world launch.readableAgain disk).1 =
              some 0 ∧
            (cmdConfig library home launch.env launch.world launch.readableAgain
              disk).2.1.cfg.isInstalled = true then
          some
            ((cmdConfig library home launch.env launch.world launch.readableAgain
              disk).2.1.session
              (cmdConfig library home launch.env launch.world launch.readableAgain
                disk).2.1.cfg.userId)
        else none))
    (started :
      property (initApp library home launch.env launch.world true disk).2.2
        (if (initApp library home launch.env launch.world true disk).1 = some true then
          some ((initApp library home launch.env launch.world true disk).2.1.session
            (initApp library home launch.env launch.world true disk).2.1.id)
        else none))
    (idle : property disk none) :
    property (launch.leaves library home disk) (launch.session library home disk) := by
  unfold leaves session
  cases command : launch.command with
  | install => exact install command
  | config => exact config
  | usage | version | incomplete | unknown => exact idle
  | whoami | send | receive | msg | inbox | peers | discover | connect | status | clean =>
      exact started

end Commands

section Specification

variable (library : JsonLibrary) (home : Home) (launch : Launch) (disk left : Disk)
  (session : Option Session)

structure Reads : Prop where
  config : left.config = disk.config
  given : ∀ found, session = some found → givenId library disk.config = some found.userId
  loads : ∀ found, session = some found → found.keypair ≠ none →
    ConfigLoads library true disk.config

structure Writes : Prop where
  command : launch.command = .install
  loads : ConfigLoads library launch.world.readable disk.config
  absent : givenId library disk.config = none
  config : left.config = some (leftBehind library launch.world.saving
    (installedConfig launch.world (loadedProcess library home launch.env launch.world disk).cfg))
  made : ∀ found, session = some found → found.userId = generateUuid launch.world.random ∧
    Utf8.Valid (loadedProcess library home launch.env launch.world disk).cfg.logLevel

/-- A process leaves the key files alone and has no keys, or opens them. -/
def UsesKeys : Prop :=
  left.keys = disk.keys ∧ (∀ found, session = some found → found.keypair = none) ∨
    left.keys = (openedKeys launch.world.keys launch.world.drawn disk.keys).2.1 ∧
      ∀ found pair, session = some found → found.keypair = some pair →
        (openedKeys launch.world.keys launch.world.drawn disk.keys).1 = some true ∧
          (openedKeys launch.world.keys launch.world.drawn disk.keys).2.2.keypair = pair

/-- What a process does to the files, and what it can be sure of. -/
structure Spec : Prop where
  config : Reads library disk left session ∨ Writes library home launch disk left session
  keys : UsesKeys launch disk left session

end Specification

section Lemmas

variable {library : JsonLibrary} {home : Home} {launch : Launch} {disk : Disk}

theorem session_zero {process : Process} (fresh : process.crypto = .zero) (userId : Bytes) :
    process.session userId = { userId := userId, keypair := none } := by
  unfold Process.session
  rw [fresh]
  rfl

theorem session_keypair {process : Process} {userId : Bytes} {pair : KeyPair}
    (opened : process.crypto = (openedKeys launch.world.keys launch.world.drawn disk.keys).2.2)
    (shown : (process.session userId).keypair = some pair) :
    (openedKeys launch.world.keys launch.world.drawn disk.keys).1 = some true ∧
      (openedKeys launch.world.keys launch.world.drawn disk.keys).2.2.keypair = pair := by
  unfold Process.session at shown
  simp only [opened] at shown
  split at shown
  next loaded => exact ⟨openedKeys_loaded_iff.mp loaded, Option.some.inj shown⟩
  next => cases shown

theorem Reads.of_none {left : Disk} (same : left.config = disk.config) :
    Reads library disk left none where
  config := same
  given found isFound := by cases isFound
  loads found isFound := by cases isFound

theorem Spec.of_none : Spec library home launch disk disk none where
  config := .inl (.of_none rfl)
  keys := .inl ⟨rfl, fun found isFound => by cases isFound⟩

theorem Spec.of_keyless {userId : Bytes} (given : givenId library disk.config = some userId) :
    Spec library home launch disk disk (some { userId := userId, keypair := none }) where
  config := by
    refine .inl ⟨rfl, ?_, ?_⟩
    · intro found isFound
      rw [← Option.some.inj isFound, given]
    · intro found isFound keyed
      rw [← Option.some.inj isFound] at keyed
      exact absurd rfl keyed
  keys := by
    refine .inl ⟨rfl, ?_⟩
    intro found isFound
    rw [← Option.some.inj isFound]

theorem givenId_eq_none
    (loaded : (loadConfig library home launch.env launch.world.readable disk.config .zero).1 = true)
    (fresh : ¬(loadedProcess library home launch.env launch.world disk).cfg.isInstalled = true) :
    givenId library disk.config = none := by
  have known := loadedProcess_userId loaded
  rw [loadedProcess_isInstalled_iff loaded] at fresh
  cases given : givenId library disk.config with
  | none => rfl
  | some userId =>
      rw [given, Option.getD_some] at known
      rw [given, known] at fresh
      exact absurd rfl fresh

theorem Spec.of_installed (isInstall : launch.command = .install)
    (loads : ConfigLoads library launch.world.readable disk.config)
    (absent : givenId library disk.config = none) {process : Process} {left : Disk}
    (installed : identityInstall library launch.world
      (loadedProcess library home launch.env launch.world disk) disk = (some true, process, left)) :
    Spec library home launch disk left (some (process.session process.cfg.userId)) := by
  have ready := identityInstall_true_iff.mp (congrArg Prod.fst installed)
  have named := @identityInstall_userId library launch.world disk
    (loadedProcess library home launch.env launch.world disk)
  have written := @identityInstall_written library launch.world
    (loadedProcess library home launch.env launch.world disk) disk ready
  have keys := @identityInstall_keys library launch.world disk
    (loadedProcess library home launch.env launch.world disk) rfl
  rw [installed] at named written keys
  constructor
  · refine .inr ⟨isInstall, loads, absent, written, ?_⟩
    intro found isFound
    rw [← Option.some.inj isFound]
    exact ⟨named, ready.valid⟩
  · rcases keys with ⟨thrown, _untouched⟩ | ⟨opened, crypto⟩
    · cases thrown
    · refine .inr ⟨opened, ?_⟩
      intro found pair isFound shown
      rw [← Option.some.inj isFound] at shown
      exact session_keypair crypto shown

theorem Spec.of_identityInstall (isInstall : launch.command = .install)
    (loads : ConfigLoads library launch.world.readable disk.config)
    (absent : givenId library disk.config = none) :
    Spec library home launch disk
      (identityInstall library launch.world
        (loadedProcess library home launch.env launch.world disk) disk).2.2 none where
  config := by
    by_cases ready : launch.world.createsDirs = true ∧ KeysReady launch.world disk.keys
    · have written := (@identityInstall_ready library launch.world
        (loadedProcess library home launch.env launch.world disk) disk ready.1 ready.2).2
      cases opens : launch.world.saving.opens with
      | false =>
          refine .inl (.of_none ?_)
          rw [written]
          unfold saveConfig
          rw [opens, if_pos rfl]
      | true =>
          refine .inr ⟨isInstall, loads, absent, ?_, ?_⟩
          · rw [written]
            exact saveConfig_opened opens
          · intro found isFound
            cases isFound
    · exact .inl (.of_none (identityInstall_unready ready).2)
  keys := by
    rcases @identityInstall_keys library launch.world disk
      (loadedProcess library home launch.env launch.world disk) rfl with
      ⟨_thrown, untouched⟩ | ⟨opened, _crypto⟩
    · exact .inl ⟨untouched, fun found isFound => by cases isFound⟩
    · exact .inr ⟨opened, fun found pair isFound => by cases isFound⟩

theorem cmdInstall_spec (isInstall : launch.command = .install) :
    let done := cmdInstall library home launch.env launch.world disk
    Spec library home launch disk done.2.2
      (if done.1 = some 0 then some (done.2.1.session done.2.1.cfg.userId) else none) := by
  unfold cmdInstall
  simp only
  split
  next => exact .of_none
  next loads =>
      have loaded := Bool.not_eq_false _ |>.mp loads
      split
      next installed =>
          have given := (loadedProcess_isInstalled_iff loaded).mp installed
          rw [if_pos rfl, session_zero rfl]
          exact .of_keyless given
      next fresh =>
          have absent := givenId_eq_none loaded fresh
          have configLoads := loadConfig_fst_iff.mp loaded
          have left := @Spec.of_identityInstall library home launch disk isInstall configLoads
            absent
          cases result : identityInstall library launch.world
              (loadedProcess library home launch.env launch.world disk) disk with
          | mk returned rest =>
              rw [result] at left
              cases returned with
              | none => exact left
              | some installed =>
                  cases installed with
                  | false => exact left
                  | true =>
                      cases launch.world.opensDb with
                      | false => exact left
                      | true => exact .of_installed isInstall configLoads absent result

theorem Spec.of_opened {process : Process} {left : Disk} {userId : Bytes}
    (loads : ConfigLoads library launch.world.readable disk.config)
    (given : givenId library disk.config = some userId) (config : left.config = disk.config)
    (keys : left.keys = (openedKeys launch.world.keys launch.world.drawn disk.keys).2.1)
    (crypto : process.crypto = (openedKeys launch.world.keys launch.world.drawn disk.keys).2.2) :
    Spec library home launch disk left (some (process.session userId)) where
  config := by
    refine .inl ⟨config, ?_, ?_⟩
    · intro found isFound
      rw [← Option.some.inj isFound, given]
      rfl
    · intro found isFound _keyed
      exact configLoads_open loads
  keys := by
    refine .inr ⟨keys, ?_⟩
    intro found pair isFound shown
    rw [← Option.some.inj isFound] at shown
    exact session_keypair crypto shown

theorem Spec.of_some {left : Disk} {session : Session}
    (spec : Spec library home launch disk left (some session)) :
    Spec library home launch disk left none where
  config := by
    rcases spec.config with reads | writes
    · exact .inl (.of_none reads.config)
    · refine .inr ⟨writes.command, writes.loads, writes.absent, writes.config, ?_⟩
      intro found isFound
      cases isFound
  keys := by
    rcases spec.keys with ⟨untouched, _keyless⟩ | ⟨opened, _keyed⟩
    · exact .inl ⟨untouched, fun found isFound => by cases isFound⟩
    · exact .inr ⟨opened, fun found pair isFound => by cases isFound⟩

theorem initApp_spec :
    let started := initApp library home launch.env launch.world true disk
    Spec library home launch disk started.2.2
      (if started.1 = some true then some (started.2.1.session started.2.1.id) else none) := by
  intro started
  rcases @initApp_cases library home launch.env launch.world disk true with
    ⟨untouched, _crypto, optional⟩ | ⟨loaded, installed, opened⟩
  · rw [if_neg fun returned => absurd (optional returned) (by decide)]
    simp only [started, untouched]
    exact .of_none
  · have given := (loadedProcess_isInstalled_iff loaded).mp installed
    have whole : Spec library home launch disk started.2.2
        (some (started.2.1.session started.2.1.id)) := by
      simp only [started, opened]
      exact .of_opened (loadConfig_fst_iff.mp loaded) given rfl rfl rfl
    split
    · exact whole
    · exact whole.of_some

theorem loadedProcess_given {userId : Bytes}
    (shown : (loadedProcess library home launch.env launch.world disk).cfg.userId = userId)
    (nonempty : userId ≠ []) : givenId library disk.config = some userId := by
  rcases loadConfig_userId_cases .zero shown nonempty with blank | given
  · exact absurd blank.symm nonempty
  · exact given

theorem cmdConfig_spec :
    let done := cmdConfig library home launch.env launch.world launch.readableAgain disk
    Spec library home launch disk done.2.2
      (if done.1 = some 0 ∧ done.2.1.cfg.isInstalled = true then
        some (done.2.1.session done.2.1.cfg.userId)
      else none) := by
  intro done
  have left : done.2.2 = (initApp library home launch.env launch.world false disk).2.2 := by
    simp only [done, cmdConfig]
    split <;> rfl
  have crypto : done.2.1.crypto =
      (initApp library home launch.env launch.world false disk).2.1.crypto := by
    simp only [done, cmdConfig]
    split <;> rfl
  have shown : done.2.1.cfg.isInstalled = true →
      givenId library disk.config = some done.2.1.cfg.userId := by
    intro installed
    have nonempty : done.2.1.cfg.userId ≠ [] := of_decide_eq_true installed
    have first := @initApp_cfg library home launch.env launch.world disk false
    have again :
        done.2.1.cfg = (initApp library home launch.env launch.world false disk).2.1.cfg ∨
        done.2.1.cfg = (loadConfig library home launch.env launch.readableAgain disk.config
          (initApp library home launch.env launch.world false disk).2.1.cfg).2 := by
      simp only [done, cmdConfig]
      split
      · exact .inl rfl
      · exact .inl rfl
      · exact .inr rfl
    rw [first] at again
    rcases again with once | twice
    · exact loadedProcess_given (congrArg AppConfig.userId once.symm) nonempty
    · rcases loadConfig_userId_cases _ (congrArg AppConfig.userId twice.symm) nonempty with
        before | given
      · exact loadedProcess_given before nonempty
      · exact given
  rcases @initApp_cases library home launch.env launch.world disk false with
    ⟨untouched, fresh, _optional⟩ | ⟨loaded, installed, opened⟩
  · rw [left, untouched]
    split
    next both =>
        rw [session_zero (crypto.trans fresh)]
        exact .of_keyless (shown both.2)
    next => exact .of_none
  · have given := (loadedProcess_isInstalled_iff loaded).mp installed
    have whole : ∀ userId, givenId library disk.config = some userId →
        Spec library home launch disk done.2.2 (some (done.2.1.session userId)) := by
      intro userId isGiven
      refine .of_opened (loadConfig_fst_iff.mp loaded) isGiven ?_ ?_ ?_
      · rw [left, opened]
      · rw [left, opened]
      · rw [crypto, opened]
    split
    next both => exact whole _ (shown both.2)
    next => exact (whole _ given).of_some

theorem spec :
    Spec library home launch disk (launch.leaves library home disk)
      (launch.session library home disk) := by
  refine @by_command library home launch disk (Spec library home launch disk) ?_ ?_ ?_ ?_
  · intro isInstall
    exact cmdInstall_spec isInstall
  · exact cmdConfig_spec
  · exact initApp_spec
  · exact .of_none

end Lemmas

end Launch

/-! ### Processes one after the other -/

section Runs

variable (library : JsonLibrary) (home : Home)

/-- The files after some processes, each of which ends before the next begins. -/
def Disk.after (disk : Disk) (launches : List Launch) : Disk :=
  EventRun.run (fun disk launch => launch.leaves library home disk) disk launches

structure Launch.WritesWhole (launch : Launch) (disk : Disk) : Prop where
  config : launch.command = .install →
    WholeWritten library launch.world.saving
      (installedConfig launch.world (loadedProcess library home launch.env launch.world disk).cfg)
  priv : 32 ≤ launch.world.keys.priv.written
  pub : 32 ≤ launch.world.keys.pub.written

end Runs

section Lemmas

variable {library : JsonLibrary} {home : Home} {disk : Disk} {launch : Launch}

theorem leaves_config_of_given {userId : Bytes}
    (given : givenId library disk.config = some userId) :
    (launch.leaves library home disk).config = disk.config := by
  rcases (@Launch.spec library home launch disk).config with reads | writes
  · exact reads.config
  · rw [writes.absent] at given
    cases given

theorem leaves_keys_of_held {pair : KeyPair} (held : heldPair disk.keys = some pair) :
    (launch.leaves library home disk).keys = disk.keys := by
  rcases (@Launch.spec library home launch disk).keys with
    ⟨untouched, _keyless⟩ | ⟨opened, _keyed⟩
  · exact untouched
  · rw [opened, openedKeys_files held]

theorem after_config_of_given {userId : Bytes}
    (given : givenId library disk.config = some userId) (launches : List Launch) :
    (disk.after library home launches).config = disk.config := by
  refine @EventRun.run_invariant _ _ _ (fun later : Disk => later.config = disk.config) ?_ _ rfl
    launches
  intro later launch same
  rw [← same] at given
  exact (leaves_config_of_given given).trans same

theorem after_keys_of_held {pair : KeyPair} (held : heldPair disk.keys = some pair)
    (launches : List Launch) : (disk.after library home launches).keys = disk.keys := by
  refine @EventRun.run_invariant _ _ _ (fun later : Disk => later.keys = disk.keys) ?_ _ rfl
    launches
  intro later launch same
  rw [← same] at held
  exact (leaves_keys_of_held held).trans same

theorem givenId_leftBehind {saving : Saving} {cfg : AppConfig} (valid : StringsValid cfg)
    (whole : WholeWritten library saving cfg) (nonempty : cfg.userId ≠ []) :
    givenId library (some (leftBehind library saving cfg)) = some cfg.userId ∧
      ConfigLoads library true (some (leftBehind library saving cfg)) := by
  have restored := (@restores_leftBehind_iff library
    { configDir := [], receivedDir := [] } saving cfg).mpr ⟨valid, whole⟩
  have sameId := Assignment.userId.inj (restored.2 .userId)
  rw [loadConfig_userId, if_pos rfl] at sameId
  refine ⟨?_, loadConfig_fst_iff.mp restored.1⟩
  cases given : givenId library (some (leftBehind library saving cfg)) with
  | none =>
      rw [given] at sameId
      exact absurd sameId.symm nonempty
  | some userId =>
      rw [given] at sameId
      exact congrArg some sameId

/-- The files hold what a process has gone by, once it has ended. -/
theorem session_stays {found : Session} (whole : launch.WritesWhole library home disk)
    (session : launch.session library home disk = some found) :
    givenId library (launch.leaves library home disk).config = some found.userId ∧
      ∀ pair, found.keypair = some pair →
        heldPair (launch.leaves library home disk).keys = some pair ∧
          ConfigLoads library true (launch.leaves library home disk).config := by
  have spec := @Launch.spec library home launch disk
  rw [session] at spec
  have keys : ∀ pair, found.keypair = some pair →
      heldPair (launch.leaves library home disk).keys = some pair := by
    intro pair keyed
    rcases spec.keys with ⟨_untouched, keyless⟩ | ⟨opened, works⟩
    · rw [keyless found rfl] at keyed
      cases keyed
    · obtain ⟨returned, same⟩ := works found pair rfl keyed
      rw [opened, openedKeys_stored whole.priv whole.pub returned, same]
  rcases spec.config with reads | writes
  · rw [reads.config]
    refine ⟨reads.given found rfl, fun pair keyed => ⟨keys pair keyed, ?_⟩⟩
    apply reads.loads found rfl
    rw [keyed]
    exact Option.some_ne_none pair
  · obtain ⟨named, valid⟩ := writes.made found rfl
    obtain ⟨given, loads⟩ := givenId_leftBehind (stringsValid_installedConfig_iff.mpr valid)
      (whole.config writes.command) (generateUuid_ne_nil launch.world.random)
    rw [writes.config, named]
    exact ⟨given, fun pair keyed => ⟨keys pair keyed, loads⟩⟩

theorem session_of_files {found : Session} {userId : Bytes}
    (given : givenId library disk.config = some userId)
    (session : launch.session library home disk = some found) :
    found.userId = userId ∧ ∀ pair, heldPair disk.keys = some pair →
      found.keypair = none ∨ found.keypair = some pair := by
  have spec := @Launch.spec library home launch disk
  rw [session] at spec
  constructor
  · rcases spec.config with reads | writes
    · have same := reads.given found rfl
      rw [given] at same
      exact (Option.some.inj same).symm
    · rw [writes.absent] at given
      cases given
  · intro pair held
    rcases spec.keys with ⟨_untouched, keyless⟩ | ⟨_opened, works⟩
    · exact .inl (keyless found rfl)
    · cases keyed : found.keypair with
      | none => exact .inl rfl
      | some shown =>
          obtain ⟨returned, same⟩ := works found shown rfl keyed
          rw [openedKeys_held held returned] at same
          exact .inr (congrArg some same.symm)

theorem session_starts (starts : launch.command.callsInitApp = true) :
    launch.session library home disk =
      if (initApp library home launch.env launch.world true disk).1 = some true then
        some ((initApp library home launch.env launch.world true disk).2.1.session
          (initApp library home launch.env launch.world true disk).2.1.id)
      else none := by
  unfold Launch.session
  cases command : launch.command with
  | usage | version | install | config | incomplete | unknown =>
      rw [command] at starts
      cases starts
  | whoami | send | receive | msg | inbox | peers | discover | connect | status | clean => rfl

theorem session_lasts {first last : Launch} {between : List Launch} {userId : Bytes}
    {pair : KeyPair} (whole : first.WritesWhole library home disk)
    (works : first.session library home disk = some { userId := userId, keypair := some pair })
    (starts : last.command.callsInitApp = true) (readable : last.world.readable = true)
    (keysOpen : last.world.keys.bothOpen = true) (opensDb : last.world.opensDb = true) :
    last.session library home (disk.after library home (first :: between)) =
      some { userId := userId, keypair := some pair } := by
  obtain ⟨given, keys⟩ := session_stays whole works
  obtain ⟨held, loads⟩ := keys pair rfl
  have config := @after_config_of_given library home _ _ given between
  have files := @after_keys_of_held library home _ _ held between
  have after : disk.after library home (first :: between) =
      (first.leaves library home disk).after library home between := rfl
  rw [← config] at given loads
  rw [← files] at held
  obtain ⟨returned, session⟩ := @initApp_works library home last.env last.world _ userId pair
    readable keysOpen opensDb loads given held
  rw [after, session_starts starts, returned, if_pos rfl, session]

theorem unparsed_stays {text : Bytes} (present : disk.config = some text)
    (unparsed : library.parse text = none) :
    (launch.leaves library home disk).config = some text ∧
      launch.session library home disk = none := by
  have nothing : givenId library disk.config = none := by
    unfold givenId
    rw [present, Option.bind_some, unparsed]
    rfl
  have spec := @Launch.spec library home launch disk
  have reads : Launch.Reads library disk (launch.leaves library home disk)
      (launch.session library home disk) := by
    rcases spec.config with reads | writes
    · exact reads
    · rcases writes.loads with absent | ⟨json, ⟨_opens, other, isOther, parsed⟩, _whole⟩
      · rw [present] at absent
        cases absent
      · rw [present] at isOther
        cases isOther
        rw [unparsed] at parsed
        cases parsed
  refine ⟨reads.config.trans present, ?_⟩
  cases session : launch.session library home disk with
  | none => rfl
  | some found =>
      have given := reads.given found session
      rw [nothing] at given
      cases given

theorem unparsed_after {text : Bytes} (present : disk.config = some text)
    (unparsed : library.parse text = none) (launches : List Launch) :
    (disk.after library home launches).config = some text := by
  refine @EventRun.run_invariant _ _ _ (fun later : Disk => later.config = some text) ?_ _ present
    launches
  intro later launch kept
  exact (unparsed_stays kept unparsed).1

theorem leaves_cut (isInstall : launch.command = .install)
    (absent : NotInstalled library home disk.config)
    (loads : ConfigLoads library launch.world.readable disk.config)
    (createsDirs : launch.world.createsDirs = true) (keysReady : KeysReady launch.world disk.keys)
    (opens : launch.world.saving.opens = true) :
    (launch.leaves library home disk).config =
      some (leftBehind library launch.world.saving (installedConfig launch.world
        (loadedProcess library home launch.env launch.world disk).cfg)) := by
  have left : launch.leaves library home disk =
      (cmdInstall library home launch.env launch.world disk).2.2 := by
    unfold Launch.leaves
    rw [isInstall]
  rw [left, (cmdInstall_of_loads absent loads).2, (identityInstall_ready createsDirs keysReady).2]
  exact saveConfig_opened opens

end Lemmas

namespace Reference

def calmLaunch (env : Environment) (arguments : List Bytes) : Launch :=
  { arguments := arguments
    env := env
    world := calmWorld env true
    readableAgain := true }

def installLaunch : Launch :=
  calmLaunch .empty [ascii "install"]

def whoamiLaunch : Launch :=
  calmLaunch .empty [ascii "whoami"]

def firstSession : Session :=
  { userId := generateUuid zeroRandom
    keypair := some drawnPair }

theorem installLaunch_session :
    installLaunch.session jsonLibrary home emptyDisk = some firstSession := by
  have succeeds : (cmdInstall jsonLibrary home .empty (calmWorld .empty true) emptyDisk).1 =
      some 0 := calmWorld_succeeds defaults_valid
  have session : installLaunch.session jsonLibrary home emptyDisk =
      if (cmdInstall jsonLibrary home .empty (calmWorld .empty true) emptyDisk).1 = some 0 then
        some ((cmdInstall jsonLibrary home .empty (calmWorld .empty true) emptyDisk).2.1.session
          (cmdInstall jsonLibrary home .empty (calmWorld .empty true) emptyDisk).2.1.cfg.userId)
      else none := rfl
  have left := (@cmdInstall_of_loads jsonLibrary home .empty (calmWorld .empty true) emptyDisk
    emptyDisk_notInstalled (calmWorld_loads .empty true)).2
  rw [session, if_pos succeeds, left, identityInstall_userId]
  rfl

theorem installLaunch_writesWhole : installLaunch.WritesWhole jsonLibrary home emptyDisk where
  config _isInstall := wholeSaving_whole _
  priv := Nat.le_refl 32
  pub := Nat.le_refl 32

end Reference

/-- A process goes by the identity of every earlier one, and by its keys, if it
has any: whatever the commands are and however the files take their calls, a
write of the first process that is cut short apart. -/
theorem processes_agree (library : JsonLibrary) (home : Home) (disk : Disk) (first second : Launch)
    (between : List Launch) {earlier later : Session}
    (whole : first.WritesWhole library home disk)
    (begins : first.session library home disk = some earlier)
    (continues : second.session library home (disk.after library home (first :: between)) =
      some later) :
    later.userId = earlier.userId ∧ ∀ pair, earlier.keypair = some pair →
      later.keypair = none ∨ later.keypair = some pair := by
  obtain ⟨given, keys⟩ := session_stays whole begins
  have config := @after_config_of_given library home _ _ given between
  rw [← config] at given
  obtain ⟨sameId, sameKeys⟩ := session_of_files given continues
  refine ⟨sameId, ?_⟩
  intro pair keyed
  have held := (keys pair keyed).1
  have files := @after_keys_of_held library home _ _ held between
  rw [← files] at held
  exact sameKeys pair held

/-- A second installation in between changes nothing for the third process. -/
theorem Reference.whoami_agrees :
    ∃ earlier later,
      Reference.installLaunch.session Reference.jsonLibrary Reference.home Reference.emptyDisk =
        some earlier ∧
      Reference.whoamiLaunch.session Reference.jsonLibrary Reference.home
          (Reference.emptyDisk.after Reference.jsonLibrary Reference.home
            [Reference.installLaunch, Reference.installLaunch]) = some later ∧
      later.userId = earlier.userId ∧ ∀ pair, earlier.keypair = some pair →
        later.keypair = none ∨ later.keypair = some pair := by
  have continues := @session_lasts _ _ _ _ Reference.whoamiLaunch [Reference.installLaunch] _ _
    Reference.installLaunch_writesWhole Reference.installLaunch_session rfl rfl rfl rfl
  exact ⟨_, _, Reference.installLaunch_session, continues,
    processes_agree Reference.jsonLibrary Reference.home Reference.emptyDisk
      Reference.installLaunch Reference.whoamiLaunch [Reference.installLaunch]
      Reference.installLaunch_writesWhole Reference.installLaunch_session continues⟩

/-- What one process has worked with, every later command works with, if it can
open its files. -/
theorem installation_lasts (library : JsonLibrary) (home : Home) (disk : Disk) (first last : Launch)
    (between : List Launch) {userId : Bytes} {pair : KeyPair}
    (whole : first.WritesWhole library home disk)
    (works : first.session library home disk = some { userId := userId, keypair := some pair })
    (starts : last.command.callsInitApp = true) (readable : last.world.readable = true)
    (keysOpen : last.world.keys.bothOpen = true) (opensDb : last.world.opensDb = true) :
    last.session library home (disk.after library home (first :: between)) =
      some { userId := userId, keypair := some pair } :=
  session_lasts whole works starts readable keysOpen opensDb

theorem Reference.whoami_works :
    Reference.whoamiLaunch.session Reference.jsonLibrary Reference.home
        (Reference.emptyDisk.after Reference.jsonLibrary Reference.home
          [Reference.installLaunch, Reference.installLaunch]) =
      some Reference.firstSession :=
  installation_lasts Reference.jsonLibrary Reference.home Reference.emptyDisk
    Reference.installLaunch Reference.whoamiLaunch [Reference.installLaunch]
    Reference.installLaunch_writesWhole Reference.installLaunch_session rfl rfl rfl rfl

namespace Reference

def latinLevel : Text :=
  bindText [0xE9]

/-- An installation whose log level is no UTF-8. -/
def latinLaunch : Launch :=
  calmLaunch { Environment.empty with shrLogLevel := some latinLevel } [ascii "install"]

theorem latinLaunch_cut :
    ¬(StringsValid (installedConfig latinLaunch.world
        (loadedProcess jsonLibrary home latinLaunch.env latinLaunch.world emptyDisk).cfg) ∧
      WholeWritten jsonLibrary latinLaunch.world.saving (installedConfig latinLaunch.world
        (loadedProcess jsonLibrary home latinLaunch.env latinLaunch.world emptyDisk).cfg)) := by
  rintro ⟨valid, _whole⟩
  have level := stringsValid_installedConfig_iff.mp valid
  revert level
  decide

end Reference

/-- An installation that gets to the configuration and does not write all of it
is the last: no process of any kind gets an identity from then on, another
`shr install` included. -/
theorem cut_installation_is_final (library : JsonLibrary) (home : Home) (disk : Disk)
    (first second : Launch) (between : List Launch) (isInstall : first.command = .install)
    (absent : NotInstalled library home disk.config)
    (loads : ConfigLoads library first.world.readable disk.config)
    (createsDirs : first.world.createsDirs = true) (keysReady : KeysReady first.world disk.keys)
    (opens : first.world.saving.opens = true)
    (cut : ¬(StringsValid (installedConfig first.world
        (loadedProcess library home first.env first.world disk).cfg) ∧
      WholeWritten library first.world.saving (installedConfig first.world
        (loadedProcess library home first.env first.world disk).cfg))) :
    second.session library home (disk.after library home (first :: between)) = none := by
  have left := @leaves_cut library home disk first isInstall absent loads createsDirs keysReady
    opens
  have unparsed := parse_leftBehind cut
  have stays := @unparsed_after library home _ _ left unparsed between
  exact (unparsed_stays stays unparsed).2

theorem Reference.latin_installation_is_final :
    Reference.installLaunch.session Reference.jsonLibrary Reference.home
      (Reference.emptyDisk.after Reference.jsonLibrary Reference.home
        [Reference.latinLaunch, Reference.whoamiLaunch]) = none :=
  cut_installation_is_final Reference.jsonLibrary Reference.home Reference.emptyDisk
    Reference.latinLaunch Reference.installLaunch [Reference.whoamiLaunch] rfl
    Reference.emptyDisk_notInstalled (.inl rfl) rfl ⟨rfl, .inr rfl⟩ rfl
    Reference.latinLaunch_cut

end Shr
