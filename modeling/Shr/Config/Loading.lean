/-
What a call of `Config::load` leaves in memory.

The keys of the file are assigned one by one.  Where one of them throws, those
before it stay assigned, and the environment is not applied again.
-/

import Shr.Config.Reference

namespace Shr

section Loading

variable (library : JsonLibrary) (home : Home) (env : Environment) (readable : Bool)
  (file : Option Bytes) (cfg : AppConfig)

/-- A failed call leaves the defaults and the environment, and the environment
holds after every call. -/
structure LoadSound : Prop where
  unchanged : (loadConfig library home env readable file cfg).1 = false →
    (loadConfig library home env readable file cfg).2 = startConfig home env cfg
  overridden : ∀ assignment ∈ envAssignments env,
    (loadConfig library home env readable file cfg).2.Holds assignment

def Reads (json : Json) : Prop :=
  readable = true ∧ ∃ text, file = some text ∧ library.parse text = some json

/-- Where a key throws, the keys before it have the values they would have
without the file. -/
def PrefixHarmless : Prop :=
  ∀ json, Reads library readable file json → (readKeys json loadOrder).2 = false →
    ∀ assignment ∈ (readKeys json loadOrder).1, (startConfig home env cfg).Holds assignment

end Loading

section Lemmas

variable {library : JsonLibrary} {home : Home} {env : Environment} {readable : Bool}
  {file : Option Bytes} {cfg : AppConfig}

theorem startConfig_userId : (startConfig home env cfg).userId = cfg.userId :=
  applyEnvOverrides_userId env (setDefaults home cfg)

theorem startConfig_holds :
    ∀ assignment ∈ envAssignments env, (startConfig home env cfg).Holds assignment :=
  applyEnvOverrides_holds env (setDefaults home cfg)

theorem loadConfig_of_reads {json : Json} (reads : Reads library readable file json) :
    loadConfig library home env readable file cfg =
      if (readKeys json loadOrder).2 = false then
        (false, (startConfig home env cfg).assignAll (readKeys json loadOrder).1)
      else
        (true, applyEnvOverrides env
          ((startConfig home env cfg).assignAll (readKeys json loadOrder).1)) := by
  obtain ⟨opens, text, present, parsed⟩ := reads
  unfold loadConfig
  simp only [present, opens, parsed, Bool.true_eq_false, if_false]

theorem loadConfig_of_not_reads (unread : ∀ json, ¬Reads library readable file json) :
    loadConfig library home env readable file cfg = (file.isNone, startConfig home env cfg) := by
  unfold loadConfig
  cases file with
  | none => rfl
  | some text =>
      simp only
      split
      next => rfl
      next opens =>
          cases parsed : library.parse text with
          | none => rfl
          | some json =>
              have readable : readable = true := by simpa using opens
              exact absurd ⟨readable, text, rfl, parsed⟩ (unread json)

theorem Reads.unique {json second : Json} (reads : Reads library readable file json)
    (again : Reads library readable file second) : json = second := by
  obtain ⟨_opens, text, present, parsed⟩ := reads
  obtain ⟨_opens, same, samePresent, sameParsed⟩ := again
  rw [present] at samePresent
  cases samePresent
  rw [parsed] at sameParsed
  exact Option.some.inj sameParsed

theorem loadSound_of_reads {json : Json} (reads : Reads library readable file json) :
    LoadSound library home env readable file cfg ↔
      ((readKeys json loadOrder).2 = false → ∀ assignment ∈ (readKeys json loadOrder).1,
        (startConfig home env cfg).Holds assignment) := by
  have result := @loadConfig_of_reads library home env readable file cfg json reads
  have whole := @AppConfig.assignAll_eq_self_iff (startConfig home env cfg) _
    (readKeys_distinct json)
  cases ends : (readKeys json loadOrder).2 with
  | true =>
      rw [ends, if_neg (by decide)] at result
      refine iff_of_true ⟨?_, ?_⟩ nofun
      · intro failed
        rw [result] at failed
        cases failed
      · rw [result]
        exact applyEnvOverrides_holds env _
  | false =>
      rw [ends, if_pos rfl] at result
      constructor
      · intro sound _failed
        have unchanged := sound.unchanged (congrArg Prod.fst result)
        rw [result] at unchanged
        exact whole.mp unchanged
      · intro harmless
        have same := whole.mpr (harmless rfl)
        refine ⟨?_, ?_⟩
        · intro _failed
          rw [result]
          exact same
        · rw [result, same]
          exact startConfig_holds

end Lemmas

/-- A failed load changes nothing, and the environment wins, if and only if no
key of the file throws or the keys before it change nothing. -/
theorem load_sound_iff (library : JsonLibrary) (home : Home) (env : Environment) (readable : Bool)
    (file : Option Bytes) (cfg : AppConfig) :
    LoadSound library home env readable file cfg ↔
      PrefixHarmless library home env readable file cfg := by
  by_cases reads : ∃ json, Reads library readable file json
  · obtain ⟨json, reads⟩ := reads
    rw [loadSound_of_reads reads]
    constructor
    · intro harmless second again failed
      rw [← reads.unique again] at failed ⊢
      exact harmless failed
    · intro harmless
      exact harmless json reads
  · have unread := not_exists.mp reads
    have same := congrArg Prod.snd
      (@loadConfig_of_not_reads library home env readable file cfg unread)
    refine iff_of_true ⟨fun _failed => same, ?_⟩ ?_
    · rw [same]
      exact startConfig_holds
    · intro json again
      exact absurd again (unread json)

namespace Reference

def brokenFields : List (Bytes × JsonValue) :=
  [ (ascii "listen_port", .number 7777),
    (ascii "log_level", .number 5) ]

theorem brokenFields_encodable : Encodable brokenFields := by
  unfold Encodable
  decide

def givenPort : Text :=
  bindText (ascii "60100")

/-- The port of the file replaces that of the environment. -/
theorem broken_file_overrides :
    ¬∀ (library : JsonLibrary) (home : Home) (env : Environment) (readable : Bool)
      (file : Option Bytes) (cfg : AppConfig), LoadSound library home env readable file cfg := by
  intro sound
  have reads : Reads jsonLibrary true (some (writeJson brokenFields)) (.object brokenFields) :=
    ⟨rfl, _, rfl, jsonLibrary_parse brokenFields_encodable⟩
  have harmless := (loadSound_of_reads reads).mp
    (sound jsonLibrary home (portEnvironment givenPort) true _ AppConfig.zero)
  have failed : (readKeys (.object brokenFields) loadOrder).2 = false := by decide
  have assigned : .listenPort 7777 ∈ (readKeys (.object brokenFields) loadOrder).1 := by decide
  have fromFile := harmless failed (.listenPort 7777) assigned
  have fromEnv := @startConfig_holds home (portEnvironment givenPort) AppConfig.zero
    (portOverride givenPort) (List.mem_singleton_self _)
  have same : portOverride givenPort = .listenPort 7777 := fromEnv.symm.trans fromFile
  revert same
  decide

end Reference

end Shr
