/-
The configuration of the node, after `config.cxx`.

Every write to a setting is an assignment: `load` makes those of the
environment, those of the keys of `config.json` up to the first that does not
convert, and those of the environment again.  The text of the file is the
business of the JSON library, whose laws are its documented behaviour.
-/

import Shr.Atoi
import Shr.Library.Utf8
import Shr.Utils
import Shr.Vendor

namespace Shr

/-! ### JSON text -/

/-- Conversion to `int`; a boolean converts too. -/
def JsonValue.asInt : JsonValue → Option Int32
  | .number value => some (Int32.ofInt value)
  | .boolean value => some (if value then 1 else 0)
  | _ => none

def JsonValue.asBool : JsonValue → Option Bool
  | .boolean value => some value
  | _ => none

/-- `json[key]`, where `json.contains(key)`; only objects contain anything. -/
def Json.field (json : Json) (key : String) : Option JsonValue :=
  match json with
  | .other => none
  | .object fields => fields.lookup (ascii key)

def JsonValue.Encodable : JsonValue → Prop
  | .string text => Utf8.Valid text
  | _ => True

instance (value : JsonValue) : Decidable value.Encodable :=
  match value with
  | .string text => inferInstanceAs (Decidable (Utf8.Valid text))
  | .number _ | .boolean _ | .other => inferInstanceAs (Decidable True)

def Encodable (fields : List (Bytes × JsonValue)) : Prop :=
  ∀ field ∈ fields, Utf8.Valid field.1 ∧ field.2.Encodable

/-- `stream >> json` and `dump(2)`; `none` is a thrown exception. -/
structure JsonLibrary where
  parse : Bytes → Option Json
  dump : List (Bytes × JsonValue) → Option Bytes
  dump_isSome_iff : ∀ fields, Transmissible fields →
    ((dump fields).isSome = true ↔ Encodable fields)
  parse_dump : ∀ fields text, Transmissible fields → dump fields = some text →
    parse text = some (.object fields)
  parse_take : ∀ fields text count, Transmissible fields → dump fields = some text →
    count < text.length → parse (text.take count) = none
  parse_nil : parse [] = none

/-! ### Settings -/

structure AppConfig where
  userId : Bytes
  listenPort : UInt16
  configDir : Bytes
  dbPath : Bytes
  logPath : Bytes
  receivedDir : Bytes
  maxConcurrent : Int32
  retryLimit : Int32
  retryDelayMs : Int32
  verbose : Bool
  logLevel : Bytes
deriving DecidableEq

def AppConfig.zero : AppConfig :=
  { userId := []
    listenPort := 0
    configDir := []
    dbPath := []
    logPath := []
    receivedDir := []
    maxConcurrent := 0
    retryLimit := 0
    retryDelayMs := 0
    verbose := false
    logLevel := [] }

def AppConfig.isInstalled (cfg : AppConfig) : Bool :=
  cfg.userId ≠ []

inductive Key where
  | userId
  | listenPort
  | maxConcurrent
  | retryLimit
  | retryDelayMs
  | logLevel
  | verbose
deriving DecidableEq

def Key.name : Key → String
  | .userId => "user_id"
  | .listenPort => "listen_port"
  | .maxConcurrent => "max_concurrent"
  | .retryLimit => "retry_limit"
  | .retryDelayMs => "retry_delay_ms"
  | .logLevel => "log_level"
  | .verbose => "verbose"

inductive Assignment where
  | userId (value : Bytes)
  | listenPort (value : UInt16)
  | maxConcurrent (value : Int32)
  | retryLimit (value : Int32)
  | retryDelayMs (value : Int32)
  | logLevel (value : Bytes)
  | verbose (value : Bool)
deriving DecidableEq

def Assignment.key : Assignment → Key
  | .userId _ => .userId
  | .listenPort _ => .listenPort
  | .maxConcurrent _ => .maxConcurrent
  | .retryLimit _ => .retryLimit
  | .retryDelayMs _ => .retryDelayMs
  | .logLevel _ => .logLevel
  | .verbose _ => .verbose

namespace AppConfig

def assign (cfg : AppConfig) : Assignment → AppConfig
  | .userId value => { cfg with userId := value }
  | .listenPort value => { cfg with listenPort := value }
  | .maxConcurrent value => { cfg with maxConcurrent := value }
  | .retryLimit value => { cfg with retryLimit := value }
  | .retryDelayMs value => { cfg with retryDelayMs := value }
  | .logLevel value => { cfg with logLevel := value }
  | .verbose value => { cfg with verbose := value }

def assignAll (cfg : AppConfig) (assignments : List Assignment) : AppConfig :=
  assignments.foldl assign cfg

def setting (cfg : AppConfig) : Key → Assignment
  | .userId => .userId cfg.userId
  | .listenPort => .listenPort cfg.listenPort
  | .maxConcurrent => .maxConcurrent cfg.maxConcurrent
  | .retryLimit => .retryLimit cfg.retryLimit
  | .retryDelayMs => .retryDelayMs cfg.retryDelayMs
  | .logLevel => .logLevel cfg.logLevel
  | .verbose => .verbose cfg.verbose

def Holds (cfg : AppConfig) (assignment : Assignment) : Prop :=
  cfg.setting assignment.key = assignment

instance (cfg : AppConfig) (assignment : Assignment) : Decidable (cfg.Holds assignment) :=
  inferInstanceAs (Decidable (_ = _))

@[simp] theorem setting_key (cfg : AppConfig) (key : Key) : (cfg.setting key).key = key := by
  cases key <;> rfl

@[simp] theorem assign_setting_self (cfg : AppConfig) (assignment : Assignment) :
    (cfg.assign assignment).setting assignment.key = assignment := by
  cases assignment <;> rfl

theorem assign_setting_of_ne (cfg : AppConfig) {assignment : Assignment} {key : Key}
    (different : assignment.key ≠ key) :
    (cfg.assign assignment).setting key = cfg.setting key := by
  cases assignment with
  | _ =>
      cases key with
      | _ => first | rfl | exact absurd rfl different

theorem assign_of_holds {cfg : AppConfig} {assignment : Assignment}
    (holds : cfg.Holds assignment) : cfg.assign assignment = cfg := by
  unfold Holds at holds
  rw [← holds]
  cases assignment <;> rfl

@[simp] theorem assignAll_cons (cfg : AppConfig) (assignment : Assignment)
    (rest : List Assignment) :
    cfg.assignAll (assignment :: rest) = (cfg.assign assignment).assignAll rest :=
  rfl

theorem assignAll_setting_of_notMem (cfg : AppConfig) {assignments : List Assignment} {key : Key}
    (absent : key ∉ assignments.map Assignment.key) :
    (cfg.assignAll assignments).setting key = cfg.setting key := by
  induction assignments generalizing cfg with
  | nil => rfl
  | cons assignment rest ih =>
      rw [List.map_cons, List.mem_cons, not_or] at absent
      rw [assignAll_cons, ih _ absent.2, assign_setting_of_ne cfg (Ne.symm absent.1)]

theorem assignAll_holds (cfg : AppConfig) {assignments : List Assignment}
    (distinct : (assignments.map Assignment.key).Nodup) :
    ∀ assignment ∈ assignments, (cfg.assignAll assignments).Holds assignment := by
  induction assignments generalizing cfg with
  | nil =>
      intro assignment member
      cases member
  | cons first rest ih =>
      rw [List.map_cons, List.nodup_cons] at distinct
      intro assignment member
      rcases List.mem_cons.mp member with same | later
      · unfold Holds
        rw [same, assignAll_cons, assignAll_setting_of_notMem _ distinct.1, assign_setting_self]
      · exact ih _ distinct.2 assignment later

theorem assignAll_eq_self_iff {cfg : AppConfig} {assignments : List Assignment}
    (distinct : (assignments.map Assignment.key).Nodup) :
    cfg.assignAll assignments = cfg ↔ ∀ assignment ∈ assignments, cfg.Holds assignment := by
  constructor
  · intro same
    have holds := assignAll_holds cfg distinct
    rw [same] at holds
    exact holds
  · intro holds
    clear distinct
    induction assignments with
    | nil => rfl
    | cons first rest ih =>
        rw [assignAll_cons, assign_of_holds (holds first List.mem_cons_self)]
        exact ih fun assignment member => holds assignment (List.mem_cons_of_mem _ member)

end AppConfig

/-! ### The environment -/

/-- `shr_config_dir()` and `shr_received_dir()`. -/
structure Home where
  configDir : Bytes
  receivedDir : Bytes

/-- The variables that are set; a value is a C string. -/
structure Environment where
  shrPort : Option Text
  shrVerbose : Option Text
  shrLogLevel : Option Text

def Environment.empty : Environment :=
  { shrPort := none
    shrVerbose := none
    shrLogLevel := none }

def shrRetryDelayMs : Int32 := 2000

def setDefaults (home : Home) (cfg : AppConfig) : AppConfig :=
  { cfg with
    configDir := home.configDir
    dbPath := joinPath home.configDir (ascii "shr.db")
    logPath := joinPath home.configDir (ascii "shr.log")
    receivedDir := home.receivedDir
    listenPort := shrDefaultPort
    maxConcurrent := Int32.ofInt shrMaxConcurrent
    retryLimit := Int32.ofNat shrRetryLimit
    retryDelayMs := shrRetryDelayMs
    verbose := false
    logLevel := ascii "info" }

def portOverride (value : Text) : Assignment :=
  .listenPort (atoiPort value.val)

def verboseOverride (value : Text) : Assignment :=
  .verbose (value.val = ascii "1" ∨ value.val = ascii "true")

def logLevelOverride (value : Text) : Assignment :=
  .logLevel value.val

/-- The assignments of `apply_env_overrides`. -/
def envAssignments (env : Environment) : List Assignment :=
  (env.shrPort.map portOverride).toList ++
    (env.shrVerbose.map verboseOverride).toList ++
    (env.shrLogLevel.map logLevelOverride).toList

def applyEnvOverrides (env : Environment) (cfg : AppConfig) : AppConfig :=
  cfg.assignAll (envAssignments env)

theorem envAssignments_distinct (env : Environment) :
    ((envAssignments env).map Assignment.key).Nodup := by
  obtain ⟨shrPort, shrVerbose, shrLogLevel⟩ := env
  cases shrPort <;> cases shrVerbose <;> cases shrLogLevel <;>
    simp [envAssignments, portOverride, verboseOverride, logLevelOverride, Assignment.key]

@[simp] theorem applyEnvOverrides_empty (cfg : AppConfig) :
    applyEnvOverrides .empty cfg = cfg :=
  rfl

theorem applyEnvOverrides_userId (env : Environment) (cfg : AppConfig) :
    (applyEnvOverrides env cfg).userId = cfg.userId := by
  obtain ⟨shrPort, shrVerbose, shrLogLevel⟩ := env
  cases shrPort <;> cases shrVerbose <;> cases shrLogLevel <;> rfl

theorem applyEnvOverrides_holds (env : Environment) (cfg : AppConfig) :
    ∀ assignment ∈ envAssignments env, (applyEnvOverrides env cfg).Holds assignment :=
  AppConfig.assignAll_holds cfg (envAssignments_distinct env)

/-! ### Loading -/

/-- `cfg_.field = json[key]`; `none` is a thrown exception. -/
def Key.convert : Key → JsonValue → Option Assignment
  | .userId, value => value.asString.map .userId
  | .listenPort, value => value.asUInt16.map .listenPort
  | .maxConcurrent, value => value.asInt.map .maxConcurrent
  | .retryLimit, value => value.asInt.map .retryLimit
  | .retryDelayMs, value => value.asInt.map .retryDelayMs
  | .logLevel, value => value.asString.map .logLevel
  | .verbose, value => value.asBool.map .verbose

theorem Key.convert_key {key : Key} {value : JsonValue} {assignment : Assignment}
    (converts : key.convert value = some assignment) : assignment.key = key := by
  cases key with
  | _ =>
      obtain ⟨_result, _isResult, same⟩ := Option.map_eq_some_iff.mp converts
      rw [← same]
      rfl

def loadOrder : List Key :=
  [.userId, .listenPort, .maxConcurrent, .retryLimit, .retryDelayMs, .logLevel, .verbose]

/-- The assignments made for some keys, and whether none of them threw. -/
def readKeys (json : Json) : List Key → List Assignment × Bool
  | [] => ([], true)
  | key :: rest =>
      match json.field key.name with
      | none => readKeys json rest
      | some value =>
          match key.convert value with
          | none => ([], false)
          | some assignment =>
              let later := readKeys json rest
              (assignment :: later.1, later.2)

theorem readKeys_sublist (json : Json) (keys : List Key) :
    ((readKeys json keys).1.map Assignment.key).Sublist keys := by
  induction keys with
  | nil => exact List.Sublist.slnil
  | cons key rest ih =>
      rw [readKeys]
      split
      next => exact ih.cons key
      next value found =>
          split
          next => exact List.nil_sublist _
          next assignment converts =>
              rw [List.map_cons, Key.convert_key converts]
              exact ih.cons_cons key

theorem readKeys_absent {json : Json} {key : Key} (absent : json.field key.name = none)
    (keys : List Key) : key ∉ (readKeys json keys).1.map Assignment.key := by
  induction keys with
  | nil => exact List.not_mem_nil
  | cons first rest ih =>
      rw [readKeys]
      split
      next => exact ih
      next value found =>
          split
          next => exact List.not_mem_nil
          next assignment converts =>
              rw [List.map_cons, List.mem_cons, not_or, Key.convert_key converts]
              refine ⟨?_, ih⟩
              rintro rfl
              rw [absent] at found
              cases found

theorem readKeys_distinct (json : Json) :
    ((readKeys json loadOrder).1.map Assignment.key).Nodup :=
  (readKeys_sublist json loadOrder).nodup (by decide)

section Files

variable (library : JsonLibrary)

section Load

variable (home : Home) (env : Environment)

def startConfig (cfg : AppConfig) : AppConfig :=
  applyEnvOverrides env (setDefaults home cfg)

/-- `Config::load`, with the configuration it leaves.  `file` is the content of
`config.json`, where it exists, and `readable` tells whether it opens. -/
def loadConfig (readable : Bool) (file : Option Bytes) (cfg : AppConfig) : Bool × AppConfig :=
  let cfg := startConfig home env cfg
  match file with
  | none => (true, cfg)
  | some text =>
      if readable = false then (false, cfg)
      else
        match library.parse text with
        | none => (false, cfg)
        | some json =>
            let made := readKeys json loadOrder
            let cfg := cfg.assignAll made.1
            if made.2 = false then (false, cfg) else (true, applyEnvOverrides env cfg)

end Load

/-! ### Saving -/

def Assignment.json : Assignment → JsonValue
  | .userId value => .string value
  | .listenPort value => .number value.toNat
  | .maxConcurrent value => .number value.toInt
  | .retryLimit value => .number value.toInt
  | .retryDelayMs value => .number value.toInt
  | .logLevel value => .string value
  | .verbose value => .boolean value

def savedOrder : List Key :=
  [.listenPort, .logLevel, .maxConcurrent, .retryDelayMs, .retryLimit, .userId, .verbose]

def savedFields (cfg : AppConfig) : List (Bytes × JsonValue) :=
  savedOrder.map fun key => (ascii key.name, (cfg.setting key).json)

/-- How the world takes a call of `Config::save`: whether the file opens, how
many bytes of the text get to it, and whether the stream is good when it is
asked.  A write that is lost when the stream is closed goes unseen. -/
structure Saving where
  opens : Bool
  written : Nat
  good : Bool

/-- `Config::save`: what it returns, `none` where it throws, and the content of
`config.json`.  Opening the file empties it. -/
def saveConfig (saving : Saving) (cfg : AppConfig) (file : Option Bytes) :
    Option Bool × Option Bytes :=
  if saving.opens = false then (some false, file)
  else
    match library.dump (savedFields cfg) with
    | none => (none, some [])
    | some text => (some saving.good, some (text.take saving.written))

end Files

theorem savedFields_transmissible (cfg : AppConfig) : Transmissible (savedFields cfg) where
  sorted := by
    change List.Pairwise _ [ascii "listen_port", ascii "log_level", ascii "max_concurrent",
      ascii "retry_delay_ms", ascii "retry_limit", ascii "user_id", ascii "verbose"]
    decide
  values := by
    intro field member
    obtain ⟨key, _known, same⟩ := List.mem_map.mp member
    rw [← same]
    have ports := cfg.listenPort.toNat_lt
    have ints : ∀ value : Int32, (JsonValue.number value.toInt).Transmissible := by
      intro value
      have lower := value.le_toInt
      have upper := value.toInt_lt
      simp only [JsonValue.Transmissible]
      omega
    cases key with
    | userId => trivial
    | listenPort =>
        simp only [AppConfig.setting, Assignment.json, JsonValue.Transmissible]
        omega
    | maxConcurrent => exact ints cfg.maxConcurrent
    | retryLimit => exact ints cfg.retryLimit
    | retryDelayMs => exact ints cfg.retryDelayMs
    | logLevel => trivial
    | verbose => trivial

theorem savedFields_field (cfg : AppConfig) (key : Key) :
    (Json.object (savedFields cfg)).field key.name = some (cfg.setting key).json := by
  cases key <;> rfl

theorem convert_json (cfg : AppConfig) (key : Key) :
    key.convert (cfg.setting key).json = some (cfg.setting key) := by
  cases key with
  | listenPort =>
      exact congrArg (Option.map Assignment.listenPort) (JsonValue.asUInt16_number _)
  | maxConcurrent =>
      exact congrArg (fun value => some (Assignment.maxConcurrent value)) (Int32.ofInt_toInt _)
  | retryLimit =>
      exact congrArg (fun value => some (Assignment.retryLimit value)) (Int32.ofInt_toInt _)
  | retryDelayMs =>
      exact congrArg (fun value => some (Assignment.retryDelayMs value)) (Int32.ofInt_toInt _)
  | userId => rfl
  | logLevel => rfl
  | verbose => rfl

theorem readKeys_savedFields (cfg : AppConfig) (keys : List Key) :
    readKeys (.object (savedFields cfg)) keys = (keys.map cfg.setting, true) := by
  induction keys with
  | nil => rfl
  | cons key rest ih =>
      rw [readKeys, savedFields_field]
      simp only
      rw [convert_json, ih]
      rfl

end Shr
