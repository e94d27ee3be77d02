/-
What becomes of an integer that is given as a port.

It comes as an argument of `shr connect`, in `SHR_PORT`, as `listen_port` of the
file, or in the payload of a `PeerDiscover` or a `PeerAnnounce`, and is cut to
16 bits everywhere.  Nothing looks at the range.
-/

import Shr.Config.Loading
import Shr.Library.Contracts
import Shr.Peers.Operations
import Shr.Reference

namespace Shr

/-! ### The places -/

/-- `shr connect <peer_id> <ip> [port]`, up to the probe of the new peer. -/
def cmdConnect (stores : Bool) (peerId ip : Bytes) (port : UInt16) (table : PeerTable) :
    Bool × PeerTable :=
  if isValidUuid peerId = false then (false, table)
  else Peers.addPeer stores peerId ip port table

def connectPort (portArg : Option Bytes) : UInt16 :=
  match portArg with
  | some text => atoiPort text
  | none => shrDefaultPort

/-- The command fails and changes nothing, or the peer is stored with the port. -/
def ConnectKeeps (number : Int) (stores : Bool) (peerId ip portArg : Bytes) (table : PeerTable) :
    Prop :=
  cmdConnect stores peerId ip (connectPort (some portArg)) table = (false, table) ∨
    IsPort number ∧ ∃ peer : PeerInfo, (peer.port.toNat : Int) = number ∧
      cmdConnect stores peerId ip (connectPort (some portArg)) table =
        (true, table.upsertPeer peer)

/-- The port that listens is the one of the variable: no value is rejected. -/
def VariableKeeps (number : Int) (env : Environment) (cfg : AppConfig) : Prop :=
  IsPort number ∧ ((applyEnvOverrides env cfg).listenPort.toNat : Int) = number

def withoutPort (shrVerbose shrLogLevel : Option Text) : Environment :=
  { shrPort := none
    shrVerbose := shrVerbose
    shrLogLevel := shrLogLevel }

/-- Loading fails before it assigns anything, or assigns the port. -/
def FileKeeps (library : JsonLibrary) (home : Home) (number : Int) (env : Environment)
    (text : Bytes) (json : Json) (cfg : AppConfig) : Prop :=
  (readKeys json loadOrder).1 = [] ∧
      loadConfig library home env true (some text) cfg = (false, startConfig home env cfg) ∨
    IsPort number ∧
      ((loadConfig library home env true (some text) cfg).2.listenPort.toNat : Int) = number

/-- Peers are written with the port, while the rows are those of the table. -/
def portContract (number : Int) (table : PeerTable) : Contract Peers.signature Unit where
  allowed _known op :=
    match op with
    | .upsertPeer peer => IsPort number ∧ (peer.port.toNat : Int) = number
    | _ => True
  possible _known op reply :=
    match op, reply with
    | .getPeer id, found => found = table.getPeer id
    | _, _ => True
  learned _known _op _reply := ()

def HandlerKeeps (number : Int) (table : PeerTable) (handler : Peers.PeerProgram Unit) : Prop :=
  handler.Meets (portContract number table) (fun _known _result => True) ()

def PortGiven (vendor : Vendor) (payload : Bytes) (number : Int) : Prop :=
  ∃ fields, vendor.fromCbor payload = some (.object fields) ∧
    fields.lookup (ascii "port") = some (.number number)

/-- The sender has no proper id, or that of the node. -/
def TurnedAway (ownId id : Bytes) : Prop :=
  isValidUuid id = false ∨ id = ownId

/-! ### One conversion -/

theorem toNat_ofInt_port {number : Int} (isPort : IsPort number) :
    ((UInt16.ofInt number).toNat : Int) = number := by
  obtain ⟨lower, upper⟩ := isPort
  rw [UInt16.ofInt, UInt16.toNat_ofNat']
  omega

section Places

variable {number : Int}

theorem connectKeeps_iff {portArg : Bytes} (spells : Spells portArg number) (stores : Bool)
    (peerId ip : Bytes) (table : PeerTable) :
    ConnectKeeps number stores peerId ip portArg table ↔
      isValidUuid peerId = false ∨ stores = false ∨ IsPort number := by
  unfold ConnectKeeps cmdConnect Peers.addPeer connectPort
  cases valid : isValidUuid peerId with
  | false => simp
  | true =>
      cases stores with
      | false => simp
      | true =>
          simp only [Bool.true_eq_false, if_false, if_true, Prod.mk.injEq, false_and, false_or]
          constructor
          · intro kept
            exact kept.1
          · intro isPort
            exact ⟨isPort, _, atoiPort_spells spells isPort, trivial, rfl⟩

theorem variableKeeps_iff {env : Environment} {value : Text} (set : env.shrPort = some value)
    (spells : Spells value.val number) (cfg : AppConfig) :
    VariableKeeps number env cfg ↔ IsPort number := by
  unfold VariableKeeps
  refine and_iff_left_of_imp fun isPort => ?_
  have assigned : portOverride value ∈ envAssignments env := by
    simp [envAssignments, set]
  have holds := applyEnvOverrides_holds env cfg _ assigned
  have port : (applyEnvOverrides env cfg).listenPort = atoiPort value.val :=
    Assignment.listenPort.inj holds
  rw [port]
  exact atoiPort_spells spells isPort

theorem readKeys_port {json : Json}
    (given : json.field Key.listenPort.name = some (.number number)) :
    (∀ value, json.field Key.userId.name = some value → Key.userId.convert value ≠ none) ∧
        .listenPort (UInt16.ofInt number) ∈ (readKeys json loadOrder).1 ∨
      (∃ value, json.field Key.userId.name = some value ∧ Key.userId.convert value = none) ∧
        readKeys json loadOrder = ([], false) := by
  have port : ∀ rest, .listenPort (UInt16.ofInt number) ∈
      (readKeys json (.listenPort :: rest)).1 := by
    intro rest
    rw [readKeys, given]
    exact List.mem_cons_self
  unfold loadOrder
  cases found : json.field Key.userId.name with
  | none =>
      left
      refine ⟨?_, ?_⟩
      · intro value isFound
        cases isFound
      · rw [readKeys, found]
        exact port _
  | some value =>
      cases converts : Key.userId.convert value with
      | none =>
          right
          refine ⟨⟨value, rfl, converts⟩, ?_⟩
          rw [readKeys, found]
          simp only [converts]
      | some assignment =>
          left
          refine ⟨?_, ?_⟩
          · intro found same
            cases same
            rw [converts]
            exact Option.some_ne_none _
          · rw [readKeys, found]
            simp only [converts]
            exact List.mem_cons_of_mem _ (port _)

theorem loadConfig_port {library : JsonLibrary} {home : Home} {text : Bytes} {json : Json}
    (parsed : library.parse text = some json) (shrVerbose shrLogLevel : Option Text)
    (cfg : AppConfig) {port : UInt16} (assigned : .listenPort port ∈ (readKeys json loadOrder).1) :
    (loadConfig library home (withoutPort shrVerbose shrLogLevel) true (some text) cfg).2.listenPort
      = port := by
  have holds := AppConfig.assignAll_holds
    (startConfig home (withoutPort shrVerbose shrLogLevel) cfg) (readKeys_distinct json) _ assigned
  have untouched : ∀ other : AppConfig,
      (applyEnvOverrides (withoutPort shrVerbose shrLogLevel) other).setting .listenPort =
        other.setting .listenPort := by
    intro other
    apply AppConfig.assignAll_setting_of_notMem
    cases shrVerbose <;> cases shrLogLevel <;>
      simp [envAssignments, withoutPort, verboseOverride, logLevelOverride, Assignment.key]
  apply Assignment.listenPort.inj
  change AppConfig.setting _ Key.listenPort = _
  rw [loadConfig_of_reads ⟨rfl, text, rfl, parsed⟩]
  split
  · exact holds
  · rw [untouched]
    exact holds

theorem fileKeeps_iff (library : JsonLibrary) (home : Home) {text : Bytes} {json : Json}
    (parsed : library.parse text = some json)
    (given : json.field Key.listenPort.name = some (.number number))
    (shrVerbose shrLogLevel : Option Text) (cfg : AppConfig) :
    FileKeeps library home number (withoutPort shrVerbose shrLogLevel) text json cfg ↔
      IsPort number ∨
        ∃ value, json.field Key.userId.name = some value ∧ Key.userId.convert value = none := by
  unfold FileKeeps
  rcases readKeys_port given with ⟨converts, assigned⟩ | ⟨throws, nothing⟩
  · have port := @loadConfig_port library home text json parsed shrVerbose shrLogLevel cfg _
      assigned
    have made : (readKeys json loadOrder).1 ≠ [] := List.ne_nil_of_mem assigned
    rw [port]
    constructor
    · intro kept
      rcases kept with rejected | used
      · exact absurd rejected.1 made
      · exact .inl used.1
    · intro condition
      rcases condition with isPort | ⟨value, found, throws⟩
      · exact .inr ⟨isPort, toNat_ofInt_port isPort⟩
      · exact absurd throws (converts value found)
  · refine iff_of_true (.inl ⟨congrArg Prod.fst nothing, ?_⟩) (.inr throws)
    rw [loadConfig_of_reads ⟨rfl, text, rfl, parsed⟩, nothing]
    rfl

/-! ### Handlers -/

variable {vendor : Vendor} {payload : Bytes} {table : PeerTable}

theorem port_of_readAnnouncement (given : PortGiven vendor payload number)
    {announced : Peers.Announcement}
    (read : Peers.readAnnouncement vendor payload = some announced) :
    announced.port = UInt16.ofInt number := by
  obtain ⟨fields, decoded, port⟩ := given
  simp only [Peers.readAnnouncement, decoded, Option.bind_eq_bind, Option.bind_some,
    Option.bind_eq_some_iff] at read
  obtain ⟨id, _isId, converted, isPort, same⟩ := read
  rw [Json.value] at isPort
  simp only [port] at isPort
  cases same
  exact (Option.some.inj isPort).symm

theorem recordAnnounced_keeps_iff {announced : Peers.Announcement}
    (port : announced.port = UInt16.ofInt number) :
    HandlerKeeps number table (Peers.recordAnnounced announced) ↔ IsPort number := by
  constructor
  · intro keeps
    exact ((keeps.2 (0 : Int64) trivial).1).1
  · intro isPort
    refine ⟨trivial, fun seen _possible => ⟨⟨isPort, ?_⟩, fun _stored _possible => trivial⟩⟩
    change (announced.port.toNat : Int) = number
    rw [port]
    exact toNat_ofInt_port isPort

theorem announceKeeps_iff (given : PortGiven vendor payload number) (ownId : Bytes)
    (table : PeerTable) :
    HandlerKeeps number table (Peers.handleAnnounce vendor ownId payload) ↔
      IsPort number ∨ ∀ announced, Peers.readAnnouncement vendor payload = some announced →
        TurnedAway ownId announced.id := by
  unfold Peers.handleAnnounce TurnedAway
  cases read : Peers.readAnnouncement vendor payload with
  | none => exact iff_of_true trivial (.inr nofun)
  | some announced =>
      have port := port_of_readAnnouncement given read
      simp only [Option.some.injEq, forall_eq']
      split
      next invalid => exact iff_of_true trivial (.inr (.inl invalid))
      next valid =>
          split
          next own => exact iff_of_true trivial (.inr (.inr own))
          next foreign =>
              rw [recordAnnounced_keeps_iff port]
              exact (or_iff_left (not_or.mpr ⟨valid, foreign⟩)).symm

theorem sendPacketConn_keeps (packet : Packet) :
    HandlerKeeps number table (do
      let _sent ← Peers.sendPacketConn packet
      return ()) :=
  ⟨trivial, fun _sent _possible => trivial⟩

theorem keeps_getPeer_iff (id : Bytes) (next : Option PeerInfo → Peers.PeerProgram Unit) :
    HandlerKeeps number table (Peers.getPeer id >>= next) ↔
      HandlerKeeps number table (next (table.getPeer id)) := by
  constructor
  · intro keeps
    exact keeps.2 (table.getPeer id) rfl
  · intro keeps
    refine ⟨trivial, fun found possible => ?_⟩
    have same : found = table.getPeer id := possible
    subst same
    exact keeps

/-- What follows a write is no reason to keep less. -/
theorem recordAnnounced_bind_keeps_iff {announced : Peers.Announcement}
    (port : announced.port = UInt16.ofInt number) {next : Unit → Peers.PeerProgram Unit}
    (nextKeeps : ∀ result, HandlerKeeps number table (next result)) :
    HandlerKeeps number table (Peers.recordAnnounced announced >>= next) ↔ IsPort number := by
  constructor
  · intro keeps
    exact ((keeps.2 (0 : Int64) trivial).1).1
  · intro isPort
    exact ((recordAnnounced_keeps_iff port).mpr isPort).bind fun _known result _done =>
      nextKeeps result

theorem discoverKeeps_iff (given : PortGiven vendor payload number) (ownId : Bytes)
    (listenPort : UInt16) (table : PeerTable) :
    HandlerKeeps number table (Peers.handleDiscover vendor ownId listenPort payload) ↔
      IsPort number ∨ ∀ announced, Peers.readAnnouncement vendor payload = some announced →
        TurnedAway ownId announced.id ∨ table.getPeer announced.id ≠ none := by
  unfold Peers.handleDiscover TurnedAway
  cases read : Peers.readAnnouncement vendor payload with
  | none => exact iff_of_true trivial (.inr nofun)
  | some announced =>
      have port := port_of_readAnnouncement given read
      simp only [Option.some.injEq, forall_eq']
      split
      next invalid => exact iff_of_true trivial (.inr (.inl (.inl invalid)))
      next valid =>
          split
          next own => exact iff_of_true trivial (.inr (.inl (.inr own)))
          next foreign =>
              rw [keeps_getPeer_iff]
              cases known : table.getPeer announced.id with
              | some peer =>
                  rw [if_neg (Option.some_ne_none peer)]
                  exact iff_of_true (sendPacketConn_keeps _)
                    (.inr (.inr (Option.some_ne_none peer)))
              | none =>
                  rw [if_pos rfl, recordAnnounced_bind_keeps_iff port
                    fun _result => sendPacketConn_keeps _]
                  simp [valid, foreign]

end Places

/-- A port is kept or rejected if and only if it is one, or the input is turned
away for another reason. -/
theorem ports_kept_iff (number : Int) :
    (∀ portArg, Spells portArg number → ∀ stores peerId ip table,
      ConnectKeeps number stores peerId ip portArg table ↔
        isValidUuid peerId = false ∨ stores = false ∨ IsPort number) ∧
    (∀ env value, env.shrPort = some value → Spells value.val number → ∀ cfg,
      VariableKeeps number env cfg ↔ IsPort number) ∧
    (∀ (library : JsonLibrary) home text json, library.parse text = some json →
      json.field Key.listenPort.name = some (.number number) → ∀ shrVerbose shrLogLevel cfg,
        FileKeeps library home number (withoutPort shrVerbose shrLogLevel) text json cfg ↔
          IsPort number ∨
            ∃ value, json.field Key.userId.name = some value ∧
              Key.userId.convert value = none) ∧
    (∀ vendor payload, PortGiven vendor payload number → ∀ ownId listenPort table,
      HandlerKeeps number table (Peers.handleDiscover vendor ownId listenPort payload) ↔
        IsPort number ∨ ∀ announced, Peers.readAnnouncement vendor payload = some announced →
          TurnedAway ownId announced.id ∨ table.getPeer announced.id ≠ none) ∧
    (∀ vendor payload, PortGiven vendor payload number → ∀ ownId table,
      HandlerKeeps number table (Peers.handleAnnounce vendor ownId payload) ↔
        IsPort number ∨ ∀ announced, Peers.readAnnouncement vendor payload = some announced →
          TurnedAway ownId announced.id) := by
  refine ⟨?_, ?_, ?_, ?_, ?_⟩
  · intro portArg spells stores peerId ip table
    exact connectKeeps_iff spells stores peerId ip table
  · intro env value set spells cfg
    exact variableKeeps_iff set spells cfg
  · intro library home text json parsed given shrVerbose shrLogLevel cfg
    exact fileKeeps_iff library home parsed given shrVerbose shrLogLevel cfg
  · intro vendor payload given ownId listenPort table
    exact discoverKeeps_iff given ownId listenPort table
  · intro vendor payload given ownId table
    exact announceKeeps_iff given ownId table

namespace Reference

theorem givenPort_spells : Spells givenPort.val 60100 :=
  spells_numeral (by decide) (by decide)

def portFields : List (Bytes × JsonValue) :=
  [(ascii "listen_port", .number 60100)]

theorem portFields_encodable : Encodable portFields := by
  unfold Encodable
  decide

def announced : Peers.Announcement :=
  { id := peer.id
    port := 60100 }

def announcePayload : Bytes :=
  vendor.toCbor (Peers.announcementFields announced)

theorem announcePayload_port : PortGiven vendor announcePayload 60100 :=
  ⟨_, vendor.fromCbor_toCbor _ (Peers.announcementFields_transmissible announced), rfl⟩

/-- A port of the documented range is kept wherever it is given. -/
theorem port_60100_kept :
    ConnectKeeps 60100 true peer.id peer.ip givenPort.val PeerTable.empty ∧
      VariableKeeps 60100 (portEnvironment givenPort) .zero ∧
      FileKeeps jsonLibrary home 60100 (withoutPort none none) (writeJson portFields)
        (.object portFields) .zero ∧
      HandlerKeeps 60100 PeerTable.empty
        (Peers.handleDiscover vendor ownId shrDefaultPort announcePayload) ∧
      HandlerKeeps 60100 PeerTable.empty (Peers.handleAnnounce vendor ownId announcePayload) := by
  have isPort : IsPort 60100 := by decide
  obtain ⟨connect, override, file, discover, announce⟩ := ports_kept_iff 60100
  refine ⟨?_, ?_, ?_, ?_, ?_⟩
  · exact (connect _ givenPort_spells _ _ _ _).mpr (.inr (.inr isPort))
  · exact (override _ givenPort rfl givenPort_spells _).mpr isPort
  · exact (file _ _ _ _ (jsonLibrary_parse portFields_encodable) rfl none none _).mpr (.inl isPort)
  · exact (discover _ _ announcePayload_port _ _ _).mpr (.inl isPort)
  · exact (announce _ _ announcePayload_port _ _).mpr (.inl isPort)

/-- 70000 is stored as 4464. -/
theorem port_70000_wraps :
    ¬∀ (number : Int) (portArg : Bytes), Spells portArg number →
      ∀ (stores : Bool) (peerId ip : Bytes) (table : PeerTable),
        ConnectKeeps number stores peerId ip portArg table := by
  intro keeps
  have spells : Spells (ascii "70000") (70000 : Nat) := spells_numeral (by decide) (by decide)
  have kept := (connectKeeps_iff spells true peer.id peer.ip PeerTable.empty).mp
    (keeps _ _ spells true peer.id peer.ip PeerTable.empty)
  revert kept
  decide

end Reference

end Shr
