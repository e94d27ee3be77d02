/-
The key files of the node, after `crypto.cxx`.

A keypair is read only where both files exist; otherwise a new one is drawn and
both are emptied.  The writes go unchecked, and a read that stops early leaves
the rest of the block as it was.
-/

import Shr.Network.Frames

namespace Shr

/-! ### Keypairs and files -/

structure KeyPair where
  pubKey : Block 32
  privKey : Block 32

structure Crypto where
  keypair : KeyPair
  loaded : Bool

def Crypto.zero : Crypto :=
  { keypair := { pubKey := zeroTag, privKey := zeroTag }
    loaded := false }

/-- `identity.key` and `identity.pub`, where they exist. -/
structure KeyFiles where
  priv : Option Bytes
  pub : Option Bytes

def KeyFiles.bothExist (files : KeyFiles) : Bool :=
  files.priv.isSome && files.pub.isSome

/-- How a file takes a call: whether it opens, and how many of the bytes that
are written get to it. -/
structure FileAccess where
  opens : Bool
  written : Nat

/-- How the directory takes a call; `permits` tells whether the permissions can
be set. -/
structure KeyAccess where
  priv : FileAccess
  pub : FileAccess
  permits : Bool

def KeyAccess.bothOpen (access : KeyAccess) : Bool :=
  access.priv.opens && access.pub.opens

/-- `std::ofstream` with `trunc`. -/
def FileAccess.truncate (access : FileAccess) (file : Option Bytes) : Option Bytes :=
  if access.opens = true then some [] else file

def KeyAccess.truncate (access : KeyAccess) (files : KeyFiles) : KeyFiles :=
  { priv := access.priv.truncate files.priv
    pub := access.pub.truncate files.pub }

def KeyAccess.store (access : KeyAccess) (keypair : KeyPair) : KeyFiles :=
  { priv := some (keypair.privKey.val.take access.priv.written)
    pub := some (keypair.pubKey.val.take access.pub.written) }

/-- `stream.read(block, 32)`, of a file that may be shorter. -/
def Block.readFile (block : Block 32) (file : Bytes) : Block 32 :=
  ⟨file.take 32 ++ block.val.drop (file.take 32).length, by
    simp only [List.length_append, List.length_take, List.length_drop, block.property]
    omega⟩

/-- `load_or_generate_keypair`: what it returns, `none` where it throws, the files
and the object.  `drawn` is the keypair that would be generated. -/
def loadOrGenerateKeypair (access : KeyAccess) (drawn : KeyPair) (files : KeyFiles)
    (crypto : Crypto) : Option Bool × KeyFiles × Crypto :=
  match files.priv, files.pub with
  | some priv, some pub =>
      if access.bothOpen = false then (some false, files, crypto)
      else
        let keypair :=
          { privKey := crypto.keypair.privKey.readFile priv
            pubKey := crypto.keypair.pubKey.readFile pub }
        (some true, files, { keypair := keypair, loaded := true })
  | _, _ =>
      let crypto := { crypto with keypair := drawn }
      if access.bothOpen = false then (some false, access.truncate files, crypto)
      else if access.permits = false then (none, access.store drawn, crypto)
      else (some true, access.store drawn, { crypto with loaded := true })

/-! ### What a call should do -/

section Keys

variable (access : KeyAccess) (drawn : KeyPair) (files : KeyFiles) (crypto : Crypto)

def Stored (files : KeyFiles) (keypair : KeyPair) : Prop :=
  ∃ priv pub, files.priv = some priv ∧ files.pub = some pub ∧
    32 ≤ priv.length ∧ 32 ≤ pub.length ∧
    keypair.privKey.val = priv.take 32 ∧ keypair.pubKey.val = pub.take 32

/-- A call that returns true has the stored keypair, and no call loses a key. -/
structure KeySafe : Prop where
  stored : (loadOrGenerateKeypair access drawn files crypto).1 = some true →
    Stored (loadOrGenerateKeypair access drawn files crypto).2.1
      (loadOrGenerateKeypair access drawn files crypto).2.2.keypair
  kept : ∀ priv, files.priv = some priv → 32 ≤ priv.length →
    (loadOrGenerateKeypair access drawn files crypto).2.1.priv = some priv

def ReadsWhole (priv pub : Bytes) : Prop :=
  access.bothOpen = true → 32 ≤ priv.length ∧ 32 ≤ pub.length

def WritesWhole : Prop :=
  access.bothOpen = true → access.permits = true →
    32 ≤ access.priv.written ∧ 32 ≤ access.pub.written

/-- There is no key to lose, it does not open, or it is drawn again. -/
def NoKeyLost : Prop :=
  ∀ priv, files.priv = some priv → 32 ≤ priv.length →
    access.priv.opens = false ∨
      access.pub.opens = true ∧ 32 ≤ access.priv.written ∧ priv = drawn.privKey.val

/-- Both files are there and long enough, or nothing is lost and all is written. -/
def KeyHeld : Prop :=
  (∃ priv pub, files.priv = some priv ∧ files.pub = some pub ∧ ReadsWhole access priv pub) ∨
    files.bothExist = false ∧ NoKeyLost access drawn files ∧ WritesWhole access

end Keys

section Lemmas

variable {access : KeyAccess} {drawn : KeyPair} {files : KeyFiles} {crypto : Crypto}

theorem KeyAccess.bothOpen_iff :
    access.bothOpen = true ↔ access.priv.opens = true ∧ access.pub.opens = true :=
  Bool.and_eq_true_iff

theorem KeyFiles.bothExist_iff :
    files.bothExist = true ↔ ∃ priv pub, files.priv = some priv ∧ files.pub = some pub := by
  unfold KeyFiles.bothExist
  rw [Bool.and_eq_true, Option.isSome_iff_exists, Option.isSome_iff_exists, exists_and_exists_comm]

theorem Block.take_all (block : Block 32) {count : Nat} (whole : 32 ≤ count) :
    block.val.take count = block.val :=
  List.take_of_length_le (by rw [block.property]; exact whole)

theorem Block.readFile_long (block : Block 32) {file : Bytes} (long : 32 ≤ file.length) :
    (block.readFile file).val = file.take 32 := by
  have filled : block.val.drop (file.take 32).length = [] := by
    apply List.drop_eq_nil_of_le
    rw [block.property, List.length_take]
    omega
  change file.take 32 ++ block.val.drop (file.take 32).length = file.take 32
  rw [filled, List.append_nil]

theorem KeyAccess.store_priv_iff {priv : Bytes} (long : 32 ≤ priv.length) :
    (access.store drawn).priv = some priv ↔
      32 ≤ access.priv.written ∧ priv = drawn.privKey.val := by
  unfold KeyAccess.store
  rw [Option.some_inj]
  constructor
  · intro kept
    have enough : 32 ≤ access.priv.written := by
      rw [← kept, List.length_take, drawn.privKey.property] at long
      omega
    rw [Block.take_all _ enough] at kept
    exact ⟨enough, kept.symm⟩
  · rintro ⟨enough, same⟩
    rw [Block.take_all _ enough, same]

theorem loadOrGenerateKeypair_load {priv pub : Bytes} (privExists : files.priv = some priv)
    (pubExists : files.pub = some pub) :
    loadOrGenerateKeypair access drawn files crypto =
      if access.bothOpen = false then (some false, files, crypto)
      else
        (some true, files,
          { keypair :=
              { privKey := crypto.keypair.privKey.readFile priv
                pubKey := crypto.keypair.pubKey.readFile pub }
            loaded := true }) := by
  obtain ⟨_priv, _pub⟩ := files
  cases privExists
  cases pubExists
  rfl

theorem loadOrGenerateKeypair_generate (missing : files.bothExist = false) :
    loadOrGenerateKeypair access drawn files crypto =
      if access.bothOpen = false then
        (some false, access.truncate files, { crypto with keypair := drawn })
      else if access.permits = false then
        (none, access.store drawn, { crypto with keypair := drawn })
      else (some true, access.store drawn, { keypair := drawn, loaded := true }) := by
  obtain ⟨priv, pub⟩ := files
  cases priv with
  | none => rfl
  | some priv =>
      cases pub with
      | none => rfl
      | some pub => cases missing

theorem loadOrGenerateKeypair_fst :
    (loadOrGenerateKeypair access drawn files crypto).1 =
      if access.bothOpen = false then some false
      else if files.bothExist = true ∨ access.permits = true then some true else none := by
  cases both : files.bothExist with
  | true =>
      obtain ⟨priv, pub, privExists, pubExists⟩ := KeyFiles.bothExist_iff.mp both
      rw [loadOrGenerateKeypair_load privExists pubExists]
      cases access.bothOpen <;> rfl
  | false =>
      rw [loadOrGenerateKeypair_generate both]
      cases access.bothOpen <;> cases access.permits <;> rfl

theorem keySafe_load_iff {priv pub : Bytes} (privExists : files.priv = some priv)
    (pubExists : files.pub = some pub) :
    KeySafe access drawn files crypto ↔ ReadsWhole access priv pub := by
  have result := @loadOrGenerateKeypair_load access drawn files crypto priv pub privExists pubExists
  have untouched : (loadOrGenerateKeypair access drawn files crypto).2.1 = files := by
    rw [result]
    split <;> rfl
  constructor
  · intro safe bothOpen
    rw [bothOpen, if_neg (by decide)] at result
    obtain ⟨key, pubKey, isKey, isPub, keyLong, pubLong, _held⟩ :=
      safe.stored (congrArg Prod.fst result)
    rw [untouched, privExists] at isKey
    rw [untouched, pubExists] at isPub
    cases isKey
    cases isPub
    exact ⟨keyLong, pubLong⟩
  · intro whole
    refine ⟨?_, ?_⟩
    · intro returned
      cases bothOpen : access.bothOpen with
      | false =>
          rw [result, if_pos bothOpen] at returned
          cases returned
      | true =>
          obtain ⟨privLong, pubLong⟩ := whole bothOpen
          rw [bothOpen, if_neg (by decide)] at result
          rw [result]
          exact ⟨priv, pub, privExists, pubExists, privLong, pubLong,
            Block.readFile_long _ privLong, Block.readFile_long _ pubLong⟩
    · intro key isKey _long
      rw [untouched]
      exact isKey

theorem generate_keeps_iff (missing : files.bothExist = false) :
    (∀ priv, files.priv = some priv → 32 ≤ priv.length →
      (loadOrGenerateKeypair access drawn files crypto).2.1.priv = some priv) ↔
      NoKeyLost access drawn files := by
  unfold NoKeyLost
  refine forall₂_congr fun priv privExists => forall_congr' fun long => ?_
  rw [loadOrGenerateKeypair_generate missing]
  cases opens : access.priv.opens with
  | false =>
      have closed : access.bothOpen = false := by simp [KeyAccess.bothOpen, opens]
      rw [if_pos closed]
      refine iff_of_true ?_ (.inl rfl)
      simp only [KeyAccess.truncate, FileAccess.truncate, opens, Bool.false_eq_true, if_false]
      exact privExists
  | true =>
      cases pubOpens : access.pub.opens with
      | false =>
          have closed : access.bothOpen = false := by simp [KeyAccess.bothOpen, pubOpens]
          rw [if_pos closed]
          refine iff_of_false ?_ (by simp)
          intro kept
          simp only [KeyAccess.truncate, FileAccess.truncate, opens, if_true] at kept
          cases kept
          simp at long
      | true =>
          have both := KeyAccess.bothOpen_iff.mpr ⟨opens, pubOpens⟩
          rw [both, if_neg (by decide), ← KeyAccess.store_priv_iff long]
          simp only [Bool.true_eq_false, false_or, true_and]
          split <;> exact Iff.rfl

theorem generate_stored_iff (missing : files.bothExist = false) :
    ((loadOrGenerateKeypair access drawn files crypto).1 = some true →
      Stored (loadOrGenerateKeypair access drawn files crypto).2.1
        (loadOrGenerateKeypair access drawn files crypto).2.2.keypair) ↔
      WritesWhole access := by
  have result := @loadOrGenerateKeypair_generate access drawn files crypto missing
  unfold WritesWhole
  cases both : access.bothOpen with
  | false =>
      rw [both, if_pos rfl] at result
      rw [result]
      exact iff_of_true nofun nofun
  | true =>
      rw [both, if_neg (by decide)] at result
      cases permits : access.permits with
      | false =>
          rw [permits] at result
          rw [result]
          exact iff_of_true nofun nofun
      | true =>
          rw [permits] at result
          rw [result]
          constructor
          · intro stored _both _permits
            obtain ⟨priv, pub, isPriv, isPub, privLong, pubLong, _held⟩ := stored rfl
            cases isPriv
            cases isPub
            rw [List.length_take] at privLong pubLong
            exact ⟨by omega, by omega⟩
          · intro whole _returned
            obtain ⟨privWhole, pubWhole⟩ := whole rfl rfl
            refine ⟨_, _, rfl, rfl, ?_, ?_, ?_, ?_⟩
            · rw [Block.take_all _ privWhole, drawn.privKey.property]
            · rw [Block.take_all _ pubWhole, drawn.pubKey.property]
            · change drawn.privKey.val = _
              rw [Block.take_all _ privWhole, Block.take_all _ (Nat.le_refl 32)]
            · change drawn.pubKey.val = _
              rw [Block.take_all _ pubWhole, Block.take_all _ (Nat.le_refl 32)]

theorem keySafe_iff : KeySafe access drawn files crypto ↔ KeyHeld access drawn files := by
  unfold KeyHeld
  cases both : files.bothExist with
  | true =>
      obtain ⟨priv, pub, privExists, pubExists⟩ := KeyFiles.bothExist_iff.mp both
      rw [keySafe_load_iff privExists pubExists]
      simp [privExists, pubExists]
  | false =>
      have absent : ¬∃ priv pub, files.priv = some priv ∧ files.pub = some pub ∧
          ReadsWhole access priv pub := by
        rintro ⟨priv, pub, privExists, pubExists, _whole⟩
        simp [KeyFiles.bothExist, privExists, pubExists] at both
      rw [or_iff_right absent, ← generate_keeps_iff both, ← generate_stored_iff both]
      constructor
      · intro safe
        exact ⟨rfl, safe.kept, safe.stored⟩
      · rintro ⟨_missing, kept, stored⟩
        exact ⟨stored, kept⟩

end Lemmas

/-- A call that returns true has the stored keypair and no key is lost, if and
only if both files are there and long enough for a call that can open them, or
not both are there and the call loses no key and writes all. -/
theorem key_held_iff (access : KeyAccess) (drawn : KeyPair) (files : KeyFiles) (crypto : Crypto) :
    KeySafe access drawn files crypto ↔ KeyHeld access drawn files :=
  keySafe_iff

namespace Reference

def constantBlock (byte : UInt8) : Block 32 :=
  ⟨List.replicate 32 byte, List.length_replicate⟩

def drawnPair : KeyPair :=
  { pubKey := constantBlock 2
    privKey := constantBlock 1 }

def openFile : FileAccess :=
  { opens := true
    written := 32 }

def openAccess : KeyAccess :=
  { priv := openFile
    pub := openFile
    permits := true }

/-- The key of a node whose public file is gone is replaced. -/
theorem key_replaced :
    ¬∀ (access : KeyAccess) (drawn : KeyPair) (files : KeyFiles) (crypto : Crypto),
      KeySafe access drawn files crypto := by
  intro safe
  have kept := (safe openAccess drawnPair
    { priv := some (constantBlock 7).val
      pub := none } Crypto.zero).kept _ rfl (by decide)
  revert kept
  decide

end Reference

end Shr
