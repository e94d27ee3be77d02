/-
What a call of `Config::save` leaves on disk.

The file is emptied before its text exists.  Making the text throws on a string
that is not UTF-8, and a write may stop short.
-/

import Shr.Config.Loading

namespace Shr

section Saving

variable (library : JsonLibrary) (home : Home) (saving : Saving) (cfg : AppConfig)
  (old : Option Bytes)

/-- A new process without overrides loads the saved settings from the file. -/
def Restores (file : Option Bytes) : Prop :=
  (loadConfig library home .empty true file .zero).1 = true ∧
    ∀ key, (loadConfig library home .empty true file .zero).2.setting key = cfg.setting key

def SavesOrKeeps : Prop :=
  Restores library home cfg (saveConfig library saving cfg old).2 ∨
    (saveConfig library saving cfg old).2 = old

def StringsValid : Prop :=
  Utf8.Valid cfg.userId ∧ Utf8.Valid cfg.logLevel

instance : Decidable (StringsValid cfg) :=
  inferInstanceAs (Decidable (_ ∧ _))

def WholeWritten : Prop :=
  ∀ text, library.dump (savedFields cfg) = some text → text.length ≤ saving.written

instance : Decidable (WholeWritten library saving cfg) :=
  inferInstanceAs
    (Decidable (∀ text ∈ library.dump (savedFields cfg), text.length ≤ saving.written))

def leftBehind : Bytes :=
  (library.dump (savedFields cfg)).elim [] (·.take saving.written)

/-- Nothing is lost: the file does not open, all of it is replaced, or what is
left in it was there before. -/
def SaveSafe : Prop :=
  saving.opens = false ∨ StringsValid cfg ∧ WholeWritten library saving cfg ∨
    old = some (leftBehind library saving cfg)

end Saving

section Lemmas

variable {library : JsonLibrary} {home : Home} {saving : Saving} {cfg : AppConfig}
  {old : Option Bytes}

theorem encodable_savedFields_iff : Encodable (savedFields cfg) ↔ StringsValid cfg := by
  have names : ∀ key ∈ savedOrder, Utf8.Valid (ascii key.name) := by decide
  unfold Encodable savedFields
  rw [List.forall_mem_map]
  constructor
  · intro valid
    exact ⟨(valid .userId (by decide)).2, (valid .logLevel (by decide)).2⟩
  · intro strings key member
    refine ⟨names key member, ?_⟩
    cases key with
    | userId => exact strings.1
    | logLevel => exact strings.2
    | listenPort | maxConcurrent | retryLimit | retryDelayMs | verbose => trivial

theorem dump_savedFields_isSome_iff :
    (library.dump (savedFields cfg)).isSome = true ↔ StringsValid cfg := by
  rw [library.dump_isSome_iff _ (savedFields_transmissible cfg), encodable_savedFields_iff]

theorem mem_loadOrder (key : Key) : key ∈ loadOrder := by
  cases key <;> decide

theorem assignAll_settings (start : AppConfig) (key : Key) :
    (start.assignAll (loadOrder.map cfg.setting)).setting key = cfg.setting key := by
  have keys : (loadOrder.map cfg.setting).map Assignment.key = loadOrder := rfl
  have holds := AppConfig.assignAll_holds start (by rw [keys]; decide) (cfg.setting key)
    (List.mem_map_of_mem (mem_loadOrder key))
  unfold AppConfig.Holds at holds
  rw [AppConfig.setting_key] at holds
  exact holds

theorem loadConfig_saved {text : Bytes} (dumped : library.dump (savedFields cfg) = some text)
    (env : Environment) (start : AppConfig) :
    loadConfig library home env true (some text) start =
      (true, applyEnvOverrides env
        ((startConfig home env start).assignAll (loadOrder.map cfg.setting))) := by
  have parsed := library.parse_dump _ text (savedFields_transmissible cfg) dumped
  rw [loadConfig_of_reads ⟨rfl, text, rfl, parsed⟩, readKeys_savedFields]
  rfl

theorem restores_saved {text : Bytes} (dumped : library.dump (savedFields cfg) = some text) :
    Restores library home cfg (some text) := by
  unfold Restores
  rw [loadConfig_saved dumped]
  exact ⟨rfl, assignAll_settings _⟩

theorem parse_leftBehind (unsaved : ¬(StringsValid cfg ∧ WholeWritten library saving cfg)) :
    library.parse (leftBehind library saving cfg) = none := by
  rw [← @dump_savedFields_isSome_iff library] at unsaved
  unfold leftBehind
  unfold WholeWritten at unsaved
  cases dumped : library.dump (savedFields cfg) with
  | none => exact library.parse_nil
  | some text =>
      have short : saving.written < text.length := by
        by_contra whole
        rw [dumped] at unsaved
        refine unsaved ⟨rfl, ?_⟩
        intro same equal
        cases equal
        exact Nat.le_of_not_lt whole
      exact library.parse_take _ text _ (savedFields_transmissible cfg) dumped short

theorem unread_leftBehind (unsaved : ¬(StringsValid cfg ∧ WholeWritten library saving cfg))
    (readable : Bool) (json : Json) :
    ¬Reads library readable (some (leftBehind library saving cfg)) json := by
  rintro ⟨_readable, text, present, parsed⟩
  cases present
  rw [parse_leftBehind unsaved] at parsed
  cases parsed

theorem restores_leftBehind_iff :
    Restores library home cfg (some (leftBehind library saving cfg)) ↔
      StringsValid cfg ∧ WholeWritten library saving cfg := by
  constructor
  · intro restores
    by_contra unsaved
    unfold Restores at restores
    rw [loadConfig_of_not_reads (unread_leftBehind unsaved true)] at restores
    cases restores.1
  · rintro ⟨valid, whole⟩
    obtain ⟨text, dumped⟩ :=
      Option.isSome_iff_exists.mp ((@dump_savedFields_isSome_iff library cfg).mpr valid)
    have left : leftBehind library saving cfg = text := by
      unfold leftBehind
      rw [dumped, Option.elim_some, List.take_of_length_le (whole text dumped)]
    rw [left]
    exact restores_saved dumped

theorem saveConfig_opened (opens : saving.opens = true) :
    (saveConfig library saving cfg old).2 = some (leftBehind library saving cfg) := by
  unfold saveConfig leftBehind
  rw [opens, if_neg (by decide)]
  cases library.dump (savedFields cfg) <;> rfl

theorem savesOrKeeps_iff :
    SavesOrKeeps library home saving cfg old ↔ SaveSafe library saving cfg old := by
  unfold SavesOrKeeps SaveSafe
  cases opens : saving.opens with
  | false =>
      refine iff_of_true (.inr ?_) (.inl rfl)
      simp only [saveConfig, opens, if_true]
  | true =>
      rw [saveConfig_opened opens, restores_leftBehind_iff, eq_comm]
      simp

end Lemmas

/-- Saving replaces the settings or keeps the old file if and only if the file
does not open, all of the text can be made and gets to it, or what is left in it
was there before. -/
theorem save_safe_iff (library : JsonLibrary) (home : Home) (saving : Saving) (cfg : AppConfig)
    (old : Option Bytes) :
    SavesOrKeeps library home saving cfg old ↔ SaveSafe library saving cfg old :=
  savesOrKeeps_iff

namespace Reference

/-- A log level from the environment that is no UTF-8. -/
def latinConfig : AppConfig :=
  { startConfig home .empty AppConfig.zero with
    userId := ascii "0f1e2d3c-4b5a-4978-8695-a4b3c2d1e0ff"
    logLevel := [0xE9] }

def soundSaving : Saving :=
  { opens := true
    written := 1000
    good := true }

/-- The file of an installed node is emptied. -/
theorem latin_config_lost :
    ¬∀ (library : JsonLibrary) (home : Home) (saving : Saving) (cfg : AppConfig)
      (old : Option Bytes), SavesOrKeeps library home saving cfg old := by
  intro safe
  have invalid : ¬StringsValid latinConfig := by decide
  have nothing : leftBehind jsonLibrary soundSaving latinConfig = [] := by
    unfold leftBehind
    rw [Option.not_isSome_iff_eq_none.mp (mt dump_savedFields_isSome_iff.mp invalid)]
    rfl
  have kept := savesOrKeeps_iff.mp
    (safe jsonLibrary home soundSaving latinConfig (some (writeJson brokenFields)))
  rcases kept with closed | replaced | same
  · cases closed
  · exact invalid replaced.1
  · rw [nothing] at same
    cases same

end Reference

end Shr
