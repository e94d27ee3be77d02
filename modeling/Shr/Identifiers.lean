/-
Generated identifiers, after `generate_uuid` and `is_valid_uuid` of `utils.cxx`.

The generator writes digits and dashes one by one, the validator matches groups.
Both follow one layout: 36 places, of which four hold a dash.
-/

import Mathlib.Data.List.Forall2
import Shr.HexCoding

namespace Shr

/-! ### The layout -/

/-- The places of groups of digits with a dash between them; `true` is a dash. -/
def layout : List Nat → List Bool
  | [] => []
  | [size] => List.replicate size false
  | size :: sizes => List.replicate size false ++ true :: layout sizes

def Fills (isDash : Bool) (byte : UInt8) : Prop :=
  if isDash then byte = 45 else isHexDigit byte = true

theorem fills_digits_iff {size : Nat} {text : Bytes} :
    List.Forall₂ Fills (List.replicate size false) text ↔
      text.length = size ∧ ∀ byte ∈ text, isHexDigit byte = true := by
  induction size generalizing text with
  | zero =>
      rw [List.replicate_zero, List.forall₂_nil_left_iff, List.length_eq_zero_iff]
      constructor
      · rintro rfl
        exact ⟨rfl, fun _byte member => absurd member List.not_mem_nil⟩
      · exact And.left
  | succ size ih =>
      rw [List.replicate_succ]
      cases text with
      | nil =>
          rw [List.forall₂_nil_right_iff]
          constructor
          · intro impossible
            cases impossible
          · rintro ⟨impossible, _digits⟩
            cases impossible
      | cons first rest =>
          rw [List.forall₂_cons, ih, List.length_cons, List.forall_mem_cons,
            Nat.add_right_cancel_iff]
          exact and_left_comm

theorem fills_append_iff {left right : List Bool} {text : Bytes} :
    List.Forall₂ Fills (left ++ right) text ↔
      List.Forall₂ Fills left (text.take left.length) ∧
        List.Forall₂ Fills right (text.drop left.length) := by
  induction left generalizing text with
  | nil =>
      rw [List.nil_append, List.length_nil, List.take_zero, List.drop_zero,
        and_iff_right List.Forall₂.nil]
  | cons isDash rest ih =>
      cases text with
      | nil => simp
      | cons first others =>
          rw [List.cons_append, List.length_cons, List.take_succ_cons, List.drop_succ_cons,
            List.forall₂_cons, List.forall₂_cons, ih, and_assoc]

theorem fills_dash_iff {places : List Bool} {text : Bytes} :
    List.Forall₂ Fills (true :: places) text ↔
      text.head? = some 45 ∧ List.Forall₂ Fills places text.tail := by
  cases text with
  | nil => simp
  | cons first rest =>
      rw [List.forall₂_cons, List.head?_cons, List.tail_cons, Option.some.injEq]
      rfl

theorem matchesGroups_iff (sizes : List Nat) (text : Bytes) :
    matchesGroups sizes text = true ↔ List.Forall₂ Fills (layout sizes) text := by
  induction sizes, text using matchesGroups.induct with
  | case1 text =>
      rw [matchesGroups, layout, List.isEmpty_iff, List.forall₂_nil_left_iff]
  | case2 size text =>
      rw [matchesGroups, layout, fills_digits_iff, Bool.and_eq_true, decide_eq_true_eq,
        List.all_eq_true]
  | case3 size sizes text more ih =>
      rw [matchesGroups, layout, fills_append_iff, List.length_replicate, fills_digits_iff,
        fills_dash_iff, List.tail_drop, ← ih, Bool.and_eq_true, Bool.and_eq_true,
        Bool.and_eq_true, decide_eq_true_eq, decide_eq_true_eq, List.all_eq_true, and_assoc]
      · exact more
      · exact more

/-! ### What is a valid identifier -/

def dashPlaces : List Nat :=
  [8, 13, 18, 23]

/-- 36 characters, with a dash at four places and a hexadecimal digit of either
case at all others. -/
structure IsUuidText (text : Bytes) : Prop where
  length : text.length = 36
  places : ∀ index (inside : index < text.length),
    if index ∈ dashPlaces then text[index] = 45 else isHexDigit text[index] = true

theorem layout_uuid : layout [8, 4, 4, 4, 12] =
    (List.range 36).map fun index => decide (index ∈ dashPlaces) := by
  decide

theorem fills_place_iff (index : Nat) (byte : UInt8) :
    Fills (decide (index ∈ dashPlaces)) byte ↔
      if index ∈ dashPlaces then byte = 45 else isHexDigit byte = true := by
  unfold Fills
  by_cases dash : index ∈ dashPlaces
  · rw [decide_eq_true dash, if_pos rfl, if_pos dash]
  · rw [decide_eq_false dash, if_neg Bool.false_ne_true, if_neg dash]

theorem isValidUuid_iff (text : Bytes) : isValidUuid text = true ↔ IsUuidText text := by
  rw [isValidUuid, matchesGroups_iff, layout_uuid, List.forall₂_map_left_iff,
    List.forall₂_iff_get]
  simp only [List.length_range, List.get_eq_getElem, List.getElem_range, fills_place_iff]
  constructor
  · rintro ⟨length, places⟩
    exact ⟨length.symm, fun index inside => places index (length ▸ inside) inside⟩
  · intro isText
    exact ⟨isText.length.symm, fun index _below inside => isText.places index inside⟩

/-! ### What is generated -/

theorem hexByte_digits (byte : UInt8) : ∀ digit ∈ hexByte byte,
    isHexDigit digit = true ∧ toLower digit = digit := by
  intro digit member
  obtain ⟨value, bounded, isDigit⟩ := mem_hexByte member
  rw [isDigit]
  exact ⟨(hexDigit_facts bounded).1, (hexDigit_facts bounded).2.2⟩

def pieceLayout (index : Fin 16) : List Bool :=
  (if BeginsGroup index then [true] else []) ++ [false, false]

theorem layout_pieces : layout [8, 4, 4, 4, 12] = (List.finRange 16).flatMap pieceLayout := by
  decide

theorem forall₂_flatMap {ι : Type} {items : List ι} {places : ι → List Bool}
    {pieces : ι → Bytes} (each : ∀ item, List.Forall₂ Fills (places item) (pieces item)) :
    List.Forall₂ Fills (items.flatMap places) (items.flatMap pieces) := by
  induction items with
  | nil => exact List.Forall₂.nil
  | cons item rest ih =>
      rw [List.flatMap_cons, List.flatMap_cons]
      exact List.rel_append (each item) ih

theorem uuidPiece_fills (random : Random) (index : Fin 16) :
    List.Forall₂ Fills (pieceLayout index) (uuidPiece random index) := by
  have digits : List.Forall₂ Fills [false, false] (hexByte (uuidByte random index)) :=
    (@fills_digits_iff 2 _).mpr
      ⟨rfl, fun digit member => (hexByte_digits _ digit member).1⟩
  unfold pieceLayout uuidPiece
  split
  · exact List.Forall₂.cons rfl digits
  · exact digits

theorem isValidUuid_generateUuid (random : Random) :
    isValidUuid (generateUuid random) = true := by
  rw [isValidUuid, matchesGroups_iff, layout_pieces, generateUuid_eq]
  exact forall₂_flatMap (uuidPiece_fills random)

theorem generateUuid_lower (random : Random) :
    (generateUuid random).map toLower = generateUuid random := by
  conv_rhs => rw [← List.map_id (generateUuid random)]
  refine List.map_congr_left fun byte member => ?_
  obtain ⟨index, _present, inPiece⟩ := List.mem_flatMap.mp member
  rcases List.mem_append.mp inPiece with dash | digit
  · split at dash
    · rw [List.mem_singleton.mp dash]
      rfl
    · cases dash
  · exact (hexByte_digits _ byte digit).2

theorem version_byte (byte : UInt8) : ((byte &&& 0x0F) ||| 0x40).toNat / 16 = 4 := by
  refine every_byte ?_ byte
  decide +kernel

theorem variant_byte (byte : UInt8) :
    8 ≤ ((byte &&& 0x3F) ||| 0x80).toNat / 16 ∧ ((byte &&& 0x3F) ||| 0x80).toNat / 16 < 12 := by
  refine every_byte ?_ byte
  decide +kernel

theorem generateUuid_version (random : Random) : (generateUuid random)[14]? = some 52 := by
  have digit : (generateUuid random)[14]? =
      some (hexDigit (((random 6 &&& 0x0F) ||| 0x40).toNat / 16)) := rfl
  rw [digit, version_byte]
  rfl

theorem generateUuid_variant (random : Random) :
    ∃ digit ∈ ascii "89ab", (generateUuid random)[19]? = some digit := by
  have digit : (generateUuid random)[19]? =
      some (hexDigit (((random 8 &&& 0x3F) ||| 0x80).toNat / 16)) := rfl
  obtain ⟨above, below⟩ := variant_byte (random 8)
  have listed : ∀ value, 8 ≤ value → value < 12 → hexDigit value ∈ ascii "89ab" := by
    intro value above below
    rcases (show value = 8 ∨ value = 9 ∨ value = 10 ∨ value = 11 by omega) with
      rfl | rfl | rfl | rfl
    all_goals decide
  exact ⟨_, listed _ above below, digit⟩

/-! ### Which bytes give one identifier -/

theorem stamped_and {mask stamp : UInt8} (disjoint : stamp &&& mask = 0) (byte : UInt8) :
    (byte &&& mask ||| stamp) &&& mask = byte &&& mask := by
  have both : (byte &&& mask ||| stamp) &&& mask =
      byte &&& mask &&& mask ||| stamp &&& mask := by
    apply UInt8.toBitVec_inj.mp
    exact BitVec.and_or_distrib_right
  rw [both, disjoint, UInt8.or_zero, UInt8.and_assoc, UInt8.and_self]

theorem stamped_eq_iff {mask stamp : UInt8} (disjoint : stamp &&& mask = 0)
    (left right : UInt8) :
    left &&& mask ||| stamp = right &&& mask ||| stamp ↔ left &&& mask = right &&& mask := by
  constructor
  · intro same
    rw [← stamped_and disjoint left, ← stamped_and disjoint right, same]
  · intro same
    rw [same]

theorem uuidByte_eq_iff (random other : Random) (index : Fin 16) :
    uuidByte random index = uuidByte other index ↔
      random index &&& keptBits index = other index &&& keptBits index := by
  unfold uuidByte keptBits
  split
  · rename_i version
    rw [version]
    exact stamped_eq_iff rfl (random 6) (other 6)
  · split
    · rename_i variant
      rw [variant]
      exact stamped_eq_iff rfl (random 8) (other 8)
    · -- All bits of the other bytes are kept.
      change _ ↔ random index &&& -1 = other index &&& -1
      rw [UInt8.and_neg_one, UInt8.and_neg_one]

theorem hexByte_injective {left right : UInt8} (same : hexByte left = hexByte right) :
    left = right := by
  have leftValue := hexValue_byte left
  have rightValue := hexValue_byte right
  unfold hexByte at same
  rw [List.cons.injEq, List.cons.injEq] at same
  rw [same.1, same.2.1, rightValue] at leftValue
  exact (UInt8.toNat_inj.mp leftValue).symm

theorem flatMap_eq_iff {ι α : Type} {items : List ι} {left right : ι → List α}
    (lengths : ∀ item, (left item).length = (right item).length) :
    items.flatMap left = items.flatMap right ↔ ∀ item ∈ items, left item = right item := by
  induction items with
  | nil => simp
  | cons item rest ih =>
      rw [List.flatMap_cons, List.flatMap_cons, List.forall_mem_cons, ← ih]
      constructor
      · intro same
        exact List.append_inj same (lengths item)
      · rintro ⟨first, later⟩
        rw [first, later]

theorem generateUuid_eq_iff (random other : Random) :
    generateUuid random = generateUuid other ↔
      ∀ index, random index &&& keptBits index = other index &&& keptBits index := by
  have lengths : ∀ index,
      (uuidPiece random index).length = (uuidPiece other index).length := by
    intro index
    rw [uuidPiece, uuidPiece, List.length_append, List.length_append]
    rfl
  rw [generateUuid_eq, generateUuid_eq, flatMap_eq_iff lengths]
  constructor
  · intro same index
    have pieces := same index (List.mem_finRange index)
    rw [uuidPiece, uuidPiece, List.append_cancel_left_eq] at pieces
    exact (uuidByte_eq_iff random other index).mp (hexByte_injective pieces)
  · intro agree index _present
    rw [uuidPiece, uuidPiece, (uuidByte_eq_iff random other index).mpr (agree index)]

/-- Generated identifiers are valid, in lower case and of version 4; two are
equal exactly when the random bits that are kept agree; and the validator
accepts exactly the texts in the layout of an identifier. -/
theorem generated_ids_valid (random other : Random) (text : Bytes) :
    isValidUuid (generateUuid random) = true ∧
      (generateUuid random).map toLower = generateUuid random ∧
      (generateUuid random)[14]? = some 52 ∧
      (∃ digit ∈ ascii "89ab", (generateUuid random)[19]? = some digit) ∧
      (generateUuid random = generateUuid other ↔
        ∀ index, random index &&& keptBits index = other index &&& keptBits index) ∧
      (isValidUuid text = true ↔ IsUuidText text) :=
  ⟨isValidUuid_generateUuid random, generateUuid_lower random, generateUuid_version random,
    generateUuid_variant random, generateUuid_eq_iff random other, isValidUuid_iff text⟩

end Shr
