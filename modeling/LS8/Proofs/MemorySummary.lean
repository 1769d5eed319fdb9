import Mathlib.Data.List.DropRight
import Mathlib.Data.List.GetD
import LS8.Memory
import LS8.Proofs.Transcript.Text
import LS8.Proofs.Text.Separators

/-!
# The summary of a memory

The summary of a memory lists its used cells in decimal.  These are the cells up to the
last one that is not zero, so they say all that is needed to restore the memory, and
the text that lists them determines them.
-/

namespace LS8
namespace Memory

variable (memory : Memory)

@[simp] theorem length_toList : memory.toList.length = 256 :=
  Vector.length_toList

theorem getElem?_toList (address : UInt8) :
    memory.toList[address.toNat]? = some (memory.read address) := by
  rw [toList, Vector.getElem?_toList]
  exact Vector.getElem?_eq_getElem address.toNat_lt

theorem used_prefix_toList : memory.used <+: memory.toList :=
  List.rdropWhile_prefix _ _

theorem length_used_le : memory.used.length ≤ 256 := by
  rw [← memory.length_toList]
  exact memory.used_prefix_toList.length_le

/-- The used cells tell the value of every cell: those behind them are zero. -/
theorem getD_used (address : UInt8) :
    memory.used.getD address.toNat 0 = memory.read address := by
  have cells_eq : memory.used ++ memory.toList.rtakeWhile (· == 0) = memory.toList :=
    List.rdropWhile_append_rtakeWhile
  have found := memory.getElem?_toList address
  rw [← cells_eq] at found
  rw [List.getD_eq_getElem?_getD]
  rcases Nat.lt_or_ge address.toNat memory.used.length with inside | behind
  · rw [List.getElem?_append_left inside] at found
    rw [found, Option.getD_some]
  · rw [List.getElem?_append_right behind] at found
    have member := List.mem_of_getElem? found
    have zero := List.mem_rtakeWhile_imp member
    rw [List.getElem?_eq_none behind, Option.getD_none, eq_of_beq zero]

/-- Behind a number of cells all are zero. -/
def ZeroFrom (count : Nat) : Prop :=
  ∀ address : UInt8, count ≤ address.toNat → memory.read address = 0

theorem zeroFrom_length_used : memory.ZeroFrom memory.used.length := by
  intro address behind
  rw [← getD_used, List.getD_eq_default _ _ behind]

theorem getLast_used_ne_zero (used_ne_nil : memory.used ≠ []) :
    memory.used.getLast used_ne_nil ≠ 0 := by
  intro zero
  exact List.rdropWhile_last_not (· == 0) memory.toList used_ne_nil
    (beq_iff_eq.mpr zero)

/-- The last used cell is not zero, so fewer cells are not enough. -/
theorem length_used_le_of_zeroFrom
    {memory : Memory}
    {count : Nat}
    (zeros : memory.ZeroFrom count) :
    memory.used.length ≤ count := by
  apply Nat.le_of_not_lt
  intro count_lt
  have used_ne_nil : memory.used ≠ [] := by
    intro empty
    rw [empty] at count_lt
    exact Nat.not_lt_zero count count_lt
  have last_lt : memory.used.length - 1 < memory.used.length := by omega
  have toNat_eq :
      (UInt8.ofNat (memory.used.length - 1)).toNat = memory.used.length - 1 :=
    UInt8.toNat_ofNat_of_lt' (Nat.lt_of_lt_of_le last_lt memory.length_used_le)
  apply memory.getLast_used_ne_zero used_ne_nil
  rw [List.getLast_eq_getElem, ← List.getD_eq_getElem _ 0 last_lt, ← toNat_eq, getD_used]
  exact zeros _ (by omega)

theorem used_eq_nil_iff : memory.used = [] ↔ ∀ address, memory.read address = 0 := by
  constructor
  · intro empty address
    apply memory.zeroFrom_length_used
    rw [empty]
    exact Nat.zero_le _
  · intro zeros
    exact List.eq_nil_of_length_eq_zero
      (Nat.le_zero.mp (length_used_le_of_zeroFrom fun address _ => zeros address))

theorem length_used_eq_iff : memory.used.length = 256 ↔ memory.read 0xFF ≠ 0 := by
  constructor
  · intro full zero
    have zeros : memory.ZeroFrom 255 := by
      intro address address_ge
      have address_eq : address = 0xFF := by
        apply UInt8.toNat_inj.mp
        exact Nat.le_antisymm (Nat.le_of_lt_succ address.toNat_lt) address_ge
      rw [address_eq, zero]
    have length_le := length_used_le_of_zeroFrom zeros
    omega
  · intro nonzero
    apply Nat.le_antisymm memory.length_used_le
    apply Nat.le_of_not_lt
    intro length_lt
    exact nonzero (memory.zeroFrom_length_used 0xFF (Nat.le_of_lt_succ length_lt))

/-- The used cells restore the memory. -/
theorem load_zeroed_used : zeroed.load memory.used = .ok memory := by
  have restored : zeroed.overlay memory.used = memory := by
    apply Memory.ext
    intro address
    rw [read_overlay, read_zeroed, getD_used]
  rw [load_of_length_le _ memory.length_used_le, restored]

/-- The decimal digits of the used cells. -/
def usedDigits : List (List Char) :=
  memory.used.map fun byte => Decimal.digits byte.toNat

theorem toList_summary :
    memory.summary.toList =
      "Memory \x7b used: [".toList ++
        ([',', ' '].intercalate memory.usedDigits ++ "] \x7d".toList) := by
  have digits_eq : String.toList ∘ Decimal.ofByte =
      fun byte => Decimal.digits byte.toNat :=
    funext Decimal.toList_ofByte
  change ("Memory \x7b used: [" ++
    ", ".intercalate (memory.used.map Decimal.ofByte) ++ "] \x7d").toList = _
  rw [String.toList_append, String.toList_append, String.toList_intercalate,
    List.map_map, digits_eq, List.append_assoc]
  rfl

/-- The digits can be read off the listed cells: without spaces the cells are cut at
the commas. -/
theorem cut_usedDigits :
    Separators.cut ','
        (([',', ' '].intercalate memory.usedDigits).filter (· ≠ ' ')) =
      memory.usedDigits := by
  have digits_of_mem :
      ∀ piece ∈ memory.usedDigits, ∃ number, piece = Decimal.digits number := by
    intro piece member
    obtain ⟨byte, _, rfl⟩ := List.mem_map.mp member
    exact ⟨byte.toNat, rfl⟩
  have kept : memory.usedDigits.map (List.filter (· ≠ ' ')) = memory.usedDigits := by
    rw [usedDigits, List.map_map]
    apply List.map_congr_left
    intro byte _
    apply List.filter_eq_self.mpr
    intro character written
    have noSpace : character ≠ ' ' := by
      rintro rfl
      exact Decimal.not_mem_digits rfl _ written
    exact decide_eq_true noSpace
  have comma : [',', ' '].filter (· ≠ ' ') = [','] := by decide
  rw [Separators.filter_intercalate, comma, kept]
  apply Separators.cut_intercalate
  · intro piece member
    obtain ⟨number, rfl⟩ := digits_of_mem piece member
    exact Decimal.digits_ne_nil number
  · intro piece member
    obtain ⟨number, rfl⟩ := digits_of_mem piece member
    exact Decimal.not_mem_digits rfl number

/-- Memories with the same text are equal. -/
theorem summary_injective
    {left right : Memory}
    (equal : left.summary = right.summary) :
    left = right := by
  have texts_eq := congrArg String.toList equal
  rw [toList_summary, toList_summary] at texts_eq
  have listed_eq :=
    List.append_cancel_right (List.append_cancel_left texts_eq)
  have digits_eq : left.usedDigits = right.usedDigits := by
    rw [← cut_usedDigits left, ← cut_usedDigits right, listed_eq]
  have bytes_eq : left.used = right.used := by
    apply List.map_injective_iff.mpr _ digits_eq
    intro first second same
    exact UInt8.toNat_inj.mp (Decimal.digits_injective same)
  apply Memory.ext
  intro address
  rw [← getD_used, ← getD_used, bytes_eq]

/-- The used cells are the shortest start of memory that gives it back, and the text
lists them and determines the memory. -/
theorem summary_loses_nothing (memory other : Memory) :
    memory.used = memory.toList.take memory.used.length ∧
      memory.ZeroFrom memory.used.length ∧
      (∀ count, memory.ZeroFrom count → memory.used.length ≤ count) ∧
      (memory.used = [] ↔ ∀ address, memory.read address = 0) ∧
      (memory.used.length = 256 ↔ memory.read 0xFF ≠ 0) ∧
      zeroed.load memory.used = .ok memory ∧
      memory.summary.toList =
        "Memory \x7b used: [".toList ++
          ([',', ' '].intercalate
              (memory.used.map fun byte => Nat.toDigits 10 byte.toNat) ++
            "] \x7d".toList) ∧
      (memory.summary = other.summary ↔ memory = other) := by
  refine ⟨?_, memory.zeroFrom_length_used, ?_, memory.used_eq_nil_iff,
    memory.length_used_eq_iff, memory.load_zeroed_used, memory.toList_summary, ?_⟩
  · exact List.prefix_iff_eq_take.mp memory.used_prefix_toList
  · intro count zeros
    exact length_used_le_of_zeroFrom zeros
  · exact ⟨summary_injective, congrArg summary⟩

/-- A memory with zeros in front of and between its used cells. -/
def interiorZeros : Memory :=
  zeroed.write 0x01 0x0A |>.write 0x03 0xFF

theorem summary_loses_nothing_interiorZeros :
    interiorZeros.ZeroFrom 4 ∧
      interiorZeros.used.length ≤ 4 ∧
      interiorZeros.used ≠ [] ∧
      interiorZeros.used.length ≠ 256 ∧
      zeroed.load interiorZeros.used = .ok interiorZeros ∧
      interiorZeros.summary ≠ zeroed.summary := by
  obtain ⟨_, _, shortest, empty_iff, full_iff, loaded, _, text_iff⟩ :=
    summary_loses_nothing interiorZeros zeroed
  have first_used : interiorZeros.read 0x01 ≠ 0 := by decide +kernel
  have zeros : interiorZeros.ZeroFrom 4 := by
    intro address address_ge
    have different {used : UInt8} (used_lt : used.toNat < 4) : address ≠ used := by
      rintro rfl
      exact Nat.not_lt.mpr address_ge used_lt
    rw [interiorZeros, read_write_of_ne _ _ (different (by decide)),
      read_write_of_ne _ _ (different (by decide)), read_zeroed]
  refine ⟨zeros, shortest 4 zeros, ?_, ?_, loaded, ?_⟩
  · intro empty
    exact first_used (empty_iff.mp empty 0x01)
  · intro full
    exact full_iff.mp full (by decide +kernel)
  · intro same
    rw [text_iff.mp same] at first_used
    exact first_used (read_zeroed 0x01)

/-- Zeros in front of the last used cell are listed. -/
example :
    (zeroed.write 0x02 0x0A).summary = "Memory \x7b used: [0, 0, 10] \x7d" := by
  decide +kernel

end Memory
end LS8
