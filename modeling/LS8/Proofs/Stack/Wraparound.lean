import Mathlib.Data.List.Induction
import LS8.Proofs.Stack.Layout

/-!
# Stacks that wrap around

Pushing and popping detect neither a stack that is full nor one that is empty.  A
push goes to the slot of its position modulo 256, so that of all values pushed to a
slot the last one stays; a slot that no push has reached keeps the cell that was
there.  Popping reads one slot after the other, again and again around the memory.
-/

namespace LS8
namespace Stack

theorem slot_eq_slot_iff {base : UInt8} {left right : Nat} :
    slot base left = slot base right ↔ left % 256 = right % 256 := by
  have offsets_iff :
      slot base left = slot base right ↔ UInt8.ofNat left = UInt8.ofNat right := by
    unfold slot
    constructor <;> intro equal <;> grind
  rw [offsets_iff, ← UInt8.toNat_inj, UInt8.toNat_ofNat', UInt8.toNat_ofNat']

theorem slot_mod (base : UInt8) (position : Nat) :
    slot base (position % 256) = slot base position :=
  slot_eq_slot_iff.mpr (Nat.mod_mod _ _)

/-- Popping from a stack with a number of values comes to the slots of their
positions in turn, from the last one backwards. -/
theorem level_add_eq_slot
    (base : UInt8)
    (depth : Nat)
    {pops : Nat}
    (pops_lt : pops < 256) :
    level base depth + UInt8.ofNat pops = slot base (depth + 255 - pops) := by
  obtain ⟨position, position_eq⟩ :=
    Nat.exists_eq_add_of_le (show pops ≤ depth + 255 by omega)
  have bytes_eq :
      UInt8.ofNat depth + 255 = UInt8.ofNat pops + UInt8.ofNat position := by
    have mapped := congrArg UInt8.ofNat position_eq
    rwa [UInt8.ofNat_add, UInt8.ofNat_add] at mapped
  rw [position_eq, Nat.add_sub_cancel_left]
  unfold level slot
  grind

/-- The last of some values among those whose position leaves a remainder modulo
256. -/
def lastAt (values : List UInt8) (remainder : Nat) : Option UInt8 :=
  ((values.zipIdx.filter fun entry => entry.2 % 256 = remainder).getLast?).map
    Prod.fst

variable {values : List UInt8} {remainder : Nat}

theorem lastAt_concat (values : List UInt8) (value : UInt8) (remainder : Nat) :
    lastAt (values ++ [value]) remainder =
      if values.length % 256 = remainder then
        some value
      else
        lastAt values remainder := by
  rw [lastAt, List.zipIdx_append, List.filter_append]
  split
  case isTrue same => simp [same]
  case isFalse different => simp [different, lastAt]

/-- The last 256 values are each the last one at their place. -/
theorem lastAt_of_recent
    {index : Nat}
    (recent : values.length ≤ index + 256)
    (inside : index < values.length) :
    lastAt values (index % 256) = values[index]? := by
  induction values using List.reverseRecOn with
  | nil => exact absurd inside (Nat.not_lt_zero index)
  | append_singleton earlier value inductionHypothesis =>
      rw [List.length_append, List.length_singleton] at recent inside
      rw [lastAt_concat]
      rcases Nat.lt_or_ge index earlier.length with older | newest
      · have different : earlier.length % 256 ≠ index % 256 := by omega
        rw [if_neg different, List.getElem?_append_left older]
        exact inductionHypothesis (by omega) older
      · obtain rfl : index = earlier.length := by omega
        rw [if_pos rfl, List.getElem?_concat_length]

/-- Fewer values than the remainder leave its place empty. -/
theorem lastAt_of_unreached
    (remainder_lt : remainder < 256)
    (unreached : values.length ≤ remainder) :
    lastAt values remainder = none := by
  induction values using List.reverseRecOn with
  | nil => rfl
  | append_singleton earlier value inductionHypothesis =>
      rw [List.length_append, List.length_singleton] at unreached
      rw [lastAt_concat, if_neg (by omega)]
      exact inductionHypothesis (by omega)

end Stack

namespace Machine

/-- Two machines may differ in their memory and their stack pointer, and in nothing
else. -/
structure AgreeButStack (left right : Machine) : Prop where
  pc_eq : left.pc = right.pc
  flags_eq : left.flags = right.flags
  status_eq : left.status = right.status
  get_eq : ∀ register ≠ .stackPointer, left.get register = right.get register

namespace AgreeButStack

variable {left middle right machine : Machine}

theorem refl (machine : Machine) : machine.AgreeButStack machine :=
  ⟨rfl, rfl, rfl, fun _ _ => rfl⟩

theorem trans
    (first : left.AgreeButStack middle)
    (second : middle.AgreeButStack right) :
    left.AgreeButStack right where
  pc_eq := first.pc_eq.trans second.pc_eq
  flags_eq := first.flags_eq.trans second.flags_eq
  status_eq := first.status_eq.trans second.status_eq
  get_eq := fun register other =>
    (first.get_eq register other).trans (second.get_eq register other)

theorem push (machine : Machine) (value : UInt8) :
    (machine.push value).AgreeButStack machine :=
  ⟨rfl, rfl, rfl, fun _ other => Registers.get_set_of_ne _ _ other⟩

theorem drop (machine : Machine) : machine.drop.AgreeButStack machine :=
  ⟨rfl, rfl, rfl, fun _ other => Registers.get_set_of_ne _ _ other⟩

end AgreeButStack

/-- The machine after values are pushed one after the other. -/
def pushAll (machine : Machine) (values : List UInt8) : Machine :=
  values.foldl push machine

section PushAll

variable (machine : Machine) (values : List UInt8)

theorem pushAll_concat (value : UInt8) :
    machine.pushAll (values ++ [value]) = (machine.pushAll values).push value :=
  List.foldl_append

theorem stackPointer_pushAll :
    (machine.pushAll values).stackPointer =
      Stack.level machine.stackPointer values.length := by
  induction values using List.reverseRecOn with
  | nil => exact (Stack.level_zero _).symm
  | append_singleton earlier value inductionHypothesis =>
      rw [pushAll_concat, stackPointer_push, inductionHypothesis,
        Stack.level_sub_one, List.length_append, List.length_singleton,
        Stack.level_succ]

/-- A slot keeps the last value that is pushed to it. -/
theorem read_slot_pushAll {remainder : Nat} (remainder_lt : remainder < 256) :
    (machine.pushAll values).memory.read
        (Stack.slot machine.stackPointer remainder) =
      (Stack.lastAt values remainder).getD
        (machine.memory.read (Stack.slot machine.stackPointer remainder)) := by
  induction values using List.reverseRecOn with
  | nil => rfl
  | append_singleton earlier value inductionHypothesis =>
      have memory_eq :
          ((machine.pushAll earlier).push value).memory =
            (machine.pushAll earlier).memory.write
              (Stack.slot machine.stackPointer earlier.length) value := by
        rw [← Stack.level_sub_one, ← stackPointer_pushAll]
        rfl
      have slot_iff :
          Stack.slot machine.stackPointer remainder =
              Stack.slot machine.stackPointer earlier.length ↔
            earlier.length % 256 = remainder := by
        rw [Stack.slot_eq_slot_iff, Nat.mod_eq_of_lt remainder_lt, eq_comm]
      rw [pushAll_concat, memory_eq, Memory.read_write, Stack.lastAt_concat]
      simp only [slot_iff]
      split
      case isTrue => rfl
      case isFalse => exact inductionHypothesis

theorem agreeButStack_pushAll : (machine.pushAll values).AgreeButStack machine := by
  induction values using List.reverseRecOn with
  | nil => exact .refl machine
  | append_singleton earlier value inductionHypothesis =>
      rw [pushAll_concat]
      exact (AgreeButStack.push _ value).trans inductionHypothesis

end PushAll

/-- The values that a number of pops give, one after the other, and the machine
after them. -/
def popMany (machine : Machine) : Nat → List UInt8 × Machine
  | 0 => ([], machine)
  | count + 1 =>
      let (value, next) := machine.pop
      let (values, last) := next.popMany count
      (value :: values, last)

section PopMany

theorem values_popMany_succ (machine : Machine) (count : Nat) :
    (machine.popMany (count + 1)).1 =
      machine.top :: (machine.drop.popMany count).1 := rfl

theorem machine_popMany_succ (machine : Machine) (count : Nat) :
    (machine.popMany (count + 1)).2 = (machine.drop.popMany count).2 := rfl

/-- Pops read the cells from the stack pointer on, around the end of memory. -/
theorem values_popMany (machine : Machine) (count : Nat) :
    (machine.popMany count).1 =
      (List.range count).map fun pops =>
        machine.memory.read (machine.stackPointer + UInt8.ofNat pops) := by
  induction count generalizing machine with
  | zero => rfl
  | succ count inductionHypothesis =>
      have first_eq : machine.top =
          machine.memory.read (machine.stackPointer + UInt8.ofNat 0) :=
        congrArg machine.memory.read (UInt8.add_zero _).symm
      rw [values_popMany_succ, inductionHypothesis, List.range_succ_eq_map,
        List.map_cons, List.map_map, ← first_eq]
      congr 1
      apply List.map_congr_left
      intro pops _
      rw [stackPointer_drop, Function.comp_apply, UInt8.add_assoc,
        UInt8.add_comm 1, ← UInt8.ofNat_one, ← UInt8.ofNat_add]
      rfl

theorem stackPointer_popMany (machine : Machine) (count : Nat) :
    (machine.popMany count).2.stackPointer =
      machine.stackPointer + UInt8.ofNat count := by
  induction count generalizing machine with
  | zero => exact (UInt8.add_zero _).symm
  | succ count inductionHypothesis =>
      rw [machine_popMany_succ, inductionHypothesis, stackPointer_drop, UInt8.add_assoc,
        UInt8.add_comm 1, ← UInt8.ofNat_one, ← UInt8.ofNat_add]

theorem memory_popMany (machine : Machine) (count : Nat) :
    (machine.popMany count).2.memory = machine.memory := by
  induction count generalizing machine with
  | zero => rfl
  | succ count inductionHypothesis =>
      rw [machine_popMany_succ, inductionHypothesis]
      rfl

theorem agreeButStack_popMany (machine : Machine) (count : Nat) :
    (machine.popMany count).2.AgreeButStack machine := by
  induction count generalizing machine with
  | zero => exact .refl machine
  | succ count inductionHypothesis =>
      rw [machine_popMany_succ]
      exact (inductionHypothesis machine.drop).trans (.drop machine)

end PopMany

/-! ## Popping what was pushed -/

/-- Pops give the pushed values backwards, and behind the oldest one what memory held
before; after 256 pops they start again. -/
theorem getElem?_popMany_pushAll
    (machine : Machine)
    (values : List UInt8)
    {count pops : Nat}
    (pops_lt : pops < count) :
    ((machine.pushAll values).popMany count).1[pops]? =
      if pops % 256 < values.length then
        values[values.length - 1 - pops % 256]?
      else
        some (machine.memory.read
          (machine.stackPointer + UInt8.ofNat (pops % 256) -
            UInt8.ofNat values.length)) := by
  let base := machine.stackPointer
  let size := values.length
  let round := pops % 256
  have round_lt : round < 256 := Nat.mod_lt pops (by decide)
  have address_eq :
      (machine.pushAll values).stackPointer + UInt8.ofNat pops =
        Stack.slot base ((size + 255 - round) % 256) := by
    rw [stackPointer_pushAll, Stack.slot_mod,
      ← Stack.level_add_eq_slot base size round_lt]
    exact congrArg (Stack.level base size + ·) UInt8.ofNat_mod_size.symm
  have found_eq :
      ((machine.pushAll values).popMany count).1[pops]? =
        some ((Stack.lastAt values ((size + 255 - round) % 256)).getD
          (machine.memory.read
            (Stack.slot base ((size + 255 - round) % 256)))) := by
    rw [values_popMany, List.getElem?_map, List.getElem?_range pops_lt,
      Option.map_some, address_eq, read_slot_pushAll _ _ (Nat.mod_lt _ (by decide))]
  rw [found_eq]
  split
  case isTrue pushed =>
    have inside : size - 1 - round < values.length := by omega
    have same_remainder :
        (size + 255 - round) % 256 = (size - 1 - round) % 256 := by
      omega
    rw [same_remainder, Stack.lastAt_of_recent (by omega) inside,
      List.getElem?_eq_getElem inside, Option.getD_some]
  case isFalse older =>
    have small : size + 255 - round < 256 := by omega
    rw [Nat.mod_eq_of_lt small, Stack.lastAt_of_unreached small (by omega),
      Option.getD_none, ← Stack.level_add_eq_slot base size round_lt]
    congr 2
    unfold Stack.level
    grind

/-- As many values as memory has cells come back as they were, last one first. -/
theorem popMany_pushAll_of_fits
    (machine : Machine)
    {values : List UInt8}
    (fits : values.length ≤ 256) :
    ((machine.pushAll values).popMany values.length).1 = values.reverse := by
  apply List.ext_getElem?
  intro pops
  rcases Nat.lt_or_ge pops values.length with pops_lt | enough
  · have first_round : pops % 256 = pops := Nat.mod_eq_of_lt (by omega)
    rw [getElem?_popMany_pushAll machine values pops_lt, first_round,
      if_pos pops_lt, List.getElem?_reverse pops_lt]
  · rw [List.getElem?_eq_none, List.getElem?_eq_none]
    · rwa [List.length_reverse]
    · rwa [values_popMany, List.length_map, List.length_range]

/-- Pops behind pushes give the pushed values backwards, then the cells that memory held
before in front of them, and the same again after every 256 pops. -/
theorem pops_return_pushes
    (machine : Machine)
    (values : List UInt8)
    (count : Nat) :
    let base := machine.stackPointer
    let size := values.length
    let pushed := machine.pushAll values
    let popped := pushed.popMany count
    popped.1.length = count ∧
      (∀ pops < count,
        popped.1[pops]? =
          if pops % 256 < size then
            values[size - 1 - pops % 256]?
          else
            some (machine.memory.read
              (base + UInt8.ofNat (pops % 256) - UInt8.ofNat size))) ∧
      popped.2.stackPointer = base - UInt8.ofNat size + UInt8.ofNat count ∧
      popped.2.AgreeButStack machine ∧
      popped.2.memory = pushed.memory ∧
      (∀ remainder < 256,
        pushed.memory.read (base - 1 - UInt8.ofNat remainder) =
          (Stack.lastAt values remainder).getD
            (machine.memory.read (base - 1 - UInt8.ofNat remainder))) ∧
      (size ≤ 256 →
        (pushed.popMany size).1 = values.reverse ∧
          (pushed.popMany size).2.stackPointer = base) := by
  intro base size pushed popped
  refine ⟨?_, ?_, ?_, ?_, ?_, ?_, ?_⟩
  · rw [values_popMany, List.length_map, List.length_range]
  · intro pops pops_lt
    exact machine.getElem?_popMany_pushAll values pops_lt
  · rw [stackPointer_popMany, stackPointer_pushAll]
    rfl
  · exact (agreeButStack_popMany pushed count).trans
      (agreeButStack_pushAll machine values)
  · exact memory_popMany pushed count
  · intro remainder remainder_lt
    exact machine.read_slot_pushAll values remainder_lt
  · intro fits
    refine ⟨machine.popMany_pushAll_of_fits fits, ?_⟩
    rw [stackPointer_popMany, stackPointer_pushAll]
    exact UInt8.sub_add_cancel _ _

/-- A machine that has halted with its stack pointer near the lower end of memory. -/
def haltedNearBottom : Machine :=
  { initial with
    memory := Memory.zeroed.write 0x02 0x77
    registers := Registers.initial.setStackPointer 0x02
    status := .halted }

/-- More values than memory has cells: the last two are stored over the first two. -/
def overlongValues : List UInt8 :=
  (List.range 258).map UInt8.ofNat

theorem pops_return_pushes_aroundMemory :
    let pushed := haltedNearBottom.pushAll [0x11, 0x22, 0x33]
    let overfull := haltedNearBottom.pushAll overlongValues
    [0x11, 0x22, 0x33].length ≤ 256 ∧
      (pushed.popMany 3).1 = [0x33, 0x22, 0x11] ∧
      (pushed.popMany 4).1[3]? = some 0x77 ∧
      (pushed.popMany 4).2.stackPointer = 0x03 ∧
      (pushed.popMany 4).2.status = .halted ∧
      pushed.memory.read 0xFF = 0x33 ∧
      (overfull.popMany 257).1[2]? = some 0xFF ∧
      (overfull.popMany 257).1[256]? = some 0x01 := by
  intro pushed overfull
  obtain ⟨_, few, pointer_eq, agrees, _, cells, fitting⟩ :=
    pops_return_pushes haltedNearBottom [0x11, 0x22, 0x33] 4
  obtain ⟨_, many, _⟩ := pops_return_pushes haltedNearBottom overlongValues 257
  refine ⟨by decide, (fitting (by decide)).1, ?_, ?_, agrees.status_eq, ?_, ?_, ?_⟩
  · rw [few 3 (by decide)]
    decide
  · rw [pointer_eq]
    decide
  · exact (cells 2 (by decide)).trans (by decide)
  · rw [many 2 (by decide)]
    decide +kernel
  · rw [many 256 (by decide)]
    decide +kernel

end Machine
end LS8
