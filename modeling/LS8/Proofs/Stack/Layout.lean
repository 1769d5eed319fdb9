import LS8.Machine

/-!
# Stacks in memory

The machine's stack grows downwards from a base address and wraps around the
ends of memory.  Its elements lie in the slots below the base, the oldest one
right below it.  There are 256 different slots, so a stack of at most 256
elements fits, and pushing changes no cell but the next free slot.
-/

namespace LS8
namespace Stack

/-- The address of an element, counted from the oldest one. -/
def slot (base : UInt8) (position : Nat) : UInt8 :=
  base - 1 - UInt8.ofNat position

/-- The stack pointer above a number of elements. -/
def level (base : UInt8) (depth : Nat) : UInt8 :=
  base - UInt8.ofNat depth

theorem level_zero (base : UInt8) : level base 0 = base :=
  UInt8.sub_zero base

/-- The next free slot lies right below the stack pointer. -/
theorem level_sub_one (base : UInt8) (depth : Nat) :
    level base depth - 1 = slot base depth := by
  unfold level slot
  grind

/-- Once an element is pushed, the stack pointer is the address of its slot. -/
theorem level_succ (base : UInt8) (depth : Nat) :
    level base (depth + 1) = slot base depth := by
  unfold level slot
  rw [UInt8.ofNat_add]
  grind

theorem slot_add_one (base : UInt8) (depth : Nat) :
    slot base depth + 1 = level base depth := by
  unfold level slot
  grind

/-- The first 256 slots are different. -/
theorem slot_injective
    {base : UInt8}
    {left right : Nat}
    (left_lt : left < 256)
    (right_lt : right < 256)
    (equal : slot base left = slot base right) :
    left = right := by
  have offsets : UInt8.ofNat left = UInt8.ofNat right := by
    unfold slot at equal
    grind
  have values := congrArg UInt8.toNat offsets
  rw [UInt8.toNat_ofNat', UInt8.toNat_ofNat'] at values
  omega

/-- A machine's stack holds a list of values, newest first. -/
structure Holds (base : UInt8) (machine : Machine) (stack : List UInt8) : Prop where
  stackPointer_eq : machine.stackPointer = level base stack.length
  read_slot : ∀ position value,
    stack.reverse[position]? = some value →
      machine.memory.read (slot base position) = value

theorem holds_nil (machine : Machine) :
    Holds machine.stackPointer machine [] where
  stackPointer_eq := (level_zero machine.stackPointer).symm
  read_slot := by
    intro position value present
    simp at present

namespace Holds

variable {base : UInt8} {machine : Machine} {stack : List UInt8}

/-- Only the memory and the stack pointer matter. -/
theorem congr
    {other : Machine}
    (holds : Holds base machine stack)
    (memory_eq : other.memory = machine.memory)
    (stackPointer_eq : other.stackPointer = machine.stackPointer) :
    Holds base other stack where
  stackPointer_eq := by rw [stackPointer_eq, holds.stackPointer_eq]
  read_slot := by
    rw [memory_eq]
    exact holds.read_slot

/-- A push stores its value in the next free slot. -/
theorem memory_push (holds : Holds base machine stack) (value : UInt8) :
    (machine.push value).memory =
      machine.memory.write (slot base stack.length) value := by
  rw [← level_sub_one, ← holds.stackPointer_eq]
  rfl

theorem push
    (holds : Holds base machine stack)
    (room : stack.length < 256)
    (value : UInt8) :
    Holds base (machine.push value) (value :: stack) where
  stackPointer_eq := by
    rw [Machine.stackPointer_push, holds.stackPointer_eq, level_sub_one,
      List.length_cons, level_succ]
  read_slot := by
    intro position found present
    rw [List.reverse_cons] at present
    rw [holds.memory_push]
    rcases Nat.lt_or_ge position stack.length with older | notOlder
    · rw [List.getElem?_append_left (by simpa using older)] at present
      rw [Memory.read_write_of_ne]
      · exact holds.read_slot position found present
      · intro equal
        have position_eq := slot_injective (by omega) room equal
        omega
    · rw [List.getElem?_append_right (by simpa using notOlder),
        List.length_reverse] at present
      have inside : position - stack.length < [value].length :=
        (List.getElem?_eq_some_iff.mp present).1
      have position_eq : position = stack.length := by
        rw [List.length_singleton] at inside
        omega
      rw [position_eq, Nat.sub_self] at present
      rw [position_eq, Memory.read_write_self]
      exact Option.some.inj present

/-- The newest element is at the top. -/
theorem top
    {value : UInt8}
    (holds : Holds base machine (value :: stack)) :
    machine.top = value := by
  rw [Machine.top, holds.stackPointer_eq, List.length_cons, level_succ]
  apply holds.read_slot
  simp

theorem drop
    {value : UInt8}
    (holds : Holds base machine (value :: stack)) :
    Holds base machine.drop stack where
  stackPointer_eq := by
    rw [Machine.stackPointer_drop, holds.stackPointer_eq, List.length_cons,
      level_succ, slot_add_one]
  read_slot := by
    intro position found present
    apply holds.read_slot
    have inside : position < stack.reverse.length :=
      (List.getElem?_eq_some_iff.mp present).1
    rw [List.reverse_cons, List.getElem?_append_left inside]
    exact present

end Holds

end Stack
end LS8
