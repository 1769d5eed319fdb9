/-!
# Comparison flags

The machine remembers the outcome of its last comparison.  The three flag bits
are a view of that memory: at most one of them is set, and none is set before
the first comparison.
-/

namespace LS8

/-- What the machine remembers of comparisons. -/
structure Flags where
  /-- The order of the operands of the last comparison, if there was one. -/
  last : Option Ordering
  deriving DecidableEq, Repr

namespace Flags

/-- No comparison has been made. -/
def clear : Flags := ⟨none⟩

/-- The flags that comparing two bytes as unsigned numbers leaves. -/
def compare (left right : UInt8) : Flags :=
  ⟨some (Ord.compare left right)⟩

/-- The last comparison found its operands equal. -/
def isEqual (flags : Flags) : Bool :=
  flags.last == some .eq

/-- The last comparison found its first operand greater. -/
def isGreater (flags : Flags) : Bool :=
  flags.last == some .gt

/-- The last comparison found its first operand less. -/
def isLess (flags : Flags) : Bool :=
  flags.last == some .lt

/-- The flag register: bit 0 for equal, bit 1 for greater, bit 2 for less. -/
def bits (flags : Flags) : UInt8 :=
  match flags.last with
  | none => 0
  | some .eq => 1
  | some .gt => 2
  | some .lt => 4

/-- The flag register determines the flags. -/
theorem bits_injective
    {left right : Flags}
    (equal : left.bits = right.bits) :
    left = right := by
  obtain ⟨leftLast⟩ := left
  obtain ⟨rightLast⟩ := right
  rcases leftLast with _ | (_ | _ | _) <;>
    rcases rightLast with _ | (_ | _ | _) <;> simp_all [bits]

end Flags
end LS8
