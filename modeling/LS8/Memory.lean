import LS8.Text.Decimal
import LS8.LoadError

/-!
# Memory

The 256 byte cells of the machine.  Every byte is an address, so reading and
writing never fail; loading an image fails exactly when the image has more
bytes than there are cells.
-/

namespace LS8

/-- The contents of the 256 memory cells. -/
structure Memory where
  /-- The cells in order of address. -/
  cells : Vector UInt8 256
  deriving DecidableEq

namespace Memory

/-- The number of cells. -/
def size : Nat := 256

/-- A memory whose cells are all zero. -/
def zeroed : Memory :=
  ⟨Vector.replicate 256 0⟩

/-- The value of the cell at an address. -/
def read (memory : Memory) (address : UInt8) : UInt8 :=
  memory.cells[address.toFin]

/-- Replace the value of the cell at an address. -/
def write (memory : Memory) (address value : UInt8) : Memory :=
  ⟨memory.cells.set address.toFin value⟩

/-- All cells in order of address. -/
def toList (memory : Memory) : List UInt8 :=
  memory.cells.toList

/-- Two memories that read alike everywhere are equal. -/
@[ext] theorem ext
    {left right : Memory}
    (agree : ∀ address, left.read address = right.read address) :
    left = right := by
  obtain ⟨leftCells⟩ := left
  obtain ⟨rightCells⟩ := right
  congr 1
  apply Vector.ext
  intro index index_lt
  have in_range : index % UInt8.size = index := Nat.mod_eq_of_lt index_lt
  simpa [read, in_range] using agree (UInt8.ofNat index)

@[simp] theorem read_zeroed (address : UInt8) :
    zeroed.read address = 0 := by
  simp [zeroed, read]

theorem read_write (memory : Memory) (address value other : UInt8) :
    (memory.write address value).read other =
      if other = address then value else memory.read other := by
  have same_iff : address.toNat = other.toNat ↔ other = address := by
    rw [UInt8.toNat_inj, eq_comm]
  simp [read, write, Vector.getElem_set, same_iff]

@[simp] theorem read_write_self (memory : Memory) (address value : UInt8) :
    (memory.write address value).read address = value := by
  simp [read_write]

theorem read_write_of_ne
    (memory : Memory)
    {address other : UInt8}
    (value : UInt8)
    (different : other ≠ address) :
    (memory.write address value).read other = memory.read other := by
  simp [read_write, different]

/-- The memory after copying an image into the cells from address zero on.
Cells behind the image keep their values, and image bytes behind the last cell
are not used. -/
def overlay (memory : Memory) (image : List UInt8) : Memory :=
  ⟨Vector.ofFn fun index => image.getD index memory.cells[index]⟩

/-- Load an image that fits into the cells. -/
def load (memory : Memory) (image : List UInt8) : Except LoadError Memory :=
  if image.length ≤ size then
    .ok (memory.overlay image)
  else
    .error (.imageTooLarge image.length)

@[simp] theorem read_overlay
    (memory : Memory)
    (image : List UInt8)
    (address : UInt8) :
    (memory.overlay image).read address =
      image.getD address.toNat (memory.read address) := by
  simp [overlay, read]

theorem load_of_length_le
    (memory : Memory)
    {image : List UInt8}
    (fits : image.length ≤ size) :
    memory.load image = .ok (memory.overlay image) := by
  simp [load, fits]

theorem load_of_lt_length
    (memory : Memory)
    {image : List UInt8}
    (tooLarge : size < image.length) :
    memory.load image = .error (.imageTooLarge image.length) := by
  simp [load, Nat.not_le.mpr tooLarge]

/-! ## Views for the host -/

/-- The addresses in ascending order. -/
def addresses : List UInt8 :=
  (List.range size).map UInt8.ofNat

/-- The cells that differ from an earlier memory, with their present values,
in order of address. -/
def changesSince (memory before : Memory) : List (UInt8 × UInt8) :=
  addresses.filterMap fun address =>
    if memory.read address = before.read address then
      none
    else
      some (address, memory.read address)

/-- The cells up to the last one that is not zero. -/
def used (memory : Memory) : List UInt8 :=
  (memory.toList.reverse.dropWhile (· == 0)).reverse

/-- The text that lists the used cells in decimal. -/
def summary (memory : Memory) : String :=
  "Memory \x7b used: [" ++
    ", ".intercalate (memory.used.map Decimal.ofByte) ++ "] \x7d"

end Memory
end LS8
