import Mathlib.Data.List.GetD
import LS8.Proofs.Operations
import LS8.Proofs.Stack.Wraparound

/-!
# The last store wins

A host stores into memory by loading an image, writing a cell or pushing a value.  A
load covers as many cells as its image has bytes, from address zero on, a write covers
its own cell, and a push covers the cell that the stack pointer comes to.  After any
number of stores a cell holds what the last store that covers it has given it; loads
that are refused cover nothing.
-/

namespace LS8

/-- A host's operation that stores into memory. -/
inductive Store where
  /-- Load an image. -/
  | load (image : List UInt8)
  /-- Set a memory cell. -/
  | write (address value : UInt8)
  /-- Push a value on the stack. -/
  | push (value : UInt8)
  deriving DecidableEq, Repr

namespace Store

/-- A store as an operation of the host. -/
def operation : Store → Operation
  | .load image => .load image
  | .write address value => .write address value
  | .push value => .push value

/-- Where a store leaves the stack pointer. -/
def movePointer (pointer : UInt8) : Store → UInt8
  | .push _ => pointer - 1
  | _ => pointer

/-- The value that a store gives the cell at an address, if it covers the cell.  The
stack pointer is the one in front of the store. -/
def given? (pointer address : UInt8) : Store → Option UInt8
  | .load image =>
      if image.length ≤ Memory.size then image[address.toNat]? else none
  | .write target value => if address = target then some value else none
  | .push value => if address = pointer - 1 then some value else none

/-- The values that stores give the cell at an address, one after the other. -/
def given (address : UInt8) : (pointer : UInt8) → List Store → List UInt8
  | _, [] => []
  | pointer, store :: rest =>
      (store.given? pointer address).toList ++
        given address (store.movePointer pointer) rest

end Store

/-- An image over a longer one leaves the longer one's tail in place. -/
theorem Memory.overlay_overlay (memory : Memory) (earlier later : List UInt8) :
    (memory.overlay earlier).overlay later =
      memory.overlay (later ++ earlier.drop later.length) := by
  apply Memory.ext
  intro address
  rw [read_overlay, read_overlay, read_overlay]
  rcases Nat.lt_or_ge address.toNat later.length with inside | behind
  · rw [List.getD_append _ _ _ _ inside, List.getD_eq_getElem _ _ inside,
      List.getD_eq_getElem _ _ inside]
  · rw [List.getD_append_right _ _ _ _ behind, List.getD_eq_default _ _ behind,
      List.getD_eq_getElem?_getD, List.getD_eq_getElem?_getD, List.getElem?_drop,
      Nat.add_sub_cancel' behind]

namespace Session

/-- The session after stores, one after the other. -/
def storeAll (session : Session) (stores : List Store) : Session :=
  session.performAll (stores.map Store.operation)

variable (session : Session)

@[simp] theorem storeAll_nil : session.storeAll [] = session := rfl

@[simp] theorem storeAll_cons (store : Store) (rest : List Store) :
    session.storeAll (store :: rest) =
      (session.perform store.operation).1.storeAll rest := rfl

theorem perform_load_of_fits
    {image : List UInt8}
    (fits : image.length ≤ Memory.size) :
    session.perform (.load image) =
      (session.withMachine
        { session.machine with
          memory := session.machine.memory.overlay image }, .done) :=
  session.answerLoad_of_fits fits

theorem perform_load_of_tooLarge
    {image : List UInt8}
    (tooLarge : Memory.size < image.length) :
    session.perform (.load image) =
      (session, .refused (.imageTooLarge image.length)) :=
  session.answerLoad_of_tooLarge tooLarge

/-- A load fails exactly when its image has more bytes than the memory has cells. -/
theorem isError_perform_load_iff (image : List UInt8) :
    (session.perform (.load image)).2.isError = true ↔
      Memory.size < image.length := by
  rcases Nat.lt_or_ge Memory.size image.length with tooLarge | fits
  · rw [session.perform_load_of_tooLarge tooLarge]
    exact iff_of_true rfl tooLarge
  · rw [session.perform_load_of_fits fits]
    exact iff_of_false Bool.false_ne_true (Nat.not_lt.mpr fits)

/-- A load leaves the cells behind its image alone. -/
theorem read_perform_load
    {image : List UInt8}
    (fits : image.length ≤ Memory.size)
    (address : UInt8) :
    (session.perform (.load image)).1.machine.memory.read address =
      image.getD address.toNat (session.machine.memory.read address) := by
  rw [session.perform_load_of_fits fits]
  exact Memory.read_overlay _ _ _

/-- A cell that a store covers holds what the store has given it, and every other cell
holds what it held before. -/
theorem read_perform_store (store : Store) (address : UInt8) :
    (session.perform store.operation).1.machine.memory.read address =
      (store.given? session.machine.stackPointer address).getD
        (session.machine.memory.read address) := by
  cases store with
  | load image =>
      rw [Store.operation, Store.given?]
      rcases Nat.lt_or_ge Memory.size image.length with tooLarge | fits
      · rw [session.perform_load_of_tooLarge tooLarge,
          if_neg (Nat.not_le.mpr tooLarge), Option.getD_none]
      · rw [session.read_perform_load fits, if_pos fits,
          List.getD_eq_getElem?_getD]
  | write target value =>
      rw [Store.given?, apply_ite (Option.getD · _)]
      exact Memory.read_write _ _ _ _
  | push value =>
      rw [Store.given?, apply_ite (Option.getD · _)]
      exact Memory.read_write _ _ _ _

/-- Loads and writes change nothing but the memory. -/
theorem exists_memory_perform_store
    (store : Store)
    (noPush : ∀ value, store ≠ .push value) :
    ∃ memory,
      (session.perform store.operation).1 =
        session.withMachine { session.machine with memory } := by
  cases store with
  | load image => exact session.exists_memory_answerLoad (.ok image)
  | write address value => exact ⟨_, rfl⟩
  | push value => exact absurd rfl (noPush value)

theorem stackPointer_perform_store (store : Store) :
    (session.perform store.operation).1.machine.stackPointer =
      store.movePointer session.machine.stackPointer := by
  cases store with
  | load image =>
      obtain ⟨memory, next_eq⟩ :=
        session.exists_memory_perform_store (.load image) nofun
      rw [next_eq]
      rfl
  | write address value => rfl
  | push value => exact Machine.stackPointer_push _ _

theorem agreeButStack_perform_store (store : Store) :
    (session.perform store.operation).1.machine.AgreeButStack session.machine := by
  cases store with
  | load image =>
      obtain ⟨memory, next_eq⟩ :=
        session.exists_memory_perform_store (.load image) nofun
      rw [next_eq]
      exact ⟨rfl, rfl, rfl, fun _ _ => rfl⟩
  | write address value => exact ⟨rfl, rfl, rfl, fun _ _ => rfl⟩
  | push value => exact .push session.machine value

/-- The last store that covers a cell decides what it holds. -/
theorem read_storeAll (stores : List Store) (address : UInt8) :
    (session.storeAll stores).machine.memory.read address =
      (Store.given address session.machine.stackPointer stores).getLast?.getD
        (session.machine.memory.read address) := by
  induction stores generalizing session with
  | nil => rfl
  | cons store rest inductionHypothesis =>
      -- A push in front lowers the stack pointer that the rest starts with, which is why
      -- the induction is over all sessions.
      rw [storeAll_cons, inductionHypothesis, stackPointer_perform_store,
        read_perform_store, Store.given, List.getLast?_append, Option.getD_or]
      cases store.given? session.machine.stackPointer address with
      | none => rfl
      | some value => rfl

theorem stackPointer_storeAll (stores : List Store) :
    (session.storeAll stores).machine.stackPointer =
      stores.foldl Store.movePointer session.machine.stackPointer := by
  induction stores generalizing session with
  | nil => rfl
  | cons store rest inductionHypothesis =>
      rw [storeAll_cons, inductionHypothesis, stackPointer_perform_store,
        List.foldl_cons]

theorem agreeButStack_storeAll (stores : List Store) :
    (session.storeAll stores).machine.AgreeButStack session.machine := by
  induction stores generalizing session with
  | nil => exact .refl session.machine
  | cons store rest inductionHypothesis =>
      exact (inductionHypothesis _).trans (session.agreeButStack_perform_store store)

/-- After any stores on a new machine every cell holds the value of the last store that
covers it, and a load fails only on an image of more than 256 bytes. -/
theorem last_store_wins
    (configuration : Configuration)
    (sink : Sink)
    (stores : List Store) :
    let fresh := start configuration sink
    let last := fresh.storeAll stores
    (∀ address,
        last.machine.memory.read address =
          (Store.given address 0xF4 stores).getLast?.getD 0) ∧
      last.machine.stackPointer = stores.foldl Store.movePointer 0xF4 ∧
      last.machine.AgreeButStack fresh.machine ∧
      (∀ image,
        ((last.perform (.load image)).2.isError = true ↔ 256 < image.length) ∧
          (256 < image.length →
            last.perform (.load image) =
              (last, .refused (.imageTooLarge image.length)))) ∧
      (∀ store : Store, (∀ value, store ≠ .push value) →
        ∃ memory,
          (last.perform store.operation).1 =
            last.withMachine { last.machine with memory }) ∧
      ∀ earlier later : List UInt8,
        earlier.length ≤ 256 → later.length ≤ 256 →
          ∀ address,
            (last.storeAll [.load earlier, .load later]).machine.memory.read
                address =
              (later ++ earlier.drop later.length).getD address.toNat
                (last.machine.memory.read address) := by
  intro fresh last
  refine ⟨?_, ?_, ?_, ?_, ?_, ?_⟩
  · intro address
    rw [fresh.read_storeAll stores address]
    exact congrArg _ (Memory.read_zeroed address)
  · exact fresh.stackPointer_storeAll stores
  · exact fresh.agreeButStack_storeAll stores
  · intro image
    exact ⟨last.isError_perform_load_iff image, last.perform_load_of_tooLarge⟩
  · intro store noPush
    exact last.exists_memory_perform_store store noPush
  · intro earlier later earlier_fits later_fits address
    rw [storeAll_cons, storeAll_cons, storeAll_nil, Store.operation, Store.operation,
      perform_load_of_fits _ later_fits, perform_load_of_fits _ earlier_fits,
      ← Memory.read_overlay, ← Memory.overlay_overlay]
    rfl

/-- An image with one byte more than the memory has cells. -/
def overlongImage : List UInt8 := List.replicate 257 0x77

/-- Images, one of them too large, with a push and two writes between them. -/
def overlappingStores : List Store :=
  [.load [0x11, 0x22, 0x33], .push 0x44, .write 0xF3 0x55, .write 0x01 0x66,
    .load overlongImage, .load [0x88]]

theorem last_store_wins_overlapping :
    let last := (start .standard .unbounded).storeAll overlappingStores
    last.machine.memory.read 0x00 = 0x88 ∧
      last.machine.memory.read 0x01 = 0x66 ∧
      last.machine.memory.read 0x02 = 0x33 ∧
      last.machine.memory.read 0x03 = 0x00 ∧
      last.machine.memory.read 0xF3 = 0x55 ∧
      last.machine.stackPointer = 0xF3 ∧
      last.machine.flags = .clear ∧
      last.perform (.load overlongImage) =
        (last, .refused (.imageTooLarge overlongImage.length)) ∧
      (last.storeAll [.load [0x01, 0x02], .load [0x03]]).machine.memory.read 0x01 =
        0x02 := by
  intro last
  obtain ⟨cells, pointer_eq, agrees, loads, _, tails⟩ :=
    last_store_wins .standard .unbounded overlappingStores
  refine ⟨?_, ?_, ?_, ?_, ?_, ?_, agrees.flags_eq, ?_, ?_⟩
  · exact (cells 0x00).trans (by decide +kernel)
  · exact (cells 0x01).trans (by decide +kernel)
  · exact (cells 0x02).trans (by decide +kernel)
  · exact (cells 0x03).trans (by decide +kernel)
  · exact (cells 0xF3).trans (by decide +kernel)
  · exact pointer_eq.trans (by decide)
  · exact (loads overlongImage).2 (by decide +kernel)
  · exact tails [0x01, 0x02] [0x03] (by decide) (by decide) 0x01

end Session
end LS8
