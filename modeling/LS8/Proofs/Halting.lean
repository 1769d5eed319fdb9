import LS8.Proofs.Step

/-!
# What halts and what prints

Four things can come of an instruction.  A halt instruction and a division by
zero halt the machine where it is, and only the division writes a message; a
print writes a value and goes on; and everything else goes on in silence.
-/

namespace LS8
namespace Machine

/-- The machine is about to divide by a register that is zero. -/
def dividesByZero (machine : Machine) : Bool :=
  match machine.nextInstruction? with
  | some (.alu op _ second) =>
      (op == .div || op == .mod) && machine.get second == 0
  | _ => false

/-- The value that a machine is about to print. -/
def printed? (machine : Machine) : Option UInt8 :=
  match machine.nextInstruction? with
  | some (.prn source) => some (machine.get source)
  | _ => none

/-- What may come of an instruction. -/
inductive Leads (machine : Machine) : Effect → Prop where
  | halts :
      machine.nextInstruction? = some .hlt →
      Leads machine ⟨{ machine with status := .halted }, none⟩
  | divides {op : AluOp} {first second : Register} :
      machine.nextInstruction? = some (.alu op first second) →
      op = .div ∨ op = .mod →
      machine.get second = 0 →
      Leads machine ⟨{ machine with status := .halted }, some .zeroDivision⟩
  | prints {source : Register} {next : Machine} :
      machine.nextInstruction? = some (.prn source) →
      next.status = .running →
      Leads machine ⟨next, some (.number (machine.get source))⟩
  | goesOn {next : Machine} :
      machine.printed? = none →
      machine.dividesByZero = false →
      next.status = .running →
      Leads machine ⟨next, none⟩

/-- A calculation goes on, or else divides by zero. -/
theorem leads_calculate
    {machine : Machine}
    {op : AluOp}
    {first second : Register}
    (executed : machine.nextInstruction? = some (.alu op first second)) :
    machine.Leads
      (machine.calculate (.alu op first second) op first second) := by
  have running := (nextInstruction?_eq_some_iff.mp executed).1
  have unprinted : machine.printed? = none := by
    rw [printed?, executed]
  have proceeds :
      op.compute (machine.registers.get first) (machine.registers.get second) ≠
        .zeroDivisor →
      machine.dividesByZero = false := by
    intro computed
    rw [ne_eq, AluOp.compute_eq_zeroDivisor_iff] at computed
    rw [dividesByZero, executed, Bool.eq_false_iff]
    simpa [get] using computed
  unfold calculate AluOp.apply
  cases computed : op.compute (machine.registers.get first)
      (machine.registers.get second) with
  | value byte => exact .goesOn unprinted (proceeds (by simp [computed])) running
  | comparison flags =>
      exact .goesOn unprinted (proceeds (by simp [computed])) running
  | zeroDivisor =>
      obtain ⟨division, zero⟩ := AluOp.compute_eq_zeroDivisor_iff.mp computed
      exact .divides executed division zero

theorem leads_execute
    {machine : Machine}
    {instruction : Instruction}
    (executed : machine.nextInstruction? = some instruction) :
    machine.Leads (machine.execute instruction) := by
  have running := (nextInstruction?_eq_some_iff.mp executed).1
  have goesOn : ∀ {next : Machine},
      machine.printed? = none → machine.dividesByZero = false →
        next.status = machine.status → machine.Leads ⟨next, none⟩ :=
    fun unprinted proceeds status_eq =>
      .goesOn unprinted proceeds (status_eq.trans running)
  have jumpIf_status : ∀ condition target,
      (machine.jumpIf condition instruction target).status = machine.status := by
    intro condition target
    cases condition <;> rfl
  cases instruction with
  | hlt => exact .halts executed
  | prn source => exact .prints executed running
  | alu op first second => exact leads_calculate executed
  | jeq target =>
      refine goesOn ?_ ?_ (jumpIf_status _ target)
      · rw [printed?, executed]
      · rw [dividesByZero, executed]
  | jne target =>
      refine goesOn ?_ ?_ (jumpIf_status _ target)
      · rw [printed?, executed]
      · rw [dividesByZero, executed]
  | _ =>
      refine goesOn ?_ ?_ rfl
      · rw [printed?, executed]
      · rw [dividesByZero, executed]

/-- Every step of a machine leads to one of these. -/
theorem leads_of_next
    {machine : Machine}
    {policy : UnknownOpcodePolicy}
    {effect : Effect}
    (executed : machine.next policy = .ok effect) :
    machine.Leads effect := by
  obtain ⟨running, ⟨instruction, decoded, rfl⟩ | ⟨unknown, _, rfl⟩⟩ :=
    next_eq_ok_iff.mp executed
  · exact leads_execute (nextInstruction?_eq_some_iff.mpr ⟨running, decoded⟩)
  · have idle : machine.nextInstruction? = none := by
      rw [nextInstruction?, running]
      exact unknown
    refine .goesOn ?_ ?_ running
    · rw [printed?, idle]
    · rw [dividesByZero, idle]

theorem dividesByZero_of_division
    {machine : Machine}
    {op : AluOp}
    {first second : Register}
    (executed : machine.nextInstruction? = some (.alu op first second))
    (division : op = .div ∨ op = .mod)
    (zero : machine.get second = 0) :
    machine.dividesByZero = true := by
  rw [dividesByZero, executed]
  rcases division with rfl | rfl <;> simp [zero]

end Machine
end LS8
