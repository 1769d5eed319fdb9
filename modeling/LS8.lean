import LS8.Main
import LS8.Session.Operation
import LS8.Proofs.InstructionSet.Refinement
import LS8.Proofs.Stack.Discipline
import LS8.Proofs.UnknownOpcodes
import LS8.Proofs.FailingSteps
import LS8.Proofs.BoundedOutput
import LS8.Proofs.Footprint.Runs
import LS8.Proofs.StraightLine.Execution
import LS8.Proofs.LastComparison
import LS8.Proofs.Limits
import LS8.Proofs.Tracing
import LS8.Proofs.HaltedSessions
import LS8.Proofs.Transcript.Runs
import LS8.Proofs.Program.Rendering
import LS8.Proofs.Program.Composition
import LS8.Proofs.CommandLine.Report
import LS8.Proofs.ResetSessions
import LS8.Proofs.Program.LineGrammar
import LS8.Proofs.RegisterArithmetic
import LS8.Proofs.Stack.Wraparound
import LS8.Proofs.LastStore
import LS8.Proofs.Stack.RegisterMove
import LS8.Proofs.MemorySummary
import LS8.Proofs.TraceRecord
import LS8.Proofs.CommandLine.Arrangements
import LS8.Proofs.CommandLine.Host
