import StackMachine.Main
import StackMachine.Number.ReadBack
import StackMachine.Proofs.Failures
import StackMachine.Proofs.Stepping
import StackMachine.Proofs.Footprint
import StackMachine.Proofs.Bounds
import StackMachine.Proofs.Frames
import StackMachine.Proofs.CallReturn
import StackMachine.Proofs.Bursts
import StackMachine.Proofs.Histories
import StackMachine.Proofs.Refinement
import StackMachine.Proofs.Safety
import StackMachine.Proofs.FailedSteps
import StackMachine.Proofs.Tracing
import StackMachine.Proofs.Grammar
import StackMachine.Proofs.Drafting
import StackMachine.Proofs.Acceptance
import StackMachine.Proofs.Addresses
import StackMachine.Proofs.Interrupts
import StackMachine.Proofs.Lockstep
import StackMachine.Proofs.DeadSlots
import StackMachine.Proofs.StackSize
import StackMachine.Proofs.Variables
import StackMachine.Proofs.Arity
import StackMachine.Proofs.Lines
import StackMachine.Proofs.Layout
import StackMachine.Proofs.Joining
import StackMachine.Proofs.Spelling
import StackMachine.Proofs.Listing
import StackMachine.Proofs.Lexing
import StackMachine.Proofs.Offences
import StackMachine.Proofs.Returns
import StackMachine.Proofs.Transcripts
import StackMachine.Proofs.StackUse
import StackMachine.Proofs.Respacing
import StackMachine.Proofs.Unambiguity
import StackMachine.Proofs.Bitwise
