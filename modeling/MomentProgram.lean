/-
Moment relaxations as semidefinite programs.

A Gram matrix of monomials (`Gram`) and an objective make a relaxation, which is encoded as a semidefinite program over symmetric matrices
stored by their lower triangle (`SymMatrix`, `Program`), handed over to a solver in a session (`Instance`) and read back (`Solution`).
Everything starts from values as they are given (`Value`), so what cannot be read is refused with a cause (`Fault`).

The modules beside `Proofs` define the library; those below `Proofs` are its theory, by the part that they are about.
-/
import MomentProgram.Input
import MomentProgram.Program.Reported
import MomentProgram.Proofs.Array.Tensor
import MomentProgram.Proofs.Gram
import MomentProgram.Proofs.Number.Double
import MomentProgram.Proofs.Number.Exact
import MomentProgram.Proofs.Number.Order
import MomentProgram.Proofs.Outcome
import MomentProgram.Proofs.Packed
import MomentProgram.Proofs.Program.Decoded
import MomentProgram.Proofs.Program.Duality
import MomentProgram.Proofs.Program.Encode
import MomentProgram.Proofs.Program.Invariant
import MomentProgram.Proofs.Program.Moments
import MomentProgram.Proofs.Program.Partition
import MomentProgram.Proofs.Program.Recovery
import MomentProgram.Proofs.Program.Moved
import MomentProgram.Proofs.Program.Renamed
import MomentProgram.Proofs.Program.Reordered
import MomentProgram.Proofs.Solver.Answer
import MomentProgram.Proofs.Solver.Population
import MomentProgram.Proofs.Solver.Progress
import MomentProgram.Proofs.Solver.Session
import MomentProgram.Proofs.Symmetric.Canonical
import MomentProgram.Proofs.Symmetric.Cells
import MomentProgram.Proofs.Symmetric.Inner
import MomentProgram.Proofs.Symmetric.Keys
import MomentProgram.Proofs.Symmetric.Tagged
import MomentProgram.Proofs.Value.Array
import MomentProgram.Proofs.Value.Complex
import MomentProgram.Proofs.Value.Gram
import MomentProgram.Shown
import MomentProgram.Solver.Session
import MomentProgram.Text.Exact
import MomentProgram.Value.Coefficient
import MomentProgram.Value.Sized
import MomentProgram.Proofs.Array.Layout
import MomentProgram.Proofs.Program.Refusal
import MomentProgram.Proofs.Gram.Evaluation
import MomentProgram.Proofs.Gram.Tags
import MomentProgram.Proofs.Value.Extracted
import MomentProgram.Proofs.Solver.Numbers
import MomentProgram.Proofs.Number.Rounding
import MomentProgram.Proofs.Value.Positive
import MomentProgram.Proofs.Solver.Tolerance
