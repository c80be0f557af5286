import PipelineWaves.Proofs.Graph.Closure
import PipelineWaves.Proofs.Program.Simulation

/-!
# Positions in a program

The tables in the text of a program name steps by their positions in the plan. Each table
lists all that it should and nothing else: the waves count the positions through, the row of
a step holds the positions of its transitive dependents, which come later in the plan, and an
arm stands at the position of each step with a condition.
-/

set_option autoImplicit false

namespace PipelineWaves

namespace ProgramTables

end ProgramTables

namespace CompiledPipeline

variable {pipeline : Pipeline} {compiled : CompiledPipeline}

end CompiledPipeline

end PipelineWaves
