import RenderFarm.Main
import RenderFarm.Proofs.Cli.Quotation
import RenderFarm.Proofs.Cli.Repetition
import RenderFarm.Proofs.Frames.Refinement
import RenderFarm.Proofs.Frames.Words
import RenderFarm.Proofs.Job.Coverage
import RenderFarm.Proofs.Job.Independence
import RenderFarm.Proofs.Job.Resolution
import RenderFarm.Proofs.Path.Decomposition
import RenderFarm.Proofs.Task.Arguments
import RenderFarm.Proofs.Task.Naming
import RenderFarm.Proofs.Template.Loops
