import Stencil.Template.Codec
import Stencil.Store.Disk
import Stencil.Store.Files
import Stencil.View.Basic
import Stencil.Command
import Stencil.Main
import Stencil.Proofs.Recital.Basic
import Stencil.Proofs.Recital.Script
import Stencil.Proofs.Recital.Ops
import Stencil.Proofs.Composition
import Stencil.Proofs.Recital.Walk
import Stencil.Proofs.Backend
import Stencil.Proofs.Recital.View
import Stencil.Proofs.View.Moves
import Stencil.Proofs.View.Requests
import Stencil.Proofs.Program.Batch
import Stencil.Proofs.Program.Containment
import Stencil.Proofs.Program.Duplicates
import Stencil.Proofs.Program.Grammar.Program
import Stencil.Proofs.Walk.Internal
import Stencil.Proofs.Splice.Walk
import Stencil.Proofs.Walk.Recursion
import Stencil.Proofs.Sharing.View
import Stencil.Proofs.Template.Codec
import Stencil.Proofs.Template.Collection
import Stencil.Proofs.Template.Concatenation
import Stencil.Proofs.Template.Splitting
import Stencil.Proofs.Template.Tree
import Stencil.Proofs.Template.Values
import Stencil.Proofs.View.Attribute
import Stencil.Proofs.View.Isolation
import Stencil.Proofs.Choice.Strays
import Stencil.Proofs.Command
import Stencil.Proofs.Condition
import Stencil.Proofs.Evaluation.Access
import Stencil.Proofs.Evaluation.Equality
import Stencil.Proofs.Merging.Walk
import Stencil.Proofs.Template.Comments
import Stencil.Proofs.Walk.Coalesced
import Stencil.Proofs.Rendering
import Stencil.Proofs.Walk.Company
import Stencil.Proofs.Registration
import Stencil.Proofs.Evaluation.Safety
import Stencil.Proofs.Report
import Stencil.Proofs.Template.ErrorLines
import Stencil.Ops.Calls
import Stencil.Proofs.Refusal
import Stencil.Proofs.Composition.Extensions
import Stencil.Proofs.Program.Partition
import Stencil.Proofs.Resolution
