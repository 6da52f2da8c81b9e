import CommBindings.CommandLine.Basic
import CommBindings.Main
import CommBindings.Proofs.CommandLine.Checking
import CommBindings.Proofs.Contract.ContractGrammar
import CommBindings.Proofs.Contract.NamedFaults
import CommBindings.Proofs.Contract.Places
import CommBindings.Proofs.Contract.Visits
import CommBindings.Proofs.Generation.Atomicity
import CommBindings.Proofs.Generation.Grouping
import CommBindings.Proofs.Generation.Order
import CommBindings.Proofs.Generation.Regeneration
import CommBindings.Proofs.Generation.UpToDate
import CommBindings.Proofs.NameCases
import CommBindings.Proofs.Target.Agreement
import CommBindings.Proofs.Target.ClientSignature
import CommBindings.Proofs.Target.Closure
import CommBindings.Proofs.Target.Collisions
import CommBindings.Proofs.Target.Comments
import CommBindings.Proofs.Target.Distinct
import CommBindings.Proofs.Target.Docstrings
import CommBindings.Proofs.Target.Endpoints
import CommBindings.Proofs.Target.EnumMembers
import CommBindings.Proofs.Target.Enumerations
import CommBindings.Proofs.Target.FirstDeclarations
import CommBindings.Proofs.Target.Identifiers
import CommBindings.Proofs.Target.ImportTime
import CommBindings.Proofs.Target.InlineTypes
import CommBindings.Proofs.Target.Messages
import CommBindings.Proofs.Text.Literals
import CommBindings.Proofs.Text.Wrapping
