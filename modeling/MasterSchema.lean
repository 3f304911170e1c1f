import MasterSchema.Main
import MasterSchema.Proofs.Artifact.Classes
import MasterSchema.Proofs.Artifact.Faithful
import MasterSchema.Proofs.Artifact.Headers
import MasterSchema.Proofs.Artifact.Layout
import MasterSchema.Proofs.Artifact.Nesting
import MasterSchema.Proofs.CommandLine.Ending
import MasterSchema.Proofs.Config.OutputGuard
import MasterSchema.Proofs.DataType.CodeNames
import MasterSchema.Proofs.DataType.Making
import MasterSchema.Proofs.DataType.MemberNames
import MasterSchema.Proofs.Field.DomainTypes
import MasterSchema.Proofs.Field.Tokens
import MasterSchema.Proofs.Project.Discovery
import MasterSchema.Proofs.Project.Extent
import MasterSchema.Proofs.Project.IdFile
import MasterSchema.Proofs.Project.Placement
import MasterSchema.Proofs.Project.Received
import MasterSchema.Proofs.Project.Records
import MasterSchema.Proofs.Project.Replacement
import MasterSchema.Proofs.Project.Rerun
import MasterSchema.Proofs.Project.Slices
import MasterSchema.Proofs.Registry.Indexed
import MasterSchema.Proofs.Registry.Rearranged
import MasterSchema.Proofs.Registry.Walk
import MasterSchema.Proofs.Validation.Narration
import MasterSchema.Proofs.Validation.RecordKeys
