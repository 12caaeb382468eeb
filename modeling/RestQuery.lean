import RestQuery.Command.Run
import RestQuery.Descriptor
import RestQuery.Main
import RestQuery.Schema.File
import RestQuery.Statement
import RestQuery.Proofs.Statement.Plain
import RestQuery.Proofs.Filter.Written
import RestQuery.Proofs.Statement.Meaning
import RestQuery.Proofs.Projection.Join
import RestQuery.Proofs.Projection.Named
import RestQuery.Proofs.Schema.Accepted
import RestQuery.Proofs.Statement.Exposed
import RestQuery.Proofs.Statement.Scoped
import RestQuery.Proofs.Descriptor.Independent
import RestQuery.Proofs.Descriptor.Json
import RestQuery.Proofs.Page
import RestQuery.Proofs.Filter.Pruned
import RestQuery.Proofs.Filter.Slots
import RestQuery.Proofs.Filter.Context
import RestQuery.Proofs.Descriptor.Joined
import RestQuery.Proofs.Order
import RestQuery.Proofs.Params
import RestQuery.Proofs.Schema.Validated
import RestQuery.Proofs.Token.Segments
import RestQuery.Proofs.Literal.Classes
import RestQuery.Proofs.Statement.Grouped
