import TemplateLinker.Arena
import TemplateLinker.Compiler.LoggedPass
import TemplateLinker.Compiler.Session
import TemplateLinker.Config.File
import TemplateLinker.Dependencies.Store
import TemplateLinker.Linking.Linker
import TemplateLinker.Proofs.Compiler.History
import TemplateLinker.Proofs.Compiler.Output
import TemplateLinker.Proofs.Config.RoundTrip
import TemplateLinker.Proofs.Dependencies.Interleaving
import TemplateLinker.Proofs.Emit.ReadBack
import TemplateLinker.Proofs.Linking.Replay
import TemplateLinker.Proofs.Linking.Scopes
import TemplateLinker.Proofs.Linking.Strict
import TemplateLinker.Proofs.Scope.Guards
import TemplateLinker.Proofs.Source.Reporting
import TemplateLinker.Proofs.Template.Excerpt
import TemplateLinker.Proofs.Template.Order
import TemplateLinker.Scope.Guard
import TemplateLinker.Source.Script
import TemplateLinker.Template.Event
import TemplateLinker.Proofs.Text.Offsets
import TemplateLinker.Proofs.Json.DistinctKeys
import TemplateLinker.Proofs.Resolver.ComponentTag
import TemplateLinker.Proofs.Environment.Merge
import TemplateLinker.Proofs.Compiler.Grouping
import TemplateLinker.Proofs.Template.Path
import TemplateLinker.Proofs.Resolver.Registrations
import TemplateLinker.Proofs.Source.Coverage
import TemplateLinker.Proofs.Config.Forms
