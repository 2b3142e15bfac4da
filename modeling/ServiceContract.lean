import ServiceContract.Batch
import ServiceContract.Main
import ServiceContract.Proofs.Contract.Rule
import ServiceContract.Proofs.Contract.Conformance
import ServiceContract.Proofs.Contract.Fault
import ServiceContract.Proofs.Contract.Place
import ServiceContract.Proofs.Contract.Describe
import ServiceContract.Proofs.Run.Validate
import ServiceContract.Proofs.Contract.Scope
import ServiceContract.Proofs.Summary
import ServiceContract.Proofs.Batch
import ServiceContract.Proofs.Contract.Skeleton
import ServiceContract.Proofs.Contract.Overlooked
import ServiceContract.Proofs.Check
import ServiceContract.Proofs.Run.Options
import ServiceContract.Proofs.Run.Batch
import ServiceContract.Proofs.CommandLine
import ServiceContract.Proofs.Run.Coverage
import ServiceContract.Proofs.Form
import ServiceContract.Proofs.Json.Tokens
import ServiceContract.Proofs.Json.RoundTrip
import ServiceContract.Proofs.Yaml.Tree
import ServiceContract.Proofs.Yaml.Gap
import ServiceContract.Proofs.Yaml.Plain
import ServiceContract.Proofs.Yaml.Quoted
import ServiceContract.Proofs.Yaml.Literal
import ServiceContract.Proofs.Yaml.Style
import ServiceContract.Proofs.Yaml.Lexer
import ServiceContract.Proofs.Yaml.Tokens
import ServiceContract.Proofs.Yaml.Allowed
import ServiceContract.Proofs.Yaml.Parser
import ServiceContract.Proofs.Yaml.RoundTrip
import ServiceContract.Proofs.Report
import ServiceContract.Proofs.Contract.Stages
import ServiceContract.Proofs.Contract.Edit
import ServiceContract.Proofs.Contract.Repair
import ServiceContract.Proofs.CommandLine.Mentions
import ServiceContract.Proofs.Overlay
import ServiceContract.Proofs.Toml.RoundTrip
import ServiceContract.Proofs.FileTree
import ServiceContract.Proofs.Settings
import ServiceContract.Proofs.Run.Output
import ServiceContract.Proofs.Report.Human
import ServiceContract.Proofs.Run.Init
import ServiceContract.Proofs.Run.Restore
import ServiceContract.Proofs.Text.Extent
import ServiceContract.Proofs.Logging
import ServiceContract.Proofs.Table
import ServiceContract.Proofs.Run.Source
import ServiceContract.Proofs.Yaml.Ending
import ServiceContract.Proofs.Yaml.Clipped
import ServiceContract.Proofs.Settings.Shown
import ServiceContract.Proofs.Run.Show
