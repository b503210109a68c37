import RazorVash.Builder.Pages
import RazorVash.Log.Context
import RazorVash.Main
import RazorVash.Proofs.Brace.Balanced
import RazorVash.Proofs.Brace.Marking
import RazorVash.Proofs.Builder.BothCaches
import RazorVash.Proofs.Builder.Models
import RazorVash.Proofs.Builder.Pages
import RazorVash.Proofs.Builder.Rebuild
import RazorVash.Proofs.Builder.Sources
import RazorVash.Proofs.Builder.Stages
import RazorVash.Proofs.Builder.Types
import RazorVash.Proofs.CSharp.Identifier
import RazorVash.Proofs.CSharp.Spaced
import RazorVash.Proofs.Cache.Damage
import RazorVash.Proofs.Cache.Held
import RazorVash.Proofs.Cache.Updates
import RazorVash.Proofs.CommandLine.Run
import RazorVash.Proofs.Draft.Position
import RazorVash.Proofs.Entries
import RazorVash.Proofs.Helper.Loading
import RazorVash.Proofs.Helper.Packaged
import RazorVash.Proofs.Helper.Resolution
import RazorVash.Proofs.Json.Numeral
import RazorVash.Proofs.Json.Plain
import RazorVash.Proofs.Json.Quote
import RazorVash.Proofs.Json.RoundTrip
import RazorVash.Proofs.Json.Within
import RazorVash.Proofs.LogicBlock.Delimited
import RazorVash.Proofs.Loop.Append
import RazorVash.Proofs.Loop.AtOnce
import RazorVash.Proofs.Loop.Cut
import RazorVash.Proofs.Loop.Declaration
import RazorVash.Proofs.Loop.Diagnostics
import RazorVash.Proofs.Loop.Extent
import RazorVash.Proofs.Loop.InPlace
import RazorVash.Proofs.Naming
import RazorVash.Proofs.Naming.Modules
import RazorVash.Proofs.Storage.Path
import RazorVash.Proofs.Storage.Place
import RazorVash.Proofs.Template.Stability
import RazorVash.Proofs.Template.Thinned
import RazorVash.Proofs.Workspace.Files
import RazorVash.Proofs.Workspace.Job
import RazorVash.Proofs.Workspace.Logs
import RazorVash.Report
