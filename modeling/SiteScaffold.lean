import SiteScaffold.CommandLine
import SiteScaffold.Shell.Run
import SiteScaffold.Zip.Reader
import SiteScaffold.Proofs.Pattern.Accepts
import SiteScaffold.Proofs.Pattern.Matches
import SiteScaffold.Proofs.Pattern.Pieces
import SiteScaffold.Proofs.Export.Reference
import SiteScaffold.Proofs.Disk.Locate
import SiteScaffold.Proofs.Disk.TextFile
import SiteScaffold.Proofs.Export.Relocation
import SiteScaffold.Proofs.Patch.Controller
import SiteScaffold.Proofs.Disk.Growth
import SiteScaffold.Proofs.Disk.Vacant
import SiteScaffold.Proofs.Patch.Route
import SiteScaffold.Proofs.Patch.Routes
import SiteScaffold.Proofs.Blueprint
import SiteScaffold.Proofs.Command.PageRun
import SiteScaffold.Proofs.Patch.SharedFile
import SiteScaffold.Proofs.Export.NameKind
import SiteScaffold.Proofs.Export.Finish
import SiteScaffold.Proofs.Export.Fate
import SiteScaffold.Proofs.Refusal
import SiteScaffold.Proofs.Command.Refusal
import SiteScaffold.Proofs.Command.PageUndone
import SiteScaffold.Proofs.Pattern.WholeLines
import SiteScaffold.Proofs.Patch.Directives
import SiteScaffold.Proofs.Carried
import SiteScaffold.Proofs.Project.AppFile
import SiteScaffold.Proofs.Command.Layouts
import SiteScaffold.Proofs.Command.LayoutRun
import SiteScaffold.Proofs.Disk.Shifted
import SiteScaffold.Proofs.Export.Address
import SiteScaffold.Proofs.Export.Hoist
import SiteScaffold.Proofs.Path.Spelled
import SiteScaffold.Proofs.Disk.Spelled
import SiteScaffold.Proofs.Export.Wipe
import SiteScaffold.Proofs.Pattern.Literal
import SiteScaffold.Proofs.Command.Within
import SiteScaffold.Proofs.Disk.Covers
import SiteScaffold.Proofs.Disk.Placed
import SiteScaffold.Proofs.Patch.Presence
import SiteScaffold.Proofs.Command.Stopped
import SiteScaffold.Proofs.Command.Rerun
import SiteScaffold.Proofs.Patch.Undone
import SiteScaffold.Proofs.Patch.ActionScan
import SiteScaffold.Proofs.Patch.RootRoute
import SiteScaffold.Proofs.Export.FirstWriter
import SiteScaffold.Proofs.Export.Links
import SiteScaffold.Proofs.Export.Flattened
import SiteScaffold.Proofs.Patch.Shell
import SiteScaffold.Proofs.Patch.Scope
import SiteScaffold.Proofs.Patch.Declared
import SiteScaffold.Proofs.Patch.ShellMarkup
import SiteScaffold.Proofs.Patch.ShellRemoved
import SiteScaffold.Proofs.Usage.Search
import SiteScaffold.Proofs.Usage.Stimulus
import SiteScaffold.Proofs.Usage.Pin
import SiteScaffold.Proofs.Path.Relative
import SiteScaffold.Proofs.Disk.Overwritten
import SiteScaffold.Proofs.Export.Archive
import SiteScaffold.Proofs.Export.ListenAddress
import SiteScaffold.Proofs.Patch.Faithful
import SiteScaffold.Proofs.Export.ListingOrder
import SiteScaffold.Proofs.Command.Generation
import SiteScaffold.Proofs.Version
import SiteScaffold.Proofs.Name.NormalForm
import SiteScaffold.Proofs.Name.CamelCase
