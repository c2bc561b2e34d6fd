import CheckGitStatus.Library.Transition
import CheckGitStatus.Library.ListUpdate
import CheckGitStatus.Library.Interleaving
import CheckGitStatus.Text.GoStrings
import CheckGitStatus.Text.Utf8
import CheckGitStatus.Cpp.Porcelain
import CheckGitStatus.Cpp.Process
import CheckGitStatus.Cpp.StandardError
import CheckGitStatus.Go.GitClient
import CheckGitStatus.Go.Porcelain
import CheckGitStatus.Semantics.UnpushedCount
import CheckGitStatus.Semantics.Parity
import CheckGitStatus.Semantics.ConfiguredRemotes
import CheckGitStatus.Cpp.CommandLine
import CheckGitStatus.Cpp.WorkerPool
import CheckGitStatus.Go.WorkerPool
import CheckGitStatus.Cpp.PipeDescriptors
import CheckGitStatus.Library.StackSearch
import CheckGitStatus.FileSystem
import CheckGitStatus.Cpp.Discovery
import CheckGitStatus.Cpp.Options
import CheckGitStatus.Cpp.Report
import CheckGitStatus.Cpp.RunCli
import CheckGitStatus.Go.Options
import CheckGitStatus.Go.Duration
import CheckGitStatus.Go.Report
import CheckGitStatus.Go.RunCli
import CheckGitStatus.Semantics.ExitCodes
import CheckGitStatus.Paths
import CheckGitStatus.Go.Discovery
import CheckGitStatus.Cpp.RootSpelling
import CheckGitStatus.Cpp.AddedLinks
import CheckGitStatus.Cpp.Attention
import CheckGitStatus.Scan
import CheckGitStatus.Cpp.DurationText
import CheckGitStatus.Cpp.Timeouts
import CheckGitStatus.Cpp.StatusListing
import CheckGitStatus.Cpp.RemoteListing
import CheckGitStatus.Cpp.OptionGrammar
import CheckGitStatus.Cpp.Wrapping
import CheckGitStatus.Cpp.Table
import CheckGitStatus.Semantics.CheckWarnings
import CheckGitStatus.Cpp.StatusInvariant
import CheckGitStatus.Cpp.GitLookup
import CheckGitStatus.Cpp.OutputCapture
import CheckGitStatus.Cpp.WaitLoop
import CheckGitStatus.Semantics.ReportParity
import CheckGitStatus.Semantics.OptionParity
import CheckGitStatus.Go.ListingFailures
import CheckGitStatus.Cpp.ScanRoot
import CheckGitStatus.Semantics.DiscoveryParity
import CheckGitStatus.Cpp.WholeRun
import CheckGitStatus.Go.WholeRun
import CheckGitStatus.Text.PlainText
import CheckGitStatus.Semantics.CommandParity
import CheckGitStatus.Semantics.RunParity
import CheckGitStatus.Cpp.Success
import CheckGitStatus.Go.Success
import CheckGitStatus.Cpp.InterruptedPool
import CheckGitStatus.Semantics.GitLookupParity
import CheckGitStatus.Cpp.CapturedRun
import CheckGitStatus.Cpp.WindowsGitLookup
import CheckGitStatus.Cpp.WindowsProcess
import CheckGitStatus.Semantics.BuildParity
