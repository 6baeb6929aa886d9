import LintRelay.Main
import LintRelay.Proofs.ConfigFile
import LintRelay.Proofs.Dispatch
import LintRelay.Proofs.Governing
import LintRelay.Proofs.Reencoding
import LintRelay.Proofs.Routing
import LintRelay.Proofs.Lint
import LintRelay.Proofs.Preamble
import LintRelay.Proofs.Spelling
import LintRelay.Proofs.CommandLine
import LintRelay.Proofs.Validation
import LintRelay.Proofs.Search
import LintRelay.Proofs.Coverage
import LintRelay.Proofs.Reload
import LintRelay.Proofs.Command
import LintRelay.Proofs.TimeLimit
import LintRelay.Proofs.WorkingDir
import LintRelay.Proofs.Setup
import LintRelay.Proofs.Matching
import LintRelay.Proofs.Report
import LintRelay.Proofs.Variables
import LintRelay.Proofs.Position
import LintRelay.Proofs.NormalForm
