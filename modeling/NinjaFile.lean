import NinjaFile.Main
import NinjaFile.Proofs.Arena.Stability
import NinjaFile.Proofs.Lock.Usage
import NinjaFile.Proofs.Manifest.Dump
import NinjaFile.Proofs.Manifest.Loading
import NinjaFile.Proofs.Manifest.Rebuilding
import NinjaFile.Script.Schedule
import NinjaFile.Proofs.Sharing.Accounts
import NinjaFile.Proofs.Sharing.Runs
import NinjaFile.Proofs.Layout.Header
import NinjaFile.Proofs.Layout.Spacing
import NinjaFile.Proofs.Sharing.Contract
import NinjaFile.Proofs.CommandLine.Ending
import NinjaFile.Proofs.Failure.Attaching
import NinjaFile.Proofs.Failure.Inserting
import NinjaFile.Proofs.Liveness.Runs
import NinjaFile.Proofs.Twin.Owners
import NinjaFile.Proofs.Frame.Runs
import NinjaFile.Proofs.Lock.Wakeups
import NinjaFile.Proofs.Lock.Writers
import NinjaFile.Proofs.Nesting.Restored
import NinjaFile.Proofs.History.Runs
import NinjaFile.Proofs.Overlap.Consistency
import NinjaFile.Proofs.Text.Arguments
import NinjaFile.Proofs.Manifest.Depth
import NinjaFile.Proofs.Logging.Levels
