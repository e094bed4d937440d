import SeamlessTunnel.Bench.Folder
import SeamlessTunnel.Bench.Script
import SeamlessTunnel.Main
import SeamlessTunnel.Proofs.Multiplexer.Books
import SeamlessTunnel.Proofs.Multiplexer.Progress
import SeamlessTunnel.Proofs.Multiplexer.ReadErrors
import SeamlessTunnel.Proofs.Multiplexer.Rerouting
import SeamlessTunnel.Proofs.Routes.Canonical
import SeamlessTunnel.Proofs.Multiplexer.Answering
import SeamlessTunnel.Proofs.Multiplexer.Agenda
import SeamlessTunnel.Proofs.Multiplexer.Newest
import SeamlessTunnel.Proofs.Multiplexer.Clearing
import SeamlessTunnel.Proofs.Manager.Building
import SeamlessTunnel.Proofs.Manager.Order
import SeamlessTunnel.Proofs.Manager.Runs
import SeamlessTunnel.Proofs.Manager.Attachment
import SeamlessTunnel.Proofs.Manager.Failures
import SeamlessTunnel.Proofs.Multiplexer.Targets
import SeamlessTunnel.Proofs.Multiplexer.Leftover
import SeamlessTunnel.Proofs.Multiplexer.Terminal
import SeamlessTunnel.Proofs.Manager.Leaks
import SeamlessTunnel.Proofs.Manager.Exclusion
import SeamlessTunnel.Proofs.Manager.Protection
import SeamlessTunnel.Proofs.Manager.Status
import SeamlessTunnel.Proofs.Manager.Starting
import SeamlessTunnel.Proofs.Range.Tiling
import SeamlessTunnel.Proofs.Range.Word
import SeamlessTunnel.Proofs.Range.Faults
import SeamlessTunnel.Proofs.Manager.Requests
import SeamlessTunnel.Proofs.Range.Merging
import SeamlessTunnel.Proofs.Settings.RoundTrip
import SeamlessTunnel.Proofs.Multiplexer.Teardowns
import SeamlessTunnel.Proofs.Multiplexer.Questions
import SeamlessTunnel.Proofs.Prefix.Lengths
import SeamlessTunnel.Proofs.Prefix.RoundTrip
import SeamlessTunnel.Proofs.Interface.Lines
import SeamlessTunnel.Proofs.Interface.Formats
import SeamlessTunnel.Proofs.Interface.Counts
import SeamlessTunnel.Proofs.Dns.Names
import SeamlessTunnel.Proofs.CommandLine.Routes
import SeamlessTunnel.Proofs.Device.Reads
