import CamStream.Guarded
import CamStream.Main
import CamStream.Proofs.Clock.Correction
import CamStream.Proofs.Clock.Drift
import CamStream.Proofs.Clock.Estimate
import CamStream.Proofs.Framing.Gating
import CamStream.Proofs.Framing.KeyframeSets
import CamStream.Proofs.Framing.SelfDelimiting
import CamStream.Proofs.Pipeline.Times
import CamStream.Proofs.Store.Restart
import CamStream.ReleaseStamp
import CamStream.Replay.Player
import CamStream.Proofs.Clock.Jitter
import CamStream.Proofs.Scan.Positions
import CamStream.Proofs.Scan.RoundTrip
import CamStream.Proofs.Framing.EmptyUnit
import CamStream.Proofs.Recording.Frames
import CamStream.Proofs.Recording.Cleaning
import CamStream.Proofs.Files.Apart
import CamStream.Proofs.Files.Output
import CamStream.Proofs.Queue.Contention
import CamStream.Proofs.Queue.Contents
import CamStream.Proofs.Schedule
import CamStream.Proofs.Store.Apart
import CamStream.Proofs.Replay.Outputs
import CamStream.Proofs.Replay.Playback
import CamStream.Proofs.Replay.Steps
import CamStream.Proofs.Replay.Progress
import CamStream.Proofs.Replay.Preparation
import CamStream.Proofs.Replay.Command
import CamStream.Proofs.Replay.EndToEnd
import CamStream.Proofs.Queue.Traffic
import CamStream.Proofs.Queue.EndOfStream
import CamStream.Proofs.Queue.Stopping
import CamStream.Proofs.Session.Accounting
import CamStream.Proofs.Pipeline.Opening
import CamStream.Proofs.Session.Isolation
import CamStream.Proofs.Store.BestEffort
import CamStream.Proofs.Store.Devices
import CamStream.Proofs.Store.Refinement
import CamStream.Proofs.Recording.Partition
import CamStream.Proofs.Scan.Seams
import CamStream.Proofs.Framing.Seams
import CamStream.Proofs.Store.Background
import CamStream.Proofs.Store.Seeding
import CamStream.Proofs.Player.Steps
import CamStream.Proofs.Player.Runs
import CamStream.Proofs.Player.Lifecycle
import CamStream.Proofs.Player.Alone
import CamStream.Proofs.Clock.Startup
import CamStream.Proofs.Format.Selection
import CamStream.Proofs.Session.Startup
import CamStream.Proofs.Clock.Noise
import CamStream.Proofs.Clock.Range
import CamStream.Proofs.Format.Filter
import CamStream.Proofs.Format.Unconstrained
import CamStream.Proofs.Store.Names
import CamStream.Proofs.Files.Incidents
import CamStream.Proofs.Files.Growth
import CamStream.Proofs.Store.Repetition
import CamStream.Proofs.Scan.Calls
import CamStream.Proofs.Settings.Resolution
import CamStream.Proofs.CommandLine.Overrides
