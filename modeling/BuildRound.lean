import BuildRound.Board
import BuildRound.Bus.Reaction
import BuildRound.Cancellation
import BuildRound.Duration
import BuildRound.Engine.Scripted
import BuildRound.Logging
import BuildRound.Progress.Signal
import BuildRound.Settings.Formats
import BuildRound.Settings.Load
import BuildRound.Watchdog.Rehearsal
import BuildRound.Wire
import BuildRound.Round
import BuildRound.Proofs.Flow
import BuildRound.Proofs.Course
import BuildRound.Proofs.Parts
import BuildRound.Proofs.Hosting
import BuildRound.Proofs.Joining
import BuildRound.Proofs.Passage
import BuildRound.Proofs.Closing
import BuildRound.Proofs.Launch
import BuildRound.Proofs.Reading
import BuildRound.Proofs.Evaluations
import BuildRound.Proofs.BuiltSet
import BuildRound.Proofs.Protocol
import BuildRound.Proofs.Cancelled
import BuildRound.Proofs.Completion
import BuildRound.Proofs.Wakeup
import BuildRound.Proofs.Pace
import BuildRound.Proofs.Vigil
import BuildRound.Bus.Crowd
import BuildRound.Proofs.Identities
import BuildRound.Bus.Account
import BuildRound.Proofs.Alike
import BuildRound.Proofs.Broadcast
import BuildRound.Proofs.Policies
import BuildRound.Proofs.Stopping
import BuildRound.Proofs.Ticker
import BuildRound.Proofs.Counting
import BuildRound.Proofs.Lockstep
import BuildRound.Proofs.Interference
import BuildRound.Proofs.Session
import BuildRound.Proofs.Veil
import BuildRound.Proofs.Separation
import BuildRound.Proofs.Lifetime
import BuildRound.Bus.Gallery
import BuildRound.Proofs.Mirror
import BuildRound.Proofs.Crumbs
import BuildRound.Proofs.Searching
import BuildRound.Proofs.Loading
import BuildRound.Progress.Stay
import BuildRound.Proofs.Awaiting
import BuildRound.Proofs.Judging
import BuildRound.Proofs.Report
import BuildRound.Proofs.Ascent
import BuildRound.ArtifactSet.Shared
import BuildRound.Proofs.Conserving
import BuildRound.Proofs.Diligence
import BuildRound.Proofs.Overriding
import BuildRound.Proofs.Reordering
import BuildRound.Proofs.Forms
import BuildRound.Proofs.Kinship
