import HomeControl.Bus
import HomeControl.Config.Flat
import HomeControl.Http
import HomeControl.Loops
import HomeControl.Value.Reading
import HomeControl.Proofs.House.Effects
import HomeControl.Proofs.Run
import HomeControl.Proofs.Schedule.Sound
import HomeControl.Proofs.Schedule.Fade
import HomeControl.Proofs.Schedule.FaderTick
import HomeControl.Proofs.Schedule.Fading
import HomeControl.Proofs.Schedule.Journal
import HomeControl.Proofs.Schedule.Firing
import HomeControl.Proofs.Command.Emitted
import HomeControl.Proofs.House.Coherence
import HomeControl.Proofs.Schedule.Batch
import HomeControl.Proofs.Command.Restore
import HomeControl.Proofs.House.Events
import HomeControl.Proofs.Feedback
import HomeControl.Proofs.Schedule.Generation
import HomeControl.Proofs.Schedule.TwoSteps
import HomeControl.Proofs.Schedule.Overlap
import HomeControl.Proofs.Command.Expansion
import HomeControl.Proofs.Command.Errors
import HomeControl.Proofs.Command.Cycle
import HomeControl.Proofs.Command.Macro
import HomeControl.Proofs.Command.Members
import HomeControl.Proofs.Command.Requested
import HomeControl.Proofs.Schedule.Outcome
import HomeControl.Proofs.Topology.Reach
import HomeControl.Proofs.Schedule.Overridden
import HomeControl.Proofs.Command.Switching
import HomeControl.Proofs.Config.Entries
import HomeControl.Proofs.Schedule.Crossing
import HomeControl.Proofs.Schedule.Window
import HomeControl.Proofs.Schedule.Looks
import HomeControl.Proofs.Schedule.Reassertion
import HomeControl.Proofs.House.Answers
import HomeControl.Proofs.Schedule.AnyOrder
import HomeControl.Proofs.House.SameBut
import HomeControl.Proofs.House.Failures
import HomeControl.Proofs.Config.Checked
import HomeControl.Proofs.Topology.Aliases
import HomeControl.Proofs.Topology.Built
import HomeControl.Proofs.Command.Met
import HomeControl.Proofs.Command.Executable
import HomeControl.Proofs.Value.Same
import HomeControl.Proofs.House.History
import HomeControl.Proofs.Command.Strict
import HomeControl.Proofs.Delivery
import HomeControl.Proofs.Conflict
import HomeControl.Proofs.Schedule.Latest
import HomeControl.Proofs.Time.Next
import HomeControl.Proofs.Command.Grammar
import HomeControl.Proofs.Schedule.AnyClock
import HomeControl.Proofs.Command.Transition
import HomeControl.Proofs.Time.Written
import HomeControl.Proofs.Schedule.Retry
import HomeControl.Proofs.Config.Merged
import HomeControl.Proofs.Config.Circles
import HomeControl.Proofs.Totals
import HomeControl.Proofs.House.Getters
import HomeControl.Proofs.Keys
import HomeControl.Proofs.Topology.Names
import HomeControl.Proofs.House.Listed
