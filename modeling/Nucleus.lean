import Nucleus.Error
import Nucleus.Time
import Nucleus.Access
import Nucleus.Config
import Nucleus.Irq
import Nucleus.ThreadState
import Nucleus.DelayedQueue
import Nucleus.WaitQueue
import Nucleus.Chip
import Nucleus.Guard
import Nucleus.Object
import Nucleus.Path
import Nucleus.Namespace
import Nucleus.Kernel
import Nucleus.Notice
import Nucleus.Rotation
import Nucleus.Machine
import Nucleus.Reading
import Nucleus.Interrupt
import Nucleus.Scheduler
import Nucleus.Event
import Nucleus.Naming
import Nucleus.Boot
import Nucleus.Text.Unprintable
import Nucleus.Text.Quoted
import Nucleus.Scenario.Step
import Nucleus.Scenario.Answer
import Nucleus.Scenario.Describe
import Nucleus.Scenario.World
import Nucleus.Scenario.Play
import Nucleus.Scenario.Session
import Nucleus.Scenario.Queues
import Nucleus.Proofs.Segment
import Nucleus.Proofs.Effect
import Nucleus.Proofs.Change
import Nucleus.Proofs.Tables
import Nucleus.Proofs.Frame
import Nucleus.Proofs.System
import Nucleus.Proofs.Anatomy
import Nucleus.Proofs.Returns
import Nucleus.Proofs.Placement
import Nucleus.Proofs.Script
import Nucleus.Proofs.Agreement
import Nucleus.Proofs.Terminal
import Nucleus.Proofs.Crossing
import Nucleus.Proofs.StartKill
import Nucleus.Proofs.Latch
import Nucleus.Proofs.Signals
import Nucleus.Proofs.FirstLook
import Nucleus.Proofs.Waiters
import Nucleus.Proofs.Entries
import Nucleus.Proofs.Parking
import Nucleus.Proofs.Deadline
import Nucleus.Proofs.ReadyOnce
import Nucleus.Proofs.Runners
import Nucleus.Proofs.Interrupts
import Nucleus.Proofs.Contexts
import Nucleus.Proofs.Idle
import Nucleus.Proofs.Resolution
import Nucleus.Proofs.Attachment
import Nucleus.Proofs.Ancestry
import Nucleus.Proofs.Rights
import Nucleus.Proofs.FullPath
import Nucleus.Proofs.Stability
import Nucleus.Proofs.Brackets
import Nucleus.Proofs.Locality
import Nucleus.Proofs.Isolation
import Nucleus.Proofs.WakeOrder
import Nucleus.Proofs.StableQueue
import Nucleus.Proofs.Sleepers
import Nucleus.Proofs.Tick
import Nucleus.Proofs.Fairness
import Nucleus.Proofs.TickCount
import Nucleus.Proofs.WakeTick
import Nucleus.Proofs.Bystander
import Nucleus.Proofs.Interleaving
import Nucleus.Proofs.Phases
import Nucleus.Proofs.Admission
import Nucleus.Proofs.Refusals
import Nucleus.Proofs.Drain
import Nucleus.Proofs.Signalling
import Nucleus.Proofs.FailedStarts
import Nucleus.Proofs.Guards
import Nucleus.Proofs.Masking
