import ReentrantGate.Main
import ReentrantGate.Proofs.Event.Families
import ReentrantGate.Proofs.Event.Semaphore
import ReentrantGate.Proofs.Gate.Deadlock
import ReentrantGate.Proofs.Gate.Holds
import ReentrantGate.Proofs.Gate.Log
import ReentrantGate.Proofs.Gate.Outrun
import ReentrantGate.Proofs.Gate.Poison
import ReentrantGate.Proofs.Gate.Probe
import ReentrantGate.Proofs.Gate.Underflow
import ReentrantGate.Proofs.Gate.Undone
import ReentrantGate.Proofs.Script.Budget
import ReentrantGate.Proofs.Script.Deadlines
import ReentrantGate.Proofs.Script.Invisible
import ReentrantGate.Proofs.Script.Scopes
import ReentrantGate.Proofs.Script.Wakeups
import ReentrantGate.Proofs.Stress.Balance
import ReentrantGate.Proofs.Gate.Acquisition
import ReentrantGate.Proofs.Json.Layout
import ReentrantGate.Proofs.Stress.Resolution
import ReentrantGate.Proofs.Stress.Bounds
import ReentrantGate.Proofs.Stress.Replay
import ReentrantGate.Proofs.Gate.Vigil
import ReentrantGate.Proofs.Script.Durations
