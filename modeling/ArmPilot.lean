import ArmPilot.Main
import ArmPilot.Proofs.Lifecycle.Afresh
import ArmPilot.Proofs.Lifecycle.Discipline
import ArmPilot.Proofs.Lifecycle.Release
import ArmPilot.Proofs.Lifecycle.Stock
import ArmPilot.Proofs.Load.Checked
import ArmPilot.Proofs.Load.Fold
import ArmPilot.Proofs.Load.Registering
import ArmPilot.Proofs.Memory.Restart
import ArmPilot.Proofs.Pass.Refinement
import ArmPilot.Proofs.Run.Ending
import ArmPilot.Proofs.Run.Rejected
import ArmPilot.Proofs.Sandbox.Aborted
import ArmPilot.Proofs.Sandbox.Variables
import ArmPilot.Proofs.Storage
import ArmPilot.Proofs.Worker.Closing
import ArmPilot.Proofs.Worker.CutOff
import ArmPilot.Proofs.Worker.Snapshots
import ArmPilot.Proofs.Worker.Starting
import ArmPilot.Proofs.Memory.Periods
import ArmPilot.Proofs.Sandbox.Assignments
import ArmPilot.Proofs.Decimal.Doubles
import ArmPilot.Proofs.Sandbox.Readable
import ArmPilot.Proofs.Sandbox.Sleeping
import ArmPilot.Proofs.Sandbox.Comparing
import ArmPilot.Proofs.Clock.Schedule
import ArmPilot.Proofs.Pass.Matching
import ArmPilot.Proofs.Pass.Outcome
import ArmPilot.Proofs.Memory.Repeats
import ArmPilot.Proofs.Format
import ArmPilot.Proofs.Arguments
import ArmPilot.Proofs.Lang.Integers
import ArmPilot.Proofs.Clock.Sleep
