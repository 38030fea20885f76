import PortMatch.Graph.Build
import PortMatch.Assignment.Basic
import PortMatch.Report.Cause
import PortMatch.Search.Solve
import PortMatch.Proofs.Solve.Rounds
import PortMatch.Proofs.Solve.Budget
import PortMatch.Proofs.Solve.Failure
import PortMatch.Proofs.Solve.Replay
import PortMatch.Proofs.Solve.Accounts
import PortMatch.Proofs.Solve.Preflight
import PortMatch.Proofs.Solve.Termination
import PortMatch.Proofs.Solve.Checked
import PortMatch.Proofs.Graph.Ownership
import PortMatch.Proofs.Graph.Connections
import PortMatch.Proofs.Report.Chain
import PortMatch.Proofs.Solve.Fits
import PortMatch.Proofs.Solve.LinkOrder
import PortMatch.Proofs.Solve.Log
import PortMatch.Proofs.Solve.Diagnosis
import PortMatch.Proofs.Search.Consistent
import PortMatch.Proofs.Cursor.Turns
import PortMatch.Proofs.Assignment.Snapshot
