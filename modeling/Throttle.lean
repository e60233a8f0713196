import Throttle.Config.Document
import Throttle.Rehearsal.Report
import Throttle.Proofs.Manager.Coupling
import Throttle.Proofs.Manager.Cancellation
import Throttle.Proofs.Manager.Spacing
import Throttle.Proofs.Policy.Rules
import Throttle.Proofs.Policy.Estimate
import Throttle.Proofs.Config.RoundTrip
import Throttle.Proofs.Policy.Drift
import Throttle.Proofs.Http.RetryAfter
import Throttle.Proofs.History.Monotone
import Throttle.Proofs.Limiter.Fifo
import Throttle.Proofs.Limiter.Renaming
import Throttle.Proofs.Limiter.Restriction
import Throttle.Proofs.Limiter.Absorption
import Throttle.Proofs.Limiter.Suspension
import Throttle.Proofs.Limiter.Withdrawal
import Throttle.Proofs.Limiter.Ending
import Throttle.Proofs.Limiter.Retrying
import Throttle.Proofs.Limiter.Briefing
import Throttle.Proofs.Limiter.Range
import Throttle.Proofs.Limiter.Tally
import Throttle.Proofs.Limiter.Masking
import Throttle.Proofs.Limiter.Pause
import Throttle.Proofs.Loop.Skew
