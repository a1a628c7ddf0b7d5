import ResolutionLog.Main
import ResolutionLog.Proofs.Draft
import ResolutionLog.Proofs.Description
import ResolutionLog.Proofs.FirstLevel
import ResolutionLog.Proofs.WellFormed
import ResolutionLog.Proofs.Session
import ResolutionLog.Proofs.Reading
import ResolutionLog.Proofs.Truncation
import ResolutionLog.Proofs.Acceptance
import ResolutionLog.Proofs.Rearrangement
import ResolutionLog.Proofs.Delivery
import ResolutionLog.Proofs.Loading
import ResolutionLog.Proofs.Spilling
import ResolutionLog.Proofs.Closure
import ResolutionLog.Proofs.Cycles
import ResolutionLog.Proofs.Inspection
import ResolutionLog.Proofs.Replay
import ResolutionLog.Proofs.Reachability
import ResolutionLog.Proofs.Refusals
import ResolutionLog.Proofs.Courses
import ResolutionLog.Proofs.Inheritance
import ResolutionLog.Proofs.Sharing
import ResolutionLog.Proofs.Bodies
import ResolutionLog.Proofs.Rewriting
import ResolutionLog.Proofs.Selectors
import ResolutionLog.Proofs.Mappings
import ResolutionLog.Proofs.DrawnIn
import ResolutionLog.Proofs.Counting
import ResolutionLog.Proofs.ExactRequests
import ResolutionLog.Proofs.Handles
import ResolutionLog.Proofs.Texts
