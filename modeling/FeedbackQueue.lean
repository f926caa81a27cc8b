import FeedbackQueue.Main
import FeedbackQueue.Web
import FeedbackQueue.Client
import FeedbackQueue.Proofs.Scheduler.Consistency
import FeedbackQueue.Proofs.Scheduler.Termination
import FeedbackQueue.Proofs.Scheduler.Levels
import FeedbackQueue.Proofs.Scheduler.Conservation
import FeedbackQueue.Proofs.Scheduler.Precedence
import FeedbackQueue.Proofs.Scheduler.Delivery
import FeedbackQueue.Proofs.Scheduler.Waiting
import FeedbackQueue.Proofs.Scheduler.Priority
import FeedbackQueue.Proofs.Scheduler.Boosting
import FeedbackQueue.Proofs.Scheduler.LifeCycle
import FeedbackQueue.Proofs.Scheduler.Records
import FeedbackQueue.Proofs.Scheduler.Reporting
import FeedbackQueue.Proofs.Scheduler.Stalling
import FeedbackQueue.Proofs.Scheduler.Failures
import FeedbackQueue.Proofs.Bank.Renaming
import FeedbackQueue.Proofs.Scheduler.Correspondence
import FeedbackQueue.Proofs.Scheduler.Causality
import FeedbackQueue.Proofs.Scheduler.Kinds
import FeedbackQueue.Proofs.Scheduler.Arrivals
import FeedbackQueue.Proofs.Scheduler.RoundRobin
import FeedbackQueue.Proofs.Scheduler.Units
import FeedbackQueue.Proofs.Scheduler.Trace
import FeedbackQueue.Proofs.CommandLine.Loading
import FeedbackQueue.Proofs.Web.Answers
import FeedbackQueue.Proofs.Bank.Membership
import FeedbackQueue.Proofs.Scheduler.Quantum
import FeedbackQueue.Proofs.Scheduler.Relabelling
import FeedbackQueue.Proofs.Workload.Reading
import FeedbackQueue.Proofs.Config.Reading
import FeedbackQueue.Proofs.Scheduler.Raising
import FeedbackQueue.Proofs.Scheduler.Admission
import FeedbackQueue.Proofs.Scheduler.Rehearsal
import FeedbackQueue.Proofs.Scheduler.Yielding
import FeedbackQueue.Proofs.Scheduler.Descent
import FeedbackQueue.Proofs.Report.Means
import FeedbackQueue.Proofs.Report.Table
