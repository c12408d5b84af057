import EventLog.Main
import EventLog.Projector.Account
import EventLog.Store.Append
import EventLog.Store.Project
import EventLog.Proofs.TagText
import EventLog.Proofs.TagReading
import EventLog.Proofs.BatchValidation
import EventLog.Proofs.LineageResolution
import EventLog.Proofs.AdmissionGate
import EventLog.Proofs.Placement
import EventLog.Proofs.RowDecode
import EventLog.Proofs.QueryUnion
import EventLog.Proofs.MatchAll
import EventLog.Proofs.FragmentText
import EventLog.Proofs.StatementText
import EventLog.Proofs.StatementShape
import EventLog.Proofs.StatementReading
import EventLog.Proofs.SelectionCorrect
import EventLog.Proofs.SlotFold
import EventLog.Proofs.Dealing
import EventLog.Proofs.WorkerOrder
import EventLog.Proofs.FanOutCorrect
import EventLog.Proofs.Transaction
import EventLog.Proofs.Transcript
import EventLog.Proofs.AppendCorrect
import EventLog.Proofs.TableSound
import EventLog.Proofs.LogInvariant
import EventLog.Proofs.ProjectionRead
import EventLog.Proofs.DecisionGuard
import EventLog.Proofs.ReadActions
import EventLog.Proofs.ReadPaths
import EventLog.Proofs.AppendDecision
import EventLog.Proofs.PositionRange
import EventLog.Proofs.ReadBack
import EventLog.Proofs.FirstRefusal
import EventLog.Proofs.DecisionRefusal
import EventLog.Proofs.IndependentProjections
import EventLog.Proofs.ConditionRace
import EventLog.Proofs.LineageForest
import EventLog.Proofs.Admission
import EventLog.Proofs.SharedFold
import EventLog.Proofs.ResumedFold
import EventLog.Proofs.OvertakenReads
import EventLog.Proofs.Checkpoint
import EventLog.Proofs.Paging
import EventLog.Proofs.BatchShape
import EventLog.Proofs.ValueOrder
import EventLog.Proofs.TraceReport
import EventLog.Proofs.RecordReading
import EventLog.Proofs.EventIdText
import EventLog.Proofs.WireReading
import EventLog.Proofs.WireRoundTrip
import EventLog.Proofs.RoundRobin
import EventLog.Proofs.Capacities
import EventLog.Proofs.SectionReading
import EventLog.Proofs.SettingsOverlay
import EventLog.Proofs.NumeralText
import EventLog.Proofs.JsonText
import EventLog.Proofs.EventText
import EventLog.Proofs.CommandLine
import EventLog.Proofs.PrintedEvents
