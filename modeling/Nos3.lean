import Nos3.Cf.Guarantees.PduRoundTrip
import Nos3.Cf.Guarantees.TrailingOctets
import Nos3.Cf.Guarantees.GapComplement
import Nos3.Cf.Source.Queues
import Nos3.Cf.Guarantees.SenderProgress
import Nos3.Cf.Guarantees.SenderFidelity
import Nos3.Cf.Guarantees.ReceiverCompletion
import Nos3.Cf.Guarantees.ResumePointer
import Nos3.Cf.Guarantees.TransactionIdentity
import Nos3.Sdls.Guarantees.SaStarted
import Nos3.Sdls.Guarantees.AntiReplay
import Nos3.Sdls.Source.ApplyRules
import Nos3.Sdls.Guarantees.Confidentiality
import Nos3.Sdls.Guarantees.CounterSynchronisation
import Nos3.Sdls.Guarantees.NonceUniqueness
import Nos3.Sdls.Guarantees.ReceiveBounds
import Nos3.Sdls.Source.ExtendedProcedure
import Nos3.Sdls.Guarantees.ExtendedProcedureCarriers
import Nos3.IoLib.Guarantees.FirstHeaderPointer
import Nos3.IoLib.Guarantees.InOrderDelivery
import Nos3.Sdls.Guarantees.MonitoringLog
import Nos3.Sdls.Guarantees.SaLifecycle
import Nos3.Es.Guarantees.PoolRebuild
import Nos3.Es.Guarantees.CdsConsistency
import Nos3.Lc.Guarantees.RpnAgreement
import Nos3.Lc.Guarantees.Staleness
import Nos3.Lc.Guarantees.ConsecutiveFails
import Nos3.Lc.Guarantees.Dispatch
import Nos3.Sc.Guarantees.ActiveRts
import Nos3.Sc.Guarantees.RtsExecution
import Nos3.Sc.Guarantees.AtsVerification
import Nos3.Sc.Guarantees.AtsControl
import Nos3.Sc.Guarantees.AtsRuns
import Nos3.Sc.Guarantees.UsableState
import Nos3.Sc.Guarantees.WakeupRounds
import Nos3.Thermal.Source.Control
import Nos3.Thermal.Guarantees.HeaterState
import Nos3.Osal.Source.IdMap
import Nos3.Osal.Guarantees.LockDiscipline
import Nos3.Osal.Guarantees.CallDiscipline
import Nos3.Osal.Source.IdMapRules
import Nos3.Osal.Guarantees.SharedRecords
import Nos3.Osal.Guarantees.ExclusiveAccess
import Nos3.Osal.Source.SharingRules
import Nos3.Osal.Guarantees.UniqueNames
import Nos3.Sbn.Source.Network
import Nos3.Sbn.Guarantees.SubscriptionMessages
import Nos3.Sbn.Guarantees.SubscriptionInvariant
import Nos3.Sbn.Guarantees.PeersLearn
import Nos3.Sb.Source.Calls
import Nos3.Sb.Guarantees.Shape
import Nos3.Base.CrcRegister
import Nos3.Eps.Source.Simulator
import Nos3.Eps.Guarantees.TelemetryMeaning
import Nos3.Thermal.Guarantees.SensedTemperature
import Nos3.Sch.Source.ScheduleTable
import Nos3.Sch.Guarantees.SlotAccounting
import Nos3.Base.Gaps
import Nos3.Cf.Guarantees.NakDrain
import Nos3.Cf.Guarantees.FinAcknowledged
import Nos3.Base.CircularList
import Nos3.Cf.Source.Clist
import Nos3.Cf.Guarantees.PriorityOrder
import Nos3.Cf.Source.CrcPass
import Nos3.Cf.Guarantees.ChecksumPass
import Nos3.Cf.Source.StoredFile
import Nos3.Cf.Guarantees.ReceivedLength
import Nos3.Sdls.Source.TcState
import Nos3.Sdls.Guarantees.ErrorControl
import Nos3.IoLib.Source.TmSdlp
import Nos3.IoLib.Guarantees.ErrCtrlField
import Nos3.IoLib.Source.TcSync
import Nos3.IoLib.Guarantees.CltuDecoding
import Nos3.Sdls.Guarantees.StaticPrefix
import Nos3.Sdls.Guarantees.PaddingRoundTrip
import Nos3.Base.FixedArray
import Nos3.Sdls.Source.KeyManagement
import Nos3.Sdls.Guarantees.EpReplies
import Nos3.Sdls.Guarantees.SaCreation
import Nos3.IoLib.Source.SdlpDrain
import Nos3.IoLib.Source.OverflowRing
import Nos3.IoLib.Guarantees.FrameStart
import Nos3.Sc.Guarantees.RtsCommands
import Nos3.Es.Guarantees.ResourceIds
import Nos3.IoLib.Guarantees.PseudoRandom
import Nos3.Msg.Source.Header
import Nos3.Msg.Guarantees.FieldLenses
import Nos3.Msg.Source.HeaderFields
import Nos3.Msg.Guarantees.CommandChecksum
import Nos3.Base.LinearProbing
import Nos3.Sb.Source.Routing
import Nos3.Sb.Guarantees.RouteMap
import Nos3.Base.ByteMemory
import Nos3.Lc.Source.Watch
import Nos3.Lc.Guarantees.IntegerWatch
import Nos3.Sb.Guarantees.FailedSubscription
import Nos3.Sc.Source.TimeIndex
import Nos3.Sc.Guarantees.TimeOrder
import Nos3.Sc.Guarantees.LoadHistory
import Nos3.Sb.Guarantees.DeliveryErrors
import Nos3.Time.Guarantees.CyclicTime
import Nos3.Time.Guarantees.CalendarPrint
import Nos3.Sbn.Guarantees.MessageFraming
import Nos3.Sbn.Guarantees.ReceivedEntries
import Nos3.Cf.Guarantees.ListTraversal
import Nos3.RaspberryPi.Guarantees.GenuineReply
import Nos3.Ds.Guarantees.HashLookup
import Nos3.Ds.Guarantees.SequenceFilter
import Nos3.Thermal.Guarantees.SwitchCounters
import Nos3.Eps.Guarantees.CommandSwitch
import Nos3.Eps.Guarantees.BatteryCharge
import Nos3.Base.Strtok
import Nos3.Novatel.Guarantees.FieldPositions
import Nos3.Sch.Guarantees.VerifiedTable
import Nos3.Evs.Guarantees.EventFlow
import Nos3.Time.Guarantees.ReferenceUpdates
import Nos3.Osal.Guarantees.TimerCallbacks
import Nos3.Fs.Guarantees.DumpOrder
import Nos3.Tbl.Guarantees.LockedImages
