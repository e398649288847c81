import Headend.Main
import Headend.Proofs.Replacement
import Headend.Signal.Supervisor
import Headend.Proofs.Resolution
import Headend.Proofs.ResolvedStore
import Headend.Proofs.Frames
import Headend.Proofs.StoreBounds
import Headend.Proofs.FileIdentity
import Headend.Proofs.Ledger
import Headend.Proofs.FileMarks
import Headend.Proofs.GeneratedFiles
import Headend.Proofs.SignalHistory
import Headend.Proofs.Course
import Headend.Proofs.Conduct
import Headend.Proofs.Watchdog
import Headend.Proofs.FirstCause
import Headend.Proofs.Timetable
import Headend.Proofs.Stages
import Headend.Proofs.StageOrder
import Headend.Proofs.LineEffects
import Headend.Proofs.ChannelBlocks
import Headend.Proofs.ExpressionGrammar
import Headend.Proofs.HttpPort
import Headend.Proofs.Mailbox
import Headend.Proofs.Answers
import Headend.Proofs.Looks
import Headend.Proofs.SectionOrder
import Headend.Proofs.Tokenwise
import Headend.Proofs.Spacing
import Headend.Proofs.LineSequence
import Headend.Proofs.FileReading
import Headend.Proofs.OpenSources
import Headend.Proofs.EarlyStop
import Headend.Proofs.ExpressionValue
import Headend.Proofs.Encoding
import Headend.Proofs.AddedLines
import Headend.Proofs.PlainValues
import Headend.Proofs.OptionLines
import Headend.Proofs.Calm
import Headend.Proofs.Acquiring
import Headend.Proofs.DeviceTurns
import Headend.Proofs.DeviceProtocol
import Headend.Proofs.SinglePass
import Headend.Proofs.TuningArithmetic
import Headend.Proofs.MissingFrequency
import Headend.Proofs.LossyReading
import Headend.Proofs.CharacterBoundaries
import Headend.Proofs.SourceLines
import Headend.Proofs.PathLookup
import Headend.Proofs.CompleteListing
import Headend.Proofs.Openings
import Headend.Proofs.Rotation
import Headend.Proofs.Release
import Headend.Proofs.ChannelTexts
import Headend.Proofs.FileWriting
import Headend.Proofs.ListTexts
import Headend.Proofs.ListRounds
import Headend.Proofs.LeadingIntegers
import Headend.Proofs.TokenRuns
import Headend.Proofs.ChannelNames
import Headend.Proofs.CauseWords
