import MessageBus.Main
import MessageBus.Objects
import MessageBus.Proofs.Checks
import MessageBus.Proofs.Lookup
import MessageBus.Proofs.Polling
import MessageBus.Proofs.Receiving
import MessageBus.Proofs.RecordFate
import MessageBus.Proofs.Reading
import MessageBus.Proofs.Bare
import MessageBus.Proofs.SelfCheck
import MessageBus.Proofs.Equality
import MessageBus.Proofs.Sending
import MessageBus.Proofs.Carriage
import MessageBus.Proofs.MessageIds
import MessageBus.Proofs.PlainService
import MessageBus.Proofs.Delivery
import MessageBus.Proofs.Calls
import MessageBus.Proofs.Handing
import MessageBus.Proofs.Acknowledging
import MessageBus.Proofs.PollTrace
import MessageBus.Proofs.AnyRecord
import MessageBus.Proofs.Operations
import MessageBus.Proofs.Handles
import MessageBus.Proofs.WrittenOnce
import MessageBus.Proofs.Failures
import MessageBus.Proofs.Surfacing
import MessageBus.Proofs.Listing
import MessageBus.Proofs.Outcomes
import MessageBus.Proofs.LongerWait
import MessageBus.Proofs.Patience
import MessageBus.Proofs.Time
import MessageBus.Proofs.Timeout
import MessageBus.Proofs.Decimal
import MessageBus.Proofs.Numerals
import MessageBus.Proofs.Quoting
import MessageBus.Proofs.JsonValues
import MessageBus.Proofs.Grammar
import MessageBus.Proofs.WrittenValues
import MessageBus.Proofs.WithinLimits
import MessageBus.Proofs.ValidMessages
import MessageBus.Proofs.WireForm
import MessageBus.Proofs.Canonical
import MessageBus.Proofs.SendFrame
import MessageBus.Proofs.Expansion
import MessageBus.Proofs.SenderView
import MessageBus.Proofs.Batches
import MessageBus.Proofs.CodecErrors
import MessageBus.Proofs.FailureCodes
import MessageBus.Proofs.Classification
import MessageBus.Proofs.Questions
import MessageBus.Proofs.Prechecks
import MessageBus.Proofs.AcceptedTexts
import MessageBus.Proofs.KnownFields
import MessageBus.Proofs.StandIns
import MessageBus.Proofs.Commands
import MessageBus.Proofs.Deletion
import MessageBus.Proofs.SendCommand
import MessageBus.Proofs.Parts
import MessageBus.Proofs.Clients
import MessageBus.Proofs.SentBody
import MessageBus.Proofs.Secrecy
import MessageBus.Proofs.Deeds
import MessageBus.Proofs.Obtaining
import MessageBus.Proofs.ReceiveCommand
import MessageBus.Proofs.Variables
import MessageBus.Proofs.Precedence
