import ServerSentEvents.Decoder
import ServerSentEvents.Event.Json
import ServerSentEvents.Limits.Json
import ServerSentEvents.Main
import ServerSentEvents.Proofs.Arguments
import ServerSentEvents.Proofs.ByteOrderMark
import ServerSentEvents.Proofs.Exchange
import ServerSentEvents.Proofs.JsonEvents
import ServerSentEvents.Proofs.LastEventId
import ServerSentEvents.Proofs.PolicyNames
import ServerSentEvents.Proofs.Polling.Demand
import ServerSentEvents.Proofs.Polling.OpenBlock
import ServerSentEvents.Proofs.RetryDelays
import ServerSentEvents.Proofs.Session.Ending
import ServerSentEvents.Proofs.Session.Letters
import ServerSentEvents.Proofs.Settings
import ServerSentEvents.Proofs.Splitter.Failure
import ServerSentEvents.Proofs.Splitter.Trailing
import ServerSentEvents.Proofs.Storing
import ServerSentEvents.Proofs.TerminatorForms
import ServerSentEvents.Proofs.TextualReading
