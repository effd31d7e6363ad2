import CourierDispatch.Json.SingleText
import CourierDispatch.Main
import CourierDispatch.Proofs.Alike
import CourierDispatch.Proofs.Bookings
import CourierDispatch.Proofs.Broker.AcceptingSink
import CourierDispatch.Proofs.Component.Callers
import CourierDispatch.Proofs.Dispatcher
import CourierDispatch.Proofs.Envelope.Draft
import CourierDispatch.Proofs.Envelope.Formats
import CourierDispatch.Proofs.Envelope.Json
import CourierDispatch.Proofs.Envelope.MsgPack
import CourierDispatch.Proofs.Envelope.NormalForm
import CourierDispatch.Proofs.Json.Numeral
import CourierDispatch.Proofs.Json.Quoted
import CourierDispatch.Proofs.Json.Scanner
import CourierDispatch.Proofs.Json.Text
import CourierDispatch.Proofs.Keyed
import CourierDispatch.Proofs.Ledger
import CourierDispatch.Proofs.Letter
import CourierDispatch.Proofs.MsgPack.Carried
import CourierDispatch.Proofs.MsgPack.Header
import CourierDispatch.Proofs.MsgPack.Scanner
import CourierDispatch.Proofs.Pipeline.Account
import CourierDispatch.Proofs.Pipeline.Alike
import CourierDispatch.Proofs.Pipeline.Bookings
import CourierDispatch.Proofs.Pipeline.Events
import CourierDispatch.Proofs.Pipeline.Floor
import CourierDispatch.Proofs.Pipeline.Launch
import CourierDispatch.Proofs.Pipeline.Progress
import CourierDispatch.Proofs.Reply
import CourierDispatch.Proofs.Pipeline.Refinement
import CourierDispatch.Proofs.Pipeline.Run
import CourierDispatch.Proofs.Reader.Delivery
import CourierDispatch.Proofs.Reader.Readership
import CourierDispatch.Proofs.Result
import CourierDispatch.Proofs.Service.Layers
import CourierDispatch.Proofs.Text.Utf8
import CourierDispatch.Proofs.Uuid
import CourierDispatch.Proofs.Value.Taken
import CourierDispatch.Proofs.Value.Texts
import CourierDispatch.Simulation.Bench
import CourierDispatch.Simulation.ReaderBench
import CourierDispatch.Proofs.Broker.LineSink
import CourierDispatch.Proofs.Json.Visible
import CourierDispatch.Proofs.Broker.Lines
import CourierDispatch.Proofs.Processor.Moves
import CourierDispatch.Proofs.Reader.Intake
import CourierDispatch.Proofs.Pipeline.Interruption
import CourierDispatch.Proofs.Pipeline.Halting
import CourierDispatch.Proofs.Pipeline.Interrupted
import CourierDispatch.Proofs.Processor.Handover
import CourierDispatch.Proofs.Processor.Exchange
import CourierDispatch.Proofs.Processor.WriterLaw
import CourierDispatch.Proofs.Pipeline.Calls
import CourierDispatch.Proofs.Pipeline.Restart
import CourierDispatch.Proofs.Reader.Channels
import CourierDispatch.Proofs.Reader.Reports
import CourierDispatch.Proofs.Pipeline.Settled
import CourierDispatch.Proofs.Envelope.Acceptance
import CourierDispatch.Proofs.Envelope.Transcoding
import CourierDispatch.Proofs.Envelope.Truncation
import CourierDispatch.Proofs.Pool.Change
import CourierDispatch.Proofs.Result.Acceptance
import CourierDispatch.Proofs.Context
import CourierDispatch.Proofs.Envelope.Spelling
import CourierDispatch.Proofs.Context.Trace
import CourierDispatch.Proofs.Request
import CourierDispatch.Proofs.Dispatcher.Honours
import CourierDispatch.Proofs.Dispatcher.Contract
import CourierDispatch.Proofs.Dispatcher.Correlation
import CourierDispatch.Proofs.Service.Lockstep
import CourierDispatch.Proofs.Processor.Lockstep
import CourierDispatch.Proofs.Pipeline.Lockstep
import CourierDispatch.Proofs.Value.Rearranged
import CourierDispatch.Proofs.Envelope.JsonSpelling
import CourierDispatch.Proofs.Broker.TopicHistory
import CourierDispatch.Proofs.Pipeline.Attended
import CourierDispatch.Proofs.Processor.Pacing
import CourierDispatch.Proofs.Backoff
import CourierDispatch.Proofs.Envelope.Decided
import CourierDispatch.Proofs.Result.Details
import CourierDispatch.Proofs.Answers
import CourierDispatch.Proofs.Writer
import CourierDispatch.Proofs.Broker.TornLines
import CourierDispatch.Proofs.Service.Tally
