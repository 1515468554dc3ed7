import StreamFraming.Catalogue
import StreamFraming.Host
import StreamFraming.Json.Decoder
import StreamFraming.SessionTable
import StreamFraming.Setup
import StreamFraming.Proofs.Pursuits
import StreamFraming.Proofs.Evaluations
import StreamFraming.Proofs.Run
import StreamFraming.Proofs.Lockstep
import StreamFraming.Proofs.Http.Reading
import StreamFraming.Proofs.Http.Alone
import StreamFraming.Proofs.Http.Methods
import StreamFraming.Proofs.Exchange
import StreamFraming.Proofs.Following
import StreamFraming.Proofs.Sending
import StreamFraming.Proofs.Segmentation
import StreamFraming.Proofs.Message.Grammar
import StreamFraming.Proofs.Message.FieldLines
import StreamFraming.Proofs.Message.Reckoning
import StreamFraming.Proofs.Message.HeaderLines
import StreamFraming.Proofs.Message.Lines
import StreamFraming.Proofs.Message.FirstLines
import StreamFraming.Proofs.Message.Heads
import StreamFraming.Proofs.Message.Framing
import StreamFraming.Proofs.Message.Chunks
import StreamFraming.Proofs.Message.HeadRequests
import StreamFraming.Proofs.Message.Lengths
import StreamFraming.Proofs.Message.EmptyLines
import StreamFraming.Proofs.Message.Reasons
import StreamFraming.Proofs.Agreement
import StreamFraming.Proofs.Interference
import StreamFraming.Proofs.Isolation
import StreamFraming.Proofs.Noninterference
import StreamFraming.Proofs.DeferredErrors
import StreamFraming.Proofs.Contests
import StreamFraming.Proofs.Targets
import StreamFraming.Proofs.Checks
import StreamFraming.Proofs.Translation
import StreamFraming.Proofs.Duplicates
import StreamFraming.Proofs.Setbacks
import StreamFraming.Proofs.Windows
import StreamFraming.Proofs.Tiling
import StreamFraming.Proofs.Steps
import StreamFraming.Proofs.GivenUp
import StreamFraming.Proofs.Overreach
import StreamFraming.Proofs.Leftovers
import StreamFraming.Proofs.Brackets
import StreamFraming.Proofs.Narrowing
import StreamFraming.Proofs.Buffering
import StreamFraming.Proofs.Http.Errors
import StreamFraming.Proofs.Quarantine
import StreamFraming.Proofs.SimpleRequests
import StreamFraming.Proofs.Message.Recognition
import StreamFraming.Proofs.Message.RequestLines
import StreamFraming.Proofs.Message.StatusLines
import StreamFraming.Proofs.Message.Numerals
import StreamFraming.Proofs.Rounds
import StreamFraming.Proofs.Registrations
import StreamFraming.Proofs.Additions
import StreamFraming.Proofs.Declining
import StreamFraming.Proofs.Transparency
import StreamFraming.Proofs.Renewal
import StreamFraming.Proofs.Faults
import StreamFraming.Proofs.Http.Faults
import StreamFraming.Proofs.Http.Coherence
import StreamFraming.Proofs.Configuration
import StreamFraming.Proofs.Settings
import StreamFraming.Proofs.Cells
