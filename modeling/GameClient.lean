import GameClient.Main
import GameClient.Startup
import GameClient.Render.Queue
import GameClient.Render.Worker
import GameClient.Desktop.Opener
import GameClient.Proofs.Dimension
import GameClient.Proofs.Arguments
import GameClient.Proofs.Refusal
import GameClient.Proofs.Blank
import GameClient.Proofs.Cut
import GameClient.Proofs.Legal
import GameClient.Proofs.Parts
import GameClient.Proofs.ServerName
import GameClient.Proofs.Authority
import GameClient.Proofs.Reading
import GameClient.Proofs.RoundTrip
import GameClient.Proofs.DotSegments
import GameClient.Proofs.Page
import GameClient.Proofs.Normal
import GameClient.Proofs.Faults
import GameClient.Proofs.Issued
import GameClient.Proofs.Talk
import GameClient.Proofs.Worker
import GameClient.Proofs.Session
import GameClient.Proofs.Precedence
import GameClient.Proofs.OptionPlace
import GameClient.Proofs.Threads
import GameClient.Proofs.Executor
import GameClient.Proofs.Handed
import GameClient.Proofs.Utf8
import GameClient.Proofs.Transcript
import GameClient.Proofs.Outcome
import GameClient.Proofs.Lossy
import GameClient.Proofs.RawArguments
import GameClient.Proofs.Showing
import GameClient.Proofs.PathRewriting
import GameClient.Proofs.Masking
import GameClient.Proofs.Delivery
import GameClient.Proofs.Callers
import GameClient.Proofs.Startup
import GameClient.Proofs.AuthorityGrammar
import GameClient.Proofs.Edits
import GameClient.Proofs.Convergence
import GameClient.Proofs.SchemeInference
import GameClient.Proofs.Origin
import GameClient.Proofs.Viewing
import GameClient.Proofs.Conservation
import GameClient.Proofs.Lookup
import GameClient.Proofs.Selection
import GameClient.Proofs.OutputRoom
import GameClient.Proofs.Composition
import GameClient.Proofs.Reordering
import GameClient.Proofs.Json
import GameClient.Proofs.JsonText
import GameClient.Proofs.Summary
import GameClient.Proofs.Reproduction
import GameClient.Proofs.SignedReading
import GameClient.Proofs.UriPattern
import GameClient.Proofs.LegalText
