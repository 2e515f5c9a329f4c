import RegistryText.Text.Basic
import RegistryText.Text.Blank
import RegistryText.Text.Hex
import RegistryText.Text.LowerCase
import RegistryText.Text.Quoted
import RegistryText.Text.Property.Range
import RegistryText.Text.Property.Cased
import RegistryText.Text.Property.CaseIgnorable
import RegistryText.Text.Property.DefaultIgnorable
import RegistryText.Text.Property.GraphemeExtend
import RegistryText.Text.Property.Graphic
import RegistryText.Text.Property.LowerCase
import RegistryText.Encoding.Decoder
import RegistryText.Encoding.Utf8
import RegistryText.Encoding.Utf16
import RegistryText.Encoding.SingleBytePage
import RegistryText.Encoding.CodePage
import RegistryText.Encoding.FileEncoding
import RegistryText.Value.Type
import RegistryText.Value.Data
import RegistryText.Payload.TypeTag
import RegistryText.Payload.Escaped
import RegistryText.Payload.Dword
import RegistryText.Payload.HexList
import RegistryText.Header
import RegistryText.Source
import RegistryText.Lines.Capacity
import RegistryText.Lines.Reader
import RegistryText.Lines.Supply
import RegistryText.Lines.Sized
import RegistryText.Store.RootKey
import RegistryText.Store.KeyPath
import RegistryText.Store.Basic
import RegistryText.Store.Memory
import RegistryText.Store.Refusing
import RegistryText.Store.Snapshot
import RegistryText.Store.Dump
import RegistryText.Import.Options
import RegistryText.Import.Error
import RegistryText.Import.Report
import RegistryText.Import.State
import RegistryText.Import.Step
import RegistryText.Import.Bound
import RegistryText.Import.Run
import RegistryText.CommandLine
import RegistryText.Main
import RegistryText.Proofs.Text.Places
import RegistryText.Proofs.Text.LowerCase
import RegistryText.Proofs.Text.Order
import RegistryText.Proofs.Text.Pieces
import RegistryText.Proofs.Store.Paths
import RegistryText.Proofs.Lines.Split
import RegistryText.Proofs.Lines.Delivery
import RegistryText.Proofs.Lines.Reading
import RegistryText.Proofs.Lines.Listed
import RegistryText.Proofs.Lines.Rounds
import RegistryText.Proofs.Encoding.LineEnds
import RegistryText.Proofs.Encoding.Utf16
import RegistryText.Proofs.Encoding.Utf8
import RegistryText.Proofs.Encoding.CodePage
import RegistryText.Proofs.Lines.File
import RegistryText.Proofs.Lines.PlainSplit
import RegistryText.Proofs.Payload.Written
import RegistryText.Proofs.Store.Calls
import RegistryText.Proofs.Store.Memory
import RegistryText.Proofs.Store.Table
import RegistryText.Proofs.Store.Requests
import RegistryText.Proofs.Import.Quiet
import RegistryText.Proofs.Import.Handles
import RegistryText.Proofs.Import.Recasting
import RegistryText.Proofs.Import.ByteDependence
import RegistryText.Proofs.Import.Transcoding
import RegistryText.Proofs.Import.Sized
import RegistryText.Proofs.Import.Written
import RegistryText.Proofs.Import.WrittenSteps
import RegistryText.Proofs.Import.Replay
import RegistryText.Proofs.Import.RoundTrip
import RegistryText.Proofs.Import.Turn
import RegistryText.Proofs.Import.Statement
import RegistryText.Proofs.Text.Blanks
import RegistryText.Proofs.Payload.Grammar
import RegistryText.Proofs.Import.Obey
import RegistryText.Proofs.Import.Lockstep
import RegistryText.Proofs.Import.Diagnostics
import RegistryText.Proofs.Import.Denied
import RegistryText.Proofs.Import.ValueLine
import RegistryText.Proofs.Import.CleanReport
import RegistryText.Proofs.Import.Beside
import RegistryText.Proofs.Import.VoidLine
import RegistryText.Proofs.Import.Removal
import RegistryText.Proofs.Store.Replay
import RegistryText.Proofs.Store.Representation
import RegistryText.Proofs.Import.LineTurn
import RegistryText.Proofs.Import.OpeningLine
import RegistryText.Proofs.Lines.Broken
import RegistryText.Proofs.Import.ReadError
import RegistryText.Proofs.Import.BrokenSource
import RegistryText.Proofs.Import.Body
import RegistryText.Proofs.Import.FirstLine
import RegistryText.Proofs.Import.Reruns
import RegistryText.Proofs.Payload.Comments
import RegistryText.Proofs.Import.Comments
import RegistryText.Proofs.Import.Annotated
import RegistryText.Proofs.Store.RefusedWrites
import RegistryText.Proofs.Import.TurnRecord
import RegistryText.Proofs.Import.RefusedCalls
import RegistryText.Proofs.Import.RefusedWrites
import RegistryText.Proofs.Payload.Padding
import RegistryText.Proofs.Import.Padding
import RegistryText.Proofs.Import.Windows31
import RegistryText.Proofs.Import.Reimport
import RegistryText.Proofs.Import.LaterRuns
import RegistryText.Proofs.Text.Cuts
import RegistryText.Proofs.Import.Cuts
import RegistryText.Proofs.Import.StepCount
import RegistryText.Proofs.Import.LineCount
import RegistryText.Proofs.Import.Audit
import RegistryText.Proofs.Payload.Tokens
import RegistryText.Proofs.Payload.Continuation
import RegistryText.Proofs.Lines.Content
import RegistryText.Proofs.Lines.Progress
import RegistryText.Proofs.Lines.Failures
import RegistryText.Proofs.Lines.Growth
import RegistryText.Proofs.Lines.Sized
import RegistryText.Proofs.Text.AsciiCase
import RegistryText.Proofs.Store.KeyNames
import RegistryText.Proofs.Store.KeyIdentity
import RegistryText.Proofs.Store.KeyOpening
import RegistryText.Proofs.Store.ClosedHandles
import RegistryText.Proofs.Store.ValueWrites
import RegistryText.Proofs.Store.ValueNames
import RegistryText.Proofs.Payload.Numerals
import RegistryText.Proofs.Value.Views
import RegistryText.Proofs.Store.ForeignHandles
import RegistryText.Proofs.Store.Snapshot
import RegistryText.Proofs.Import.Staging
import RegistryText.Proofs.Lines.Search
import RegistryText.Proofs.Lines.DecodedSplit
