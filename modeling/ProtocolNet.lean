import ProtocolNet.Main
import ProtocolNet.Transcript.Printer
import ProtocolNet.Proofs.StateEquation
import ProtocolNet.Proofs.Verdict
import ProtocolNet.Proofs.Mutex
import ProtocolNet.Proofs.Fingerprint
import ProtocolNet.Proofs.Footprint
import ProtocolNet.Proofs.Response
import ProtocolNet.Proofs.Commutation
import ProtocolNet.Proofs.Conformance
import ProtocolNet.Proofs.EventCodec
import ProtocolNet.Proofs.LogReplay
import ProtocolNet.Proofs.Numerals
import ProtocolNet.Proofs.LocationText
import ProtocolNet.Proofs.Lexing
import ProtocolNet.Proofs.Lexemes
import ProtocolNet.Proofs.Sentences
import ProtocolNet.Proofs.TranscriptRoundTrip
import ProtocolNet.Proofs.JsonLexemes
import ProtocolNet.Proofs.JsonRoundTrip
import ProtocolNet.Proofs.Grammar
import ProtocolNet.Proofs.Recognition
import ProtocolNet.Proofs.DecodedValues
import ProtocolNet.Proofs.Decoding
import ProtocolNet.Proofs.TraceFiles
import ProtocolNet.Proofs.TraceFormats
import ProtocolNet.Proofs.Visibility
import ProtocolNet.Proofs.FileTree
import ProtocolNet.Proofs.Executions
import ProtocolNet.Proofs.Pictures
import ProtocolNet.Proofs.TraceIndependence
import ProtocolNet.Proofs.Congruence
import ProtocolNet.Proofs.TraceValidation
import ProtocolNet.Proofs.CountingFunctions
import ProtocolNet.Proofs.FailFast
import ProtocolNet.Proofs.Totals
import ProtocolNet.Proofs.Balance
import ProtocolNet.Proofs.LockHistory
import ProtocolNet.Proofs.Coverage
import ProtocolNet.Proofs.Noninterference
import ProtocolNet.Proofs.Shortfall
import ProtocolNet.Proofs.TraceAgreement
import ProtocolNet.Proofs.LoggedRuns
import ProtocolNet.Proofs.Layouts
import ProtocolNet.Proofs.EventText
import ProtocolNet.Proofs.EventFlaws
import ProtocolNet.Proofs.EventLines
import ProtocolNet.Proofs.TokenText
import ProtocolNet.Proofs.Descriptors
import ProtocolNet.Proofs.Definitions
import ProtocolNet.Proofs.EventRecords
import ProtocolNet.Proofs.LongNumerals
import ProtocolNet.Proofs.NetFaults
import ProtocolNet.Proofs.Integers
import ProtocolNet.Proofs.LocationForms
import ProtocolNet.Proofs.GraphReading
import ProtocolNet.Proofs.JsonTrees
import ProtocolNet.Proofs.RepeatedKeys
import ProtocolNet.Proofs.Tiling
import ProtocolNet.Proofs.QuotedTexts
