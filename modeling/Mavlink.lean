import Mavlink.Codegen.Target
import Mavlink.Log.Reader
import Mavlink.Log.Writer
import Mavlink.Mission.Text
import Mavlink.Proofs.Binary.Rounding
import Mavlink.Proofs.Binary.Widening
import Mavlink.Proofs.Codegen.AsciiNames
import Mavlink.Proofs.Codegen.Identifiers
import Mavlink.Proofs.Codegen.PythonNames
import Mavlink.Proofs.Codegen.PythonProgram
import Mavlink.Proofs.Codegen.RustAgreement
import Mavlink.Proofs.Codegen.RustNames
import Mavlink.Proofs.Codegen.RustProgram
import Mavlink.Proofs.Codegen.RustReading
import Mavlink.Proofs.Codegen.Scopes
import Mavlink.Proofs.Codegen.StructFormat
import Mavlink.Proofs.Decimal.FixedPlaces
import Mavlink.Proofs.Link.Authentication
import Mavlink.Proofs.Link.BoundedBuffers
import Mavlink.Proofs.Link.Conservation
import Mavlink.Proofs.Link.EarlyRefusal
import Mavlink.Proofs.Link.EncoderRun
import Mavlink.Proofs.Link.ExemptMessages
import Mavlink.Proofs.Link.FrameStream
import Mavlink.Proofs.Link.LossAccounting
import Mavlink.Proofs.Link.LosslessLink
import Mavlink.Proofs.Link.Numbering
import Mavlink.Proofs.Link.ParserLife
import Mavlink.Proofs.Link.ParserRun
import Mavlink.Proofs.Link.ParserScan
import Mavlink.Proofs.Link.ParserStep
import Mavlink.Proofs.Link.Resynchronization
import Mavlink.Proofs.Link.Scanner
import Mavlink.Proofs.Link.Sending
import Mavlink.Proofs.Log.ByteBalance
import Mavlink.Proofs.Log.Corruption
import Mavlink.Proofs.Log.LogScan
import Mavlink.Proofs.Log.RecordRoundTrip
import Mavlink.Proofs.Mission.Editing
import Mavlink.Proofs.Mission.FileGrammar
import Mavlink.Proofs.Mission.FileRoundTrip
import Mavlink.Proofs.Mission.ItemMessages
import Mavlink.Proofs.Mission.ListEditing
import Mavlink.Proofs.Mission.SavedAgain
import Mavlink.Proofs.Schema.ElementTree
import Mavlink.Proofs.Schema.EnumMerging
import Mavlink.Proofs.Schema.EnumUnion
import Mavlink.Proofs.Schema.IncludeGraph
import Mavlink.Proofs.Schema.IncludeOrder
import Mavlink.Proofs.Schema.LayoutOrder
import Mavlink.Proofs.Schema.MessageMerging
import Mavlink.Proofs.Schema.MisplacedFields
import Mavlink.Proofs.Schema.TreeReading
import Mavlink.Proofs.Schema.WireContract
import Mavlink.Proofs.Schema.WireOrder
import Mavlink.Proofs.Signing.KeyAgreement
import Mavlink.Proofs.Signing.SharedClock
import Mavlink.Proofs.Stream.Reception
import Mavlink.Proofs.Table.Acceptance
import Mavlink.Proofs.Table.ExtensionReading
import Mavlink.Proofs.Table.FieldRoundTrip
import Mavlink.Proofs.Table.Interchange
import Mavlink.Proofs.Table.ListedValues
import Mavlink.Proofs.Table.MessageRoundTrip
import Mavlink.Proofs.Table.Reencoding
import Mavlink.Proofs.Table.SensorsTable
import Mavlink.Proofs.Text.Lines
import Mavlink.Proofs.Wire.BurstErrors
import Mavlink.Proofs.Wire.FrameSpelling
import Mavlink.Proofs.Wire.HeaderSpelling
import Mavlink.Proofs.Wire.PartialFrames
import Mavlink.Proofs.Wire.Truncation
import Mavlink.Schema.Loading
import Mavlink.Sensors
import Mavlink.Signing.Assembly
import Mavlink.Stream.FrameReader
import Mavlink.Stream.FrameWriter
import Mavlink.Proofs.Codegen.PythonLayout
