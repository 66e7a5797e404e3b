import Mqtt.Bytes
import Mqtt.QoS
import Mqtt.Packet.Kind
import Mqtt.Wire.Varint
import Mqtt.Packet.Basic
import Mqtt.Text.Utf8
import Mqtt.Wire.Cursor
import Mqtt.Wire.EncodeError
import Mqtt.Wire.Field
import Mqtt.Wire.FixedHeader
import Mqtt.Log
import Mqtt.Packet.ConnectFlags
import Mqtt.Packet.Decode
import Mqtt.Packet.Printer
import Mqtt.Session.Basic
import Mqtt.Session.Printer
import Mqtt.Session.Receive
import Mqtt.Connection.Basic
import Mqtt.Decimal.Basic
import Mqtt.Decimal.Binary64
import Mqtt.SocketAddress
import Mqtt.Toml.Draft
import Mqtt.Toml.Parser
import Mqtt.Settings.Basic
import Mqtt.Settings.Toml
import Mqtt.Capture
import Mqtt.CommandLine
import Mqtt.Inspection
import Mqtt.Program
import Mqtt.Main
import Mqtt.Proofs.Wire.Varint
import Mqtt.Proofs.Wire.FixedHeader
import Mqtt.Proofs.Wire.Field
import Mqtt.Proofs.Wire.Writing
import Mqtt.Proofs.Wire.Reading
import Mqtt.Proofs.Wire.Cutting
import Mqtt.Proofs.Wire.Rounds
import Mqtt.Proofs.Text.Utf8
import Mqtt.Proofs.Wire.Failing
import Mqtt.Proofs.Wire.Text
import Mqtt.Proofs.Wire.Canonical
import Mqtt.Proofs.Wire.Requests
import Mqtt.Proofs.Packet.ConnectFlags
import Mqtt.Proofs.Packet.WellFormed
import Mqtt.Proofs.Packet.Body
import Mqtt.Proofs.Packet.RoundTrip
import Mqtt.Proofs.Packet.Appending
import Mqtt.Proofs.Packet.Faults
import Mqtt.Proofs.Packet.Trailing
import Mqtt.Proofs.Packet.Truncation
import Mqtt.Proofs.Session.Rules
import Mqtt.Proofs.Session.Chunking
import Mqtt.Proofs.Session.Completeness
import Mqtt.Proofs.Session.Frames
import Mqtt.Proofs.Session.Reading
import Mqtt.Proofs.Session.Refusal
import Mqtt.Proofs.Session.Calls
import Mqtt.Proofs.Session.Ordering
import Mqtt.Proofs.Session.Quiescence
import Mqtt.Proofs.Session.Limits
import Mqtt.Proofs.Session.Records
import Mqtt.Proofs.Session.Cost
import Mqtt.Proofs.Session.Cut
import Mqtt.Proofs.Connection.ByteStream
import Mqtt.Proofs.Connection.Calls
import Mqtt.Proofs.Connection.Progress
import Mqtt.Proofs.Connection.Delivering
import Mqtt.Proofs.Connection.Sending
import Mqtt.Proofs.Connection.Ending
import Mqtt.Proofs.Connection.Closing
import Mqtt.Proofs.Capture.Hex
import Mqtt.Proofs.Inspection.Lines
import Mqtt.Proofs.Inspection.Reports
import Mqtt.Proofs.Toml.Keys
import Mqtt.Proofs.Toml.Layering
import Mqtt.Proofs.Toml.Wider
import Mqtt.Proofs.Toml.Words
import Mqtt.Proofs.Toml.Alike
import Mqtt.Proofs.Toml.Dialects
import Mqtt.Proofs.Settings.References
import Mqtt.Proofs.Settings.Addresses
import Mqtt.Proofs.Settings.Library
import Mqtt.Proofs.Settings.Toml
import Mqtt.Proofs.Settings.Sources
import Mqtt.Proofs.Settings.Agreement
