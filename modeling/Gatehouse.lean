import Gatehouse.Address.Basic
import Gatehouse.Address.Listen
import Gatehouse.Blake3
import Gatehouse.Catalog
import Gatehouse.Command
import Gatehouse.Daemon
import Gatehouse.Desk
import Gatehouse.Dict.Basic
import Gatehouse.Dict.Lemmas
import Gatehouse.Event
import Gatehouse.Files.Basic
import Gatehouse.Files.Database
import Gatehouse.Files.Path
import Gatehouse.Fleet.Basic
import Gatehouse.Fleet.Step
import Gatehouse.Json.Basic
import Gatehouse.Json.Lexer
import Gatehouse.Json.Printer
import Gatehouse.Json.Reader
import Gatehouse.Key
import Gatehouse.Login
import Gatehouse.Main
import Gatehouse.Peer
import Gatehouse.Region
import Gatehouse.Request.Params
import Gatehouse.Request.Typed
import Gatehouse.Service.Answers
import Gatehouse.Service.Router
import Gatehouse.Service.State
import Gatehouse.Service.Target
import Gatehouse.Session.Codec
import Gatehouse.Session.Fragment
import Gatehouse.Session.Id
import Gatehouse.Settings.Basic
import Gatehouse.Settings.Environment
import Gatehouse.Settings.OfToml
import Gatehouse.Settings.ToToml
import Gatehouse.Store.Basic
import Gatehouse.Store.Table
import Gatehouse.Text.Form
import Gatehouse.Text.Numeral
import Gatehouse.Text.Quoted
import Gatehouse.Text.Utf8
import Gatehouse.Timer
import Gatehouse.Toml.Basic
import Gatehouse.Toml.Document
import Gatehouse.Toml.Number
import Gatehouse.Toml.Printer
import Gatehouse.Toml.Reader
import Gatehouse.Toml.Text
import Gatehouse.Tracker
import Gatehouse.Proofs.Text.Decimal
import Gatehouse.Proofs.Text.Hex
import Gatehouse.Proofs.Json.Layout
import Gatehouse.Proofs.Json.Lexer
import Gatehouse.Proofs.Json.Reader
import Gatehouse.Proofs.Json.Record
import Gatehouse.Proofs.Session.Tolerance
import Gatehouse.Proofs.Session.Codec
import Gatehouse.Proofs.Store
import Gatehouse.Proofs.Tracker
import Gatehouse.Proofs.Visit
import Gatehouse.Proofs.Fleet
import Gatehouse.Proofs.Ledger.Basic
import Gatehouse.Proofs.Ledger.Run
import Gatehouse.Proofs.Ledger.Summary
import Gatehouse.Proofs.Watch.Desk
import Gatehouse.Proofs.Watch.Run
import Gatehouse.Proofs.Path
import Gatehouse.Proofs.Files
import Gatehouse.Proofs.Rotation
import Gatehouse.Proofs.Peer
import Gatehouse.Proofs.Service.Refusal
import Gatehouse.Proofs.Service.Handshakes
import Gatehouse.Proofs.Service.Acceptance
import Gatehouse.Proofs.Course
import Gatehouse.Proofs.Deadline
import Gatehouse.Proofs.Apart.Timer
import Gatehouse.Proofs.Apart.Desk
import Gatehouse.Proofs.Apart.Run
import Gatehouse.Proofs.Beside.Desk
import Gatehouse.Proofs.Beside.Run
import Gatehouse.Proofs.Beside.Kept
import Gatehouse.Proofs.Ledger.Redelivery
import Gatehouse.Proofs.Outage
import Gatehouse.Proofs.Backend.Store
import Gatehouse.Proofs.Backend.Run
import Gatehouse.Proofs.Attribution.Desk
import Gatehouse.Proofs.Attribution.Run
import Gatehouse.Proofs.Text.Order
import Gatehouse.Proofs.Announcement
import Gatehouse.Proofs.Login
import Gatehouse.Proofs.Admission
import Gatehouse.Proofs.Service.Lifecycle
import Gatehouse.Proofs.Service.Greeting
import Gatehouse.Proofs.Freshness
import Gatehouse.Proofs.Recovery
import Gatehouse.Proofs.Provenance
import Gatehouse.Proofs.Healing
import Gatehouse.Proofs.Event
import Gatehouse.Proofs.Discovery
import Gatehouse.Proofs.Catalog
import Gatehouse.Proofs.Region
import Gatehouse.Proofs.Session.Naming
import Gatehouse.Proofs.Service.Download
import Gatehouse.Proofs.Request.Typed
import Gatehouse.Proofs.Toml.Text
import Gatehouse.Proofs.Toml.Reader
import Gatehouse.Proofs.Toml.Document
import Gatehouse.Proofs.Settings
