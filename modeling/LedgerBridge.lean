import LedgerBridge.Text.Utf8
import LedgerBridge.Text.Case
import LedgerBridge.Text.Blank
import LedgerBridge.Text.Quoted
import LedgerBridge.Hex
import LedgerBridge.Hex.Fixed
import LedgerBridge.Quantity
import LedgerBridge.Protobuf.Wire
import LedgerBridge.Protobuf.Format
import LedgerBridge.Ledger.Message
import LedgerBridge.Json
import LedgerBridge.Json.Text
import LedgerBridge.Json.Reader
import LedgerBridge.Json.Writer
import LedgerBridge.Json.Record
import LedgerBridge.Ledger.Event
import LedgerBridge.Ledger.Block
import LedgerBridge.Ledger.Commit
import LedgerBridge.Keccak
import LedgerBridge.Eth.Bloom
import LedgerBridge.Eth.Request
import LedgerBridge.Eth.Reply
import LedgerBridge.Http.Status
import LedgerBridge.Ledger.Access
import LedgerBridge.Eth.Error
import LedgerBridge.Eth.BlockRef
import LedgerBridge.Eth.Filter
import LedgerBridge.Eth.Place
import LedgerBridge.Eth.Service
import LedgerBridge.Eth.Contract
import LedgerBridge.Eth.Chain
import LedgerBridge.Eth.LogScan
import LedgerBridge.Rpc.Name
import LedgerBridge.Rpc.Params
import LedgerBridge.Rpc.Method
import LedgerBridge.Settings.Duration
import LedgerBridge.Settings.Cors
import LedgerBridge.Url
import LedgerBridge.Url.Percent
import LedgerBridge.Url.Punycode
import LedgerBridge.Url.Host
import LedgerBridge.Url.Parse
import LedgerBridge.Http.Message
import LedgerBridge.Http.MediaType
import LedgerBridge.Text.Encoding
import LedgerBridge.Gateway.Client
import LedgerBridge.Gateway.Answer
import LedgerBridge.Settings.Tree
import LedgerBridge.Settings.Toml
import LedgerBridge.Settings.Yaml
import LedgerBridge.Settings
import LedgerBridge.Settings.CommandLine
import LedgerBridge.Settings.File
import LedgerBridge.Rpc.Error
import LedgerBridge.Rpc.Message
import LedgerBridge.Rpc.Response
import LedgerBridge.Rpc.Route
import LedgerBridge.Rpc.Exchange
import LedgerBridge.Http.Cors
import LedgerBridge.Server
import LedgerBridge.Http.Wire
import LedgerBridge.Main
import LedgerBridge.Proofs.Except
import LedgerBridge.Proofs.Protobuf.RoundTrip
import LedgerBridge.Proofs.Protobuf.Wire
import LedgerBridge.Proofs.Protobuf.Regular
import LedgerBridge.Proofs.Ledger.Message
import LedgerBridge.Proofs.Ledger.MessageType
import LedgerBridge.Proofs.Ledger.Endorsement
import LedgerBridge.Proofs.Eth.LogFilter
import LedgerBridge.Proofs.Eth.LogScan
import LedgerBridge.Proofs.Eth.Receipt
import LedgerBridge.Proofs.Json.Number
import LedgerBridge.Proofs.Json.Reading
import LedgerBridge.Proofs.Json.Grammar
import LedgerBridge.Proofs.Json.RoundTrip
import LedgerBridge.Proofs.Ledger.Event
import LedgerBridge.Proofs.Ledger.Commit
import LedgerBridge.Proofs.Eth.CommittedLogs
import LedgerBridge.Proofs.Hex.Mark
import LedgerBridge.Proofs.Hex.Spelling
import LedgerBridge.Proofs.Json.Related
import LedgerBridge.Proofs.Eth.Place
import LedgerBridge.Proofs.Eth.Lookup
import LedgerBridge.Proofs.Eth.BlockListing
import LedgerBridge.Proofs.Eth.ScanFault
import LedgerBridge.Proofs.Eth.Session
import LedgerBridge.Proofs.Eth.LogAccess
import LedgerBridge.Proofs.Eth.RejectedSlots
import LedgerBridge.Proofs.Eth.SentTransaction
import LedgerBridge.Proofs.Eth.Bloom
import LedgerBridge.Proofs.Eth.ReceiptBloom
import LedgerBridge.Proofs.Eth.TransactionReceipt
import LedgerBridge.Proofs.Eth.EventSpelling
import LedgerBridge.Proofs.Eth.RequestSpelling
import LedgerBridge.Proofs.Eth.Refusal
import LedgerBridge.Proofs.Eth.ReadOnly
import LedgerBridge.Proofs.Rpc.Submission
import LedgerBridge.Proofs.Rpc.Refusal
import LedgerBridge.Proofs.Rpc.Spelling
import LedgerBridge.Proofs.Text.Utf8
import LedgerBridge.Proofs.Text.Case
import LedgerBridge.Proofs.Hex.Digits
import LedgerBridge.Proofs.Url.Percent
import LedgerBridge.Proofs.Url.Path
import LedgerBridge.Proofs.Gateway.Endpoint
import LedgerBridge.Proofs.Gateway.Question
import LedgerBridge.Proofs.Gateway.Contract
import LedgerBridge.Proofs.Gateway.Faithful
import LedgerBridge.Proofs.Rpc.Route
import LedgerBridge.Proofs.Json.Continue
import LedgerBridge.Proofs.Json.Entry
import LedgerBridge.Proofs.Rpc.Envelope
import LedgerBridge.Proofs.Rpc.Direct
import LedgerBridge.Proofs.Server
import LedgerBridge.Proofs.Protobuf.Invariant
import LedgerBridge.Proofs.Ledger.Extent
import LedgerBridge.Proofs.Eth.LogOrder
import LedgerBridge.Proofs.Eth.LogRange
import LedgerBridge.Proofs.Hex.Denotes
import LedgerBridge.Proofs.Eth.FilterMeaning
import LedgerBridge.Proofs.Eth.BlockRef
import LedgerBridge.Proofs.Eth.FilterChecks
import LedgerBridge.Proofs.Eth.BlockNumber
import LedgerBridge.Proofs.Ledger.Search
import LedgerBridge.Proofs.Json.Members
import LedgerBridge.Proofs.Eth.RequestForms
import LedgerBridge.Proofs.Json.Exact
import LedgerBridge.Proofs.Hex.Normal
import LedgerBridge.Proofs.Eth.Quantity
import LedgerBridge.Proofs.Eth.BloomAlgebra
import LedgerBridge.Proofs.Eth.Reply
import LedgerBridge.Proofs.Rpc.Name
import LedgerBridge.Proofs.Text.Blank
import LedgerBridge.Proofs.Settings.Duration
import LedgerBridge.Proofs.Settings.Cors
import LedgerBridge.Proofs.Settings.CommandLine
import LedgerBridge.Proofs.Settings.Tree
import LedgerBridge.Proofs.Text.LowerCase
import LedgerBridge.Proofs.Url.Punycode
import LedgerBridge.Proofs.Url.Address
import LedgerBridge.Proofs.Url.Host
import LedgerBridge.Proofs.Url.Segments
import LedgerBridge.Proofs.Url.Authority
import LedgerBridge.Proofs.Url.RoundTrip
import LedgerBridge.Proofs.Settings.Layering
