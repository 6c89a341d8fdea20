import Exchange.Order
import Exchange.Trade
import Exchange.Book
import Exchange.Balance
import Exchange.Wire
import Exchange.Text.Printable
import Exchange.Text.Quoted
import Exchange.Text.Integer
import Exchange.Text.White
import Exchange.Text.Utf8
import Exchange.Json.Value
import Exchange.Json.Syntax
import Exchange.Json.Stream
import Exchange.Json.Decode
import Exchange.Command.Basic
import Exchange.Command.Wire
import Exchange.Config.Files
import Exchange.Config.Duration
import Exchange.Config.Basic
import Exchange.Config.EnvFile
import Exchange.TradeLog
import Exchange.Ledger
import Exchange.Engine
import Exchange.Result
import Exchange.Service
import Exchange.Queue
import Exchange.Http.Target
import Exchange.Http.Route
import Exchange.Http.Message
import Exchange.Http.Serve
import Exchange.Stream.Hub
import Exchange.Server
import Exchange.Stream.Session
import Exchange.Launch
import Exchange.Main
import Exchange.Proofs.Except
import Exchange.Proofs.Session
import Exchange.Proofs.Ladder
import Exchange.Proofs.BookOrder
import Exchange.Proofs.BookRefinement
import Exchange.Proofs.Conservation
import Exchange.Proofs.JsonReadBack
import Exchange.Proofs.CommandCodec
import Exchange.Proofs.TradeNumbering
import Exchange.Proofs.TradeHandOff
import Exchange.Proofs.Consumer
import Exchange.Proofs.JsonDocuments
import Exchange.Proofs.Transports
import Exchange.Proofs.HubQueues
import Exchange.Proofs.Admission
import Exchange.Proofs.Sweep
import Exchange.Proofs.Placement
import Exchange.Proofs.CreditGuard
import Exchange.Proofs.TradeWindow
import Exchange.Proofs.DepthTotals
import Exchange.Proofs.Commutation
import Exchange.Proofs.Subscriptions
import Exchange.Proofs.ConfigChecks
