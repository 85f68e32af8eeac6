import Restconf.Engine.Sharing
import Restconf.Gateway.Run
import Restconf.Main
import Restconf.Proofs.Resource.RoundTrip
import Restconf.Proofs.Tree.Node
import Restconf.Proofs.Tree.Replay
import Restconf.Proofs.Json.Reader
import Restconf.Proofs.Tree.Reading
import Restconf.Proofs.Json.Merge
import Restconf.Proofs.Tree.Script
import Restconf.Proofs.Tree.RoundTrip
import Restconf.Proofs.Hub.Ledger
import Restconf.Proofs.Hub.Queue
import Restconf.Proofs.Hub.Count
import Restconf.Proofs.Hub.Frontier
import Restconf.Proofs.Hub.FanOut
import Restconf.Proofs.Hub.Pool
import Restconf.Proofs.Hub.Waiting
import Restconf.Proofs.Hub.Channel
import Restconf.Proofs.Hub.Stall
import Restconf.Proofs.Engine.Graft
import Restconf.Proofs.Engine.Names
import Restconf.Proofs.Service.Run
import Restconf.Proofs.Service.Create
import Restconf.Proofs.Engine.Depth
import Restconf.Proofs.Service.Answers
import Restconf.Proofs.Hub.Sight
import Restconf.Proofs.Hub.Isolation
import Restconf.Proofs.Hub.Departure
import Restconf.Proofs.Hub.Drain
import Restconf.Proofs.Service.Announcement
import Restconf.Proofs.Engine.Sharing
import Restconf.Proofs.Gateway.Effect
import Restconf.Proofs.Gateway.Listener
import Restconf.Proofs.Hub.Source
import Restconf.Proofs.Gateway.Relay
import Restconf.Proofs.Resource.Decoding
import Restconf.Proofs.Resource.Grammar
import Restconf.Proofs.Resource.Mount
import Restconf.Proofs.Engine.Resolution
import Restconf.Proofs.Engine.Creation
import Restconf.Proofs.Engine.Choice
import Restconf.Proofs.Engine.Deletion
import Restconf.Proofs.Service.Delete
import Restconf.Proofs.Engine.Replacement
import Restconf.Proofs.Service.Replace
import Restconf.Proofs.Engine.Commutation
import Restconf.Proofs.Tree.Nesting
import Restconf.Proofs.Tree.Rebuild
import Restconf.Proofs.Tree.Streaming
import Restconf.Proofs.Tree.Offence
import Restconf.Proofs.Tree.Growth
import Restconf.Proofs.Tree.Document
import Restconf.Proofs.Tree.Persistence
import Restconf.Proofs.Tree.Refusal
import Restconf.Proofs.Tree.Account
import Restconf.Proofs.Hub.LifeCycle
import Restconf.Proofs.Tree.Traversal
import Restconf.Proofs.Http.Routing
import Restconf.Proofs.Toml.Integer
import Restconf.Proofs.Settings.Startup
import Restconf.Proofs.Json.Numeral
import Restconf.Proofs.Json.Skip
import Restconf.Proofs.Json.Shape
import Restconf.Proofs.Resource.Serial
import Restconf.Proofs.Resource.Encoding
