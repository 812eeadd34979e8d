import SmartGuard.Route.Reversal
import SmartGuard.Route.Bypass
import SmartGuard.Route.Underlay
import SmartGuard.Route.Agreement
import SmartGuard.Session.Cryptokey
import SmartGuard.Session.Transport
import SmartGuard.Tunnel.Retry
import SmartGuard.Card.Cache
import SmartGuard.Route.Settle
import SmartGuard.Route.Interface
import SmartGuard.Route.Idle
import SmartGuard.Route.Fallback
import SmartGuard.Card.Trace
import SmartGuard.Card.Protocol
import SmartGuard.Card.Identity
import SmartGuard.Card.LowOrder
import SmartGuard.Card.PinCounter
import SmartGuard.Card.PublicKey
import SmartGuard.Session.Bounds
import SmartGuard.Route.Original
import SmartGuard.Route.DeadEnd
import SmartGuard.Card.List
import SmartGuard.Session.Order
import SmartGuard.Tunnel.Config
import SmartGuard.Card.Conversation
import SmartGuard.Route.Command
import SmartGuard.Tunnel.Lifecycle
import SmartGuard.Tunnel.Confinement
import SmartGuard.Tunnel.Progress
import SmartGuard.Tunnel.Network
import SmartGuard.Session.Exchange
import SmartGuard.Card.Priming
