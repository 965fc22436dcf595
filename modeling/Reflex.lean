import Reflex.Bytes
import Reflex.Crypto
import Reflex.Frame
import Reflex.Morphing
import Reflex.FrameRun
import Reflex.Validator
import Reflex.Handshake
import Reflex.Request
import Reflex.Fallback
import Reflex.ClientHello
import Reflex.HttpHead
import Reflex.Bounds
import Reflex.Relay
import Reflex.Inbound
import Reflex.Outbound
import Reflex.Session
import Reflex.Pools
import Reflex.Batch
import Reflex.MorphingRun
import Reflex.Routing
