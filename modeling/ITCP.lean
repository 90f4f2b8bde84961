import ITCP.Proofs.Receive
import ITCP.Proofs.OneWay
import ITCP.Proofs.Accept
import ITCP.Proofs.RoundTrip
import ITCP.Proofs.Routes
import ITCP.Proofs.Reassembly
import ITCP.Proofs.Monitor
import ITCP.Proofs.WaitLoops
import ITCP.Proofs.Forward
import ITCP.Proofs.SimultaneousOpen
import ITCP.Proofs.Closing
import ITCP.Proofs.Advance
import ITCP.Proofs.Router
import ITCP.Proofs.Learning
import ITCP.Proofs.Prefixes
import ITCP.Proofs.Calls
import ITCP.Proofs.Frames
import ITCP.Proofs.Buffers
import ITCP.Proofs.SendWindow
import ITCP.Proofs.Origins
import ITCP.Proofs.RouteMap
import ITCP.Proofs.Devices
import ITCP.Proofs.Settling
import ITCP.Proofs.Delivery
import ITCP.Proofs.Steady
import ITCP.Proofs.Stack
import ITCP.Proofs.Daemons
