import Reticulum.Channel.Acknowledge
import Reticulum.Resource.Admission
import Reticulum.Transport.Replay
import Reticulum.Channel.Ring
import Reticulum.Resource.HashMap
import Reticulum.Resource.ControlFrames
import Reticulum.Resource.Limits
import Reticulum.Channel.Stream
import Reticulum.Transport.EndpointAccounts
import Reticulum.Wire.Packet
import Reticulum.Transport.Hashlist
import Reticulum.Transport.LinkPath
import Reticulum.Transport.RateLimit
import Reticulum.Transport.ReturnProofs
import Reticulum.Interface.Kiss
import Reticulum.Link.Requests
import Reticulum.Transport.RequestFlood
import Reticulum.Manager.Runs
import Reticulum.Transport.Tunnels
import Reticulum.Transport.Airtime
import Reticulum.Transport.PathRecovery
import Reticulum.Resource.StaleReport
import Reticulum.Transport.InterfaceOwnership
import Reticulum.Runtime.ReceivedFiles
import Reticulum.Runtime.ControlServer
