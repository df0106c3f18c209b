import WebTransportEcho.Store.Coverage
import WebTransportEcho.Store.Signal
import WebTransportEcho.Store.Recovery
import WebTransportEcho.Store.Anonymity
import WebTransportEcho.Store.Loading
import WebTransportEcho.Store.Idempotent
import WebTransportEcho.Store.Reordered
import WebTransportEcho.Page.Stop
import WebTransportEcho.Page.Echo
import WebTransportEcho.Page.Analysis
import WebTransportEcho.Page.Target
import WebTransportEcho.Page.Accepted
import WebTransportEcho.Server.Overview
import WebTransportEcho.Server.Files
import WebTransportEcho.Server.Guarded
import WebTransportEcho.Results.Reader
import WebTransportEcho.Server.RateLimit
import WebTransportEcho.Server.Certificate
import WebTransportEcho.Backend.Responses
import WebTransportEcho.Backend.UniEcho
import WebTransportEcho.Backend.Worker
import WebTransportEcho.Backend.Prefaces
import WebTransportEcho.Backend.Negotiation
import WebTransportEcho.Backend.Isolation
import WebTransportEcho.Deploy.SyncCertificate
import WebTransportEcho.Health.Arrived
import WebTransportEcho.Deploy.Differential
import WebTransportEcho.Backend.Connection
