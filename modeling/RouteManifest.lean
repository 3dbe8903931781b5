import RouteManifest.Cancellation
import RouteManifest.Exchange
import RouteManifest.Main
import RouteManifest.Proofs.Discovery.Duplicate
import RouteManifest.Proofs.Json.String
import RouteManifest.Proofs.Number.Shortest
import RouteManifest.Proofs.Script.Source
import RouteManifest.Proofs.Json.Numeral
import RouteManifest.Proofs.Json.Document
import RouteManifest.Proofs.Json.Members
import RouteManifest.Proofs.Json.Value
import RouteManifest.Proofs.Server.Framing
import RouteManifest.Proofs.Server.Notification
import RouteManifest.Proofs.Scan.Session
import RouteManifest.Proofs.Endpoint.Reserved
import RouteManifest.Proofs.Endpoint.ReadBack
import RouteManifest.Proofs.Endpoint.NodeForm
import RouteManifest.Proofs.Server.Answers
import RouteManifest.Proofs.Command.Show
import RouteManifest.Proofs.Endpoint.Decision
import RouteManifest.Proofs.Endpoint.Returned
import RouteManifest.Proofs.Endpoint.Roles
import RouteManifest.Proofs.Command.Inspect
import RouteManifest.Proofs.Script.Integer
import RouteManifest.Proofs.Script.Layout
import RouteManifest.Proofs.Script.ReadBack
import RouteManifest.Proofs.Endpoint.Select
import RouteManifest.Proofs.Scan.Stem
import RouteManifest.Proofs.Discovery.Table
import RouteManifest.Proofs.Command.Confine
import RouteManifest.Proofs.Script.Concatenation
import RouteManifest.Proofs.Cancellation
import RouteManifest.Proofs.Exchange
import RouteManifest.Proofs.Json.Meaning
import RouteManifest.Proofs.Script.OpenNodes
