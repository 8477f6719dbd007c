import UriTemplate.Router.Session
import UriTemplate.Template.Session
import UriTemplate.Datum.Key
import UriTemplate.Proofs.Delimiting
import UriTemplate.Proofs.Retraction
import UriTemplate.Proofs.Expression
import UriTemplate.Proofs.Appending
import UriTemplate.Proofs.Delimited
import UriTemplate.Proofs.Cut
import UriTemplate.Proofs.RoundTrip
import UriTemplate.Proofs.Labelling
import UriTemplate.Proofs.Registry
import UriTemplate.Proofs.Rerouting
import UriTemplate.Proofs.Verdict
import UriTemplate.Proofs.Replies
import UriTemplate.Proofs.Concatenation
import UriTemplate.Proofs.FaultPlaces
import UriTemplate.Proofs.Grammar
import UriTemplate.Proofs.PatternText
import UriTemplate.Proofs.SpecFaults
import UriTemplate.Proofs.Continuation
import UriTemplate.Proofs.Relevance
import UriTemplate.Proofs.WireForm
