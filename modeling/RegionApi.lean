import RegionApi.Client.Pool
import RegionApi.Client.Setup
import RegionApi.Config.Check
import RegionApi.Config.OfJson
import RegionApi.Config.OfText
import RegionApi.Config.Text
import RegionApi.Resource
import RegionApi.Proofs.Client.Authentication
import RegionApi.Proofs.Client.Classification
import RegionApi.Proofs.Client.Contents
import RegionApi.Proofs.Client.Credentials
import RegionApi.Proofs.Client.Making
import RegionApi.Proofs.Client.Origin
import RegionApi.Proofs.Client.Refusal
import RegionApi.Proofs.Client.RoundTrip
import RegionApi.Proofs.Client.Secrecy
import RegionApi.Proofs.Client.SideBySide
import RegionApi.Proofs.Form.Operations
import RegionApi.Proofs.OAuth.Header
import RegionApi.Proofs.Resource.FollowUp
import RegionApi.Proofs.Resource.Navigation
import RegionApi.Proofs.Form.Reordering
import RegionApi.Proofs.OAuth.Signing
import RegionApi.Proofs.Json.Grammar
import RegionApi.Proofs.Json.Scan
import RegionApi.Proofs.Json.Numeral
import RegionApi.Proofs.Text.Utf8
import RegionApi.Proofs.Json.Literal
import RegionApi.Proofs.Json.Reading
import RegionApi.Proofs.Json.Printing
import RegionApi.Proofs.Resource.Bodies
import RegionApi.Proofs.Config.Text
import RegionApi.Proofs.Resource.Descent
import RegionApi.Proofs.Resource.Place
import RegionApi.Proofs.Config.Members
import RegionApi.Proofs.Config.Paths
import RegionApi.Proofs.Config.Disclosure
