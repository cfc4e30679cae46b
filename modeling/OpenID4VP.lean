import OpenID4VP.Lib.Prog
import OpenID4VP.Lib.Calls
import OpenID4VP.Lib.Ledger
import OpenID4VP.Lib.Members
import OpenID4VP.Lib.Split
import OpenID4VP.Lib.Forest
import OpenID4VP.Lib.Utf8
import OpenID4VP.Lib.Form
import OpenID4VP.Lib.Base64
import OpenID4VP.Lib.Serde
import OpenID4VP.Lib.Kept
import OpenID4VP.Lib.Once
import OpenID4VP.Lib.Json.Tree
import OpenID4VP.Lib.Json.Text
import OpenID4VP.Lib.Json.RoundTrip
import OpenID4VP.Lib.Json.Equality
import OpenID4VP.Utils
import OpenID4VP.Core.CredentialFormat
import OpenID4VP.Crates
import OpenID4VP.Crates.Reference
import OpenID4VP.Crates.Reference.Origins
import OpenID4VP.Crates.Reference.Signatures
import OpenID4VP.Core.InputDescriptor
import OpenID4VP.Core.InputDescriptor.RoundTrip
import OpenID4VP.Core.PresentationDefinition
import OpenID4VP.Core.InputDescriptor.Evaluation
import OpenID4VP.Core.InputDescriptor.Requested
import OpenID4VP.Core.PresentationDefinition.Requirements
import OpenID4VP.Core.PresentationDefinition.RoundTrip
import OpenID4VP.Core.PresentationSubmission
import OpenID4VP.Core.Matching
import OpenID4VP.Core.NestedInputs
import OpenID4VP.Core.SubmissionValidation
import OpenID4VP.Core.OrderIndependence
import OpenID4VP.Core.Acceptance
import OpenID4VP.Core.HeldClaims
import OpenID4VP.Core.EntryLevels
import OpenID4VP.Core.Error
import OpenID4VP.Core.Object
import OpenID4VP.Core.Dcql
import OpenID4VP.Core.Dcql.RoundTrip
import OpenID4VP.Core.Dcql.TrustedAuthorities
import OpenID4VP.Core.Dcql.Codec
import OpenID4VP.Core.AuthorizationRequest.Parameters
import OpenID4VP.Core.AuthorizationRequest.Identifiers
import OpenID4VP.Core.AuthorizationRequest.ExpectedOrigins
import OpenID4VP.Core.Metadata
import OpenID4VP.Core.Metadata.Prefixes
import OpenID4VP.Core.Metadata.RoundTrip
import OpenID4VP.Core.Metadata.Published
import OpenID4VP.Core.Metadata.UrlForm
import OpenID4VP.Core.Http
import OpenID4VP.Core.AuthorizationRequest.Object
import OpenID4VP.Core.AuthorizationRequest.PresentationQuery
import OpenID4VP.Wallet
import OpenID4VP.Core.AuthorizationRequest.Verification
import OpenID4VP.Core.AuthorizationRequest.Authentication
import OpenID4VP.Core.AuthorizationRequest.Soundness
import OpenID4VP.Core.AuthorizationRequest.Completeness
import OpenID4VP.Core.AuthorizationRequest.Rejection
import OpenID4VP.Core.AuthorizationRequest.TransactionData
import OpenID4VP.Core.AuthorizationRequest.TransactionData.Members
import OpenID4VP.Core.AuthorizationRequest.TransactionData.Codec
import OpenID4VP.Core.AuthorizationRequest.Malformed
import OpenID4VP.Core.AuthorizationRequest.Negotiation
import OpenID4VP.Core.AuthorizationRequest.SharedFormats
import OpenID4VP.Core.AuthorizationRequest.Request
import OpenID4VP.Core.AuthorizationRequest.QueryParameters
import OpenID4VP.Core.AuthorizationRequest.Resolve
import OpenID4VP.Core.AuthorizationRequest.PostBody
import OpenID4VP.Core.AuthorizationRequest.RoundTrip
import OpenID4VP.Core.Response.Parameters
import OpenID4VP.Core.Response
import OpenID4VP.Core.Response.RoundTrip
import OpenID4VP.Core.Response.Object
import OpenID4VP.Core.Response.TransactionData
import OpenID4VP.Wallet.ValidateRequest
import OpenID4VP.Wallet.SubmitResponse
import OpenID4VP.Wallet.Sessions
import OpenID4VP.Wallet.Sessions.Requests
import OpenID4VP.Wallet.Sessions.Responses
import OpenID4VP.Wallet.Sessions.Lookups
import OpenID4VP.Wallet.Sessions.Interleaving
import OpenID4VP.Wallet.Sessions.Nonces
import OpenID4VP.Verifier
import OpenID4VP.Verifier.Postcondition
import OpenID4VP.Verifier.Completeness
import OpenID4VP.Verifier.Client
import OpenID4VP.Wallet.IdToken
import OpenID4VP.Core.AuthorizationRequest.Verification.X509San
import OpenID4VP.Core.AuthorizationRequest.Verification.Did
import OpenID4VP.Core.AuthorizationRequest.Verification.Signature
import OpenID4VP.Verifier.SignedRequest
import OpenID4VP.Verifier.HonestRun
import OpenID4VP.Verifier.SigningLog
import OpenID4VP.Wallet.Sessions.Authenticity
import OpenID4VP.Verifier.Authenticity
import OpenID4VP.Verifier.Conversation
import OpenID4VP.Verifier.Presentation
import OpenID4VP.Verifier.Dcql
