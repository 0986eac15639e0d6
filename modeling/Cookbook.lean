import Cookbook.Auth.Base64
import Cookbook.Auth.Base64Laws
import Cookbook.Auth.ClientCredentials
import Cookbook.Auth.IdentityToken
import Cookbook.Auth.Jwt
import Cookbook.Auth.PolicyToken
import Cookbook.Auth.TermsSurvive
import Cookbook.Auth.TokenTerms
import Cookbook.Crypto.BaseTable
import Cookbook.Crypto.Compression
import Cookbook.Crypto.Field
import Cookbook.Crypto.FieldBytes
import Cookbook.Crypto.FieldPowers
import Cookbook.Crypto.FieldValues
import Cookbook.Crypto.Group
import Cookbook.Crypto.GroupBounds
import Cookbook.Crypto.Hmac
import Cookbook.Crypto.Recoding
import Cookbook.Crypto.Sha256
import Cookbook.Crypto.Sha512
import Cookbook.Crypto.Words
import Cookbook.Grid.Artifact
import Cookbook.Grid.Canonical
import Cookbook.Grid.ConnPool
import Cookbook.Grid.Forwarding
import Cookbook.Grid.GrantHeaders
import Cookbook.Grid.HeaderRoom
import Cookbook.Grid.Loops
import Cookbook.Grid.PeerKey
import Cookbook.Grid.SignedRequest
import Cookbook.Grid.Transport
import Cookbook.Http.Gzip
import Cookbook.Http.Readers
import Cookbook.Http.Response
import Cookbook.Http.Routes
import Cookbook.Http.Shim
import Cookbook.Kv.Backend
import Cookbook.Kv.Insertion
import Cookbook.Kv.Projection
import Cookbook.Kv.Rows
import Cookbook.Kv.Selection
import Cookbook.Kv.Statements
import Cookbook.Kv.Tables
import Cookbook.Kv.Update
import Cookbook.Ldap.BindResponse
import Cookbook.Ldap.Client
import Cookbook.Ldap.Entries
import Cookbook.Ldap.Lengths
import Cookbook.Ldap.OverTls
import Cookbook.Ldap.Requests
import Cookbook.Library.Ber
import Cookbook.Library.BlockHash
import Cookbook.Library.Buffer
import Cookbook.Library.Calendar
import Cookbook.Library.Calls
import Cookbook.Library.Collect
import Cookbook.Library.Congruential
import Cookbook.Library.Crc
import Cookbook.Library.Decisions
import Cookbook.Library.Digits
import Cookbook.Library.Filling
import Cookbook.Library.Floating
import Cookbook.Library.Form
import Cookbook.Library.Interleave
import Cookbook.Library.Json
import Cookbook.Library.Loop
import Cookbook.Library.Lucas
import Cookbook.Library.Number
import Cookbook.Library.Pacing
import Cookbook.Library.Pieces
import Cookbook.Library.PrefixMap
import Cookbook.Library.Program
import Cookbook.Library.Removal
import Cookbook.Library.Scanning
import Cookbook.Library.Separated
import Cookbook.Library.Sha2
import Cookbook.Library.Sorting
import Cookbook.Library.Sql
import Cookbook.Library.Text
import Cookbook.Pasta.Parser
import Cookbook.Pasta.Records
import Cookbook.Pasta.Value
import Cookbook.Pasta.Writer
import Cookbook.Policy.Access
import Cookbook.Policy.Check
import Cookbook.Policy.Documents
import Cookbook.Policy.Recipe
import Cookbook.Policy.Serialize
import Cookbook.Postgres.Translation
import Cookbook.Server.ArchiveNames
import Cookbook.Server.AuditLog
import Cookbook.Server.Authorize
import Cookbook.Server.BodyScans
import Cookbook.Server.CacheRuns
import Cookbook.Server.CoordinateIds
import Cookbook.Server.Coordinates
import Cookbook.Server.Device
import Cookbook.Server.DeviceRuns
import Cookbook.Server.FanOut
import Cookbook.Server.Integrity
import Cookbook.Server.Intervals
import Cookbook.Server.LdapGroups
import Cookbook.Server.Listings
import Cookbook.Server.Machine
import Cookbook.Server.Negotiation
import Cookbook.Server.ObjectCache
import Cookbook.Server.PastaJson
import Cookbook.Server.PathDecoding
import Cookbook.Server.Precedence
import Cookbook.Server.Publish
import Cookbook.Server.PublishRuns
import Cookbook.Server.RangeText
import Cookbook.Server.RateLimit
import Cookbook.Server.Requests
import Cookbook.Server.Resolvable
import Cookbook.Server.Resolve
import Cookbook.Server.ResolveOrder
import Cookbook.Server.Revocation
import Cookbook.Server.RevocationRuns
import Cookbook.Server.Rollback
import Cookbook.Server.Semver
import Cookbook.Server.SemverText
import Cookbook.Server.Serve
import Cookbook.Server.Spelling
import Cookbook.Server.Tables
import Cookbook.Server.TokenIds
import Cookbook.Server.Url
import Cookbook.Server.YankHeaders
import Cookbook.Store.Signing
import Cookbook.Tls.Authentication
import Cookbook.Tls.Authenticity
import Cookbook.Tls.Handshake
import Cookbook.Tls.Impersonation
import Cookbook.Tls.KeySchedule
import Cookbook.Tls.Nonces
import Cookbook.Tls.Packing
import Cookbook.Tls.Record
import Cookbook.Tls.Stream
