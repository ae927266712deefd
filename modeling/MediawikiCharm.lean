import MediawikiCharm.Lib.Program
import MediawikiCharm.Lib.Machine
import MediawikiCharm.Exceptions
import MediawikiCharm.Records
import MediawikiCharm.Peers
import MediawikiCharm.Peers.Modes
import MediawikiCharm.Peers.Hooks
import MediawikiCharm.Database
import MediawikiCharm.Actions
import MediawikiCharm.WriteProtection
import MediawikiCharm.Lib.PyText
import MediawikiCharm.Lib.Substitution
import MediawikiCharm.LogRedaction
import MediawikiCharm.Lib.Json
import MediawikiCharm.Lib.JsonRoundtrip
import MediawikiCharm.Lib.JsonScan
import MediawikiCharm.Lib.JsonLimits
import MediawikiCharm.Pebble
import MediawikiCharm.Workload
import MediawikiCharm.State
import MediawikiCharm.Composer
import MediawikiCharm.Composer.Contract
import MediawikiCharm.Services
import MediawikiCharm.Services.Convergence
import MediawikiCharm.Settings
import MediawikiCharm.Core
import MediawikiCharm.Cycles
import MediawikiCharm.Failover
import MediawikiCharm.LocalisationCache
import MediawikiCharm.MaintenanceExits
import MediawikiCharm.LeaderState
import MediawikiCharm.CertificateTransfer
import MediawikiCharm.Lib.Schema
import MediawikiCharm.PrimaryKeys
import MediawikiCharm.PrimaryKeys.Shape
import MediawikiCharm.PrimaryKeys.Repair
import MediawikiCharm.PrimaryKeys.Convergence
import MediawikiCharm.Installation
import MediawikiCharm.Lib.Coverage
import MediawikiCharm.LogRedaction.Bytes
import MediawikiCharm.LogRedaction.Overlap
import MediawikiCharm.LogRedaction.Renderings
import MediawikiCharm.Egress
import MediawikiCharm.SmtpSettings
import MediawikiCharm.Undisturbed
import MediawikiCharm.Rewriting
import MediawikiCharm.Exits
import MediawikiCharm.SmtpTunnel
import MediawikiCharm.Lib.JsonEquality
import MediawikiCharm.Composer.Fingerprint
import MediawikiCharm.Tls
import MediawikiCharm.Remotes
import MediawikiCharm.GitSync
import MediawikiCharm.Lib.Encoding
import MediawikiCharm.Lib.Utf8
import MediawikiCharm.Lib.PyAddress
import MediawikiCharm.Lib.PyUrl
import MediawikiCharm.Lib.PyUrlJoin
import MediawikiCharm.Lib.StringTemplate
import MediawikiCharm.Lib.PhpLiteral
import MediawikiCharm.Lib.PhpTokens
import MediawikiCharm.Lib.PhpArrays
import MediawikiCharm.UrlOrigin
import MediawikiCharm.PhpStrings
import MediawikiCharm.UrlOrigin.Grammar
import MediawikiCharm.UrlOrigin.Literal
import MediawikiCharm.Lib.Split
import MediawikiCharm.Lib.Lines
import MediawikiCharm.Lib.Textwrap
import MediawikiCharm.Lib.ShellWords
import MediawikiCharm.Lib.Socat
import MediawikiCharm.PhpLayout
import MediawikiCharm.PhpLayout.Code
import MediawikiCharm.PhpLayout.Text
import MediawikiCharm.PhpLayout.Entries
import MediawikiCharm.PhpLayout.Margins
import MediawikiCharm.LateSettings.Database
import MediawikiCharm.LateSettings.S3
import MediawikiCharm.LateSettings.Smtp
import MediawikiCharm.LateSettings.Auth
import MediawikiCharm.LateSettings.AuthSettings
import MediawikiCharm.LateSettings.OAuth
import MediawikiCharm.LateSettings.Values
import MediawikiCharm.Saml
import MediawikiCharm.Saml.Metadata
import MediawikiCharm.SiteInfo
import MediawikiCharm.ReplicaSecrets
import MediawikiCharm.ReplicaSecrets.Runs
import MediawikiCharm.Startup
import MediawikiCharm.Egress.Hosts
import MediawikiCharm.Egress.Addresses
import MediawikiCharm.PhpLayout.Arrays
import MediawikiCharm.Saml.Layout
import MediawikiCharm.Saml.Sound
import MediawikiCharm.Peers.Progress
import MediawikiCharm.LateSettings.Cache
import MediawikiCharm.LateSettings.Code
import MediawikiCharm.Lib.Shlex
import MediawikiCharm.Scripts
import MediawikiCharm.Scripts.Users
import MediawikiCharm.GitSync.Command
import MediawikiCharm.DebugLogGroups
import MediawikiCharm.Shellbox.Runs
import MediawikiCharm.LogRedaction.Seeding
