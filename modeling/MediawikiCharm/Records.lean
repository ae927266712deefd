/-
Records that more than one part of the charm reads (`mediawiki/_secrets.py`, `mediawiki_peers.py`
and `relations/valkey.py`).
-/
import MediawikiCharm.Exceptions
import MediawikiCharm.Lib.PyText

namespace MediawikiCharm

open PyText

/-- `MediaWikiSecrets` -/
structure MediaWikiSecrets where
  secretKey : String := ""
  sessionSecret : String := ""
  samlSecretSalt : String := ""
  authenticationTokenVersion : String := ""
deriving DecidableEq

namespace MediaWikiSecrets

/-- `to_local_settings` -/
def toLocalSettings (s : MediaWikiSecrets) : List (String × String) :=
  [("$wgSecretKey", s.secretKey), ("$wgSessionSecret", s.sessionSecret),
    ("$wgAuthenticationTokenVersion", s.authenticationTokenVersion)]

/-- `to_juju_secret` -/
def toJujuSecret (s : MediaWikiSecrets) : List (String × String) :=
  [("key", s.secretKey), ("session", s.sessionSecret), ("saml-salt", s.samlSecretSalt),
    ("authentication-token-version", s.authenticationTokenVersion)]

end MediaWikiSecrets

/-- `MediaWikiPeerState` -/
structure PeerState where
  secrets : MediaWikiSecrets := {}
  operationMode : OperationMode := .normal
  maintenanceMessage : Option String := none
  composerLock : Option String := none
  leaderStateHash : Option String := none

/-- `ValkeyConnectionInfo`, as far as the settings show it. -/
structure ValkeyConnectionInfo where
  host : PyStr
  port : ℤ
  username : PyStr
  password : PyStr
  tls : Bool

end MediawikiCharm
