import QueueDrain.Error
import QueueDrain.Text.Lowercase
import QueueDrain.Url

/-!
# Endpoints

A broker's address as an AMQP URI gives it, with the defaults of that scheme for whatever the URI
leaves out.

## Main definitions

* `Endpoint` — where the broker is and how to log in
* `Endpoint.shown` — the address without credentials
* `Endpoint.Fault`, `Endpoint.parse` — a text as an endpoint
-/

namespace QueueDrain

/-- The ways to log in that a URI can name. -/
inductive SaslMechanism where
  | amqplain
  | external
  | plain
  | rabbitCrDemo
deriving DecidableEq, Repr

/-- The name of a mechanism in the protocol. -/
def SaslMechanism.text : SaslMechanism → String
  | .amqplain => "AMQPLAIN"
  | .external => "EXTERNAL"
  | .plain => "PLAIN"
  | .rabbitCrDemo => "RABBIT-CR-DEMO"

/-- Where the broker is and how to log in. -/
@[ext]
structure Endpoint where
  /-- Whether the connection is encrypted. -/
  secure : Bool
  username : String
  password : String
  host : String
  port : Nat
  vhost : String
  frameMax : Option Nat
  channelMax : Option Nat
  heartbeat : Option Nat
  connectionTimeout : Option Nat
  authMechanism : Option SaslMechanism
deriving DecidableEq, Repr

namespace Endpoint

/-- The scheme of an encrypted connection, or of a plain one. -/
def schemeText (secure : Bool) : String := if secure then "amqps" else "amqp"

/-- The scheme of an endpoint. -/
def scheme (e : Endpoint) : String := schemeText e.secure

/-- The port that a scheme has unless the URI gives another. -/
def defaultPort (secure : Bool) : Nat := if secure then 5671 else 5672

/-- User name and password where the URI gives none. -/
def defaultCredential : String := "guest"

/-- The host where the URI gives no name. -/
def defaultHost : String := "localhost"

/-- The virtual host of a URI without a path. -/
def defaultVhost : String := "/"

/-- The address without credentials, with a text for the port. -/
def shownAt (e : Endpoint) (port : String) : String :=
  e.scheme ++ "://" ++ e.host ++ ":" ++ port ++ " (vhost '" ++ e.vhost ++ "')"

/-- The address without credentials, for logs and reports. -/
def shown (e : Endpoint) : String := e.shownAt (Decimal.text e.port)

/-- Why a text is no endpoint. -/
inductive Fault where
  | url (fault : Url.Fault)
  /-- The path has no hierarchy. -/
  | opaquePath (raw : String)
  | unknownScheme (scheme : String)
  | notUtf8 (fault : Utf8.Fault)
  | number (fault : Decimal.Fault)
  | unknownMechanism (name : String)
deriving DecidableEq, Repr

/-- The wording of a fault. -/
def Fault.message : Fault → String
  | .url fault => fault.message
  | .opaquePath raw => "Invalid URL: '" ++ raw ++ "'"
  | .unknownScheme scheme => "Invalid AMQP scheme: " ++ scheme
  | .notUtf8 fault => fault.message
  | .number fault => fault.message
  | .unknownMechanism name => "Invalid SASL mechanism: " ++ name

/-- The error that a fault is reported as. -/
def Fault.toError (fault : Fault) : DrainError := .invalidEndpoint fault.message

/-- Whether a scheme asks for encryption. -/
def readScheme (scheme : String) : Except Fault Bool :=
  if scheme = "amqp" then .ok false
  else if scheme = "amqps" then .ok true
  else .error (.unknownScheme scheme)

/-- The text that a component with escapes denotes. -/
def readText (component : List Char) : Except Fault String :=
  match Utf8.decode (Percent.decode component) with
  | .ok cs => .ok (String.ofList cs)
  | .error fault => .error (.notUtf8 fault)

/-- The host that a connection is made to. Only a name is taken over. -/
def readHost : Option Url.Host → Except Fault String
  | some (.name text) => readText text
  | _ => .ok defaultHost

/-- A number in the query, if there is a field for it. -/
def readNumber (fields : List (String × String)) (name : String) (limit : Nat) :
    Except Fault (Option Nat) :=
  match Url.Query.first? name fields with
  | none => .ok none
  | some value =>
    match Decimal.readUpTo limit value.toList with
    | .ok n => .ok (some n)
    | .error fault => .error (.number fault)

/-- The mechanism of a lower-case name. -/
def readMechanism (name : String) : Except Fault SaslMechanism :=
  if name = "amqplain" then .ok .amqplain
  else if name = "external" then .ok .external
  else if name = "plain" then .ok .plain
  else if name = "rabbit-cr-demo" then .ok .rabbitCrDemo
  else .error (.unknownMechanism name)

/-- The endpoint that the components of a URL denote. -/
def ofUrl (raw : String) (url : Url) : Except Fault Endpoint := do
  if url.hasOpaquePath then throw (.opaquePath raw)
  let secure ← readScheme url.scheme
  let username ←
    if url.username.isEmpty then pure defaultCredential else readText url.username
  let password ←
    match url.password with
    | none => pure defaultCredential
    | some password => readText password
  let host ← readHost url.host
  let port := url.port.getD (defaultPort secure)
  let vhost ←
    if url.segments.isEmpty then pure defaultVhost else readText (Url.Path.text url.segments)
  let fields := Url.Query.fields (url.query.getD [])
  let frameMax ← readNumber fields "frame_max" 4294967295
  let channelMax ← readNumber fields "channel_max" 65535
  let heartbeat ← readNumber fields "heartbeat" 65535
  let connectionTimeout ← readNumber fields "connection_timeout" 18446744073709551615
  let authMechanism ←
    match Url.Query.first? "auth_mechanism" fields with
    | none => pure none
    | some name => some <$> readMechanism (Lowercase.text name)
  return { secure, username, password, host, port, vhost, frameMax, channelMax, heartbeat,
           connectionTimeout, authMechanism }

/-- A text as an endpoint. -/
def parse (raw : String) : Except Fault Endpoint :=
  match Url.parse raw with
  | .ok url => ofUrl raw url
  | .error fault => .error (.url fault)

end Endpoint

end QueueDrain
