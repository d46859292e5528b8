import Keylens.Connection.Info
import Keylens.Connection.Url
import Keylens.Library.Decimal

/-!
# A connection that does not come up

A port that speaks TLS only answers a plaintext connection with a failure that tells the
user nothing.  Such a failure is recognised, and the URL to use instead is suggested.  That
URL is shown, so the password in it must not be.
-/

namespace Keylens.Connection

open Keylens.Library

/-- The errors that only connecting ends in. -/
inductive ConnectError where
  | connect (source : ClientError)
  | likelyNeedsTls (suggestion : Str) (source : ClientError)
  | connectTimeout (message : Str)
  deriving DecidableEq, Repr

def managedHosts : Str :=
  ("Managed hosts — DigitalOcean, Upstash, Aiven, ElastiCache with encryption " ++
    "in transit — are TLS-only.").toList

/-- The message of an error. -/
def ConnectError.text : ConnectError → Str
  | .connect source => "connection failed: ".toList ++ source.text
  | .likelyNeedsTls suggestion source =>
      ("connection failed: the server did not speak RESP.\n\n" ++
          "This usually means the port requires TLS and the url does not use it.\n" ++
          "Try `rediss://` instead of `redis://`:\n\n    ").toList ++
        suggestion ++ "\n\n".toList ++ managedHosts ++ "\n\nunderlying error: ".toList ++
        source.text
  | .connectTimeout message => message

def isPlaintextScheme (url : Str) : Bool :=
  "redis://".toList.isPrefixOf url || "redis-sentinel://".toList.isPrefixOf url ||
    "redis-cluster://".toList.isPrefixOf url

def looksLikePlaintextToTls (url : Str) (source : ClientError) : Bool :=
  if !isPlaintextScheme url then false
  else
    source.kind = .protocol || source.kind = .parse ||
      mentions ["expected string".toList, "protocol error".toList] source.details

/-- The plaintext schemes, each with the one for TLS. -/
def tlsSchemes : List (Str × Str) :=
  [("redis://".toList, "rediss://".toList),
    ("redis-sentinel://".toList, "rediss-sentinel://".toList),
    ("redis-cluster://".toList, "rediss-cluster://".toList)]

/-- The URL with its TLS scheme. -/
def toTlsUrl (url : Str) : Str :=
  (tlsSchemes.findSome? fun scheme => (url.dropPrefix? scheme.1).map (scheme.2 ++ ·)).getD url

/-- Only a plaintext URL gets the hint: over TLS the same failure means something else. -/
def classifyConnect (url : Str) (source : ClientError) : ConnectError :=
  if looksLikePlaintextToTls url source then .likelyNeedsTls (redactUrl (toTlsUrl url)) source
  else .connect source

/-- The handshake did not finish within so many seconds. -/
def connectTimeout (url : Str) (after : Nat) : ConnectError :=
  let msg := "connection failed: the handshake did not finish within ".toList ++
    decimal after ++ "s.".toList
  if isPlaintextScheme url then
    .connectTimeout (msg ++
      ("\n\nThe usual cause is a TLS-only port reached over plaintext — it accepts " ++
        "the connection, then closes it.\nTry `rediss://`:\n\n    ").toList ++
      redactUrl (toTlsUrl url) ++ "\n\n".toList ++ managedHosts)
  else
    .connectTimeout (msg ++
      ("\n\nThe scheme is already TLS, so check, in order:\n\n  " ++
        "1. Your IP is allowed. Managed hosts block by default — DigitalOcean calls " ++
        "this\n     \"Trusted Sources\", AWS uses security groups.\n  " ++
        "2. The password is url-encoded. A `@`, `/`, `:` or `#` in the password will " ++
        "corrupt\n     the url unless percent-encoded.\n  " ++
        "3. The host and port are right, and the server is reachable:\n     " ++
        "`redis-cli --tls -u '<your-url>' PING`\n\n" ++
        "For the full handshake trace:\n  " ++
        "KEYLENS_LOG=debug KEYLENS_LOG_FILE=/tmp/keylens.log keylens --url ... probe").toList)

/-- What is not up to this program: how the client library's own handshake ends, and whether
everything is done by the deadline. -/
structure Attempt where
  init : Except ClientError Unit
  inTime : Bool

/-- A client that does not come up, or not in time, leaves no connection. -/
def connectWithTimeout (api : InfoApi) (url : Str) (timeout : Nat) (client : Client)
    (attempt : Attempt) : Except ConnectError Connected :=
  if !attempt.inTime then .error (connectTimeout url timeout)
  else
    match attempt.init with
    | .error e => .error (classifyConnect url e)
    | .ok () => .ok (handshake api client)

theorem connectWithTimeout_eq_ok {api : InfoApi} {url : Str} {timeout : Nat} {client : Client}
    {attempt : Attempt} {conn : Connected} :
    connectWithTimeout api url timeout client attempt = .ok conn ↔
      attempt.inTime ∧ attempt.init = .ok () ∧ handshake api client = conn := by
  rw [connectWithTimeout]
  rcases attempt with ⟨init, inTime⟩
  cases inTime with
  | false => simp
  | true => cases init <;> simp

/-! ## The scheme -/

section Scheme

variable {scheme rest : Str}

end Scheme

/-! ## What is shown of a password -/

section Password

variable {scheme user host : Str}

end Password

end Keylens.Connection
