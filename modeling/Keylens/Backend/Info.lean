import Keylens.Connection.Connecting
import Keylens.Connection.Redis
import Keylens.Backend.Messages

/-!
# Whether the stats are refreshed

The worker refreshes the stats of a server only if the connection says that it has
`INFO`.  That flag agrees with the fields the handshake read unless `INFO` failed
with an error that does not refuse the command: such an error counts as a feature
that is there, and there is nothing to show for it.
-/

namespace Keylens.Backend

open Keylens.Library Keylens.Connection

/-- Refresh the stats, unless the last refresh is still out. -/
def spawnInfo (api : InfoApi) (conn : Conn) (busy : Bool) : Option Update :=
  if busy then none
  else
    match conn.refreshInfo api with
    | .ok info => some (.info info)
    | .error e => some (.error e.text)

/-- What comes of `RefreshInfo`: a server without `INFO` would fail it on every tick. -/
def refreshInfo (api : InfoApi) (conn : Conn) (busy : Bool) : Option Update :=
  if !conn.hasServerInfo then none else spawnInfo api conn busy

/-- The flag is true of the fields, and where there are none the stats are neither
refreshed nor painted over with an error, whatever the server answers later on. -/
def TellsTruth (api : InfoApi) (conn : Connected) : Prop :=
  (conn.hasServerInfo ↔ conn.server.fields ≠ []) ∧
    (conn.server.fields = [] → ∀ later busy,
      refreshInfo api { conn.toConn with client := later } busy = none)

theorem tellsTruth_of_flag {api : InfoApi} {conn : Connected}
    (flag : conn.hasServerInfo ↔ conn.server.fields ≠ []) : TellsTruth api conn := by
  refine ⟨flag, ?_⟩
  intro empty later busy
  have absent : conn.hasServerInfo = false := by
    rw [← Bool.not_eq_true, flag]
    exact not_not.mpr empty
  have sameFlag : ({ conn.toConn with client := later } : Conn).hasServerInfo = false := absent
  rw [refreshInfo, sameFlag]
  rfl

/-- The flag of a connection that comes up tells the truth exactly when an `INFO` that fails
is refused: by a message that the command is not known, not supported or not permitted. -/
theorem tellsTruth_iff_refused (api : InfoApi) (url : Str) (timeout : Nat) (client : Client)
    (attempt : Attempt) :
    (∀ conn, connectWithTimeout api url timeout client attempt = .ok conn → TellsTruth api conn) ↔
      (attempt.inTime → attempt.init = .ok () →
        ∀ error, infoReply api client = .error error → refuses error.details) := by
  constructor
  · intro truthful inTime comesUp error failed
    have connected : connectWithTimeout api url timeout client attempt =
        .ok (handshake api client) := connectWithTimeout_eq_ok.mpr ⟨inTime, comesUp, rfl⟩
    rcases truthful _ connected with ⟨flag, _⟩
    rcases hasServerInfo_handshake_error failed with ⟨empty, classified⟩
    by_contra notRefused
    rw [classified, Bool.not_eq_true _ |>.mp notRefused] at flag
    exact flag.mp rfl empty
  · intro refused conn connected
    rcases connectWithTimeout_eq_ok.mp connected with ⟨inTime, comesUp, rfl⟩
    apply tellsTruth_of_flag
    cases reply : infoReply api client with
    | ok raw => exact hasServerInfo_handshake_ok reply
    | error error =>
        rcases hasServerInfo_handshake_error reply with ⟨empty, classified⟩
        rw [classified, refused inTime comesUp error reply]
        simp [empty]

/-- The server comes up and answers every probe, but `INFO` wants to be told a section. -/
def sectionClient : Client where
  api := plainApi
  isClustered := false
  custom name _ :=
    if name = .other "INFO".toList then
      .error ⟨.other "Unknown Error".toList,
        "ERR wrong number of arguments for 'info' command".toList⟩
    else .ok (.array [])
  buffer _ _ := .ok ()
  tryAll cmds := cmds.map fun _ => .ok (.array [])

/-- Texts are replies as they are. -/
def plainInfoApi : InfoApi where
  text
    | .string text => .ok text
    | _ => .error ⟨.parse, "Could not convert to string.".toList⟩

/-- Its `INFO` counts as available although nothing came of it. -/
theorem section_server_has_info :
    ∃ conn, connectWithTimeout plainInfoApi "redis://localhost".toList 60 sectionClient
        { init := .ok (), inTime := true } = .ok conn ∧
      conn.hasServerInfo = true ∧ conn.server.fields = [] ∧ ¬TellsTruth plainInfoApi conn := by
  have flag : (handshake plainInfoApi sectionClient).hasServerInfo = true := by decide +kernel
  have empty : (handshake plainInfoApi sectionClient).server.fields = [] := by decide +kernel
  refine ⟨handshake plainInfoApi sectionClient, rfl, flag, empty, ?_⟩
  rintro ⟨truthful, _⟩
  exact truthful.mp flag empty

end Keylens.Backend
