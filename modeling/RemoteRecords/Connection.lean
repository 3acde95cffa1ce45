import RemoteRecords.Text.Decimal
import RemoteRecords.Text.Quoted

namespace RemoteRecords

/-- Which server to talk to, and as whom. -/
structure Connection where
  hostname : String
  port : Nat
  database : String
  username : String
  password : String
  schema : String
  deriving DecidableEq

namespace Connection

/-- The connection that is used where nothing else is said. -/
def default : Connection where
  hostname := "localhost"
  port := 8069
  database := "odoo"
  username := "admin"
  password := "admin"
  schema := "http"

/-! ## Endpoint -/

/-- Why a connection has no endpoint. -/
inductive Fault where
  | schema
  | port
  | hostname
  deriving DecidableEq, Repr

def Fault.message : Fault → String
  | .schema => "invalid schema: http or https"
  | .port => "invalid port: 1-65535"
  | .hostname => "invalid hostname length: 1-2048"

/-- The address that requests are posted to. Schema, port and length of the hostname are checked in
this order; the hostname is taken as it is. -/
def endpoint (connection : Connection) : Except Fault String :=
  if connection.schema ≠ "http" ∧ connection.schema ≠ "https" then .error .schema
  else if connection.port = 0 ∨ 65535 < connection.port then .error .port
  else if connection.hostname.isEmpty ∨ 2048 < connection.hostname.utf8ByteSize then
    .error .hostname
  else
    .ok (connection.schema ++ "://" ++ connection.hostname ++ ":" ++
      Text.ofNat connection.port ++ "/jsonrpc")

/-! ## Description -/

/-- What stands in a description in place of the password. -/
def hiddenPassword : String := "***"

/-- A description of the connection that tells everything but the password. -/
def description (connection : Connection) : String :=
  "ConnectionConfig \x7b hostname: " ++ Text.shown connection.hostname ++
    ", port: " ++ Text.ofNat connection.port ++
    ", database: " ++ Text.shown connection.database ++
    ", username: " ++ Text.shown connection.username ++
    ", password: " ++ Text.shown hiddenPassword ++
    ", schema: " ++ Text.shown connection.schema ++ " \x7d"

end Connection

end RemoteRecords
