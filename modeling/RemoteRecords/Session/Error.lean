import RemoteRecords.Connection

namespace RemoteRecords.Session

/-- Why an operation on a server fails. -/
inductive Error where
  /-- The connection has no endpoint. -/
  | badEndpoint (fault : Connection.Fault)
  /-- The request could not be posted, or its reply is no JSON text. -/
  | post
  /-- The server reports an error. -/
  | remote (text : String)
  | loginFailed
  | notLoggedIn
  | unexpectedResponse (text : String)
  deriving DecidableEq, Repr

def Error.message : Error → String
  | .badEndpoint fault => "init error: " ++ fault.message
  | .post => "http post error"
  | .remote text => text
  | .loginFailed => "login failed"
  | .notLoggedIn => "not logged in"
  | .unexpectedResponse text => "unexpected response: " ++ text

/-- The messages from the error itself down to its first cause. -/
def Error.causes : Error → List String
  | .badEndpoint fault => [(Error.badEndpoint fault).message, fault.message]
  | error => [error.message]

end RemoteRecords.Session
