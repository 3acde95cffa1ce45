import RemoteRecords.Json.Parser
import RemoteRecords.Session.Dialogue
import RemoteRecords.Text.Utf8

namespace RemoteRecords.Http

/-! ## Addresses -/

/-- Where a request goes. -/
structure Target where
  host : String
  port : Nat
  path : String
  deriving DecidableEq, Repr

/-- The characters behind `start`. -/
def afterStart? (start : List Char) (chars : List Char) : Option (List Char) :=
  if start.isPrefixOf chars then some (chars.drop start.length) else none

/-- The host and the port of an authority; the port is 80 when none is named. -/
def splitAuthority (chars : List Char) : List Char × Option Nat :=
  let (digits, rest) := chars.reverse.span Char.isDigit
  match rest with
  | ':' :: host => (host.reverse, Text.ofDigits? digits.reverse)
  | _ => (chars, some 80)

/-- The target of an address for which no encryption is asked. -/
def Target.ofUrl? (url : String) : Option Target := do
  let rest ← afterStart? "http://".toList url.toList
  let (authority, path) := rest.span (· ≠ '/')
  let (host, port) := splitAuthority authority
  return ⟨String.ofList host, ← port, if path.isEmpty then "/" else String.ofList path⟩

/-! ## Requests -/

def contentType : String := "application/json"

/-- The first line of a request. -/
def Target.requestLine (target : Target) : String := "POST " ++ target.path ++ " HTTP/1.1"

/-- A request that posts a body; the connection is closed after the reply. -/
def Target.post (target : Target) (body : Bytes) : Bytes :=
  let head :=
    [target.requestLine, "Host: " ++ target.host ++ ":" ++ Text.ofNat target.port, "Accept: */*",
      "Content-Type: " ++ contentType, "Content-Length: " ++ Text.ofNat body.length,
      "Connection: close", "", ""]
  Bytes.ofText (Text.joinWith "\r\n" head) ++ body

/-! ## Replies -/

/-- A reply: its status, its header fields, names in lower case, and what follows them. -/
structure Message where
  status : Nat
  header : List (String × String)
  rest : Bytes

/-- The line that begins here, without its end, and what follows it. -/
def line? : Bytes → Option (Bytes × Bytes)
  | [] => none
  | 0x0D :: 0x0A :: rest => some ([], rest)
  | byte :: rest => (line? rest).map fun (first, after) => (byte :: first, after)

/-- The status in the first line of a reply. -/
def statusOf? (chars : List Char) : Option Nat := do
  let (_, rest) := ((← afterStart? "HTTP/1.".toList chars).span (· ≠ ' '))
  Text.ofDigits? (rest.tail.takeWhile Char.isDigit)

/-- The name and the value in a header line. -/
def fieldOf (chars : List Char) : String × String :=
  let (name, rest) := chars.span (· ≠ ':')
  (String.ofList (name.map Char.toLower),
    String.ofList (Text.trimBoth Text.isAsciiBlank rest.tail))

/-- The header fields up to the empty line, and what follows it. -/
def header? : Nat → Bytes → Option (List (String × String) × Bytes)
  | 0, _ => none
  | fuel + 1, bytes => do
      let (first, rest) ← line? bytes
      if first.isEmpty then return ([], rest)
      else
        let (more, after) ← header? fuel rest
        return (fieldOf first.lossyText.toList :: more, after)

/-- The reply that the bytes spell. -/
def Message.ofBytes? (bytes : Bytes) : Option Message := do
  let (first, rest) ← line? bytes
  let status ← statusOf? first.lossyText.toList
  let (header, rest) ← header? rest.length rest
  return ⟨status, header, rest⟩

/-- The number that hexadecimal digits spell. -/
def hexLength? : List Char → Option Nat
  | [] => none
  | digits => digits.foldlM (fun high c => (Json.hexValue? c).map (16 * high + ·)) 0

/-- The content of chunks, each behind a line with its length, up to an empty one. -/
def chunks? : Nat → Bytes → Option Bytes
  | 0, _ => none
  | fuel + 1, bytes => do
      let (first, rest) ← line? bytes
      let length ← hexLength? (first.lossyText.toList.takeWhile fun c => (Json.hexValue? c).isSome)
      if length = 0 then return []
      else if rest.length < length + 2 then none
      else return rest.take length ++ (← chunks? fuel (rest.drop (length + 2)))

/-- The body of a reply: in chunks, of a told length or up to the end. -/
def Message.body? (message : Message) : Option Bytes :=
  if message.header.lookup "transfer-encoding" = some "chunked" then
    chunks? (message.rest.length + 1) message.rest
  else
    match message.header.lookup "content-length" with
    | none => some message.rest
    | some text => do
        let length ← Text.ofDigits? text.toList
        if message.rest.length < length then none else return message.rest.take length

/-! ## What comes of a post -/

/-- What a status and a body stand for: a JSON value, unless the status tells of an error. -/
def replyOf (status : Nat) (body : Bytes) : Session.Reply :=
  if 400 ≤ status then .error .post
  else
    match body.text?.bind Json.ofText? with
    | some value => .ok value
    | none => .error .post

/-- What the bytes that come back stand for. -/
def readReply (bytes : Bytes) : Session.Reply :=
  match Message.ofBytes? bytes with
  | none => .error .post
  | some message =>
      match message.body? with
      | none => .error .post
      | some body => replyOf message.status body

end RemoteRecords.Http
