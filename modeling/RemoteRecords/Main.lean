import RemoteRecords.CommandLine.Parser
import RemoteRecords.Http.Message
import RemoteRecords.Run.Command
import RemoteRecords.Run.Reach
import Std.Async.DNS
import Std.Async.TCP

namespace RemoteRecords

open Std.Async
open Std.Net

/-! ## The server -/

/-- Everything that comes in until the other side closes. -/
partial def receiveAll (socket : TCP.Socket.Client) (received : ByteArray) : Async ByteArray := do
  match ← socket.recv? 65536 with
  | some more => receiveAll socket (received ++ more)
  | none => return received

/-- Sends bytes to an address and gives what comes back. -/
def exchangeAt (address : SocketAddress) (request : ByteArray) : Async ByteArray := do
  let socket ← TCP.Socket.Client.mk
  socket.connect address
  socket.send request
  receiveAll socket ByteArray.empty

def socketAddress (port : UInt16) : IPAddr → SocketAddress
  | .v4 address => .v4 ⟨address, port⟩
  | .v6 address => .v6 ⟨address, port⟩

/-- Sends bytes to the first address of a host that answers. -/
def exchange (target : Http.Target) (request : ByteArray) : IO ByteArray := do
  let addresses ← (DNS.getAddrInfo target.host (Text.ofNat target.port)).block
  let rec attempt : List IPAddr → IO ByteArray
    | [] => throw (IO.userError "no address")
    | address :: rest => do
        try
          (exchangeAt (socketAddress target.port.toUInt16 address) request).block
        catch _ => attempt rest
  attempt addresses.toList

/-- Posts a request under a random number. -/
def postRequest (request : Session.Request) : IO Session.Reply := do
  let number ← IO.rand 0 (Session.Request.numberBound - 1)
  match Http.Target.ofUrl? request.url with
  | none => return .error .post
  | some target =>
      try
        let received ← exchange target (target.post (request.body number)).toByteArray
        return Http.readReply received.toList
      catch _ => return .error .post

/-- Carries a dialogue through. -/
def converse {α : Type} : Session.Dialogue α → IO α
  | .done value => return value
  | .post request resume => do
      let reply ← postRequest request
      converse (resume reply)

/-! ## The files -/

def nativePath (names : List String) : String := "/" ++ Text.joinWith "/" names

/-- The files and directories on the way to the paths. -/
def lookAt (paths : List Path) : IO FileTree := do
  let here ← IO.currentDir
  let place := Run.namesOf [] (.ofText here.toString)
  let mut tree : FileTree := ⟨place, [], []⟩
  for path in paths do
    let names := Run.namesOf place path
    for count in [1:names.length + 1] do
      let names := names.take count
      let native := here.join (nativePath names)
      if ← native.isDir then
        tree := { tree with directories := names :: tree.directories }
      else if ← native.pathExists then
        let bytes ← IO.FS.readBinFile native
        tree := tree.put names bytes.toList
  return tree

/-! ## The program -/

/-- Shows what a command leaves behind. -/
def showOutcome (outcome : Run.Outcome) : IO UInt32 := do
  IO.print outcome.output
  for warning in outcome.warnings do
    IO.eprintln ("WARN row=" ++ Text.ofNat warning.row ++ " " ++ warning.message)
  IO.eprint outcome.progress
  match outcome.result with
  | .ok _ => return 0
  | .error failure =>
      IO.eprintln failure.report
      return 1

/-- Carries out an invocation. -/
def carryOut (environment : List (String × String)) (invocation : Invocation) : IO UInt32 := do
  let files ← lookAt (Run.reach invocation)
  let surroundings : Run.Surroundings := ⟨files, environment⟩
  let outcome ← converse (Run.run surroundings invocation)
  for (names, bytes) in Run.changes files outcome.files do
    IO.FS.writeBinFile (nativePath names) bytes.toByteArray
  showOutcome outcome

end RemoteRecords

open RemoteRecords in
def main (args : List String) : IO UInt32 := do
  let environment := Run.variablesOf (← IO.FS.readBinFile "/proc/self/environ").toList
  match CommandLine.parse environment args with
  | .ok invocation => carryOut environment invocation
  | .error usage =>
      if usage.exitCode = 0 then IO.println usage.message
      else IO.eprintln ("error: " ++ usage.message)
      return usage.exitCode.toUInt32
