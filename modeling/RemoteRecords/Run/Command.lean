import RemoteRecords.Run.Fetch
import RemoteRecords.Run.Send

namespace RemoteRecords.Run

/-- Carries out a command, with one worker and with an error file that takes everything. What it
does with any number of workers is said by `runOn`. -/
def run {platform : Platform} (surroundings : Surroundings platform) (invocation : Invocation) :
    Session.Dialogue Outcome :=
  finish surroundings <|
    match invocation.command with
    | .query selection => query surroundings invocation selection
    | .save selection file => save surroundings invocation selection file
    | .send model offset limit file => send surroundings invocation model offset limit file

end RemoteRecords.Run
