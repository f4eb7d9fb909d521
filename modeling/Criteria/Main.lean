import Criteria.Json.Reader
import Criteria.Json.Writer
import Criteria.Matrix.Packaged
import Criteria.Service.Address
import Criteria.Service.Routes
import Std.Time.DateTime.Timestamp

/-!
The service as a program. It shows its address, and then answers the calls that stand
one on a line of the standard input, each as a JSON object.
-/
namespace Criteria

open Calendar (Moment Now)

/-- The number of the day from which a computer counts the time. -/
def epochDay : Int := Calendar.dayNumber 1970 1 1

/-- The present moment in universal time. -/
def presentMoment : IO Now := do
  let stamp ← Std.Time.Timestamp.now
  let micros := epochDay * Calendar.microsPerDay + stamp.toNanosecondsSinceUnixEpoch.val / 1000
  match Moment.ofWallMicros micros (some .utc) with
  | .ok m => return ⟨m, some .utc⟩
  | .error fault => throw (IO.userError fault.message)

/-- The line for an answer: its status, and its content as JSON or as text. -/
def Service.Response.line (r : Service.Response) : String :=
  toString r.status ++ " " ++
    match r.content with
    | .json x => x.write
    | .text s => s

/-- The line that answers a line. -/
def answer (line : String) : IO String := do
  let setting : Service.Setting := ⟨.packaged, .standard, ← presentMoment⟩
  match Json.read line with
  | .error fault => return fault.message
  | .ok x =>
    match Service.Call.ofJson x with
    | .error _ => return Service.Response.notFound.line
    | .ok call => return (Service.respond setting call).line

/-- Answers lines until the input ends. -/
partial def serve (input output : IO.FS.Stream) : IO Unit := do
  let line ← input.getLine
  unless line.isEmpty do
    output.putStrLn (← answer line)
    output.flush
    serve input output

end Criteria

/-- Shows the address of the service and answers calls. -/
def main : IO UInt32 := do
  match Criteria.Service.Address.of (← IO.getEnv "HOST") (← IO.getEnv "PORT") with
  | .error fault =>
    IO.eprintln fault.message
    return 1
  | .ok address =>
    IO.eprintln (address.host ++ ":" ++ toString address.port)
    Criteria.serve (← IO.getStdin) (← IO.getStdout)
    return 0
