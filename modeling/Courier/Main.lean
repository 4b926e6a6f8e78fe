import Courier.Runner.Session
import Courier.Runner.Surroundings
import Std.Time.DateTime.Timestamp

/-!
# The program

Reads records from standard input, a line each, and writes what becomes of them to standard
output. All decisions are made elsewhere; this module only talks to the system.
-/

namespace Courier.Main

open Runner
open scoped Pattern.Room

def names (envFile : Option String) : List String :=
  Override.all.map (·.name) ++ Settings.queueVariable :: Switch.all.map (·.envName) ++
    (((envFile.getD "").toList.splitBy fun a b =>
      EnvFile.isNameCharacter a == EnvFile.isNameCharacter b).map String.ofList)

def environment (names : List String) : IO Environment := do
  let found ← names.filterMapM fun name => do
    return (← IO.getEnv name).map fun value => (name, value)
  return .ofList found

def textOf (name : String) : IO SettingsFile := do
  try return .ofBytes (← IO.FS.readBinFile name)
  catch _ => return .unreadable

def surroundings : IO Surroundings := do
  let seed := (← IO.getRandomBytes 8).toList.foldl (fun n b => 256 * n + b.toNat) 0
  let time := (← Std.Time.Timestamp.now).toNanosecondsSinceUnixEpoch.val.toNat
  match momentOf? (time / 1000000000) (time % 1000000000) with
  | some now => return ⟨mkStdGen seed, now⟩
  | none => throw (IO.userError "the clock is off")

def emit (records : List OutboundRecord) : IO Unit := do
  let out ← IO.getStdout
  out.putStr (OutboundRecord.lines records)
  out.flush

def runBatch (s : Session Surroundings) (records : List InboundRecord) :
    IO (Session Surroundings) := do
  let now ← surroundings
  let ((out, elapsed), s) := { s with site := { s.site with world := now } }.runBatch records
  IO.sleep (UInt32.ofNat (min elapsed (UInt32.size - 1)))
  emit out
  return s

def takeIn (line : Bytes) (t : Tray) (s : Session Surroundings) :
    IO (Option (Tray × Session Surroundings)) := do
  match (lineOf? line).map t.add with
  | none => return none
  | some (some batch, t) => return some (t, ← runBatch s batch)
  | some (none, t) => return some (t, s)

def finish (t : Tray) (s : Session Surroundings) : IO Exit := do
  let s ← if t.records.isEmpty then pure s else runBatch s t.records
  emit s.finish.1
  return .success

/-- Reads to the end of the input, which is a failure if a line is no text. -/
partial def readLines (input : IO.FS.Stream) (buffer : Bytes) (t : Tray)
    (s : Session Surroundings) : IO Exit := do
  match buffer.span (· != 10) with
  | (line, _ :: rest) =>
    match ← takeIn line t s with
    | some (t, s) => readLines input rest t s
    | none => return .failure
  | (line, []) =>
    let more ← input.read 65536
    if !more.isEmpty then readLines input (line ++ more.toList) t s
    else if line.isEmpty then finish t s
    else match ← takeIn line t s with
      | some (t, s) => finish t s
      | none => return .failure

end Courier.Main

open Courier Courier.Runner Courier.Pattern.Room in
def main (args : List String) : IO UInt32 := do
  let envFile ← match ← Main.textOf ".env" with
    | .text content => pure (some content)
    | _ => pure none
  let env ← Main.environment (Main.names envFile)
  let setting (file : SettingsFile) : Setting :=
    { arguments := args, environment := env, envFile, file := fun _ => file }
  let file ← match Usage.read args (setting .unasked).effective with
    | .ok (.run { config := some name, .. }) => Main.textOf name
    | _ => pure .unreadable
  let world (s : Settings) := liveWorld .unreachable s.retry.jitter
  match prepare (setting file) world (← Main.surroundings) with
  | .error ending =>
    for line in ending.output do
      IO.println line
    return ending.exit.code.toUInt32
  | .ok (o, s) =>
    let exit ← Main.readLines (← IO.getStdin) [] { size := o.batchSize.toNat } s
    return exit.code.toUInt32
