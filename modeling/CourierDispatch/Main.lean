import CourierDispatch.CommandLine
import CourierDispatch.Log.Line
import CourierDispatch.Server

/-!
# The program

Serves the lines of the standard input until it ends. Results go to the standard output and log lines to
the standard error.
-/

open CourierDispatch

namespace CourierDispatch.Program

def environment : IO CommandLine.Environment :=
  ("RUST_LOG" :: Setting.all.map Setting.envName).filterMapM fun name => do
    return (← IO.getEnv name).map fun value => (name, value)

def seed : IO UInt64 := do
  let bytes ← IO.getRandomBytes 8
  return bytes.foldl (fun n b => n * 256 + b.toUInt64) 0

/-- The bytes up to the end of a line. At the end of the input there are none. -/
partial def readLine (input : IO.FS.Stream) (line : ByteArray) : IO ByteArray := do
  let b ← input.read 1
  if b.isEmpty then return line
  else if b.toList = [LineSource.lineFeed] then return line ++ b
  else readLine input (line ++ b)

/-- Writes log records as far as the filter lets them pass. -/
def log (s : Settings) (filter : Log.Filter) (records : List (String × Log.Record)) : IO Unit :=
  for (target, r) in records do
    if filter.passes target r then IO.eprintln (r.line s.logFormat target)

/-- Writes what a server has to say since an earlier state of it. -/
def publish (s : Settings) (filter : Log.Filter) (earlier p : Server) : IO Server := do
  log s filter (Server.news earlier.journal p.journal)
  let (p, bytes) := p.collect
  let output ← IO.getStdout
  output.write ⟨bytes.toArray⟩
  output.flush
  return p

partial def serveLines (s : Settings) (filter : Log.Filter) (input : IO.FS.Stream) (p : Server) :
    IO Server := do
  let line ← readLine input .empty
  if line.isEmpty then publish s filter p (p.receive [.finish])
  else
    let p ← publish s filter p (p.receive (line.toList.map .byte))
    serveLines s filter input p

def serve (s : Settings) (filter : Log.Filter) : IO UInt32 := do
  log s filter [(Server.logTarget, Server.startup s)]
  let (p, _) := Server.launch s (.seeded (← seed)) (.seeded (← seed))
  log s filter (Server.news [] p.journal)
  let p ← serveLines s filter (← IO.getStdin) p
  let (closed, r) := p.close
  discard <| publish s filter p closed
  match r with
  | .ok () =>
    log s filter [(Server.logTarget, Server.farewell)]
    return 0
  | .error e =>
    IO.eprintln s!"Error: {e.message}"
    return 1

end CourierDispatch.Program

def main (arguments : List String) : IO UInt32 := do
  let environment ← Program.environment
  match CommandLine.request environment arguments with
  | .error e =>
    IO.eprintln s!"error: {e.message}"
    return CommandLine.misuseStatus.toUInt32
  | .ok .version =>
    IO.println CommandLine.version
    return 0
  | .ok .help =>
    CommandLine.help.forM IO.println
    return 0
  | .ok (.serve s) => Program.serve s (s.filter (environment.lookup "RUST_LOG"))
