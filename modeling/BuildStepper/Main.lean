import BuildStepper.CommandLine.Launch
import BuildStepper.Session.Replay
import BuildStepper.Wire.Inbox
import Std.Async.DNS
import Std.Async.TCP
import Std.Async.Timer

/-!
# The program

Launches from the command line, waits for a client, and replays the trace under the session. All
that is decided is decided elsewhere; here files are read, lines are written and bytes are passed
on. What the client has sent is looked at between two callbacks of the build, and waited for while
the build is held.
-/

open Std.Async Std.Net

namespace BuildStepper.CommandLine

open Wire (Command Notification Inbox)

/-- The error of a file. Its number can come negated. -/
def FileError.ofIOError (e : IO.Error) : FileError :=
  let code? : Option UInt32 := match e with
    | .noFileOrDirectory _ code _ | .permissionDenied _ code _ | .inappropriateType _ code _
    | .invalidArgument _ code _ | .resourceExhausted _ code _ | .noSuchThing _ code _ => some code
    | _ => none
  let known? := code?.bind fun code => FileError.ofCode? (min code (-code)).toNat
  known?.getD (.other (toString e))

/-- Reads a file. -/
def readFile (path : String) : IO (Except FileError String) := do
  try
    match String.fromUTF8? (← IO.FS.readBinFile path) with
    | some text => return .ok text
    | none => return .error .notText
  catch e => return .error (.ofIOError e)

/-- Where the log goes. -/
structure Logger where
  settings : LogSettings
  filter : LogFilter
  file : Option IO.FS.Handle

/-- Opens the log. -/
def Logger.start (settings : LogSettings) : IO Logger := do
  let filter := settings.filter (← IO.getEnv "RUST_LOG")
  match settings.file with
  | none => return ⟨settings, filter, none⟩
  | some path =>
    try return ⟨settings, filter, some (← IO.FS.Handle.mk path .append)⟩
    catch _ => return ⟨settings, filter, none⟩

/-- Logs the events that the filter lets through. -/
def Logger.write (log : Logger) (events : List LogEvent) : IO Unit := do
  for e in log.filter.select events do
    let line := if log.settings.json then e.jsonLine else e.textLine
    if log.settings.stderr then IO.eprintln line
    if let some file := log.file then
      file.putStrLn line
      file.flush

/-- A client that is connected: what it sends next, and what of it is not at its end. -/
structure Connection where
  client : TCP.Socket.Client
  received : AsyncTask (Option ByteArray)
  inbox : Inbox := {}

/-- How many bytes are received at once. -/
def receiveSize : UInt64 := 65536

/-- A new connection. -/
def Connection.ofClient (client : TCP.Socket.Client) : IO Connection := do
  return ⟨client, ← (client.recv? receiveSize).asTask, {}⟩

/-- Notifies the client; one that is gone is found out about when it is next received from. -/
def Connection.send (c : Connection) (notifications : List Notification) : IO Unit := do
  unless notifications.isEmpty do
    try (c.client.send (Session.sentText notifications).toUTF8).block catch _ => return ()

/-- Passes on what the client sends. The flag says whether the connection has ended. -/
def Connection.serve (c : Connection) (r : DebuggedReplay) :
    IO (Bool × Connection × DebuggedReplay) := do
  let bytes? ← try c.received.block catch _ => pure none
  let (commands, inbox) := match bytes? with
    | some bytes => c.inbox.receive bytes
    | none => (c.inbox.close, {})
  let mut r := r
  for command in commands do
    let (next, sent) := r.command command
    c.send sent
    r := next
  match bytes? with
  | some _ => return (false, { c with inbox, received := ← (c.client.recv? receiveSize).asTask }, r)
  | none => return (true, c, (r.interrupt .disconnected).1)

/-- Replays what is left of a trace, with the client for as long as the session is live. -/
partial def drive (log : Logger) (connection : Option Connection) (r : DebuggedReplay) :
    IO Status := do
  match connection with
  | some c =>
    if !r.session.status.isLive then
      try c.client.shutdown.block catch _ => pure ()
      drive log none r
    else if r.session.status.isSuspended || (← IO.hasFinished c.received) then
      let (closed, c, next) ← c.serve r
      if !next.session.status.isLive then
        log.write [ended (if closed then "client closed the connection"
          else "client requested termination")]
      drive log (some c) next
    else go c.send
  | none => go fun _ => pure ()
where
  go (send : List Notification → IO Unit) : IO Status := do
    match r.advance 1 with
    | (next, event :: _, sent) =>
      log.write (buildEvents event)
      send sent
      if r.session.status.isLive && !next.session.status.isLive then
        log.write [ended "build finished"]
      drive log connection next
    | (next, [], _) => return next.session.status

/-- The address of a host. -/
def resolve (host : String) : IO IPAddr := do
  if let some address := IPv4Addr.ofString host then return .v4 address
  if let some address := IPv6Addr.ofString host then return .v6 address
  match (← (DNS.getAddrInfo host "").block)[0]? with
  | some address => return address
  | none => throw (IO.userError "failed to lookup address information")

/-- Listens at a place. -/
def listenAt (host : String) (port : UInt16) : IO TCP.Socket.Server := do
  let address : SocketAddress := match ← resolve host with
    | .v4 addr => .v4 ⟨addr, port⟩
    | .v6 addr => .v6 ⟨addr, port⟩
  let server ← TCP.Socket.Server.mk
  server.bind address
  server.listen 128
  return server

/-- Waits for a client, for so many milliseconds at the most if there is a limit. -/
def acceptFrom (server : TCP.Socket.Server) (limit? : Option UInt64) :
    IO (Option TCP.Socket.Client) :=
  Async.block do
    match limit? with
    | none => return some (← server.accept)
    | some limit =>
      let timer ← Selector.sleep (Std.Time.Millisecond.Offset.ofNat limit.toNat)
      Selectable.one #[.case server.acceptSelector (fun client => return some client),
        .case timer (fun _ => return none)]

/-- Waits for the client of a session that waits for one. -/
def awaitClient (log : Logger) (settings : DebugSettings) (port : UInt16) :
    IO (Except Absence Connection) := do
  try
    let server ← listenAt settings.host port
    let address := toString (← server.getSockName)
    log.write [listening address]
    match ← acceptFrom server settings.acceptLimit? with
    | some client =>
      log.write [attached (toString (← client.getPeerName))]
      return .ok (← Connection.ofClient client)
    | none =>
      return .error (.missed address ("debug client did not connect within "
        ++ toString settings.acceptTimeout ++ "ms"))
  catch e =>
    return .error (.refused ("failed to listen on " ++ settings.host ++ ":" ++ toString port ++ ": "
      ++ toString e))

/-- Replays a trace under a session. -/
def replay (log : Logger) (settings : DebugSettings) (trace : Trace) : IO Unit := do
  log.write (portEvents settings trace.initialProperties.all)
  let (r, _, _) := (DebuggedReplay.ofTrace settings trace).advance 1
  let status ← match r.session.status with
    | .awaiting port =>
      match ← awaitClient log settings port with
      | .ok c =>
        let (r, sent) := r.interrupt .attached
        c.send sent
        drive log (some c) r
      | .error absence =>
        log.write absence.events
        drive log none (r.interrupt .abandoned).1
    | _ =>
      log.write [withoutPort]
      drive log none r
  log.write [finished status]

end BuildStepper.CommandLine

open BuildStepper.CommandLine in
/-- Runs the program. -/
def main (arguments : List String) : IO UInt32 := do
  let launched ← launch readFile (← IO.getEnv "NOVA_CONFIG") arguments
  IO.print launched.printed
  for complaint in launched.complaints do
    IO.eprint complaint
  match launched.logging with
  | none => pure ()
  | some settings =>
    let log ← Logger.start settings
    if let (some path, none) := (settings.file, log.file) then log.write [unwritableLog path]
    log.write launched.events
    if let .replay debug trace := launched.next then replay log debug trace
  match launched.next with
  | .exit code => return code.toUInt32
  | .replay _ _ => return 0
