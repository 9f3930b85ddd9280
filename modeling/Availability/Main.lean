import Availability.Http.Wire
import Availability.Log.Line
import Availability.Program
import Availability.Session
import Std.Async.DNS
import Std.Async.Signal
import Std.Async.System
import Std.Async.TCP
import Std.Async.Timer

/-!
# The program at work

Here the files, the network, the clock and the signals are real. What the program does with them
is decided elsewhere: by `CommandLine.read`, by the settings, and by `Session.step?`. The only
network protocol is HTTP without encryption; a request to an address that asks for more stays
unanswered.
-/

namespace Availability.Operation

open Std.Async
open Settings (Config)

/-- The bytes of an array. -/
def bytesOf (b : ByteArray) : Bytes := b.toList

/-- An array of bytes. -/
def arrayOf (b : Bytes) : ByteArray := ⟨b.toArray⟩

/-- The time by the clock on the wall. -/
def wallTime : IO Timestamp := do
  let time ← Std.Time.Timestamp.now
  let nanos : Int := time.toNanosecondsSinceUnixEpoch.val
  return ⟨nanos.fdiv 1000000000, (nanos.fmod 1000000000).toNat⟩

/-- A stamp with an identifier of its own. -/
def freshStamp : IO Stamp := do
  let bytes ← IO.getRandomBytes 16
  return ⟨.random (bytes.toList.foldl (fun n b => n * 256 + b.toNat) 0), ← wallTime⟩

/-- Why a file or a connection cannot be used. -/
def faultOf : IO.Error → StreamFault
  | .noFileOrDirectory .. => .missing
  | e => .other (toString e)

/-- Tells the log of some events. -/
def tell (filter : Log.Filter) (format : Settings.LogFormat) (events : List Log.Event) :
    IO Unit := do
  let stderr ← IO.getStderr
  for e in events do
    if filter.passes e then
      stderr.putStr (e.entry.toLine format (← wallTime))
  stderr.flush

/-! ## The network -/

/-- The addresses of a host. -/
def addressesOf : Url.Host → Async (Array Std.Net.IPAddr)
  | .name s => DNS.getAddrInfo s ""
  | .v4 n =>
    let part (k : Nat) : UInt8 := UInt8.ofNat (n >>> (8 * k))
    return #[.v4 (.ofParts (part 3) (part 2) (part 1) (part 0))]
  | .v6 groups =>
    return ((Std.Net.IPv6Addr.ofString (String.ofList (Url.v6Chars groups))).map
      Std.Net.IPAddr.v6).toArray

/-- An address with a port. -/
def socketAddress (port : UInt16) : Std.Net.IPAddr → Std.Net.SocketAddress
  | .v4 a => .v4 ⟨a, port⟩
  | .v6 a => .v6 ⟨a, port⟩

/-- Reads from a connection until the other side closes it. -/
partial def readAll (socket : TCP.Socket.Client) (done : ByteArray) : Async ByteArray := do
  match ← socket.recv? 65536 with
  | some piece => readAll socket (done ++ piece)
  | none => return done

/-- Makes a request at one address. -/
def exchangeAt (r : Http.Request) (address : Std.Net.SocketAddress) : Async Http.Reply := do
  let socket ← TCP.Socket.Client.mk
  socket.connect address
  socket.send (arrayOf r.toBytes)
  return Http.readReply (bytesOf (← readAll socket .empty))

/-- Makes a request at the first address that answers. -/
def exchangeAny (r : Http.Request) (port : UInt16) : List Std.Net.IPAddr → Async Http.Reply
  | [] => return .none
  | address :: others => do
    try
      exchangeAt r (socketAddress port address)
    catch _ =>
      exchangeAny r port others

/-- Makes a request that has to be answered within a time. -/
def exchange (limitMs : Nat) (r : Http.Request) : IO Http.Reply := do
  let port := r.address.port <|> Url.defaultPort? r.address.scheme
  match r.address.host, port, r.address.scheme with
  | some host, some port, "http" =>
    let answered : Async Http.Reply := do
      try
        exchangeAny r (UInt16.ofNat port) (← addressesOf host).toList
      catch _ =>
        return .none
    let cut : Async Http.Reply := do
      sleep (.ofNat (min limitMs 0x7fffffff))
      return .none
    (Async.race answered cut).block
  | _, _, _ => return .none

/-! ## Calls -/

/-- A wait drawn for an interval. -/
def drawWait (b : Backoff) : IO Nat := do
  let spread := b.interval * b.spreadPercent / 100
  IO.rand (b.interval - spread) (b.interval + spread)

/-- Asks for a source until that succeeds or is given up. -/
partial def lookup (c : Config) (log : List Log.Event → IO Unit) (sourceId : String)
    (identity : Principal) (started left n : Nat) (b : Backoff) :
    IO (Except Error ResolvedSource) := do
  let service := Service.credentials c
  let reply ← match service.request sourceId identity with
    | .ok r => exchange (Service.lookupLimitMs c) r
    | .error _ => pure .none
  match service.attempt sourceId identity fun _ => reply with
  | .ok source =>
    if 0 < n then log [.recovered (n + 1)]
    return .ok source
  | .error e =>
    let elapsed := (← IO.monoNanosNow) - started
    let wait ← drawWait b
    let next := sequel ⟨fun _ => elapsed, fun _ _ => wait⟩ left n b e
    log (Log.Event.ofSequel (n + 1) e next)
    match next with
    | .again wait b =>
      IO.sleep (UInt32.ofNat (wait / milliseconds 1))
      lookup c log sourceId identity started (left - 1) (n + 1) b
    | _ => return .error e

/-- Checks credentials. -/
def probe (c : Config) (p : Provider) (a : Authentication) : IO (Except Error Unit) := do
  let reply ← match Gateway.request c.probe.gatewayUrl p a with
    | .ok r => exchange (Service.probeLimitMs c + 1000) r
    | .error _ => pure .none
  return Service.probe c (fun _ => reply) p a

/-- Writes a batch. -/
def send (output : IO.FS.Stream) (messages : List OutboundMessage) : IO (Except Error Unit) := do
  match OutboundMessage.toLines messages with
  | .error failure => return .error (.serialization failure)
  | .ok bytes =>
    try
      output.write (arrayOf bytes)
      output.flush
      return .ok ()
    catch e =>
      return .error (.transport messages.length (faultOf e).message)

/-! ## Sessions -/

/-- What happens to a session, and what the log is told of it. -/
abbrev Incident := Session → Session × List Log.Event

/-- What the parts of the program that run side by side share. -/
structure Desk where
  config : Config
  log : List Log.Event → IO Unit
  input : IO.FS.Stream
  output : IO.FS.Stream
  /-- What has happened since the session was last looked after. -/
  inbox : IO.Ref (Array Incident)
  /-- Whether input is being read. -/
  reading : IO.Ref Bool
  tally : IO.Ref Tally
  started : Nat

namespace Desk

/-- Notes an incident. -/
def post (d : Desk) (i : Incident) : IO Unit := d.inbox.modify (·.push i)

/-- Notes an answer. -/
def reply (d : Desk) (a : Answer) : IO Unit := d.post fun s => (s.answer a, [])

/-- Does something beside the session. -/
def aside (act : IO Unit) : IO Unit := discard (IO.asTask act Task.Priority.dedicated)

/-- Has a call made. -/
def dispatch (d : Desk) : Errand → IO Unit
  | .lookup sourceId identity => aside do
    let c := d.config
    let b := Backoff.create c.sources.maxRetries c.sources.retryBaseDelayMs
    let started ← IO.monoNanosNow
    d.reply (.lookup
      (← lookup c d.log sourceId identity started (c.sources.maxRetries - 1) 0 b))
  | .probe turn p a => aside do
    d.reply (.probe turn p (← probe d.config p a))
  | .send messages => aside do
    d.reply (.send (← send d.output messages))

/-- Reads bytes up to the end of a line, or of the input. -/
partial def readLine (input : IO.FS.Stream) (done : ByteArray) : IO ByteArray := do
  let byte ← input.read 1
  if byte.isEmpty then return done
  if byte.data[0]? == some Inbound.lineFeed then return done ++ byte
  readLine input (done ++ byte)

/-- Has the next line read. -/
def fetch (d : Desk) : IO Unit := do
  d.reading.set true
  aside do
    let incident : Session → Session ← try
        let line ← readLine d.input .empty
        pure fun s => if line.isEmpty then s.endInput else s.receive (bytesOf line)
      catch e => pure fun s => s.breakInput (faultOf e)
    d.reading.set false
    d.post fun s => (incident s, [])

/-- Makes every move that the pipeline can make now. -/
partial def settle (d : Desk) (s : Session) : IO Session := do
  match s.step? (← freshStamp) with
  | none => return s
  | some (s, events, errands) =>
    d.log events
    errands.forM d.dispatch
    settle d s

/-- Looks after a session until it ends. -/
partial def attend (d : Desk) (s : Session) : IO (Except Error Flow.Report) := do
  let mut s := s.elapseTo ((← IO.monoMsNow) - d.started)
  for incident in ← d.inbox.swap #[] do
    let (t, events) := incident s
    d.log events
    s := t
  s ← d.settle s
  d.tally.set s.tally
  match s.result? with
  | some r => return r
  | none =>
    if s.isHungry && !(← d.reading.get) then d.fetch
    IO.sleep 2
    d.attend s

/-- Listens to the signals to stop. -/
def heed (d : Desk) (signal : Signal) : IO Unit := do
  let waiter ← Signal.Waiter.mk signal false
  let arrival ← waiter.wait
  discard (IO.mapTask (fun _ => d.post Session.signal) arrival)

end Desk

/-! ## Metrics -/

/-- Answers whoever asks for the metrics. -/
partial def servePage (server : TCP.Socket.Server) (tally : IO.Ref Tally) : Async Unit := do
  let client ← server.accept
  try
    discard (client.recv? 4096)
    let page := Utf8.encode (← tally.get).page
    client.send (arrayOf (Utf8.encode
      s!"HTTP/1.1 200 OK\r\ncontent-type: text/plain\r\ncontent-length: {page.length}\r\n\r\n"
      ++ page))
    client.shutdown
  catch _ => pure ()
  servePage server tally

/-- Listens on the port of the metrics, if it can be had. -/
def openPort (port : Nat) : IO (Option TCP.Socket.Server) := do
  try
    let server ← TCP.Socket.Server.mk
    server.bind (.v4 ⟨.ofParts 0 0 0 0, UInt16.ofNat port⟩)
    server.listen 16
    return some server
  catch _ => return none

/-! ## Commands -/

/-- Opens the input and the output that the settings name, the output first. -/
def openStreams (c : Config) : IO (Except StreamFault (IO.FS.Stream × IO.FS.Stream)) := do
  try
    let output ← match c.transport.output with
      | some path => pure (IO.FS.Stream.ofHandle (← IO.FS.Handle.mk path .append))
      | none => IO.getStdout
    let input ← match c.transport.input with
      | some path => pure (IO.FS.Stream.ofHandle (← IO.FS.Handle.mk path .read))
      | none => IO.getStdin
    return .ok (input, output)
  catch e => return .error (faultOf e)

/-- Runs the service and says how it ended. -/
def perform (c : Config) (log : List Log.Event → IO Unit) (tally : IO.Ref Tally) :
    IO Rehearsal.Ending := do
  log [.assembling]
  match Service.probeFault? c with
  | some text => return .crashed text
  | none =>
    match ← openStreams c with
    | .error fault => return .failed (.stream fault)
    | .ok (input, output) =>
      match Flow.State.startFault? c.pipeline.channelBufferSize with
      | some text => return .crashed text
      | none =>
        log [.pipelineStarted c.pipeline.channelBufferSize c.pipeline.batchSize]
        let d : Desk :=
          { config := c
            log := log
            input := input
            output := output
            inbox := ← IO.mkRef #[]
            reading := ← IO.mkRef false
            tally := tally
            started := ← IO.monoMsNow }
        d.heed .sigterm
        d.heed .sigint
        match ← d.attend (.start c (c.transport.input.getD "stdin")) with
        | .ok r => return .reported r
        | .error e => return .failed e

/-- Carries out `run`. -/
def serve (c : Config) (environment : List (String × String)) : IO Program.ExitCode := do
  let log := tell (Program.filter c environment) c.telemetry.logFormat
  let tally ← IO.mkRef Tally.empty
  let server? ← if c.telemetry.metricsEnabled then openPort c.telemetry.metricsPort else pure none
  log (Program.opening c fun _ => server?.isSome)
  if let some server := server? then
    discard ((servePage server tally).toIO)
  let ending ← perform c log tally
  log (Program.closing ending)
  if let .crashed text := ending then
    (← IO.getStderr).putStrLn text
  return Program.exitCode ending

/-- The file with the settings, if it is there. -/
def settingsFile : IO (Option Bytes) := do
  try
    return some (bytesOf (← IO.FS.readBinFile "config.toml"))
  catch _ => return none

/-- Carries out a command. -/
def execute (command : CommandLine.Command) (environment : List (String × String)) :
    IO Program.ExitCode := do
  match Config.load (← settingsFile) environment, command with
  | .error e, _ =>
    (← IO.getStderr).putStrLn e.message
    return .failure
  | .ok c, .config =>
    (← IO.getStdout).putStr (Program.printed c)
    return .success
  | .ok c, .run input output => serve (Program.overridden c input output) environment

/-- Runs the program. -/
def run (arguments : List String) : IO Program.ExitCode := do
  let environment := (← Std.Internal.UV.System.osEnviron).toList
  match CommandLine.read arguments environment with
  | .command c => execute c environment
  | .help t =>
    (← IO.getStdout).putStr (CommandLine.helpText environment t)
    return .success
  | .version =>
    (← IO.getStdout).putStr CommandLine.versionText
    return .success
  | .wrong fault =>
    (← IO.getStderr).putStr (CommandLine.complaint environment fault)
    return .usage

end Availability.Operation

/-- The program. -/
def main (arguments : List String) : IO UInt32 := do
  return UInt32.ofNat (← Availability.Operation.run arguments).number
