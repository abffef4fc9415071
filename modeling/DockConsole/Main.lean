import DockConsole.Daemon.Http
import DockConsole.Program
import DockConsole.Terminal
import Std.Async.DNS
import Std.Async.TCP
import Std.Time

/-!
The program on a terminal that hands over keys as they are hit.

All that is decided is decided by `Program`. A request is sent when the program, run with the
answers that there are, asks for one more; then it is run again with that answer too.
-/

namespace DockConsole.Console

open Std.Async

/-! ### The daemon -/

/-- A connection to the first address that takes one. -/
def connect (port : UInt16) : List Std.Net.IPAddr → Async TCP.Socket.Client
  | [] => throw (IO.userError "no address to connect to")
  | address :: rest => do
    let client ← TCP.Socket.Client.mk
    try
      client.connect (match address with
        | .v4 a => .v4 ⟨a, port⟩
        | .v6 a => .v6 ⟨a, port⟩)
      return client
    catch e => if rest.isEmpty then throw e else connect port rest

partial def receive (client : TCP.Socket.Client) (got : ByteArray) : Async ByteArray := do
  match ← client.recv? 65536 with
  | some bytes => receive client (got ++ bytes)
  | none => return got

def exchange (t : Http.Target) (sent : Text) : Async ByteArray := do
  let addresses ← DNS.getAddrInfo (String.ofList t.host) (String.ofList t.service)
  let client ← connect (UInt16.ofNat (Text.readNat t.service)) addresses.toList
  client.send (String.ofList sent).toUTF8
  receive client .empty

def milliseconds (seconds : Number) : Nat := (seconds.toFloat * 1000).toUInt64.toNat

/-- How long to wait for an answer, if not for ever. -/
def patience (t : Timeout) : Option Nat :=
  t.connect.bind fun c => t.read.map fun r => milliseconds c + milliseconds r

partial def waitFor {α : Type} (task : Task α) (deadline : Option Nat) : IO (Option α) := do
  if ← IO.hasFinished task then return some task.get
  let now ← IO.monoMsNow
  if deadline.any (· ≤ now) then return none
  IO.sleep 2
  waitFor task deadline

/-- A request sent, and what came of it. -/
def send (r : Request) : IO Outcome := do
  match Http.target r.url with
  | .error (fault, why) => return .failed fault why
  | .ok target =>
    let task ← IO.asTask (exchange target (Http.written target r)).block
    let now ← IO.monoMsNow
    match ← waitFor task ((patience r.timeout).map (now + ·)) with
    | none => return .failed .timeout "No answer in time".toList
    | some (.error e) => return .failed .connectionError (toString e).toList
    | some (.ok bytes) =>
      match String.fromUTF8? bytes with
      | some text => return Http.outcome text.toList
      | none => return .failed .contentDecodingError "No text in UTF-8".toList

/-! ### The keyboard -/

/-- What was typed and not used yet, when it came, and the byte that is waited for. -/
structure Keyboard where
  typed : Text := []
  heardAt : Nat := 0
  reading : Option (Task (Except IO.Error ByteArray)) := none
  closed : Bool := false

namespace Keyboard

def poll (k : Keyboard) : IO Keyboard := do
  match k.reading with
  | none =>
    if k.closed then return k
    let input ← IO.getStdin
    return { k with reading := some (← IO.asTask (input.read 1) .dedicated) }
  | some reading =>
    if ← IO.hasFinished reading then
      let bytes := (reading.get.toOption.getD .empty).toList
      return { k with
        typed := k.typed ++ bytes.map fun b => Char.ofNat b.toNat
        heardAt := ← IO.monoMsNow
        reading := none
        closed := bytes.isEmpty }
    else return k

/-- The next key, unless more of it may be on its way. -/
def key? (k : Keyboard) (now : Nat) : Option (Int × Keyboard) :=
  if Terminal.isPartial k.typed ∧ now < k.heardAt + 50 then none
  else (Terminal.nextKey k.typed).map fun (key, rest) => (key, { k with typed := rest })

end Keyboard

/-! ### The program -/

structure Devices where
  terminal : Terminal := {}
  keyboard : Keyboard := {}
  log : IO.FS.Handle

/-- The program run with as many answers as it asks for; `seen` of its events lie behind. -/
partial def settle (go : List Outcome → Program) (seen : Nat) (answers : List Outcome) :
    IO Program := do
  let p := go answers
  let coming := p.run.events.drop seen
  let before := coming.takeWhile (·.request?.isNone)
  match (coming.drop before.length).head?.bind Event.request? with
  | none => return p
  | some r =>
    for e in before do
      if let .pause seconds := e then IO.sleep (seconds * 1000).toUInt32
    settle go (seen + before.length + 1) (answers ++ [← send r])

def printLog (d : Devices) (files : NameMap Text) : IO Unit := do
  for (_, text) in files.entries do d.log.putStr (String.ofList text)
  d.log.flush

/-- The program gone on, and shown: `seen` of its events are on the screen already. -/
def advance (d : Devices) (seen : Nat) (go : List Outcome → Program) :
    IO (Devices × Program) := do
  let p ← settle go seen []
  let out ← IO.getStdout
  let (terminal, sent) := d.terminal.calls ((p.run.events.drop seen).filterMap Event.call?)
  out.putStr (String.ofList (p.logger.stdout ++ sent))
  out.flush
  printLog d p.logger.files
  let logger := { p.logger with files := {}, stdout := [] }
  return ({ d with terminal := terminal }, { run := { p.run with frames := [] }, logger })

def clock : IO Text := do
  return ((← Std.Time.PlainDateTime.now).format "uuuu-MM-dd HH:mm:ss,SSS").toList

/-- The program while it waits for a key, from `shownAt` on; the next refresh is at `dueAt`. -/
partial def attend (d : Devices) (p : Program) (interval : Option Nat) (shownAt dueAt : Nat) :
    IO (Devices × Program) := do
  if p.run.ending.isSome then return (d, p)
  let keyboard ← d.keyboard.poll
  let d := { d with keyboard := keyboard }
  let now ← IO.monoMsNow
  let meet (d : Devices) (h : App.Happening) : IO (Devices × Program) := do
    let logger := { p.logger with clock := ← clock }
    advance d p.run.events.length fun answers =>
      let app := { p.run.app with network := { queue := answers } }
      { run := { p.run with app := app }, logger : Program }.step h
  match keyboard.key? now with
  | some (key, rest) =>
    let (d, p) ← meet { d with keyboard := rest } (.key key)
    attend d p interval (← IO.monoMsNow) dueAt
  | none =>
    if keyboard.closed then return (d, p)
    else if interval.isSome ∧ dueAt ≤ now ∧ p.run.fallen.isNone then
      let (d, p) ← meet d (.refresh 1)
      attend d p interval shownAt (now + interval.getD 0)
    else if 0 ≤ d.terminal.patience ∧ shownAt + d.terminal.patience.toNat ≤ now then
      let (d, p) ← meet d (.key (-1))
      attend d p interval (← IO.monoMsNow) dueAt
    else
      IO.sleep 5
      attend d p interval shownAt dueAt

/-- A number in the environment. -/
def readEnv (name : String) (default : Int) : IO Int := do
  return ((← IO.getEnv name).bind String.toInt?).getD default

def status (r : Program.Result) : IO UInt32 := do
  let err ← IO.getStderr
  err.putStr (String.ofList r.stderr)
  match r.ending with
  | .exit status => return status.toNat.toUInt32
  | .app (.exit status) => return status.toNat.toUInt32
  | .app (.died fault text) =>
    err.putStrLn (String.ofList (Daemon.attemptLine fault text))
    return 1
  | .app .outOfKeys => return 1
  | .noLogFile _ => return 1
  | .noInterval => return 1

def start (s : Settings) : IO UInt32 := do
  let some file := s.logFile.value? | throw (IO.userError "no log file is named")
  let some refresh := s.refresh.value? | throw (IO.userError "no refresh interval is given")
  let log ← IO.FS.Handle.mk (String.ofList file) .append
  let directory := ((← IO.getEnv "PWD").getD ".").toList
  let there := (Log.Path.absolute directory file).dropLast
  let (logger, _) := Program.openLog s { directory, directories := [there], clock := ← clock }
  let daemon (host : Text) : Daemon :=
    { host, objection := Http.objection, pauseFault := Daemon.clockFault }
  let size : ScreenSize := ⟨← readEnv "LINES" 24, ← readEnv "COLUMNS" 80⟩
  let colours := (← IO.getEnv "TERM") ≠ some "dumb"
  let (d, p) ← advance { log } 0 fun answers =>
    (Program.start s logger { queue := answers } size daemon).takeScreen colours
  let taken := p.run.ending.isNone
  let now ← IO.monoMsNow
  let interval := if 0 < refresh then some (refresh * 1000).toUInt64.toNat else none
  let (d, p) ← attend d p interval now (now + interval.getD 0)
  let result := { p with logger := { p.logger with clock := ← clock } }.finish
    logger.stdoutThreshold
  if taken then (← IO.getStdout).putStr (String.ofList Terminal.leave)
  printLog d result.files
  status result

end DockConsole.Console

open DockConsole in
def main (args : List String) : IO UInt32 := do
  match Options.read (args.map String.toList) ((← IO.getEnv "DOCKER_HOST").map String.toList) with
  | .error stop =>
    let (status, out, err) := Options.answer stop
    (← IO.getStdout).putStr (String.ofList out)
    (← IO.getStderr).putStr (String.ofList err)
    return status.toNat.toUInt32
  | .ok s => Console.start s
