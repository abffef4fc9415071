import DockConsole.App

/-!
A run of the program over a script of keys and of things that happen around it.

The program shows a frame whenever it waits for a key. What happens while it waits is part of the
next frame, or of the tail if no frame follows. The refresh loop runs beside it: a fault that ends the
loop leaves the program waiting, without any more refreshes.
-/

namespace DockConsole.App

/-- What happens next: a key, or something that gives none. -/
inductive Happening where
  | key (key : Int)
  /-- The screen gets another size, of which the program learns by a key. -/
  | resize (size : ScreenSize)
  | containers (list : List Json)
  | outcomes (queue : List Outcome)
  | unregister (source : Text)
  | refresh (rounds : Nat)

/-- What the program did since the frame before, the program as it waits, and the key it got. -/
structure Frame where
  events : List Event
  app : App
  key : Option Int := none

inductive Ending where
  | exit (status : Int)
  | died (f : Fault) (text : Text)
  | outOfKeys
deriving DecidableEq, Repr

/-- `shown` is the frame on screen while the program waits, `since` what happened after it, and
`fallen` what ended the refresh loop, if anything has. -/
structure Run where
  app : App
  waiting : Next
  frames : List Frame := []
  shown : Option Frame := none
  since : List Event := []
  ending : Option Ending := none
  fallen : Option (Fault × Text) := none
  stderr : Text := []

namespace Run

/-- The program after a turn: it waits at the next frame, or has ended. -/
def proceed (r : Run) (turn : Turn) : Run :=
  let since := r.since ++ turn.events
  match turn.next with
  | .quit => { r with app := turn.app, shown := none, since, ending := some (.exit 0) }
  | .died f text => { r with app := turn.app, since, ending := some (.died f text) }
  | next =>
    let (app, events) := turn.app.await next
    { r with app, waiting := next, shown := some { events := since ++ events, app }, since := [] }

/-- The frame on screen got its key. -/
def close (r : Run) (key : Int) : Run :=
  match r.shown with
  | none => r
  | some f => { r with frames := r.frames ++ [{ f with key := some key }], shown := none }

def press (r : Run) (key : Int) : Run :=
  let r := r.close key
  match r.waiting with
  | .prompt p => r.proceed (r.app.pressPrompt p key)
  | .page => r.proceed { app := r.app }
  | _ => r.proceed (r.app.pressList key)

/-- So many rounds of the refresh loop, if it still runs. -/
def refreshed (r : Run) (rounds : Nat) : Run :=
  if r.fallen.isSome then r
  else
    let turn := r.app.refreshLoop rounds
    let r := { r with app := turn.app, since := r.since ++ turn.events }
    match turn.next with
    | .died f text => { r with fallen := some (f, text) }
    | _ => r

def step (r : Run) (h : Happening) : Run :=
  if r.ending.isSome then r
  else
    match h with
    | .key key => r.press key
    | .resize size => { r with app := { r.app with size := size } }.press 410
    | .containers list =>
      { r with app := { r.app with network := { r.app.network with containers := list } } }
    | .outcomes queue =>
      { r with app := { r.app with network :=
          { r.app.network with queue := r.app.network.queue ++ queue } } }
    | .unregister source => { r with app := { r.app with registry := r.app.registry.erase source } }
    | .refresh rounds => r.refreshed rounds

/-- A run that still waits at the end of the script is out of keys. -/
def finish (r : Run) : Run :=
  match r.ending with
  | some _ => r
  | none => { r with ending := some .outOfKeys }

/-- All frames, the last of which may have got no key. -/
def allFrames (r : Run) : List Frame := r.frames ++ r.shown.toList

/-- All that was done. -/
def events (r : Run) : List Event := r.allFrames.flatMap (·.events) ++ r.since

end Run

/-- What is printed about a daemon that cannot be asked. -/
def failureText (e : FetchError) : Text :=
  Text.lines (e.message ::
    if e.attempts.isEmpty then []
    else "Errors:".toList :: e.attempts.map ("  - ".toList ++ ·))

/-- The program before it takes the screen: filtered, loaded, or ended without ever showing a
frame. -/
def launch (a : App) (pattern : Text) : Run :=
  let (a, noted) := if pattern.isEmpty then (a, []) else a.filter pattern
  let (a, events, result) := a.load
  let r : Run := { app := a, waiting := .list, since := noted ++ events }
  match result with
  | .ok () => r
  | .error (.fetch e) => { r with ending := some (.exit 1), stderr := failureText e }
  | .error (.fault f text) => { r with ending := some (.died f text) }

/-- The screen is taken and the first frame drawn. -/
def takeScreen (colours : Bool) (r : Run) : Run :=
  if r.ending.isSome then r
  else
    let (theme, calls) := Theme.start colours
    r.proceed
      { app := { r.app with theme := theme }
        events := (calls ++ [ScreenCall.keypad true]).map .screen }

def run (a : App) (pattern : Text) (colours : Bool) (script : List Happening) : Run :=
  (script.foldl Run.step (takeScreen colours (a.launch pattern))).finish

end DockConsole.App
