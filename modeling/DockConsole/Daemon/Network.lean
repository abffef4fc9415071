import DockConsole.Fault
import DockConsole.Json.Shown

/-!
Requests to the daemon and what may come of them.

`Network` answers requests from memory: outcomes queued ahead are used up first, and after them a
healthy daemon answers from its list of containers and their details.
-/

namespace DockConsole

/-- How many seconds to wait for a connection, and then for each part of the answer. Without a
number there is no limit. -/
structure Timeout where
  connect : Option Number := some (.whole 3)
  read : Option Number := some (.whole 10)
deriving DecidableEq, Repr

structure Request where
  url : Text
  params : Option (List (Text × Text)) := none
  timeout : Timeout
deriving DecidableEq, Repr

inductive Body where
  | json (v : Json)
  | unreadable (why : Text)
deriving Repr

inductive Outcome where
  | failed (fault : Fault) (text : Text)
  | answered (status : Int) (reason : Text) (body : Body)
deriving Repr

structure Network where
  queue : List Outcome := []
  containers : List Json := []
  details : List (Text × Json) := []
deriving Repr

namespace Network

def isRunning (v : Json) : Bool :=
  match v.get? "State".toList with
  | some (.str s) => s = "running".toList
  | _ => false

def wantsFiltered (r : Request) : Bool :=
  (r.params.getD []).any fun p => p.1 = "filters".toList

/-- The part of a path before its last part. -/
def lastButOne (url : Text) : Text :=
  match (url.pieces '/').reverse with
  | _ :: name :: _ => name
  | _ => []

def healthy (n : Network) (r : Request) : Outcome :=
  if "/containers/json".toList.isSuffixOf r.url then
    .answered 200 "OK".toList
      (.json (.arr (if wantsFiltered r then n.containers.filter isRunning else n.containers)))
  else
    match n.details.lookup (lastButOne r.url) with
    | some v => .answered 200 "OK".toList (.json v)
    | none => .answered 404 "Not Found".toList (.json .null)

def respond (n : Network) (r : Request) : Outcome × Network :=
  match n.queue with
  | o :: queue => (o, { n with queue := queue })
  | [] => (n.healthy r, n)

end Network

end DockConsole
