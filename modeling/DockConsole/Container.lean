import DockConsole.Json.Kind
import DockConsole.Json.Shown

/-!
Containers, as the daemon lists them and as the table shows them.
-/

namespace DockConsole

/-- A port of a container: published on the host, or only exposed. -/
structure Port where
  inside : Text
  protocol : Text
  published : Option (Text × Text)
deriving DecidableEq, Repr

namespace Port

/-- A port is published if its public number is there and not zero. -/
def ofJson (v : Json) : Port where
  inside := v.shownAt "PrivatePort".toList []
  protocol := v.shownAt "Type".toList "tcp".toList
  published :=
    match v.get? "PublicPort".toList with
    | none => none
    | some outside =>
      if outside.truthy then
        let ip := match v.get? "IP".toList with
          | some (.str ip) => ip
          | _ => []
        some (ip, outside.shown)
      else none

/-- What keeps a port from being told, if anything: it has to be an object, and if it is published,
its address has to be a text. -/
def misfit? (v : Json) : Option (Fault × Text) :=
  match v with
  | .obj _ =>
    if ((v.get? "PublicPort".toList).getD .null).truthy then
      ((v.get? "IP".toList).getD .null).unaddable?
    else none
  | _ => some (v.lacking "get".toList)

def text (p : Port) : Text :=
  let inner := p.inside ++ ['/'] ++ p.protocol
  match p.published with
  | none => inner
  | some (ip, outside) =>
    (if ip.isEmpty then [] else ip ++ [':']) ++ outside ++ "->".toList ++ inner

/-- The ports of one container, as one text. -/
def join (ports : List Port) : Text := List.intercalate ", ".toList (ports.map text)

end Port

/-- One container, as the table shows it. -/
structure Container where
  id : Text := []
  image : Text := []
  command : Text := []
  status : Text := []
  state : Text := []
  names : List Text := []
  ports : Text := []
  /-- All that the table shows as it is was given as a text. Nothing else can be drawn. -/
  legible : Bool := true
deriving DecidableEq, Repr

namespace Container

/-- The first name, without the slashes it starts with. -/
def name (c : Container) : Text := (c.names.headD []).trimStart (· = '/')

def running (c : Container) : Bool := c.state = "running".toList

end Container

/-- One element of the daemon's list. A field that is missing holds an empty text. -/
structure Summary where
  id : Json
  image : Json
  command : Json
  status : Json
  state : Json
  names : List Json
  ports : Text
deriving Repr

namespace Summary

def field (v : Json) (name : Text) : Json := (v.get? name).getD (.str [])

def ofJson (v : Json) : Summary where
  id := field v "Id".toList
  image := field v "Image".toList
  command := field v "Command".toList
  status := field v "Status".toList
  state := field v "State".toList
  names := ((v.get? "Names".toList).getD .null).items
  ports := Port.join ((((v.get? "Ports".toList).getD .null).items).map Port.ofJson)

/-- What keeps an element from being read, if anything: it has to be an object, and its names and
ports, if there are any, have to be several. -/
def misfit? (v : Json) : Option (Fault × Text) :=
  match v with
  | .obj _ =>
    let names := (v.get? "Names".toList).getD .null
    let ports := (v.get? "Ports".toList).getD .null
    names.unlisted?.or (ports.unlisted?.or (ports.items.findSome? Port.misfit?))
  | _ => some (v.lacking "get".toList)

/-- All elements of an answer. The first one that cannot be read is the end of it. -/
def readAll (items : List Json) : Except (Fault × Text) (List Summary) :=
  match items.findSome? misfit? with
  | some e => .error e
  | none => .ok (items.map ofJson)

/-- What the table shows of it: texts. -/
def container (s : Summary) : Container where
  id := s.id.text
  image := s.image.text
  command := s.command.text
  status := s.status.text
  state := s.state.text
  names := s.names.map Json.text
  ports := s.ports
  legible := [s.id, s.image, s.command, s.status].all Json.isText

/-- What keeps the table from making a row of it, if anything: the id is cut, and the first name is
trimmed. -/
def rowMisfit? (s : Summary) : Option (Fault × Text) :=
  s.id.uncut?.or (s.names.head?.bind Json.untrimmed?)

/-- All containers of an answer, for the rows of the table. -/
def containers (summaries : List Summary) : Except (Fault × Text) (List Container) :=
  match summaries.findSome? rowMisfit? with
  | some e => .error e
  | none => .ok (summaries.map container)

end Summary

end DockConsole
