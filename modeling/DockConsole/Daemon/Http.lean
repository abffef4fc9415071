import DockConsole.Daemon.Network
import DockConsole.Json.Reader

/-!
Requests and answers as they travel: HTTP 1.0, whose answers end with the connection.
-/

namespace DockConsole.Http

/-- Where a request goes, and what it asks for there. -/
structure Target where
  host : Text
  service : Text
  path : Text
deriving DecidableEq, Repr

def scheme : Text := "http://".toList

/-- The parts of an address. Other schemes are not spoken. -/
def target (url : Text) : Except (Fault × Text) Target :=
  if scheme.isPrefixOf url then
    let rest := url.drop scheme.length
    let place := rest.takeWhile (· ≠ '/')
    let host := place.takeWhile (· ≠ ':')
    let service := (place.dropWhile (· ≠ ':')).drop 1
    if host.isEmpty then
      .error (.invalidUrl, "Invalid URL ".toList ++ url ++ ": No host supplied".toList)
    else
      .ok ⟨host, if service.isEmpty then "80".toList else service, rest.dropWhile (· ≠ '/')⟩
  else .error (.invalidSchema, "No way to speak to ".toList ++ url)

/-- Letters, digits and four signs stand for themselves in a query. -/
def isPlain (b : UInt8) : Bool :=
  let c := Char.ofNat b.toNat
  b < 128 && (c.isAlphanum || c = '-' || c = '.' || c = '_' || c = '~')

def hex (n : Nat) : Char := (Nat.digitChar n).toUpper

def encode (s : Text) : Text :=
  (String.ofList s).toUTF8.toList.flatMap fun b =>
    if isPlain b then [Char.ofNat b.toNat]
    else if b = 32 then ['+']
    else ['%', hex (b.toNat / 16), hex (b.toNat % 16)]

def query (params : List (Text × Text)) : Text :=
  if params.isEmpty then []
  else '?' :: List.intercalate ['&'] (params.map fun p => encode p.1 ++ ['='] ++ encode p.2)

/-- Statuses from 400 on are the fault of the client or, from 500 on, of the server. There are none of
600 or more. -/
def objection (r : Request) (status : Int) (reason : Text) : Option Text :=
  if 400 ≤ status ∧ status < 600 then
    let whose := if status < 500 then " Client Error: " else " Server Error: "
    some (Text.ofInt status ++ whose.toList ++ reason ++ " for url: ".toList ++ r.url ++
      query (r.params.getD []))
  else none

/-- A request as it is sent. -/
def written (t : Target) (r : Request) : Text :=
  "GET ".toList ++ t.path ++ query (r.params.getD []) ++ " HTTP/1.0\r\nHost: ".toList ++ t.host ++
    ":".toList ++ t.service ++ "\r\nAccept: */*\r\n\r\n".toList

/-- The first line, and what follows the empty line after the headers. -/
def body : Text → Text
  | [] => []
  | '\r' :: '\n' :: '\r' :: '\n' :: s => s
  | _ :: s => body s

/-- An answer as it was received. -/
def outcome (s : Text) : Outcome :=
  match (s.takeWhile (· ≠ '\r')).span (· ≠ ' ') with
  | (version, ' ' :: rest) =>
    let status := rest.takeWhile Char.isDigit
    if "HTTP/".toList.isPrefixOf version ∧ status.length = 3 then
      .answered (Text.readNat status) ((rest.dropWhile Char.isDigit).drop 1)
        (match Json.read? (body s) with
          | some v => .json v
          | none => .unreadable "No value in JSON notation".toList)
    else .failed .connectionError "No answer in HTTP".toList
  | _ => .failed .connectionError "No answer in HTTP".toList

end DockConsole.Http
