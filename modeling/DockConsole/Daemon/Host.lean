import DockConsole.Text.Blank

/-!
Addresses of the daemon, brought to the form that requests need.
-/

namespace DockConsole.Host

def default : Text := "http://localhost:2375".toList

def tcp : Text := "tcp://".toList

def http : Text := "http://".toList

def readTcpAsHttp (s : Text) : Text :=
  if tcp.isPrefixOf s then http ++ s.drop tcp.length else s

def withScheme (s : Text) : Text := if s.includes "://".toList then s else http ++ s

/-- Blanks around the address are taken off, then slashes at its end. `tcp` is read as `http`, and
an address without a scheme gets that one. -/
def normalize (host : Option Text) : Text :=
  let given := match host with
    | none | some [] => default
    | some h => h
  withScheme (readTcpAsHttp (given.trim.trimEnd (· = '/')))

end DockConsole.Host
