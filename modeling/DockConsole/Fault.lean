import DockConsole.Text

/-!
What may go wrong beyond the errors that the program makes itself.

Some faults come from sending a request, and some from values that are not of the kind they should
be. Those who handle a failed request tell four families apart.
-/

namespace DockConsole

namespace Fault

/-- What the handlers of a failed request go by. -/
inductive Family where
  /-- No connection, or no answer in time: another attempt may succeed. -/
  | transient
  /-- An answer was objected to for its status. -/
  | status
  /-- The request had a value that cannot be sent, or the answer one that cannot be read. -/
  | badValue
  /-- Anything else. No handler names it. -/
  | other
deriving DecidableEq, Repr

end Fault

inductive Fault where
  | connectionError
  | proxyError
  | sslError
  | timeout
  | connectTimeout
  | readTimeout
  | httpError
  | urlRequired
  | invalidUrl
  | missingSchema
  | invalidSchema
  | invalidHeader
  | invalidProxyUrl
  | tooManyRedirects
  | chunkedEncodingError
  | contentDecodingError
  | invalidJson
  | jsonDecodeError
  | retryError
  | unrewindableBody
  | streamConsumed
  | requestException
  /-- A value has no such member. -/
  | attributeError
  /-- A value is of the wrong kind for what is done with it. -/
  | typeError
  | valueError
  | overflowError
  /-- A name stands for nothing yet. -/
  | unboundLocal
  /-- Any other fault, by its name and family. -/
  | named (label : Text) (family : Fault.Family)
deriving DecidableEq, Repr

namespace Fault

def label : Fault → Text
  | connectionError => "ConnectionError".toList
  | proxyError => "ProxyError".toList
  | sslError => "SSLError".toList
  | timeout => "Timeout".toList
  | connectTimeout => "ConnectTimeout".toList
  | readTimeout => "ReadTimeout".toList
  | httpError => "HTTPError".toList
  | urlRequired => "URLRequired".toList
  | invalidUrl => "InvalidURL".toList
  | missingSchema => "MissingSchema".toList
  | invalidSchema => "InvalidSchema".toList
  | invalidHeader => "InvalidHeader".toList
  | invalidProxyUrl => "InvalidProxyURL".toList
  | tooManyRedirects => "TooManyRedirects".toList
  | chunkedEncodingError => "ChunkedEncodingError".toList
  | contentDecodingError => "ContentDecodingError".toList
  | invalidJson => "InvalidJSONError".toList
  | jsonDecodeError => "JSONDecodeError".toList
  | retryError => "RetryError".toList
  | unrewindableBody => "UnrewindableBodyError".toList
  | streamConsumed => "StreamConsumedError".toList
  | requestException => "RequestException".toList
  | attributeError => "AttributeError".toList
  | typeError => "TypeError".toList
  | valueError => "ValueError".toList
  | overflowError => "OverflowError".toList
  | unboundLocal => "UnboundLocalError".toList
  | named label _ => label

def family : Fault → Family
  | connectionError | proxyError | sslError | timeout | connectTimeout | readTimeout => .transient
  | httpError => .status
  | invalidUrl | missingSchema | invalidSchema | invalidHeader | invalidProxyUrl
  | jsonDecodeError | valueError => .badValue
  | named _ family => family
  | _ => .other

/-- The faults that have a name here. -/
def all : List Fault :=
  [connectionError, proxyError, sslError, timeout, connectTimeout, readTimeout, httpError,
   urlRequired, invalidUrl, missingSchema, invalidSchema, invalidHeader, invalidProxyUrl,
   tooManyRedirects, chunkedEncodingError, contentDecodingError, invalidJson, jsonDecodeError,
   retryError, unrewindableBody, streamConsumed, requestException, attributeError, typeError,
   valueError, overflowError, unboundLocal]

/-- A name that is unknown here is that of a fault which no handler names. -/
def ofLabel (label : Text) : Fault := (all.find? (·.label = label)).getD (.named label .other)

end Fault

end DockConsole
