import InfraOperator.Cycle.Program
import InfraOperator.Json.Basic
import InfraOperator.Text.Base64

/-!
# Requests over HTTP

What is sent to the API server and what it sends back. The target of a request is a path with an
optional query, and has to consist of characters that may stand in one.
-/

set_option autoImplicit false

namespace InfraOperator

inductive HttpMethod where
  | get
  | post
  | patch
  | delete
  deriving DecidableEq, Repr

def HttpMethod.text : HttpMethod → String
  | .get => "GET"
  | .post => "POST"
  | .patch => "PATCH"
  | .delete => "DELETE"

structure Target where
  path : String
  query : Option String
  deriving DecidableEq, Repr

structure HttpRequest where
  method : HttpMethod
  target : Target
  contentType : Option String := none
  accept : Option String := none
  body : Option Json := none
  deriving DecidableEq

structure HttpResponse where
  status : Nat
  body : String
  deriving DecidableEq, Repr

def Http : Interface := ⟨HttpRequest, fun _ => HttpResponse⟩

namespace Target

def isPlain (c : Char) : Bool :=
  let n := c.toNat
  n = 0x21 || (0x24 ≤ n && n ≤ 0x3B) || n = 0x3D || (0x40 ≤ n && n ≤ 0x5F) ||
    (0x61 ≤ n && n ≤ 0x7A) || n = 0x7C || n = 0x7E || 0x80 ≤ n

def inPath (c : Char) : Bool := isPlain c || c = '"' || c = '\x7b' || c = '\x7d'

def inQuery (c : Char) : Bool :=
  isPlain c || c = '?' || c.toNat = 0x60 || c = '\x7b' || c = '\x7d'

/-- Splits a target at its first question mark; what follows a number sign is dropped. -/
def parse? (text : String) : Option Target :=
  let cs := text.toList.takeWhile (· ≠ '#')
  let path := cs.takeWhile (· ≠ '?')
  if path.all inPath then
    match cs.dropWhile (· ≠ '?') with
    | [] => some ⟨String.ofList path, none⟩
    | _ :: query =>
      if query.all inQuery then some ⟨String.ofList path, some (String.ofList query)⟩ else none
  else none

def hexDigit (n : Nat) : Char := if n < 10 then Char.ofNat (n + 48) else Char.ofNat (n + 55)

def formByte (b : UInt8) : List Char :=
  let c := Char.ofNat b.toNat
  if c.isAlphanum || c = '*' || c = '-' || c = '.' || c = '_' then [c]
  else if c = ' ' then ['+']
  else ['%', hexDigit (b.toNat / 16), hexDigit (b.toNat % 16)]

def formValue (text : String) : String := String.ofList ((Bytes.ofText text).flatMap formByte)

end Target

def reasonPhrase : Nat → String
  | 400 => "Bad Request"
  | 401 => "Unauthorized"
  | 402 => "Payment Required"
  | 403 => "Forbidden"
  | 404 => "Not Found"
  | 405 => "Method Not Allowed"
  | 406 => "Not Acceptable"
  | 407 => "Proxy Authentication Required"
  | 408 => "Request Timeout"
  | 409 => "Conflict"
  | 410 => "Gone"
  | 411 => "Length Required"
  | 412 => "Precondition Failed"
  | 413 => "Payload Too Large"
  | 414 => "URI Too Long"
  | 415 => "Unsupported Media Type"
  | 416 => "Range Not Satisfiable"
  | 417 => "Expectation Failed"
  | 418 => "I'm a teapot"
  | 421 => "Misdirected Request"
  | 422 => "Unprocessable Entity"
  | 423 => "Locked"
  | 424 => "Failed Dependency"
  | 425 => "Too Early"
  | 426 => "Upgrade Required"
  | 428 => "Precondition Required"
  | 429 => "Too Many Requests"
  | 431 => "Request Header Fields Too Large"
  | 451 => "Unavailable For Legal Reasons"
  | 500 => "Internal Server Error"
  | 501 => "Not Implemented"
  | 502 => "Bad Gateway"
  | 503 => "Service Unavailable"
  | 504 => "Gateway Timeout"
  | 505 => "HTTP Version Not Supported"
  | 506 => "Variant Also Negotiates"
  | 507 => "Insufficient Storage"
  | 508 => "Loop Detected"
  | 510 => "Not Extended"
  | 511 => "Network Authentication Required"
  | _ => "<unknown status code>"

end InfraOperator
