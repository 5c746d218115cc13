import WebsocketCpp.Websocket.Utility

/-!
# The address in a URL

The constructor of `WSNet` (`websocket/WSNet.cpp:17-36`), as far as `client_`. `inetPton` is whether
`inet_pton` accepts a text as an IPv4 address.
-/

namespace WebsocketCpp

/-- How the constructor can end badly. -/
inductive UrlFault where
  /-- In `strsplit`. -/
  | strsplit (fault : Fault)
  /-- An index that the vector does not have. -/
  | index
  /-- The `assert(0)` of `makeSockAddr`. -/
  | assertion
  deriving DecidableEq, Repr

/-- A `std::string` read through `c_str()`: it ends at the first NUL. -/
def cStr (s : List Char) : List Char := s.takeWhile (· ≠ '\x00')

/-- `isspace` in the C locale. -/
def isspace (c : Char) : Bool :=
  c = ' ' ∨ c = '\t' ∨ c = '\n' ∨ c = '\x0b' ∨ c = '\x0c' ∨ c = '\r'

/-- The number that a run of digits denotes. -/
def digitsValue (s : List Char) : Nat := Nat.ofDigitChars 10 (s.takeWhile Char.isDigit) 0

/-- `strtol(s, NULL, 10)`: white space, a sign, digits. What a `long` cannot hold is cut down to its
bounds. -/
def strtol (s : List Char) : Int :=
  match s.dropWhile isspace with
  | '-' :: s => max (-9223372036854775808) (-(digitsValue s : Int))
  | '+' :: s => min 9223372036854775807 (digitsValue s : Int)
  | s => min 9223372036854775807 (digitsValue s : Int)

/-- `atoi`, which is `(int)strtol(s, NULL, 10)`. -/
def atoi (s : List Char) : BitVec 32 := BitVec.ofInt 32 (strtol s)

/-- The arguments of `NetClient::NetClient`, of which it makes `servAddr_`. -/
structure ServAddr where
  dstIp : List Char
  dstPort : BitVec 16
  deriving DecidableEq, Repr

/-- `NetClient::NetClient` (`net/NetClient.cpp:9-23`), with `makeSockAddr`
(`base/SocketOpts.cpp:53-64`). -/
def makeClient (inetPton : List Char → Bool) (dstIp : List Char) (dstPort : BitVec 16) :
    Except UrlFault ServAddr :=
  if inetPton dstIp then .ok ⟨dstIp, dstPort⟩ else .error .assertion

/-- `vec[i]`. -/
def vecAt (vec : List (List Char)) (i : Nat) : Except UrlFault (List Char) :=
  match vec[i]? with
  | some s => .ok s
  | none => .error .index

/-- `client_` behind `WSNet::WSNet` (`WSNet.cpp:17-36`). `strsplit` is given `n` iterations. -/
def urlClient (inetPton : List Char → Bool) (n : Nat) (url : List Char) :
    Except UrlFault (Option ServAddr) := do
  let vec ← (strsplit n url ['/'] []).mapError .strsplit
  if 2 ≤ vec.length then
    let addr ← vecAt vec 2
    let vec ← (strsplit n addr [':'] []).mapError .strsplit
    let host ← vecAt vec 0
    let port ← vecAt vec 1
    let client ← makeClient inetPton (cStr host) ((atoi (cStr port)).setWidth 16)
    pure (some client)
  else pure none

end WebsocketCpp
