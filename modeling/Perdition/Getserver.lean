import Perdition.Options
import Perdition.Str

/-!
# Looking up the real server

`user_server_port_strn_assign` of `server_port.c` and `getserver.c`. A map is the function that
`dbserver_get` or `dbserver_get2` computes at the time of the lookup.
-/
namespace Perdition

/-! ## Entries of a map -/

/-- `strrchr`: where a byte last occurs. -/
def strrchr (text : List Byte) (b : Byte) : Option Nat :=
  (text.reverse.idxOf? b).map fun place => text.length - 1 - place

/-- `FIX_IPV6_LITERAL`: the text between the brackets of a server that starts with one. Where the
closing bracket is missing a NUL is written through a null pointer. -/
def fixIpv6Literal (server : List Byte) : Except Fault (List Byte) :=
  match server with
  | 91 :: rest => match rest.idxOf? 93 with
    | none => .error .nullPointer
    | some place => .ok (rest.take place)
  | _ => .ok server

/-- The port of a map entry: whether the entry has a bracketed address, and where the colon of the
port is. A colon inside the brackets of an address is none. -/
def portPlace (text : List Byte) : Bool × Option Nat :=
  let colon := strrchr text 58
  match strrchr text 93 with
  | none => (false, colon)
  | some right => match text.idxOf? 91 with
    | none => (false, colon)
    | some left =>
      if left + 2 < right then (true, if text.drop (right + 1) |>.head? |> (· == some 58)
        then some (right + 1) else none)
      else (false, colon)

/-- `user_server_port_strn_assign` of the bytes of a string. -/
def userServerPortAssign (opt : Options) (text : CString) : Except Fault UserServerPort := do
  let (ipv6Literal, colon) := portPlace text.content
  let port := colon.map fun place => cstr (text.content.drop (place + 1))
  let front := match colon with
    | none => text.content
    | some place => text.content.take place
  let (user, server) := match strrstr front opt.domainDelimiter.content with
    | some place => (some (cstr (front.take place)),
        front.drop (place + opt.domainDelimiter.length))
    | none => (none, front)
  let server ← if ipv6Literal then fixIpv6Literal server else pure server
  return ⟨user, some (cstr server), port⟩

/-! ## Maps -/

/-- What a map returns for a key. -/
inductive MapResult where
  /-- A negative status; -2 is a key that is not in the map. -/
  | failed (status : Int)
  /-- The string of a `dbserver_get`, with the status. -/
  | entry (status : Nat) (text : CString)
  /-- The user, server and port of a `dbserver_get2`, with the status. -/
  | parts (status : Nat) (user server port : Option CString)
  deriving DecidableEq

/-- The addresses and ports of the connection of the client. -/
structure Addresses where
  /-- Source address. -/
  fromStr : CString
  /-- Destination address. -/
  toStr : CString
  /-- Source port. -/
  fromPort : CString
  /-- Destination port. -/
  toPort : CString

/-- The user before the domain delimiter and the bytes after the first byte of it, of which there
are none where there is no delimiter. -/
def splitUser (opt : Options) (user : CString) : CString × Option CString :=
  match strrstr user.content opt.domainDelimiter.content with
  | none => (user, none)
  | some place => (cstr (user.content.take place), some (cstr (user.content.drop (place + 1))))

/-- What an escape of a query format stands for. -/
def keyEscape (opt : Options) (user : CString) (addresses : Addresses) (c : Byte) :
    Option (List Byte) :=
  match c with
  | 85 => some user.content
  | 117 => some (splitUser opt user).1.content
  | 68 => some opt.domainDelimiter.content
  | 100 => some (match (splitUser opt user).2 with
    | none => []
    | some domain => domain.content)
  | 105 => some addresses.fromStr.content
  | 73 => some addresses.toStr.content
  | 112 => some addresses.fromPort.content
  | 80 => some addresses.toPort.content
  | 92 => some [backslash]
  | _ => none

/-- `getserver_key_str`. -/
def getserverKeyStr (opt : Options) (user : CString) (addresses : Addresses) :
    List Byte → Option (List Byte)
  | [] => some []
  | 92 :: [] => some []
  | 92 :: c :: rest => do
    let text ← keyEscape opt user addresses c
    return text ++ (← getserverKeyStr opt user addresses rest)
  | c :: rest => do return c :: (← getserverKeyStr opt user addresses rest)

/-- `str == NULL || *str == '\0'`. -/
def emptyOrNull (text : Option CString) : Bool :=
  match text with
  | none => true
  | some text => text.isEmpty

/-- `do_getserver`: the status and the entry. -/
def doGetserver (opt : Options) (map : CString → MapResult) (key : CString) :
    Except Fault (Int × Option UserServerPort) :=
  match map key with
  | .failed status => return (status, none)
  | .entry status text =>
    if text.isEmpty then return (status, none)
    else return (status, some (← userServerPortAssign opt text))
  | .parts status user server port =>
    if emptyOrNull user && emptyOrNull server && emptyOrNull port then return (status, none)
    else return (status, some ⟨user, server, port⟩)

/-- The formats of `query_key` in order, until one is not answered with -2. A format that cannot be
expanded gives no answer. -/
def getserverQuery (opt : Options) (map : CString → MapResult) (user : CString)
    (addresses : Addresses) : Int × Option UserServerPort → List CString →
    Except Fault (Option (Int × Option UserServerPort))
  | last, [] => return some last
  | _, format :: rest =>
    match getserverKeyStr opt user addresses format.content with
    | none => return none
    | some key => do
      let found ← doGetserver opt map (cstr key)
      if found.1 = -2 then getserverQuery opt map user addresses found rest else return some found

/-- `getserver`: the entry, and the user name where the place of the delimiter was overwritten with
a NUL. -/
def getserver (opt : Options) (map : Option (CString → MapResult)) (user : CString)
    (addresses : Addresses) : Except Fault (Option UserServerPort × CString) :=
  let specified := if opt.clientServerSpecification then
      strrstr user.content opt.domainDelimiter.content
    else none
  match specified, map with
  | some place, _ => do
    let usp ← userServerPortAssign opt
      (cstr (user.content.drop (place + opt.domainDelimiter.length)))
    return (some usp, cstr (user.content.take place))
  | none, none => return (none, user)
  | none, some map => do
    let found ← match opt.queryKey with
      | none => do pure (some (← doGetserver opt map user))
      | some formats => getserverQuery opt map user addresses (-1, none) formats
    match found with
    | some (status, usp) => if status < 0 then return (none, user) else return (usp, user)
    | none => return (none, user)

end Perdition
