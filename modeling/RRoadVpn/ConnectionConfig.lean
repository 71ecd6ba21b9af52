import Mathlib.Algebra.Ring.Int.Defs
import Mathlib.Data.List.Infix

/-! The connections of a profile: how `getConfigFile` writes them into the config and
how the management thread answers a proxy query for one of its entries. Custom options
that add entries of their own are left out. -/

namespace RRoadVpn

inductive ProxyType where
  | NONE
  | HTTP
  | SOCKS5
  | ORBOT
  deriving DecidableEq, Repr

structure Connection where
  mServerName : String := "openvpn.example.com"
  mServerPort : String := "1194"
  mUseUdp : Bool := true
  mCustomConfiguration : String := ""
  mUseCustomConfig : Bool := false
  mEnabled : Bool := true
  mConnectTimeout : Int := 0
  mProxyType : ProxyType := .NONE
  mProxyName : String := "proxy.example.com"
  mProxyPort : String := "8080"
  mUseProxyAuth : Bool := false
  mProxyAuthUser : Option String := none
  mProxyAuthPassword : Option String := none
  deriving DecidableEq, Repr

namespace Connection

def usesExtraProxyOptions (c : Connection) : Bool :=
  c.mUseCustomConfig && decide ("http-proxy-option ".toList <:+: c.mCustomConfiguration.toList)

def getConnectionBlock (c : Connection) (isOpenVPN3 : Bool) : String :=
  "remote " ++ c.mServerName ++ " " ++ c.mServerPort ++ (if c.mUseUdp then " udp\n" else " tcp-client\n") ++
    (if c.mConnectTimeout ≠ 0 then " connect-timeout  " ++ toString c.mConnectTimeout ++ "\n" else "") ++
    (if (isOpenVPN3 || c.usesExtraProxyOptions) && c.mProxyType = .HTTP then
      "http-proxy " ++ c.mProxyName ++ " " ++ c.mProxyPort ++ "\n" ++
        (if c.mUseProxyAuth then
          "<http-proxy-user-pass>\n" ++ c.mProxyAuthUser.getD "null" ++ "\n" ++ c.mProxyAuthPassword.getD "null" ++
            "\n</http-proxy-user-pass>\n"
        else "")
    else "") ++
    (if c.usesExtraProxyOptions && c.mProxyType = .SOCKS5 then
      "socks-proxy " ++ c.mProxyName ++ " " ++ c.mProxyPort ++ "\n"
    else "") ++
    (if c.mCustomConfiguration ≠ "" ∧ c.mUseCustomConfig then c.mCustomConfiguration ++ "\n" else "")

def isOnlyRemote (c : Connection) : Bool := c.mCustomConfiguration == "" || !c.mUseCustomConfig

end Connection

namespace VpnProfile

/-- All connections of several have a plain remote line. -/
def canUsePlainRemotes : List Connection → Bool
  | [_] => true
  | mConnections => mConnections.all Connection.isOnlyRemote

/-- The connections that `getConfigFile` writes, in this order, with their places in the profile. -/
def emitted : List Connection → List (Connection × Nat)
  | [conn] => [(conn, 0)]
  | mConnections => mConnections.zipIdx.filter (·.1.mEnabled)

section Config

variable (mRemoteRandom configForOvpn3 : Bool)

/-- Where `getConfigFile` writes the remotes. -/
def remotes : List Connection → String
  | [conn] => conn.getConnectionBlock configForOvpn3
  | mConnections =>
    (if mRemoteRandom then "remote-random\n" else "") ++
      if canUsePlainRemotes mConnections then
        String.join (mConnections.map fun conn => if conn.mEnabled then conn.getConnectionBlock configForOvpn3 else "")
      else ""

def connectionComment : String :=
  "# Connection Options are at the end to allow global options (and global custom options) to influence " ++
    "connection blocks\n"

def connectionBlocks (mConnections : List Connection) : String :=
  if canUsePlainRemotes mConnections then ""
  else
    connectionComment ++
      String.join (mConnections.map fun conn =>
        if conn.mEnabled then "<connection>\n" ++ conn.getConnectionBlock configForOvpn3 ++ "</connection>\n" else "")

end Config

end VpnProfile

/-! ### The proxy query -/

namespace ProxyQuery

def CONNECTION_LIST_SIZE : Nat := 64

/-- What follows `>PROXY:` in `ce_management_query_proxy`, cut at the end of its buffer. -/
def ce_management_query_proxy (current : Nat) (udp : Bool) (remote : String) : List Char :=
  ((toString (current + 1)).toList ++ ',' :: ((if udp then "UDP" else "TCP").toList ++ ',' :: remote.toList)).take
    (255 - ">PROXY:".length)

def split : Nat → List Char → List (List Char)
  | limit + 2, argument =>
    match argument.span (· ≠ ',') with
    | (part, _ :: rest) => part :: split (limit + 1) rest
    | (part, []) => [part]
  | _, argument => [argument]

def parseInt (text : List Char) : Option Int :=
  let (negative, digits) :=
    match text with
    | '-' :: digits => (true, digits)
    | '+' :: digits => (false, digits)
    | digits => (false, digits)
  if digits = [] ∨ ¬ digits.all Char.isDigit then none
  else
    let value : Int := Nat.ofDigitChars 10 digits 0
    let value := if negative then -value else value
    if -2 ^ 31 ≤ value ∧ value < 2 ^ 31 then some value else none

inductive Reply where
  | startOrbot
  | managmentCommand (cmd : String)
  deriving DecidableEq, Repr

def sendProxyCMD (proxyType : ProxyType) (proxyname proxyport : Option String) (usePwAuth : Bool) : Reply :=
  match proxyname with
  | some proxyname =>
    if proxyType = .NONE then .managmentCommand "proxy NONE\n"
    else
      .managmentCommand ("proxy " ++ (if proxyType = .HTTP then "HTTP" else "SOCKS") ++ " " ++ proxyname ++ " " ++
        proxyport.getD "null" ++ (if usePwAuth then " auto" else "") ++ "\n")
  | none => .managmentCommand "proxy NONE\n"

/-- The connection that was looked up, by its place in the profile, and the reply. -/
structure Answer where
  mCurrentProxyConnection : Option Nat
  reply : Reply
  deriving DecidableEq, Repr

section Answering

-- What `ProxyDetection.detectProxy` finds: the host name and the port.
variable (detectProxy : Option (String × Nat))

/-- The proxy settings of a connection make the reply, or those found for the system. -/
def answer (connection : Option Connection) (args : List (List Char)) : Reply :=
  let proxyType := (connection.map Connection.mProxyType).getD .NONE
  let (proxyType, proxyname, proxyport, proxyUseAuth) :=
    match proxyType, detectProxy with
    | .NONE, some (host, port) => (ProxyType.HTTP, some host, some (toString port), false)
    | _, _ =>
      (proxyType, connection.map Connection.mProxyName, connection.map Connection.mProxyPort,
        (connection.map Connection.mUseProxyAuth).getD false)
  let proxyname := if proxyType = .HTTP ∧ args[1]? = some "UDP".toList then none else proxyname
  if proxyType = .ORBOT then .startOrbot else sendProxyCMD proxyType proxyname proxyport proxyUseAuth

/-- `processProxyCMD`; `none` where it throws. -/
def processProxyCMD (mCurrentProxyConnection : Option Nat) (mConnections : List Connection) (argument : List Char) :
    Option Answer := do
  let args := split 3 argument
  let number ← parseInt (args.headD [])
  let connectionEntryNumber := number - 1
  if mConnections.length > connectionEntryNumber then
    if connectionEntryNumber < 0 then none
    else
      let i := connectionEntryNumber.toNat
      return ⟨some i, answer detectProxy mConnections[i]? args⟩
  else return ⟨mCurrentProxyConnection, answer detectProxy none args⟩

end Answering

end ProxyQuery

end RRoadVpn
