import RRoadVpn.ConfigParser
import RRoadVpn.Library.Passes
import RRoadVpn.VpnProfile

/-! `ConfigParser.convertProfile`: what is read from the options of a parsed config, one
group of options after the other. An option that is read is taken out of the map. -/

namespace RRoadVpn.ConfigParser
open Library
open JavaText (Text)

abbrev Args := List Text

abbrev Options := HashMap (List Args)

inductive RuntimeException where
  | ArrayIndexOutOfBounds
  | StringIndexOutOfBounds
  | NumberFormat (s : Text)
  deriving DecidableEq, Repr

/-- How an import ends without a profile. -/
inductive ImportError where
  | configParseError (e : ConfigParseError)
  | runtime (e : RuntimeException)
  | endless
  deriving DecidableEq, Repr

abbrev Import := StateT Options (Except ImportError)

def parseError (message : Text) : ImportError := .configParseError ⟨String.ofList message⟩

/-! ### CIDR addresses -/

/-- The part of a dotted quad; only the first one is shifted as a long. -/
def part (parse : Text → Option Int) (ipt : List Text) (i : Nat) : Except RuntimeException Int :=
  match ipt[i]? with
  | none => .error .ArrayIndexOutOfBounds
  | some s =>
    match parse s with
    | none => .error (.NumberFormat s)
    | some n => .ok n

def getInt (ipaddr : Text) : Except RuntimeException (BitVec 64) := do
  let ipt := JavaText.split '.' ipaddr
  let first ← part JavaText.parseLong ipt 0
  let second ← part JavaText.parseInt ipt 1
  let third ← part JavaText.parseInt ipt 2
  let fourth ← part JavaText.parseInt ipt 3
  return (BitVec.ofInt 64 first <<< 24) + (BitVec.ofInt 32 second <<< 16).signExtend 64 +
    (BitVec.ofInt 32 third <<< 8).signExtend 64 + (BitVec.ofInt 32 fourth).signExtend 64

/-- The loop over the zeros at the end; none when there is no one above them. -/
def lenZeros : Nat → BitVec 64 → Option (Nat × BitVec 64)
  | 0, _ => none
  | fuel + 1, netmask =>
    if netmask &&& 1 = 0 then (lenZeros fuel (netmask.sshiftRight 1)).map fun (zeros, ones) => (zeros + 1, ones)
    else some (0, netmask)

def bit33 : BitVec 64 := 0x100000000

/-- The length of a mask, none where the loop does not end; 32 when there are zeros between ones.
The shift distance of a long is taken modulo 64. -/
def maskLength (netmask : BitVec 64) : Option Int :=
  (lenZeros 64 (netmask + bit33)).map fun (lenZeros, netmask) =>
    if netmask ≠ (0x1ffffffff : BitVec 64).sshiftRight lenZeros then 32 else 32 - lenZeros

def calculateLenFromMask (mask : Text) : Except ImportError Int :=
  match getInt mask with
  | .error e => .error (.runtime e)
  | .ok netmask => (maskLength netmask).elim (.error .endless) .ok

/-- The text of `new CIDRIP(ip, mask)`. -/
def cidrip (ip mask : Text) : Except ImportError Text := do
  let len ← calculateLenFromMask mask
  return ip ++ ['/'] ++ (toString len).toList

/-! ### Options -/

def parameterError (option : Text) (size minarg maxarg : Nat) : ImportError :=
  parseError ("Option ".toList ++ option ++ " has ".toList ++ (toString ((size : Int) - 1)).toList ++
    " parameters, expected between ".toList ++ (toString minarg).toList ++ " and ".toList ++ (toString maxarg).toList)

def getAllOption (option : String) (minarg maxarg : Nat) : Import (Option (List Args)) := fun options =>
  match options.lookup option.toList with
  | none => .ok (none, options)
  | some args =>
    match args.find? fun optionline => optionline.length < minarg + 1 || optionline.length > maxarg + 1 with
    | some optionline => .error (parameterError option.toList optionline.length minarg maxarg)
    | none => .ok (some args, options.erase option.toList)

def getOption (option : String) (minarg maxarg : Nat) : Import (Option Args) := do
  let alloptions ← getAllOption option minarg maxarg
  return alloptions.bind List.getLast?

def arg (args : Args) (i : Nat) : Text := args[i]?.getD []

def removeOption (option : String) : Import Bool := fun options =>
  .ok ((options.lookup option.toList).isSome, options.erase option.toList)

def checked {α : Type} (result : Except ImportError α) : Import α := fun options => result.map (·, options)

/-- The profile while it is filled, with the variables of the method. -/
structure Draft extends VpnProfile where
  noauthtypeset : Bool := true
  auth_user_pass_file : Option Text := none

section Setters

variable {δ : Type}

/-- Sets something when an option is there; its last line counts. -/
def option (name : String) (minarg maxarg : Nat) (set : δ → Args → δ) (d : δ) : Import δ := do
  let args ← getOption name minarg maxarg
  return (args.map (set d)).getD d

def checkedOption (name : String) (minarg maxarg : Nat) (set : δ → Args → Except ImportError δ) (d : δ) : Import δ := do
  let args ← getOption name minarg maxarg
  match args with
  | none => return d
  | some args => checked (set d args)

def allOptions (name : String) (minarg maxarg : Nat) (set : δ → List Args → Except ImportError δ) (d : δ) : Import δ := do
  let args ← getAllOption name minarg maxarg
  match args with
  | none => return d
  | some args => checked (set d args)

end Setters

def intArgument (message : String) (s : Text) : Except ImportError Int :=
  match JavaText.parseInt s with
  | none => .error (parseError message.toList)
  | some n => .ok n

/-! ### Settings -/

/-- A route with its defaults, and whether it goes around the VPN. -/
def route (route : Args) : Except ImportError (Text × Bool) :=
  let netmask := if route.length ≥ 3 then arg route 2 else "255.255.255.255".toList
  let gateway := if route.length ≥ 4 then arg route 3 else "vpn_gateway".toList
  match cidrip (arg route 1) netmask with
  | .ok cidr => .ok (cidr ++ [' '], gateway = "net_gateway".toList)
  | .error (.runtime _) => .error (parseError ("Could not parse netmask of route ".toList ++ netmask))
  | .error e => .error e

def routes (np : Draft) (routes : List Args) : Except ImportError Draft := do
  let cidrs ← routes.mapM route
  return { np with
    mCustomRoutes := some ((cidrs.filter fun cidr => !cidr.2).flatMap Prod.fst)
    mExcludedRoutes := some ((cidrs.filter Prod.snd).flatMap Prod.fst) }

/-- `[inline]` says that the key is in a block. -/
def tlsauth (np : Draft) (tlsauth : Args) : Draft :=
  let np :=
    if arg tlsauth 1 = "[inline]".toList then np
    else { np with mTLSAuthFilename := some (arg tlsauth 1), mUseTLSAuth := true }
  if tlsauth.length = 3 then { np with mTLSAuthDirection := arg tlsauth 2 } else np

/-- What an argument of `redirect-gateway` sets. -/
def redirectParameter (np : Draft) (parameter : Text) : Draft :=
  if parameter = "block-local".toList then { np with mAllowLocalLAN := false }
  else if parameter = "unblock-local".toList then { np with mAllowLocalLAN := true }
  else if parameter = "ipv6".toList then { np with mUseDefaultRoutev6 := true }
  else np

/-- `checkRedirectParameters` for the default route; without it, it does nothing. -/
def checkRedirectParameters (np : Draft) (defgw : List Args) : Draft :=
  let parameters := defgw.flatMap List.tail
  let np := parameters.foldl redirectParameter np
  if "!ipv4".toList ∈ parameters then np else { np with mUseDefaultRoute := true }

/-- Only tun devices. -/
def dev (np : Draft) : Import Draft := do
  let dev ← getOption "dev" 1 1
  let devtype ← getOption "dev-type" 1 1
  if devtype.map (arg · 1) = some "tun".toList ∨ dev.any (fun dev => "tun".toList.isPrefixOf (arg dev 1)) ∨
      (devtype = none ∧ dev = none) then
    return np
  else checked (.error (parseError "Sorry. Only tun mode is supported. See the FAQ for more detail".toList))

def mssfix (np : Draft) (mssfix : Args) : Except ImportError Draft :=
  if mssfix.length ≥ 2 then do
    let size ← intArgument "Argument to --mssfix has to be an integer" (arg mssfix 1)
    return { np with mMssFix := size }
  else .ok { np with mMssFix := 1450 }

def tunmtu (np : Draft) (tunmtu : Args) : Except ImportError Draft := do
  let size ← intArgument "Argument to --tun-mtu has to be an integer" (arg tunmtu 1)
  return { np with mTunMtu := size }

def mode (np : Draft) (mode : Args) : Except ImportError Draft :=
  if arg mode 1 = "p2p".toList then .ok np
  else .error (parseError "Invalid mode for --mode specified, need p2p".toList)

/-- The first DNS server takes the place of the default one, every other the second place. -/
def dhcpoption (np : Draft) (dhcpoption : Args) : Draft :=
  if arg dhcpoption 1 = "DOMAIN".toList then { np with mSearchDomain := arg dhcpoption 2 }
  else if arg dhcpoption 1 = "DNS".toList then
    if np.mDNS1 = DEFAULT_DNS1 then { np with mOverrideDNS := true, mDNS1 := arg dhcpoption 2 }
    else { np with mOverrideDNS := true, mDNS2 := arg dhcpoption 2 }
  else np

def ifconfig (np : Draft) (ifconfig : Args) : Except ImportError Draft :=
  match cidrip (arg ifconfig 1) (arg ifconfig 2) with
  | .ok cidr => .ok { np with mIPv4Address := some cidr }
  | .error (.runtime (.NumberFormat s)) =>
    .error (parseError ("Could not pase ifconfig IP address: ".toList ++ JavaText.forInputString s))
  | .error e => .error e

/-- The three options about the name in a certificate that go together. -/
def tlsremote (np : Draft) : Import Draft := do
  let compatnames ← getOption "compat-names" 1 2
  let nonameremapping ← getOption "no-name-remapping" 1 1
  let tlsremote ← getOption "tls-remote" 1 1
  match tlsremote with
  | none => return np
  | some tlsremote =>
    let np := { np with mRemoteCN := arg tlsremote 1, mCheckRemoteCN := true, mX509AuthType := .TLSREMOTE }
    return if compatnames.any (·.length > 2) ∨ nonameremapping.isSome then
      { np with mX509AuthType := .TLSREMOTE_COMPAT_NOREMAPPING }
    else np

def verifyx509name (np : Draft) (verifyx509name : Args) : Except ImportError Draft :=
  let np := { np with mRemoteCN := arg verifyx509name 1, mCheckRemoteCN := true }
  let type := arg verifyx509name 2
  if verifyx509name.length > 2 then
    if type = "name".toList then .ok { np with mX509AuthType := .TLSREMOTE_RDN }
    else if type = "subject".toList then .ok { np with mX509AuthType := .TLSREMOTE_DN }
    else if type = "name-prefix".toList then .ok { np with mX509AuthType := .TLSREMOTE_RDN_PREFIX }
    else .error (parseError ("Unknown parameter to verify-x509-name: ".toList ++ type))
  else .ok { np with mX509AuthType := .TLSREMOTE_DN }

/-- Only the first line counts; others than for a server are kept under another name. -/
def remotetls (np : Draft) : Import Draft := do
  let remotetls ← getAllOption "remote-cert-tls" 1 1
  match remotetls with
  | none => return np
  | some remotetls =>
    if arg (remotetls.headD []) 1 = "server".toList then return { np with mExpectTLSCert := true }
    else
      modify fun options => options.insert "remotetls".toList remotetls
      return np

/-- The lines of an embedded file of user name and password. -/
def userAuth (inlinedata : Text) : Option (Text × Text) :=
  match JavaText.split '\n' (VpnProfile.getEmbeddedContent inlinedata) with
  | user :: password :: _ => some (user, password)
  | _ => none

def authuser (np : Draft) (authuser : Args) : Draft :=
  let np :=
    { np with
      mAuthenticationType :=
        if np.noauthtypeset then .USERPASS
        else if np.mAuthenticationType = .CERTIFICATES then .USERPASS_CERTIFICATES
        else if np.mAuthenticationType = .KEYSTORE then .USERPASS_KEYSTORE
        else np.mAuthenticationType }
  if authuser.length > 1 then
    let file := arg authuser 1
    let np := if VpnProfile.INLINE_TAG <+: file then np else { np with auth_user_pass_file := some file }
    -- `useEmbbedUserAuth`
    match userAuth file with
    | some (user, password) => { np with mUsername := some user, mPassword := password }
    | none => { np with mUsername := none }
  else np

/-- The message for an unknown argument is made from an argument behind it. -/
def authretry (np : Draft) (authretry : Args) : Except ImportError Draft :=
  if arg authretry 1 = "none".toList then .ok { np with mAuthRetry := .NONE_FORGET }
  else if arg authretry 1 = "nointeract".toList then .ok { np with mAuthRetry := .NOINTERACT }
  else if arg authretry 1 = "interact".toList then .ok { np with mAuthRetry := .NOINTERACT }
  else
    match authretry[2]? with
    | none => .error (.runtime .ArrayIndexOutOfBounds)
    | some other => .error (parseError ("Unknown parameter to auth-retry: ".toList ++ other))

/-- A directory is kept as a custom option. -/
def crlfile (np : Draft) (crlfile : Args) : Draft :=
  if crlfile.length = 3 ∧ arg crlfile 2 = "dir".toList then
    { np with mCustomConfigOptions := np.mCustomConfigOptions ++ [' '].intercalate crlfile ++ ['\n'] }
  else { np with mCrlFilename := some (arg crlfile 1) }

/-- The part of `convertProfile` up to the connections, in its order. -/
def settings : List (Draft → Import Draft) :=
  [ fun np => do
      let client ← removeOption "client"
      let pull ← removeOption "pull"
      return if client || pull then { np with mUsePull := true } else np,
    option "secret" 1 2 fun np secret =>
      { np with
        mAuthenticationType := .STATICKEYS, noauthtypeset := false, mUseTLSAuth := true, mTLSAuthFilename := some (arg secret 1)
        mTLSAuthDirection := if secret.length = 3 then arg secret 2 else np.mTLSAuthDirection },
    allOptions "route" 1 4 routes,
    allOptions "route-ipv6" 1 4 fun np routesV6 =>
      .ok { np with mCustomRoutesv6 := routesV6.flatMap fun route => arg route 1 ++ [' '] },
    option "route-nopull" 0 0 fun np _ => { np with mRoutenopull := true },
    allOptions "tls-auth" 1 2 fun np tlsauthoptions => .ok (tlsauthoptions.foldl tlsauth np),
    option "key-direction" 1 1 fun np direction => { np with mTLSAuthDirection := arg direction 1 },
    option "tls-crypt" 1 1 fun np tlscrypt =>
      { np with mUseTLSAuth := true, mTLSAuthFilename := some (arg tlscrypt 1), mTLSAuthDirection := "tls-crypt".toList },
    allOptions "redirect-gateway" 0 7 fun np defgw => .ok (checkRedirectParameters np defgw),
    allOptions "redirect-private" 0 5 fun np _ => .ok np,
    dev,
    checkedOption "mssfix" 0 1 mssfix,
    checkedOption "mtu" 1 1 tunmtu,
    checkedOption "mode" 1 1 mode,
    allOptions "dhcp-option" 2 2 fun np dhcpoptions => .ok (dhcpoptions.foldl dhcpoption np),
    checkedOption "ifconfig" 2 2 ifconfig,
    option "remote-random-hostname" 0 0 fun np _ => { np with mUseRandomHostname := true },
    option "float" 0 0 fun np _ => { np with mUseFloat := true },
    option "comp-lzo" 0 1 fun np _ => { np with mUseLzo := true },
    option "cipher" 1 1 fun np cipher => { np with mCipher := arg cipher 1 },
    option "auth" 1 1 fun np auth => { np with mAuth := arg auth 1 },
    option "ca" 1 1 fun np ca => { np with mCaFilename := some (arg ca 1) },
    option "cert" 1 1 fun np cert =>
      { np with mClientCertFilename := some (arg cert 1), mAuthenticationType := .CERTIFICATES, noauthtypeset := false },
    option "key" 1 1 fun np key => { np with mClientKeyFilename := some (arg key 1) },
    option "pkcs12" 1 1 fun np pkcs12 =>
      { np with mPKCS12Filename := some (arg pkcs12 1), mAuthenticationType := .KEYSTORE, noauthtypeset := false },
    option "cryptoapicert" 1 1 fun np _ => { np with mAuthenticationType := .KEYSTORE, noauthtypeset := false },
    tlsremote,
    checkedOption "verify-x509-name" 1 2 verifyx509name,
    option "x509-username-field" 1 1 fun np field => { np with mx509UsernameField := some (arg field 1) },
    option "verb" 1 1 fun np verb => { np with mVerb := arg verb 1 },
    option "nobind" 0 0 fun np _ => { np with mNobind := true },
    option "persist-tun" 0 0 fun np _ => { np with mPersistTun := true },
    option "push-peer-info" 0 0 fun np _ => { np with mPushPeerInfo := true },
    option "connect-retry" 1 2 fun np retry =>
      { np with
        mConnectRetry := arg retry 1
        mConnectRetryMaxTime := if retry.length > 2 then arg retry 2 else np.mConnectRetryMaxTime },
    option "connect-retry-max" 1 1 fun np retry => { np with mConnectRetryMax := arg retry 1 },
    remotetls,
    option "auth-user-pass" 0 1 authuser,
    checkedOption "auth-retry" 1 1 authretry,
    option "crl-verify" 1 2 crlfile ]

/-! ### Connections -/

def connectionOptions : List Text :=
  ["local", "remote", "float", "port", "connect-retry", "connect-timeout", "connect-retry-max", "link-mtu", "tun-mtu",
    "tun-mtu-extra", "fragment", "mtu-disc", "local-port", "remote-port", "bind", "nobind", "proto", "http-proxy",
    "http-proxy-retry", "http-proxy-timeout", "http-proxy-option", "socks-proxy", "socks-proxy-retry",
    "http-proxy-user-pass", "explicit-exit-notify"].map String.toList

def ignoreOptionsWithArg : List Args :=
  [["setenv", "IV_GUI_VER"], ["setenv", "IV_OPENVPN_GUI_VERSION"], ["engine", "dynamic"], ["setenv", "CLIENT_CERT"],
    ["resolve-retry", "60"]].map (·.map String.toList)

def ignoreThisOption (option : Args) : Bool := ignoreOptionsWithArg.any (·.isPrefixOf option)

/-- An option line for the custom options; certificates are put inline again. -/
def getOptionString (optionsline : Args) : Text :=
  if ignoreThisOption optionsline then []
  else if optionsline.length = 2 ∧ arg optionsline 0 = "extra-certs".toList then
    VpnProfile.insertFileData (arg optionsline 0) (some (arg optionsline 1))
  else optionsline.flatMap (fun arg => VpnProfile.escape arg ++ [' ']) ++ ['\n']

def getOptionStrings (option : List Args) : Text := option.flatMap getOptionString

def isUdpProto (proto : Text) : Except ImportError Bool :=
  if proto ∈ ["udp", "udp4", "udp6"].map String.toList then .ok true
  else if proto ∈ ["tcp-client", "tcp", "tcp4", "tcp6"].map String.toList ∨ "tcp4-client".toList <:+ proto ∨
      "tcp6-client".toList <:+ proto then
    .ok false
  else .error (parseError ("Unsupported option to --proto ".toList ++ proto))

def connectionProto (conn : Connection) (proto : Args) : Except ImportError Connection := do
  let isudp ← isUdpProto (arg proto 1)
  return { conn with mUseUdp := isudp }

def connectTimeout (conn : Connection) (connectTimeout : Args) : Except ImportError Connection :=
  let timeout := arg connectTimeout 1
  match JavaText.parseInt timeout with
  | some n => .ok { conn with mConnectTimeout := n }
  | none =>
    .error (parseError ("Argument to connect-timeout (".toList ++ timeout ++ ") must to be an integer: ".toList ++
      JavaText.forInputString timeout))

/-- A SOCKS proxy has a default port, an HTTP proxy always sets it. -/
def connectionProxy (conn : Connection) (proxy : Args) : Connection :=
  let conn :=
    if arg proxy 0 = "socks-proxy".toList then { conn with mProxyType := .SOCKS5, mProxyPort := "1080" }
    else { conn with mProxyType := .HTTP }
  { conn with
    mProxyName := String.ofList (arg proxy 1)
    mProxyPort := if proxy.length ≥ 3 then String.ofList (arg proxy 2) else conn.mProxyPort }

/-- The HTTP proxy is looked at without a SOCKS proxy only. -/
def proxySettings (conn : Connection) : Import Connection := do
  let socks ← getOption "socks-proxy" 1 2
  match socks with
  | some proxy => return connectionProxy conn proxy
  | none => option "http-proxy" 2 2 connectionProxy conn

def httpAuth (conn : Connection) (auth : Args) : Connection :=
  match userAuth (arg auth 1) with
  | some (user, password) =>
    { conn with
      mProxyAuthUser := some (String.ofList user), mProxyAuthPassword := some (String.ofList password), mUseProxyAuth := true }
  | none => conn

def connectionSettings : List (Connection → Import Connection) :=
  [ option "port" 1 1 fun conn port => { conn with mServerPort := String.ofList (arg port 1) },
    option "rport" 1 1 fun conn rport => { conn with mServerPort := String.ofList (arg rport 1) },
    checkedOption "proto" 1 1 connectionProto,
    checkedOption "connect-timeout" 1 1 connectTimeout,
    proxySettings,
    option "http-proxy-user-pass" 1 1 httpAuth ]

/-- A remote into the other settings of its connection. -/
def remoteConnection (conn : Connection) (remote : Args) : Except ImportError Connection := do
  let isudp ← if remote.length = 4 then isUdpProto (arg remote 3) else .ok conn.mUseUdp
  return { conn with
    mUseUdp := isudp
    mServerPort := if remote.length ≥ 3 then String.ofList (arg remote 2) else conn.mServerPort
    mServerName := String.ofList (arg remote 1) }

/-- `entrySet` of a hash map: its entries, in some order. -/
structure EntrySet where
  entries : Options → List (Σ _ : Text, List Args)
  perm : ∀ options, (entries options).Perm options.entries

instance : Inhabited EntrySet where
  default := ⟨fun options => options.entries, fun options => List.Perm.refl options.entries⟩

section Convert

variable (entrySet : EntrySet)

/-- Options nobody has read become custom options of the connection: all in a block, those
of connections outside of it. -/
def leftover (inBlock : Bool) (conn : Connection) : Import Connection := fun options =>
  let left := (entrySet.entries options).filter fun entry => inBlock || entry.1 ∈ connectionOptions
  let custom := conn.mCustomConfiguration.toList ++ left.flatMap fun entry => getOptionStrings entry.2
  .ok
    ({ conn with
      mCustomConfiguration := String.ofList custom
      mUseCustomConfig := conn.mUseCustomConfig || trim custom ≠ [] },
    left.foldl (fun options entry => options.erase entry.1) options)

def parseConnectionOptions (connDefault : Option Connection) : Import (Connection × List Connection) := do
  let conn ← runPasses connectionSettings (connDefault.getD {})
  let remotes ← getAllOption "remote" 1 3
  let conn ← leftover entrySet connDefault.isSome conn
  let connections ← checked ((remotes.getD []).mapM (remoteConnection conn))
  return (conn, connections)

def parseConnection (connection : Text) (defaultValues : Connection) : Except ImportError Connection :=
  if connection.length < VpnProfile.INLINE_TAG.length then .error (.runtime .StringIndexOutOfBounds)
  else
    match parseConfig (connection.drop VpnProfile.INLINE_TAG.length) with
    | .error e => .error (.configParseError e)
    | .ok parsed =>
      match parseConnectionOptions entrySet (some defaultValues) parsed.options with
      | .error e => .error e
      | .ok ((_, [conn]), _) => .ok conn
      | .ok _ => .error (parseError "A <connection> block must have exactly one remote".toList)

def connections (np : Draft) : Import Draft := do
  let conns ← parseConnectionOptions entrySet none
  let connectionBlocks ← getAllOption "connection" 1 1
  match connectionBlocks with
  | none => return { np with mConnections := conns.2 }
  | some connectionBlocks =>
    if conns.2 ≠ [] then
      checked (.error (parseError "Using a <connection> block and --remote is not allowed.".toList))
    else do
      let blocks ← checked (connectionBlocks.mapM fun conn => parseConnection entrySet (arg conn 1) conns.1)
      return { np with mConnections := blocks }

def protoforce (np : Draft) (protoforce : Args) : Except ImportError Draft :=
  let disable (udp : Bool) : Draft :=
    { np with
      mConnections := np.mConnections.map fun conn => if conn.mUseUdp = udp then { conn with mEnabled := false } else conn }
  if arg protoforce 1 = "udp".toList then .ok (disable true)
  else if arg protoforce 1 = "tcp".toList then .ok (disable false)
  else .error (parseError ("Unknown protocol ".toList ++ arg protoforce 1 ++ " in proto-force".toList))

/-! ### The end -/

def unsupportedOptions : List Text := ["config", "tls-server"].map String.toList

def ignoreOptions : List Text :=
  ["tls-client", "allow-recursive-routing", "askpass", "auth-nocache", "up", "down", "route-up", "ipchange", "route-up",
    "route-pre-down", "auth-user-pass-verify", "block-outside-dns", "client-cert-not-required", "dhcp-release", "dhcp-renew",
    "dh", "group", "ip-win32", "ifconfig-nowarn", "management-hold", "management", "management-client",
    "management-query-remote", "management-query-passwords", "management-query-proxy", "management-external-key",
    "management-forget-disconnect", "management-signal", "management-log-cache", "management-up-down",
    "management-client-user", "management-client-group", "pause-exit", "preresolve", "plugin", "machine-readable-output",
    "persist-key", "push", "register-dns", "route-delay", "route-gateway", "route-metric", "route-method", "status",
    "script-security", "show-net-up", "suppress-timestamps", "tap-sleep", "tmp-dir", "tun-ipv6", "topology", "user",
    "win-sys"].map String.toList

def unsupported (option : Text) : ImportError :=
  parseError ("Unsupported Option ".toList ++ option ++ " encountered in config file. Aborting".toList)

def customHeader : Text := "# These options found in the config file do not map to config settings:\n".toList

def checkIgnoreAndInvalidOptions (np : Draft) : Import Draft := fun options =>
  match unsupportedOptions.find? fun option => (options.lookup option).isSome with
  | some option => .error (unsupported option)
  | none =>
    let options := ignoreOptions.foldl (fun options option => options.erase option) options
    let left := entrySet.entries options
    if left = [] then .ok (np, options)
    else
      .ok
        ({ np with
          mCustomConfigOptions := customHeader ++ np.mCustomConfigOptions ++ left.flatMap fun entry => getOptionStrings entry.2
          mUseCustomConfig := true },
        options)

def metaArgument (metas : HashMap Args) (name : String) : Option Text :=
  match metas.lookup name.toList with
  | some (_ :: value :: _) => some value
  | _ => none

/-- A name that is like the default server's is taken for no name. -/
def fixup (np : VpnProfile) : VpnProfile :=
  if np.mRemoteCN = np.mServerName then { np with mRemoteCN := [] } else np

/-- What `convertProfile` does with the options, one after the other. -/
def steps : List (Draft → Import Draft) :=
  settings ++
    [connections entrySet, option "remote-random" 0 0 fun np _ => { np with mRemoteRandom := true },
      checkedOption "proto-force" 1 1 protoforce]

def newProfile (profileName : Text) : Draft :=
  { toVpnProfile := VpnProfile.clearDefaults { mName := profileName, mConnections := [{}] } }

def convertProfile (profileName : Text) (parsed : Parsed) : Except ImportError VpnProfile := do
  let convert : Import Draft := do
    let np ← runPasses (steps entrySet) (newProfile profileName)
    let np := (metaArgument parsed.metas "FRIENDLY_NAME").elim np fun name => { np with mName := name }
    let np := (metaArgument parsed.metas "USERNAME").elim np fun name => { np with mUsername := some name }
    checkIgnoreAndInvalidOptions entrySet np
  let (np, _) ← convert parsed.options
  return fixup np.toVpnProfile

/-- `parseConfig` and `convertProfile`. -/
def importConfig (profileName config : Text) : Except ImportError VpnProfile :=
  match parseConfig config with
  | .error e => .error (.configParseError e)
  | .ok parsed => convertProfile entrySet profileName parsed

end Convert

end RRoadVpn.ConfigParser
