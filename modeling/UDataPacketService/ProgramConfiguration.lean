import UDataPacketService.PacketConverter
import UDataPacketService.ReactorModel
import UDataPacketService.SubscriberModel
import UDataPacketService.SummaryReports

/-! The configuration of the program: the options with their setters, the initialization
file as `parseIniFile` reads it, and what the server and the subscriber make of it. A value
that a setter refuses cannot be built. -/
namespace UDataPacketService

inductive ConfigurationError where
  | invalidArgument (what : String)
  | runtimeError (what : String)
  | iniParserError (what : String)
  deriving DecidableEq

/-- A host that `setHost` has accepted. -/
structure Host where
  name : String
  nonempty : name ≠ ""
  blankless : ∀ c ∈ name.toList, isSpace c = false

def Host.localhost : Host := ⟨"localhost", by decide, by simp [isSpace]⟩

/-- A port that `setPort` has accepted. -/
structure Port where
  number : UInt16
  positive : 0 < number.toNat

/-- A token, a key or a certificate that its setter has accepted. -/
structure Secret where
  text : String
  nonempty : text ≠ ""

/-- `setHost` of both options erases the blanks first. -/
def checkHost (hostIn : String) : Except ConfigurationError Host :=
  let host := hostIn.toList.filter (fun c => !isSpace c)
  if empty : host = [] then .error (.invalidArgument "Host is empty")
  else .ok {
    name := String.ofList host
    nonempty := fun same => empty (String.ofList_eq_empty_iff.mp same)
    blankless := fun c member => by
      rw [String.toList_ofList] at member
      simpa using (List.mem_filter.mp member).2 }

def checkPort (what : String) (port : UInt16) : Except ConfigurationError Port :=
  if zero : port < 1 then .error (.invalidArgument what)
  else .ok ⟨port, by simpa [UInt16.lt_iff_toNat_lt, Nat.pos_iff_ne_zero] using zero⟩

def checkSecret (what text : String) : Except ConfigurationError Secret :=
  if empty : text = "" then .error (.invalidArgument what) else .ok ⟨text, empty⟩

structure GRPCServerOptionsImpl where
  mHost : Host := .localhost
  mAccessToken : Option Secret := none
  mServerCertificate : Option Secret := none
  mServerKey : Option Secret := none
  mClientCertificate : Option Secret := none
  mPort : Port := ⟨50000, by decide⟩

namespace GRPCServerOptionsImpl

def setHost (options : GRPCServerOptionsImpl) (hostIn : String) :
    Except ConfigurationError GRPCServerOptionsImpl :=
  (checkHost hostIn).map fun mHost => { options with mHost }

def setPort (options : GRPCServerOptionsImpl) (port : UInt16) :
    Except ConfigurationError GRPCServerOptionsImpl :=
  (checkPort "port must be positive" port).map fun mPort => { options with mPort }

def setServerCertificate (options : GRPCServerOptionsImpl) (cert : String) :
    Except ConfigurationError GRPCServerOptionsImpl :=
  (checkSecret "Server certificate is empty" cert).map fun cert =>
    { options with mServerCertificate := some cert }

def setServerKey (options : GRPCServerOptionsImpl) (key : String) :
    Except ConfigurationError GRPCServerOptionsImpl :=
  (checkSecret "Server key is empty" key).map fun key => { options with mServerKey := some key }

def setClientCertificate (options : GRPCServerOptionsImpl) (cert : String) :
    Except ConfigurationError GRPCServerOptionsImpl :=
  (checkSecret "Client certificate is empty" cert).map fun cert =>
    { options with mClientCertificate := some cert }

def setAccessToken (options : GRPCServerOptionsImpl) (token : String) :
    Except ConfigurationError GRPCServerOptionsImpl :=
  (checkSecret "Token is empty" token).map fun token => { options with mAccessToken := some token }

def takeAccessToken (options : GRPCServerOptionsImpl) :
    Option String → Except ConfigurationError GRPCServerOptionsImpl
  | none => .ok options
  | some accessToken => options.setAccessToken accessToken

end GRPCServerOptionsImpl

structure GRPCClientOptionsImpl where
  mHost : Host := .localhost
  mAccessToken : Option Secret := none
  mServerCertificate : Option Secret := none
  mClientCertificate : Option Secret := none
  mClientKey : Option Secret := none
  mPort : Port := ⟨50000, by decide⟩

namespace GRPCClientOptionsImpl

def setHost (options : GRPCClientOptionsImpl) (hostIn : String) :
    Except ConfigurationError GRPCClientOptionsImpl :=
  (checkHost hostIn).map fun mHost => { options with mHost }

def setPort (options : GRPCClientOptionsImpl) (port : UInt16) :
    Except ConfigurationError GRPCClientOptionsImpl :=
  (checkPort "Port must be positive" port).map fun mPort => { options with mPort }

def setServerCertificate (options : GRPCClientOptionsImpl) (cert : String) :
    Except ConfigurationError GRPCClientOptionsImpl :=
  (checkSecret "Server certificate is empty" cert).map fun cert =>
    { options with mServerCertificate := some cert }

def setClientCertificate (options : GRPCClientOptionsImpl) (cert : String) :
    Except ConfigurationError GRPCClientOptionsImpl :=
  (checkSecret "Client certificate is empty" cert).map fun cert =>
    { options with mClientCertificate := some cert }

def setClientKey (options : GRPCClientOptionsImpl) (key : String) :
    Except ConfigurationError GRPCClientOptionsImpl :=
  (checkSecret "Client key is empty" key).map fun key => { options with mClientKey := some key }

def setAccessToken (options : GRPCClientOptionsImpl) (token : String) :
    Except ConfigurationError GRPCClientOptionsImpl :=
  (checkSecret "Token is empty" token).map fun token => { options with mAccessToken := some token }

def takeAccessToken (options : GRPCClientOptionsImpl) :
    Option String → Except ConfigurationError GRPCClientOptionsImpl
  | none => .ok options
  | some accessToken => options.setAccessToken accessToken

end GRPCClientOptionsImpl

def makeAddress (mHost : Host) (mPort : Port) : String :=
  mHost.name ++ ":" ++ mPort.number.toNat.repr

structure ServerOptionsImpl where
  mGRPCOptions : GRPCServerOptionsImpl := {}
  mSubscriptionManagerOptions : StreamOptions := {}
  mMaximumNumberOfSubscribers : Int := 8
  positive : 0 < mMaximumNumberOfSubscribers := by decide

structure SubscriberOptionsImpl where
  mGRPCOptions : GRPCClientOptionsImpl := {}
  mReconnectSchedule : SubscriberOptions := {}
  mIdentifier : Option Secret := none

structure OTelHTTPLogOptions where
  url : String := "localhost:4318"
  suffix : String := "/v1/logs"

structure OTelHTTPMetricsOptions where
  url : String := "localhost:4318"
  exportInterval : Int := 5000
  exportTimeOut : Int := 500
  suffix : String := "/v1/metrics"

structure ParsedOptions extends ProgramOptions where
  applicationName : String := "uDataPacketService"
  serverOptions : ServerOptionsImpl := {}
  subscriberOptions : SubscriberOptionsImpl := {}
  subscriptionManagerOptions : StreamOptions := {}
  otelHTTPMetricsOptions : OTelHTTPMetricsOptions := {}
  otelHTTPLogOptions : OTelHTTPLogOptions := {}
  verbosity : Int := 3
  maximumImportQueueSize : ℕ := 8192
  exportLogs : Bool := false

instance : Inhabited ParsedOptions := ⟨{}⟩

/-- The entries of an initialization file by their paths. -/
structure PropertyTree where
  getOptional : String → Option String

/-- What the parser reads through: the files, the reader of their syntax, and the
translators of the property tree, which refuse a text that is no such number. -/
structure Platform where
  exists_ : String → Bool
  contents : String → Option String
  readIni : String → Except ConfigurationError PropertyTree
  toInt : String → Option Int
  toUInt16 : String → Option UInt16

/-- `get` of the property tree: the default stands for an entry that is missing and for
one that does not translate. -/
def PropertyTree.getAs {α : Type} (propertyTree : PropertyTree) (translate : String → Option α)
    (path : String) (default_ : α) : α :=
  ((propertyTree.getOptional path).bind translate).getD default_

def PropertyTree.get (propertyTree : PropertyTree) (path default_ : String) : String :=
  propertyTree.getAs some path default_

namespace Platform

def getOTelCollectorURL (platform : Platform) (propertyTree : PropertyTree) (section_ : String) :
    String :=
  let otelCollectorHost := propertyTree.get (section_ ++ ".host") ""
  let otelCollectorPort := propertyTree.getAs platform.toUInt16 (section_ ++ ".port") 4218
  if otelCollectorHost = "" then ""
  else otelCollectorHost ++ ":" ++ otelCollectorPort.toNat.repr

def loadStringFromFile (platform : Platform) (path : String) : Except ConfigurationError String :=
  if platform.exists_ path then
    match platform.contents path with
    | some text => .ok text
    | none => .error (.runtimeError ("Failed to open " ++ path))
  else .ok ""

def requireFile (platform : Platform) (what path : String) : Except ConfigurationError Unit :=
  if platform.exists_ path then .ok ()
  else .error (.invalidArgument ("gRPC " ++ what ++ " file " ++ path ++ " does not exist"))

def getHost (propertyTree : PropertyTree) (section_ : String) (host : Host) :
    Except ConfigurationError String :=
  let host := propertyTree.get (section_ ++ ".host") host.name
  if host = "" then .error (.runtimeError (section_ ++ ".host is empty")) else .ok host

/-- The token of both options; a token needs the server's certificate. -/
def getAccessToken (propertyTree : PropertyTree) (section_ : String)
    (serverCertificate : Option Secret) : Except ConfigurationError (Option String) :=
  match propertyTree.getOptional (section_ ++ ".accessToken") with
  | none => .ok none
  | some accessToken =>
      if serverCertificate.isNone then
        .error (.invalidArgument "Must set server certificate to use access token")
      else .ok (some accessToken)

/-- The key pair of the server; half a pair is ignored. -/
def setServerKeyPair (platform : Platform) (propertyTree : PropertyTree) (section_ : String)
    (options : GRPCServerOptionsImpl) : Except ConfigurationError GRPCServerOptionsImpl :=
  let serverCertificate := propertyTree.get (section_ ++ ".serverCertificate") ""
  let serverKey := propertyTree.get (section_ ++ ".serverKey") ""
  if serverCertificate ≠ "" ∧ serverKey ≠ "" then do
    platform.requireFile "server certificate" serverCertificate
    platform.requireFile "server key" serverKey
    let options ← options.setServerCertificate (← platform.loadStringFromFile serverCertificate)
    options.setServerKey (← platform.loadStringFromFile serverKey)
  else .ok options

def setClientCertificate (platform : Platform) (propertyTree : PropertyTree) (section_ : String)
    (options : GRPCServerOptionsImpl) : Except ConfigurationError GRPCServerOptionsImpl :=
  let clientCertificate := propertyTree.get (section_ ++ ".clientCertificate") ""
  if clientCertificate ≠ "" then do
    platform.requireFile "client certificate" clientCertificate
    options.setClientCertificate (← platform.loadStringFromFile clientCertificate)
  else .ok options

def getGRPCServerOptions (platform : Platform) (propertyTree : PropertyTree) (section_ : String) :
    Except ConfigurationError GRPCServerOptionsImpl := do
  let options : GRPCServerOptionsImpl := {}
  let options ← options.setHost (← getHost propertyTree section_ options.mHost)
  let options ← options.setPort 50000
  let options ← options.setPort
    (propertyTree.getAs platform.toUInt16 (section_ ++ ".port") options.mPort.number)
  let options ← platform.setServerKeyPair propertyTree section_ options
  let options ← options.takeAccessToken
    (← getAccessToken propertyTree section_ options.mServerCertificate)
  platform.setClientCertificate propertyTree section_ options

def setServerCertificate (platform : Platform) (propertyTree : PropertyTree) (section_ : String)
    (options : GRPCClientOptionsImpl) : Except ConfigurationError GRPCClientOptionsImpl :=
  let serverCertificate := propertyTree.get (section_ ++ ".serverCertificate") ""
  if serverCertificate ≠ "" then do
    platform.requireFile "server certificate" serverCertificate
    options.setServerCertificate (← platform.loadStringFromFile serverCertificate)
  else .ok options

/-- The key pair of the subscriber; half a pair is ignored. -/
def setClientKeyPair (platform : Platform) (propertyTree : PropertyTree) (section_ : String)
    (options : GRPCClientOptionsImpl) : Except ConfigurationError GRPCClientOptionsImpl :=
  let clientKey := propertyTree.get (section_ ++ ".clientKey") ""
  let clientCertificate := propertyTree.get (section_ ++ ".clientCertificate") ""
  if clientKey ≠ "" ∧ clientCertificate ≠ "" then do
    platform.requireFile "client key" clientKey
    platform.requireFile "client certificate" clientCertificate
    let options ← options.setClientKey (← platform.loadStringFromFile clientKey)
    options.setClientCertificate (← platform.loadStringFromFile clientCertificate)
  else .ok options

def getGRPCClientOptions (platform : Platform) (propertyTree : PropertyTree) (section_ : String) :
    Except ConfigurationError GRPCClientOptionsImpl := do
  let options : GRPCClientOptionsImpl := {}
  let options ← options.setHost (← getHost propertyTree section_ options.mHost)
  let options ← options.setPort 50000
  let options ← options.setPort
    (propertyTree.getAs platform.toUInt16 (section_ ++ ".port") options.mPort.number)
  let options ← platform.setServerCertificate propertyTree section_ options
  let options ← options.takeAccessToken
    (← getAccessToken propertyTree section_ options.mServerCertificate)
  platform.setClientKeyPair propertyTree section_ options

def joinedSuffix (url suffix : String) : String :=
  if url ≠ "" ∧ suffix ≠ "" ∧ url.toList.getLast? ≠ some '/' ∧ suffix.toList.head? ≠ some '/' then
    "/" ++ suffix
  else suffix

def getMaximumNumberOfSubscribers (platform : Platform) (propertyTree : PropertyTree)
    (options : ServerOptionsImpl) : Except ConfigurationError ServerOptionsImpl :=
  let maxSubscribers := propertyTree.getAs platform.toInt "Server.maximumNumberOfSubscribers"
    options.mMaximumNumberOfSubscribers
  if few : maxSubscribers < 1 then
    .error (.invalidArgument ("Server.maximumNumberOfSubscribers " ++ toString maxSubscribers ++
      " must be positive"))
  else .ok { options with mMaximumNumberOfSubscribers := maxSubscribers, positive := by omega }

/-- The general part of the file and the logging. The metrics options are read and dropped. -/
def getGeneral (platform : Platform) (propertyTree : PropertyTree) : ParsedOptions :=
  let options : ParsedOptions := {}
  let applicationName := propertyTree.get "General.applicationName" options.applicationName
  let url := platform.getOTelCollectorURL propertyTree "OTelHTTPLogOptions"
  let suffix := joinedSuffix url (propertyTree.get "OTelHTTPLogOptions.suffix" "/v1/logs")
  { options with
    applicationName := if applicationName = "" then "uDataPacketService" else applicationName
    verbosity := propertyTree.getAs platform.toInt "General.verbosity" options.verbosity
    exportMetrics := false
    exportLogs := url ≠ ""
    otelHTTPLogOptions := if url ≠ "" then ⟨url, suffix⟩ else options.otelHTTPLogOptions }

def parseIniFile (platform : Platform) (iniFile : String) :
    Except ConfigurationError ParsedOptions :=
  if platform.exists_ iniFile then do
    let propertyTree ← platform.readIni iniFile
    let options := platform.getGeneral propertyTree
    let serverGRPCOptions ← platform.getGRPCServerOptions propertyTree "Service"
    let serverOptions ← platform.getMaximumNumberOfSubscribers propertyTree
      { mGRPCOptions := serverGRPCOptions }
    let subscriberGRPCOptions ← platform.getGRPCClientOptions propertyTree "Subscriber"
    let mIdentifier ← checkSecret "Identifier is empty"
      (options.applicationName ++ "-import-subscriber")
    return { options with
      serverOptions
      subscriberOptions := {
        mGRPCOptions := subscriberGRPCOptions
        mIdentifier := some mIdentifier } }
  else .ok {}

end Platform

/-- How the service listens: the private key and the certificate, or insecurely. -/
structure Listening where
  address : String
  keyCertPair : Option (String × String)
  mSecureConnection : Bool

/-- The part of `ServerImpl::start` before the server is built. -/
def ServerOptionsImpl.listen (mOptions : ServerOptionsImpl) : Listening :=
  let grpcOptions := mOptions.mGRPCOptions
  let address := makeAddress grpcOptions.mHost grpcOptions.mPort
  match grpcOptions.mServerKey, grpcOptions.mServerCertificate with
  | some serverKey, some serverCertificate =>
      ⟨address, some (serverKey.text, serverCertificate.text), true⟩
  | _, _ => ⟨address, none, false⟩

def ServerOptionsImpl.handedOn (mOptions : ServerOptionsImpl) : ServerOptions where
  mGRPCOptions := {
    mAccessToken := mOptions.mGRPCOptions.mAccessToken.map Secret.text
    nonempty := fun token member => by
      obtain ⟨secret, -, rfl⟩ := Option.mem_map.mp member
      exact secret.nonempty }
  mMaximumNumberOfSubscribers := mOptions.mMaximumNumberOfSubscribers
  positive := mOptions.positive

/-- The channel to the import service: the root certificate that it trusts, and the
metadata that `CustomAuthenticator` adds to every call. -/
structure Channel where
  address : String
  pemRootCerts : Option String := none
  metadata : List (String × String) := []

def createChannel (options : GRPCClientOptionsImpl) : Channel :=
  let address := makeAddress options.mHost options.mPort
  match options.mServerCertificate with
  | some serverCertificate =>
      match options.mAccessToken with
      | some apiKey => ⟨address, some serverCertificate.text,
          [("x-custom-auth-token", apiKey.text)]⟩
      | none => ⟨address, some serverCertificate.text, []⟩
  | none => ⟨address, none, []⟩

theorem ok_of_bind {ε α β : Type} {first : Except ε α} {rest : α → Except ε β} {result : β}
    (h : first >>= rest = .ok result) : ∃ value, first = .ok value ∧ rest value = .ok result := by
  cases first with
  | error e => cases h
  | ok value => exact ⟨value, rfl, h⟩

theorem ok_of_map {ε α β : Type} {first : Except ε α} {change : α → β} {result : β}
    (h : first.map change = .ok result) : ∃ value, first = .ok value ∧ result = change value := by
  cases first with
  | error e => cases h
  | ok value => exact ⟨value, rfl, (Except.ok.inj h).symm⟩

theorem checkSecret_ok {what text : String} {secret : Secret}
    (h : checkSecret what text = .ok secret) : secret.text = text := by
  unfold checkSecret at h
  split at h
  · cases h
  · cases h
    rfl

theorem GRPCServerOptionsImpl.takeAccessToken_ok {options next : GRPCServerOptionsImpl}
    {token : Option String} (h : options.takeAccessToken token = .ok next)
    (fresh : options.mAccessToken = none) :
    ∃ mAccessToken : Option Secret, mAccessToken.map Secret.text = token ∧
      next = { options with mAccessToken } := by
  cases token with
  | none =>
      cases h
      exact ⟨none, rfl, by rw [← fresh]⟩
  | some accessToken =>
      obtain ⟨secret, checked, rfl⟩ := ok_of_map h
      exact ⟨some secret, congrArg some (checkSecret_ok checked), rfl⟩

theorem GRPCClientOptionsImpl.takeAccessToken_ok {options next : GRPCClientOptionsImpl}
    {token : Option String} (h : options.takeAccessToken token = .ok next)
    (fresh : options.mAccessToken = none) :
    ∃ mAccessToken : Option Secret, mAccessToken.map Secret.text = token ∧
      next = { options with mAccessToken } := by
  cases token with
  | none =>
      cases h
      exact ⟨none, rfl, by rw [← fresh]⟩
  | some accessToken =>
      obtain ⟨secret, checked, rfl⟩ := ok_of_map h
      exact ⟨some secret, congrArg some (checkSecret_ok checked), rfl⟩

/-- What the parser ensures of the options of the server. -/
structure GRPCServerOptionsImpl.Accepted (propertyTree : PropertyTree) (section_ : String)
    (options : GRPCServerOptionsImpl) : Prop where
  token : options.mAccessToken.map Secret.text =
    propertyTree.getOptional (section_ ++ ".accessToken")
  secured : options.mAccessToken ≠ none → options.mServerCertificate ≠ none
  paired : options.mServerCertificate ≠ none ↔ options.mServerKey ≠ none
  keyed : options.mServerKey ≠ none ↔
    propertyTree.get (section_ ++ ".serverCertificate") "" ≠ "" ∧
      propertyTree.get (section_ ++ ".serverKey") "" ≠ ""

structure GRPCClientOptionsImpl.Accepted (propertyTree : PropertyTree) (section_ : String)
    (options : GRPCClientOptionsImpl) : Prop where
  token : options.mAccessToken.map Secret.text =
    propertyTree.getOptional (section_ ++ ".accessToken")
  secured : options.mAccessToken ≠ none → options.mServerCertificate ≠ none
  trusting : options.mServerCertificate ≠ none ↔
    propertyTree.get (section_ ++ ".serverCertificate") "" ≠ ""

namespace Platform
variable {platform : Platform} {propertyTree : PropertyTree} {section_ : String}

theorem setServerKeyPair_ok {options next : GRPCServerOptionsImpl}
    (h : platform.setServerKeyPair propertyTree section_ options = .ok next) :
    (next = options ∧ ¬(propertyTree.get (section_ ++ ".serverCertificate") "" ≠ "" ∧
        propertyTree.get (section_ ++ ".serverKey") "" ≠ "")) ∨
      (∃ cert key, next = { options with
          mServerCertificate := some cert, mServerKey := some key }) ∧
        propertyTree.get (section_ ++ ".serverCertificate") "" ≠ "" ∧
        propertyTree.get (section_ ++ ".serverKey") "" ≠ "" := by
  simp only [setServerKeyPair] at h
  split at h
  · rename_i both
    obtain ⟨-, -, h⟩ := ok_of_bind h
    obtain ⟨-, -, h⟩ := ok_of_bind h
    obtain ⟨text, -, h⟩ := ok_of_bind h
    obtain ⟨certified, set, h⟩ := ok_of_bind h
    obtain ⟨text, -, h⟩ := ok_of_bind h
    obtain ⟨cert, -, rfl⟩ := ok_of_map set
    obtain ⟨key, -, rfl⟩ := ok_of_map h
    exact .inr ⟨⟨cert, key, rfl⟩, both⟩
  · rename_i half
    exact .inl ⟨(Except.ok.inj h).symm, half⟩

theorem setClientCertificate_ok {options next : GRPCServerOptionsImpl}
    (h : platform.setClientCertificate propertyTree section_ options = .ok next) :
    ∃ mClientCertificate, next = { options with mClientCertificate } := by
  simp only [setClientCertificate] at h
  split at h
  · obtain ⟨-, -, h⟩ := ok_of_bind h
    obtain ⟨text, -, h⟩ := ok_of_bind h
    obtain ⟨cert, -, rfl⟩ := ok_of_map h
    exact ⟨some cert, rfl⟩
  · exact ⟨options.mClientCertificate, (Except.ok.inj h).symm⟩

/-- The token of the file is taken over, and only with a certificate. -/
theorem getAccessToken_ok {cert : Option Secret} {token : Option String}
    (h : getAccessToken propertyTree section_ cert = .ok token) :
    token = propertyTree.getOptional (section_ ++ ".accessToken") ∧
      (token ≠ none → cert ≠ none) := by
  unfold getAccessToken at h
  split at h
  · rename_i absent
    cases h
    exact ⟨absent.symm, fun some_ => absurd rfl some_⟩
  · rename_i accessToken given
    split at h
    · cases h
    · rename_i certified
      cases h
      exact ⟨given.symm, fun _ none_ => certified (by rw [none_]; rfl)⟩

theorem getGRPCServerOptions_ok {options : GRPCServerOptionsImpl}
    (h : platform.getGRPCServerOptions propertyTree section_ = .ok options) :
    options.Accepted propertyTree section_ := by
  unfold getGRPCServerOptions at h
  obtain ⟨host, -, h⟩ := ok_of_bind h
  obtain ⟨hosted, set, h⟩ := ok_of_bind h
  obtain ⟨mHost, -, rfl⟩ := ok_of_map set
  obtain ⟨ported, set, h⟩ := ok_of_bind h
  obtain ⟨port, -, rfl⟩ := ok_of_map set
  obtain ⟨ported, set, h⟩ := ok_of_bind h
  obtain ⟨mPort, -, rfl⟩ := ok_of_map set
  obtain ⟨keyed, pair, h⟩ := ok_of_bind h
  obtain ⟨token, got, h⟩ := ok_of_bind h
  obtain ⟨taken, set, h⟩ := ok_of_bind h
  obtain ⟨mClientCertificate, rfl⟩ := setClientCertificate_ok h
  obtain ⟨same, certified⟩ := getAccessToken_ok got
  obtain ⟨rfl, half⟩ | ⟨⟨cert, key, rfl⟩, both⟩ := setServerKeyPair_ok pair
  · obtain ⟨mAccessToken, carried, rfl⟩ := GRPCServerOptionsImpl.takeAccessToken_ok set rfl
    exact {
      token := carried.trans same
      secured := fun given => certified (by rw [← carried]; simpa using given)
      paired := iff_of_false (fun some_ => some_ rfl) (fun some_ => some_ rfl)
      keyed := iff_of_false (fun some_ => some_ rfl) half }
  · obtain ⟨mAccessToken, carried, rfl⟩ := GRPCServerOptionsImpl.takeAccessToken_ok set rfl
    exact {
      token := carried.trans same
      secured := fun _ => Option.some_ne_none cert
      paired := iff_of_true (Option.some_ne_none cert) (Option.some_ne_none key)
      keyed := iff_of_true (Option.some_ne_none key) both }

theorem setServerCertificate_ok {options next : GRPCClientOptionsImpl}
    (h : platform.setServerCertificate propertyTree section_ options = .ok next) :
    (next = options ∧ ¬propertyTree.get (section_ ++ ".serverCertificate") "" ≠ "") ∨
      (∃ cert, next = { options with mServerCertificate := some cert }) ∧
        propertyTree.get (section_ ++ ".serverCertificate") "" ≠ "" := by
  simp only [setServerCertificate] at h
  split at h
  · rename_i named
    obtain ⟨-, -, h⟩ := ok_of_bind h
    obtain ⟨text, -, h⟩ := ok_of_bind h
    obtain ⟨cert, -, rfl⟩ := ok_of_map h
    exact .inr ⟨⟨cert, rfl⟩, named⟩
  · rename_i unnamed
    exact .inl ⟨(Except.ok.inj h).symm, unnamed⟩

theorem setClientKeyPair_ok {options next : GRPCClientOptionsImpl}
    (h : platform.setClientKeyPair propertyTree section_ options = .ok next) :
    ∃ mClientKey mClientCertificate,
      next = { options with mClientKey, mClientCertificate } := by
  simp only [setClientKeyPair] at h
  split at h
  · obtain ⟨-, -, h⟩ := ok_of_bind h
    obtain ⟨-, -, h⟩ := ok_of_bind h
    obtain ⟨text, -, h⟩ := ok_of_bind h
    obtain ⟨keyed, set, h⟩ := ok_of_bind h
    obtain ⟨text, -, h⟩ := ok_of_bind h
    obtain ⟨key, -, rfl⟩ := ok_of_map set
    obtain ⟨cert, -, rfl⟩ := ok_of_map h
    exact ⟨some key, some cert, rfl⟩
  · exact ⟨options.mClientKey, options.mClientCertificate, (Except.ok.inj h).symm⟩

theorem getGRPCClientOptions_ok {options : GRPCClientOptionsImpl}
    (h : platform.getGRPCClientOptions propertyTree section_ = .ok options) :
    options.Accepted propertyTree section_ := by
  unfold getGRPCClientOptions at h
  obtain ⟨host, -, h⟩ := ok_of_bind h
  obtain ⟨hosted, set, h⟩ := ok_of_bind h
  obtain ⟨mHost, -, rfl⟩ := ok_of_map set
  obtain ⟨ported, set, h⟩ := ok_of_bind h
  obtain ⟨port, -, rfl⟩ := ok_of_map set
  obtain ⟨ported, set, h⟩ := ok_of_bind h
  obtain ⟨mPort, -, rfl⟩ := ok_of_map set
  obtain ⟨trusting, trust, h⟩ := ok_of_bind h
  obtain ⟨token, got, h⟩ := ok_of_bind h
  obtain ⟨taken, set, h⟩ := ok_of_bind h
  obtain ⟨mClientKey, mClientCertificate, rfl⟩ := setClientKeyPair_ok h
  obtain ⟨same, certified⟩ := getAccessToken_ok got
  obtain ⟨rfl, unnamed⟩ | ⟨⟨cert, rfl⟩, named⟩ := setServerCertificate_ok trust
  · obtain ⟨mAccessToken, carried, rfl⟩ := GRPCClientOptionsImpl.takeAccessToken_ok set rfl
    exact {
      token := carried.trans same
      secured := fun given => certified (by rw [← carried]; simpa using given)
      trusting := iff_of_false (fun some_ => some_ rfl) unnamed }
  · obtain ⟨mAccessToken, carried, rfl⟩ := GRPCClientOptionsImpl.takeAccessToken_ok set rfl
    exact {
      token := carried.trans same
      secured := fun _ => Option.some_ne_none cert
      trusting := iff_of_true (Option.some_ne_none cert) named }

theorem parseIniFile_ok {iniFile : String} {options : ParsedOptions}
    (there : platform.exists_ iniFile = true)
    (read : platform.readIni iniFile = .ok propertyTree)
    (accepted : platform.parseIniFile iniFile = .ok options) :
    options.serverOptions.mGRPCOptions.Accepted propertyTree "Service" ∧
      options.subscriberOptions.mGRPCOptions.Accepted propertyTree "Subscriber" := by
  simp only [parseIniFile, there, if_true] at accepted
  obtain ⟨tree, same, h⟩ := ok_of_bind accepted
  cases read.symm.trans same
  obtain ⟨serverGRPCOptions, server, h⟩ := ok_of_bind h
  obtain ⟨serverOptions, limited, h⟩ := ok_of_bind h
  obtain ⟨subscriberGRPCOptions, subscriber, h⟩ := ok_of_bind h
  obtain ⟨mIdentifier, -, h⟩ := ok_of_bind h
  cases h
  refine ⟨?_, getGRPCClientOptions_ok subscriber⟩
  simp only [getMaximumNumberOfSubscribers] at limited
  split at limited
  · cases limited
  · cases limited
    exact getGRPCServerOptions_ok server

end Platform

end UDataPacketService
