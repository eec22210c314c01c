import UDataPacketService.CallRecords
import UDataPacketService.ServerDelivery
import UDataPacketService.ProgramConfiguration

/-! Access to the service from the initialization file to the calls: which files secure
the two connections of the program, and which clients the service then rejects. -/
namespace UDataPacketService

theorem ServerOptionsImpl.listen_secure (mOptions : ServerOptionsImpl) :
    mOptions.listen.mSecureConnection = true ↔
      mOptions.mGRPCOptions.mServerKey ≠ none ∧
        mOptions.mGRPCOptions.mServerCertificate ≠ none := by
  unfold ServerOptionsImpl.listen
  cases key : mOptions.mGRPCOptions.mServerKey with
  | none => simp [key]
  | some serverKey =>
      cases certificate : mOptions.mGRPCOptions.mServerCertificate with
      | none => simp [key, certificate]
      | some serverCertificate => simp [key, certificate]

theorem createChannel_metadata {options : GRPCClientOptionsImpl}
    (secured : options.mAccessToken ≠ none → options.mServerCertificate ≠ none) :
    (createChannel options).metadata =
      (options.mAccessToken.map Secret.text).toList.map
        (fun token => ("x-custom-auth-token", token)) := by
  unfold createChannel
  cases token : options.mAccessToken with
  | none => cases options.mServerCertificate <;> rfl
  | some apiKey =>
      cases certificate : options.mServerCertificate with
      -- without a certificate the source would drop the token, but none is accepted then
      | none => exact absurd certificate (secured (by rw [token]; exact Option.some_ne_none apiKey))
      | some serverCertificate => rfl

theorem createChannel_trusts (options : GRPCClientOptionsImpl) :
    (createChannel options).pemRootCerts = options.mServerCertificate.map Secret.text := by
  unfold createChannel
  cases options.mServerCertificate with
  | none => rfl
  | some serverCertificate => cases options.mAccessToken <;> rfl

/-- `ServerImpl` hands `mSecureConnection` to the reactor of every call. -/
def CallEvent.handOn (mSecureConnection : Bool) : CallEvent → CallEvent
  | .connect call => .connect { call with isSecureConnection := mSecureConnection }
  | event => event

def ParsedOptions.serve (options : ParsedOptions) (events : List CallEvent) : BusyServer :=
  callMachine.run
    (.start options.serverOptions.handedOn options.serverOptions.mSubscriptionManagerOptions)
    (events.map (CallEvent.handOn options.serverOptions.listen.mSecureConnection))

namespace BusyServer
variable {busy : BusyServer} {c : ContextAddress} {reactor : Reactor}

/-- A step that a reactor survives adds calls to those of the reactor, and no rejection. -/
theorem calls_step (regular : busy.Regular) (there : busy.server.reactors c = some reactor)
    {event : CallEvent} (left : Survives c busy event) :
    ∃ after added, (callMachine.step busy event).1.server.reactors c = some after ∧
      after.calls = reactor.calls ++ added ∧ .finish .rejected ∉ added := by
  have moved (session : Session) (adds : ∃ added,
      Session.Adds ⟨busy.server.service, reactor⟩ session added)
      (updated : (callMachine.step busy event).1.server.reactors c =
        if session.reactor.done then none else some session.reactor) :
      ∃ after added, (callMachine.step busy event).1.server.reactors c = some after ∧
        after.calls = reactor.calls ++ added ∧ .finish .rejected ∉ added := by
    obtain ⟨added, adds⟩ := adds
    split at updated
    · exact absurd updated left
    · exact ⟨session.reactor, added, updated, adds.calls, adds.allowed⟩
  have unmoved (same : (callMachine.step busy event).1.server.reactors c = some reactor) :
      ∃ after added, (callMachine.step busy event).1.server.reactors c = some after ∧
        after.calls = reactor.calls ++ added ∧ .finish .rejected ∉ added :=
    ⟨reactor, [], same, (List.append_nil _).symm, List.not_mem_nil⟩
  have step := regular.tidy.stepAt there (regular.steady c reactor there) event
  generalize (callMachine.step busy event).1 = next at step moved unmoved
  cases step with
  | stays same => exact unmoved same
  | arrives packet => exact unmoved there
  | purges => exact unmoved there
  | stops => exact unmoved there
  | proceeds part rest sections =>
      refine moved _ (Session.Adds.runSection _ part) ?_
      rw [proceed_of_live there sections]
      exact Function.update_self ..
  | reacts event =>
      refine moved _ (Session.Adds.react _ event) ?_
      rw [Server.react_of_live event there]
      exact Function.update_self ..
  | ends => exact unmoved there

theorem rejected_step {verdict : Prop} (event : CallEvent)
    (h : busy.Regular ∧ ∃ reactor, busy.server.reactors c = some reactor ∧
      (.finish .rejected ∈ reactor.calls ↔ verdict)) (left : Survives c busy event) :
    (callMachine.step busy event).1.Regular ∧ ∃ reactor,
      (callMachine.step busy event).1.server.reactors c = some reactor ∧
        (.finish .rejected ∈ reactor.calls ↔ verdict) := by
  obtain ⟨regular, reactor, there, settled⟩ := h
  obtain ⟨after, added, found, calls, allowed⟩ := calls_step regular there left
  refine ⟨regular.step event, after, found, ?_⟩
  rw [calls, List.mem_append, or_iff_left allowed]
  exact settled

theorem rejected_connect (call : IncomingCall) (free : busy.server.reactors call.context = none) :
    ∃ reactor,
      (callMachine.step busy (.connect call)).1.server.reactors call.context = some reactor ∧
      (.finish .rejected ∈ reactor.calls ↔ call.Unauthenticated busy.server.service.mOptions) := by
  refine ⟨(Session.arrive busy.server.service call).reactor, ?_, ?_⟩
  · change (busy.connect call).server.reactors call.context = _
    unfold BusyServer.connect
    rw [free]
    exact Function.update_self ..
  · rw [Session.arrive_calls]
    split
    · rename_i refused
      exact iff_of_true (List.mem_singleton.mpr rfl) refused
    · rename_i allowed
      exact iff_of_false List.not_mem_nil allowed

end BusyServer

/-- The check of a call that `ServerImpl` hands on, for options that the parser accepted. -/
theorem ServerOptionsImpl.unauthenticated_iff (mOptions : ServerOptionsImpl)
    {propertyTree : PropertyTree} {section_ : String} {call : IncomingCall}
    (server : mOptions.mGRPCOptions.Accepted propertyTree section_) :
    { call with isSecureConnection := mOptions.listen.mSecureConnection : IncomingCall
      }.Unauthenticated mOptions.handedOn ↔
      ∃ token ∈ propertyTree.getOptional (section_ ++ ".accessToken"),
        ("x-custom-auth-token", token) ∉ call.clientMetadata := by
  have lacks (token : String) : (∀ item ∈ call.clientMetadata,
      ¬(item.1 = "x-custom-auth-token" ∧ item.2 = token)) ↔
        ("x-custom-auth-token", token) ∉ call.clientMetadata := by
    refine ⟨fun none_ member => none_ _ member ⟨rfl, rfl⟩, ?_⟩
    rintro absent ⟨header, value⟩ member ⟨rfl, rfl⟩
    exact absent member
  rw [← server.token]
  constructor
  · rintro ⟨-, token, asked, none_⟩
    exact ⟨token, asked, (lacks token).mp none_⟩
  · rintro ⟨token, asked, absent⟩
    refine ⟨?_, token, asked, (lacks token).mpr absent⟩
    have certified := server.secured (fun none_ => by rw [none_] at asked; cases asked)
    exact mOptions.listen_secure.mpr ⟨server.paired.mp certified, certified⟩

/-- An accepted initialization file secures the service if and only if it names a
certificate and a key, and the connection to the import service if and only if it names
a certificate. The subscriber presents the token of its section if there is one. A token
is accepted for neither side unless its connection is secured. -/
theorem accepted_file_secures_tokens (platform : Platform) (iniFile : String)
    {propertyTree : PropertyTree} {options : ParsedOptions}
    (there : platform.exists_ iniFile = true)
    (read : platform.readIni iniFile = .ok propertyTree)
    (accepted : platform.parseIniFile iniFile = .ok options) :
    let listening := options.serverOptions.listen
    let channel := createChannel options.subscriberOptions.mGRPCOptions
    (listening.mSecureConnection = true ↔
        propertyTree.get "Service.serverCertificate" "" ≠ "" ∧
          propertyTree.get "Service.serverKey" "" ≠ "") ∧
      (channel.pemRootCerts ≠ none ↔
        propertyTree.get "Subscriber.serverCertificate" "" ≠ "") ∧
      channel.metadata = (propertyTree.getOptional "Subscriber.accessToken").toList.map
        (fun token => ("x-custom-auth-token", token)) ∧
      (propertyTree.getOptional "Service.accessToken" ≠ none →
        listening.mSecureConnection = true) ∧
      (propertyTree.getOptional "Subscriber.accessToken" ≠ none → channel.pemRootCerts ≠ none) := by
  intro listening channel
  obtain ⟨server, subscriber⟩ := Platform.parseIniFile_ok there read accepted
  have secure : listening.mSecureConnection = true ↔
      options.serverOptions.mGRPCOptions.mServerKey ≠ none := by
    rw [ServerOptionsImpl.listen_secure]
    exact and_iff_left_of_imp server.paired.mpr
  have trusts : channel.pemRootCerts ≠ none ↔
      options.subscriberOptions.mGRPCOptions.mServerCertificate ≠ none := by
    rw [createChannel_trusts]
    exact not_congr Option.map_eq_none_iff
  refine ⟨secure.trans server.keyed, trusts.trans subscriber.trusting, ?_, fun given => ?_,
    fun given => ?_⟩
  · rw [createChannel_metadata subscriber.secured, subscriber.token]
    rfl
  · have token : options.serverOptions.mGRPCOptions.mAccessToken ≠ none := fun none_ =>
      given (by rw [show "Service.accessToken" = "Service" ++ ".accessToken" from rfl,
        ← server.token, none_]; rfl)
    exact secure.mpr (server.paired.mp (server.secured token))
  · have token : options.subscriberOptions.mGRPCOptions.mAccessToken ≠ none := fun none_ =>
      given (by rw [show "Subscriber.accessToken" = "Subscriber" ++ ".accessToken" from rfl,
        ← subscriber.token, none_]; rfl)
    exact trusts.mpr (subscriber.secured token)

def tokenFile : PropertyTree where
  getOptional path := List.lookup path [("Service.serverCertificate", "server.crt"),
    ("Service.serverKey", "server.key"), ("Service.accessToken", "token"),
    ("Subscriber.serverCertificate", "import.crt"), ("Subscriber.accessToken", "key")]

def tokenPlatform : Platform where
  exists_ _ := true
  contents := some
  readIni _ := .ok tokenFile
  toInt _ := none
  toUInt16 _ := none

def tokenOptions : ParsedOptions := (tokenPlatform.parseIniFile "service.ini").toOption.getD default

theorem accepted_file_secures_tokens_once :
    let listening := tokenOptions.serverOptions.listen
    let channel := createChannel tokenOptions.subscriberOptions.mGRPCOptions
    (listening.mSecureConnection = true ↔
        tokenFile.get "Service.serverCertificate" "" ≠ "" ∧
          tokenFile.get "Service.serverKey" "" ≠ "") ∧
      (channel.pemRootCerts ≠ none ↔ tokenFile.get "Subscriber.serverCertificate" "" ≠ "") ∧
      channel.metadata = (tokenFile.getOptional "Subscriber.accessToken").toList.map
        (fun token => ("x-custom-auth-token", token)) ∧
      (tokenFile.getOptional "Service.accessToken" ≠ none → listening.mSecureConnection = true) ∧
      (tokenFile.getOptional "Subscriber.accessToken" ≠ none → channel.pemRootCerts ≠ none) :=
  accepted_file_secures_tokens tokenPlatform "service.ini" rfl rfl rfl

/-- In every run of the server of an accepted initialization file, a reactor has been
rejected if and only if the file asks for a token that the metadata of its client lack. -/
theorem configured_token_is_checked (platform : Platform) (iniFile : String)
    {propertyTree : PropertyTree} {options : ParsedOptions}
    (exists_ : platform.exists_ iniFile = true)
    (read : platform.readIni iniFile = .ok propertyTree)
    (accepted : platform.parseIniFile iniFile = .ok options) (call : IncomingCall)
    (before after : List CallEvent)
    (free : (options.serve before).server.reactors call.context = none)
    (alive : callMachine.Admissible (BusyServer.Survives call.context)
      (options.serve (before ++ [.connect call]))
      (after.map (CallEvent.handOn options.serverOptions.listen.mSecureConnection))) :
    ∃ reactor, (options.serve (before ++ .connect call :: after)).server.reactors call.context =
        some reactor ∧
      (.finish .rejected ∈ reactor.calls ↔
        ∃ token ∈ propertyTree.getOptional "Service.accessToken",
          ("x-custom-auth-token", token) ∉ call.clientMetadata) := by
  obtain ⟨server, -⟩ := Platform.parseIniFile_ok exists_ read accepted
  have regular := BusyServer.run_regular options.serverOptions.handedOn
    options.serverOptions.mSubscriptionManagerOptions
    (before.map (CallEvent.handOn options.serverOptions.listen.mSecureConnection))
  have handed : (options.serve before).server.service.mOptions = options.serverOptions.handedOn :=
    BusyServer.mOptions_run (BusyServer.start_regular _ _) _
  obtain ⟨reactor, built, settled⟩ := BusyServer.rejected_connect
    { call with isSecureConnection := options.serverOptions.listen.mSecureConnection } free
  rw [handed, options.serverOptions.unauthenticated_iff server] at settled
  have connected : options.serve (before ++ [.connect call]) =
      (callMachine.step (options.serve before) (.connect
        { call with isSecureConnection := options.serverOptions.listen.mSecureConnection })).1 := by
    unfold ParsedOptions.serve
    rw [List.map_append, callMachine.run_append]
    rfl
  have whole : options.serve (before ++ .connect call :: after) =
      callMachine.run (options.serve (before ++ [.connect call]))
        (after.map (CallEvent.handOn options.serverOptions.listen.mSecureConnection)) := by
    unfold ParsedOptions.serve
    rw [← callMachine.run_append, ← List.map_append, List.append_assoc]
    rfl
  rw [whole]
  refine (alive.invariant _ (fun now event h left => BusyServer.rejected_step event h left)
    ?_).2
  rw [connected]
  exact ⟨regular.step _, reactor, built, settled⟩

/-- A client without the token. -/
theorem configured_token_is_checked_once :
    ∃ reactor, (tokenOptions.serve ([] ++ .connect { context := 1, request := .subscribeToAll } ::
        [.proceed 1, .proceed 1])).server.reactors 1 = some reactor ∧
      .finish .rejected ∈ reactor.calls := by
  obtain ⟨reactor, there, rejected⟩ :=
    configured_token_is_checked tokenPlatform "service.ini" rfl rfl rfl
      { context := 1, request := .subscribeToAll } [] [.proceed 1, .proceed 1] rfl
      (by decide +kernel)
  exact ⟨reactor, there, rejected.mpr ⟨_, rfl, List.not_mem_nil⟩⟩

end UDataPacketService
