import TlsClient.NumberParsing

/-!
# From the port argument to the socket address

A port passes through three widths: `strtoull` has 64 bits, `convertStrToLong`
casts to 32, and `htons` in `create_sock_in_struct` takes 16.  `create_socket`
fills one address, binds to it, and then fills the other one (a client) or
listens (a server).
-/

namespace TlsClient

open DecimalNumerals

def swapBytes (value : Nat) : Nat :=
  value % 256 * 256 + value / 256 % 256

/-- `htons`, whose parameter is a `uint16_t`. -/
def htons (hostshort : Nat) : Nat :=
  swapBytes (hostshort % 2 ^ 16)

def ntohs (netshort : Nat) : Nat :=
  swapBytes (netshort % 2 ^ 16)

theorem swapBytes_lt (value : Nat) : swapBytes value < 2 ^ 16 := by
  unfold swapBytes
  omega

theorem swapBytes_swapBytes {value : Nat} (fits : value < 2 ^ 16) :
    swapBytes (swapBytes value) = value := by
  have high : swapBytes value / 256 = value % 256 := by unfold swapBytes; omega
  have low : swapBytes value % 256 = value / 256 := by unfold swapBytes; omega
  rw [swapBytes, high, low]
  omega

theorem ntohs_htons (port : Nat) : ntohs (htons port) = port % 2 ^ 16 := by
  rw [ntohs, htons, Nat.mod_eq_of_lt (swapBytes_lt _),
    swapBytes_swapBytes (Nat.mod_lt _ (by decide))]

structure SockaddrIn where
  sinPort : Nat
  sinAddr : Nat
  deriving DecidableEq, Repr

inductive Endpoint
  | source
  | destination
  deriving DecidableEq, Repr

/-- What the calls of `create_socket` return.  `inetPton` is the address that
`inet_pton` finds, if it returns 1. -/
structure SocketAnswers where
  socketfd : Int
  fcntl : Int
  setsockopt : Int
  inetPton : List Char → Option Nat
  bind : Int
  pthreadCreate : Int

/-- The visible actions of `create_socket` and of the thread it creates. -/
inductive SocketAction
  | socket (protocol : Protocol)
  | filled (endpoint : Endpoint) (address : SockaddrIn)
  | bind (address : SockaddrIn)
  | listen
  | connect (protocol : Protocol) (address : SockaddrIn)
  deriving DecidableEq, Repr

def SocketAction.isNetworkCall : SocketAction → Bool
  | socket _ => false
  | filled _ _ => false
  | bind _ => true
  | listen => true
  | connect _ _ => true

/-- `create_sock_in_struct`; it exits if the address is not converted. -/
def createSockInStruct (inetPton : List Char → Option Nat) (address : String) (port : Nat) :
    Ended SockaddrIn :=
  match inetPton (cStr address) with
  | some sinAddr => .returned ⟨htons port, sinAddr⟩
  | none => .exited

def setSockOption (answers : SocketAnswers) : Ended Unit :=
  if answers.fcntl < 0 then .exited
  else if answers.setsockopt < 0 then .exited
  else .returned ()

/-- The client's part of `create_socket`, after `bind`.  The thread it creates
connects to the address. -/
def createClient (answers : SocketAnswers) (parameters : Parameters) : List SocketAction :=
  match createSockInStruct answers.inetPton parameters.destAddress parameters.destPort with
  | .exited => []
  | .returned address =>
      .filled .destination address ::
        if answers.pthreadCreate = 0 then [.connect parameters.protocol address] else []

/-- `bind`, and what `create_socket` does behind it. -/
def bindSocket (answers : SocketAnswers) (parameters : Parameters) (address : SockaddrIn) :
    List SocketAction :=
  .bind address ::
    if answers.bind < 0 then []
    else
      match parameters.transportType with
      | .client => createClient answers parameters
      | .server => [.listen]

/-- `init` and `create_socket`, up to the point where the process exits or the
threads take over. -/
def createSocket (answers : SocketAnswers) (parameters : Parameters) : List SocketAction :=
  .socket parameters.protocol ::
    if answers.socketfd = -1 then []
    else
      match setSockOption answers with
      | .exited => []
      | .returned () =>
          match
            createSockInStruct answers.inetPton parameters.srcAddress parameters.srcPort with
          | .exited => []
          | .returned address =>
              .filled .source address :: bindSocket answers parameters address

/-! The run of `create_socket`. -/

def SocketAnswers.ReachesBind (answers : SocketAnswers) (srcAddress : String) : Prop :=
  answers.socketfd ≠ -1 ∧ 0 ≤ answers.fcntl ∧ 0 ≤ answers.setsockopt ∧
    (answers.inetPton (cStr srcAddress)).isSome

theorem createSocket_of_reachesBind {answers : SocketAnswers} {parameters : Parameters}
    (reaches : answers.ReachesBind parameters.srcAddress) :
    ∃ sinAddr, createSocket answers parameters =
      .socket parameters.protocol ::
        .filled .source ⟨htons parameters.srcPort, sinAddr⟩ ::
        bindSocket answers parameters ⟨htons parameters.srcPort, sinAddr⟩ := by
  obtain ⟨socketfd, fcntl, setsockopt, converted⟩ := reaches
  obtain ⟨sinAddr, converted⟩ := Option.isSome_iff_exists.mp converted
  refine ⟨sinAddr, ?_⟩
  simp only [createSocket, setSockOption, createSockInStruct, if_neg socketfd,
    if_neg (Int.not_lt.mpr fcntl), if_neg (Int.not_lt.mpr setsockopt), converted]

theorem createSocket_of_not_reachesBind {answers : SocketAnswers} {parameters : Parameters}
    (stops : ¬ answers.ReachesBind parameters.srcAddress) :
    createSocket answers parameters = [.socket parameters.protocol] := by
  by_contra goesOn
  apply stops
  simp only [createSocket, setSockOption, createSockInStruct] at goesOn
  by_cases socketfd : answers.socketfd = -1
  · simp [socketfd] at goesOn
  by_cases fcntl : answers.fcntl < 0
  · simp [socketfd, fcntl] at goesOn
  by_cases setsockopt : answers.setsockopt < 0
  · simp [socketfd, fcntl, setsockopt] at goesOn
  refine ⟨socketfd, Int.not_lt.mp fcntl, Int.not_lt.mp setsockopt, ?_⟩
  cases converted : answers.inetPton (cStr parameters.srcAddress) with
  | none => simp [socketfd, fcntl, setsockopt, converted] at goesOn
  | some sinAddr => rfl

def Parameters.port (parameters : Parameters) : Endpoint → Nat
  | .source => parameters.srcPort
  | .destination => parameters.destPort

theorem filled_of_createClient {answers : SocketAnswers} {parameters : Parameters}
    {endpoint : Endpoint} {address : SockaddrIn}
    (member : SocketAction.filled endpoint address ∈ createClient answers parameters) :
    endpoint = .destination ∧ address.sinPort = htons parameters.destPort := by
  unfold createClient createSockInStruct at member
  generalize answers.inetPton (cStr parameters.destAddress) = converted at member
  cases converted with
  | none => simp at member
  | some sinAddr =>
      rcases List.mem_cons.mp member with filled | connects
      · cases filled
        exact ⟨rfl, rfl⟩
      · split at connects <;> simp at connects

theorem filled_of_createSocket {answers : SocketAnswers} {parameters : Parameters}
    {endpoint : Endpoint} {address : SockaddrIn}
    (member : SocketAction.filled endpoint address ∈ createSocket answers parameters) :
    answers.ReachesBind parameters.srcAddress ∧
      address.sinPort = htons (parameters.port endpoint) ∧
      (endpoint = .destination → parameters.transportType = .client) := by
  by_cases reaches : answers.ReachesBind parameters.srcAddress
  · refine ⟨reaches, ?_⟩
    obtain ⟨sinAddr, run⟩ := createSocket_of_reachesBind reaches
    simp only [run, List.mem_cons, reduceCtorEq, false_or, bindSocket] at member
    rcases member with filled | later
    · cases filled
      exact ⟨rfl, nofun⟩
    · split at later
      · simp at later
      · split at later
        · rename_i client
          obtain ⟨rfl, port⟩ := filled_of_createClient later
          exact ⟨port, fun _ => client⟩
        · simp at later
  · simp [createSocket_of_not_reachesBind reaches] at member

def portArgument (arguments : List String) : Endpoint → Option String
  | .source => arguments[5]?
  | .destination => arguments[9]?

/-- The port of every address filled is the number its argument writes, and an
argument that is no port stops the program before the network is touched. -/
def PortFaithful (arguments : List String) (actions : List SocketAction) : Prop :=
  (∀ endpoint address, .filled endpoint address ∈ actions →
    ∃ text, portArgument arguments endpoint = some text ∧
      numeral? text.toList = some (ntohs address.sinPort)) ∧
  ∀ endpoint text, portArgument arguments endpoint = some text → isPort text = false →
    ∀ action ∈ actions, action.isNetworkCall = false

theorem port_of_convert {text : String} (port : isPort text = true) :
    numeral? text.toList = some (ntohs (htons (convertStrToLong text).2)) := by
  obtain ⟨⟨text, number, written, fits⟩, rfl⟩ := isPort_iff.mp port
  rw [written, convertStrToLong_of_numeral written (by omega), ntohs_htons,
    Nat.mod_eq_of_lt (by omega)]

/-- On an accepted vector the ports arrive as they are written exactly when
every port argument is a numeral in 0..65535, or the run stops before
`::bind`. -/
theorem portFaithful_iff {arguments : List String} {initial parameters : Parameters}
    (accepted : validateArgument arguments initial = .returned parameters)
    (answers : SocketAnswers) :
    PortFaithful arguments (createSocket answers parameters) ↔
      (∀ srcAddress, arguments[3]? = some srcAddress → answers.ReachesBind srcAddress →
        ∀ endpoint text, portArgument arguments endpoint = some text → isPort text = true) := by
  obtain ⟨address, ⟨srcPort, sixth, srcRead⟩, tenth⟩ := validateArgument_returned accepted
  simp only [address, Option.some.injEq, forall_eq']
  constructor
  · rintro ⟨_, stops⟩ reaches endpoint text named
    by_contra noPort
    obtain ⟨sinAddr, run⟩ := createSocket_of_reachesBind reaches
    have silent := stops endpoint text named (by simpa using noPort)
      (.bind ⟨htons parameters.srcPort, sinAddr⟩) (by simp [run, bindSocket])
    simp [SocketAction.isNetworkCall] at silent
  · intro ports
    constructor
    · intro endpoint filled member
      obtain ⟨reaches, port, client⟩ := filled_of_createSocket member
      cases endpoint with
      | source =>
          refine ⟨srcPort, sixth, ?_⟩
          rw [port, Parameters.port, srcRead]
          exact port_of_convert (ports reaches .source srcPort sixth)
      | destination =>
          rw [client rfl] at tenth
          obtain ⟨destPort, tenth, destRead⟩ := tenth
          refine ⟨destPort, tenth, ?_⟩
          rw [port, Parameters.port, destRead]
          exact port_of_convert (ports reaches .destination destPort tenth)
    · intro endpoint text named noPort
      by_cases reaches : answers.ReachesBind parameters.srcAddress
      · have port := ports reaches endpoint text named
        simp [noPort] at port
      · simp [createSocket_of_not_reachesBind reaches, SocketAction.isNetworkCall]

def loopbackAnswers : SocketAnswers where
  socketfd := 3
  fcntl := 0
  setsockopt := 0
  inetPton address := if address = "127.0.0.1".toList then some 16777343 else none
  bind := 0
  pthreadCreate := 0

def serverArguments (port : String) : List String :=
  ["-tcp", "-s", "-h", "127.0.0.1", "-p", port]

def serverParameters (srcPort : Nat) : Parameters :=
  ⟨.server, "127.0.0.1", "", srcPort, 0, .tcp⟩

theorem portFaithful_iff_documented :
    PortFaithful (serverArguments "13867")
      (createSocket loopbackAnswers (serverParameters 13867)) :=
  (@portFaithful_iff _ (mainParameters 0 0) _ (by decide) loopbackAnswers).mpr (by
    rintro _ _ _ (_ | _) text named
    · cases named
      decide
    · cases named)

/-- The server asked for port 70000 listens on 4464, and the one asked for
`80x` on 80. -/
theorem port_is_truncated :
    (validateArgument (serverArguments "70000") (mainParameters 0 0) =
        .returned (serverParameters 70000) ∧
      ¬ PortFaithful (serverArguments "70000")
        (createSocket loopbackAnswers (serverParameters 70000))) ∧
    validateArgument (serverArguments "80x") (mainParameters 0 0) =
        .returned (serverParameters 80) ∧
      ¬ PortFaithful (serverArguments "80x")
        (createSocket loopbackAnswers (serverParameters 80)) := by
  refine ⟨⟨by decide, ?_⟩, by decide, ?_⟩
  · rintro ⟨faithful, _⟩
    obtain ⟨text, named, written⟩ :=
      faithful .source ⟨htons 70000, 16777343⟩ (by decide)
    cases named
    revert written
    decide
  · rintro ⟨_, stops⟩
    have silent := stops .source "80x" rfl (by decide) .listen (by decide)
    cases silent

end TlsClient
