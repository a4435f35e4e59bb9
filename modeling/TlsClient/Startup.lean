import TlsClient.PeerAddress

/-!
# From the command line to the network

`main` reads the command line and `init` makes the socket.  Followed through both,
the strings of two processes tell whether one of them connects to where the other is
bound.
-/

namespace TlsClient

open DecimalNumerals

/-- What `main` does before it goes to sleep.  `srcPort` and `destPort` are what it
finds in its uninitialised variables. -/
def mainActions (answers : SocketAnswers) (srcPort destPort : Nat) (arguments : List String) :
    List SocketAction :=
  match validateArgument arguments (mainParameters srcPort destPort) with
  | .returned parameters => createSocket answers parameters
  | .exited => []
  | .outOfRange => []

/-- The text is blanks, a sign and digits, and writes the integer. -/
def WritesInt (text : List Char) (value : Int) : Prop :=
  ∃ blanks sign digits number, text = blanks ++ (sign ++ digits) ∧
    (∀ char ∈ blanks, isspace char = true) ∧ (sign = [] ∨ sign = ['-'] ∨ sign = ['+']) ∧
    numeral? digits = some number ∧ number < 2 ^ 64 ∧
    value = if sign = ['-'] then -(number : Int) else number

/-- A minus sign is taken, and the number negated in the 64 bits. -/
theorem strtoull_of_writesInt {text : List Char} {value : Int} (writes : WritesInt text value) :
    ((strtoull text).1 : Int) % 2 ^ 64 = value % 2 ^ 64 := by
  obtain ⟨blanks, sign, digits, number, rfl, blank, signed, written, fits, rfl⟩ := writes
  rw [strtoull_of_subject blank signed written, subjectValue, if_neg (by omega)]
  split
  · omega
  · rfl

/-- The cast to 32 bits keeps what `htons` looks at. -/
theorem convertStrToLong_mod (text : String) :
    (convertStrToLong text).2 % 2 ^ 16 = (strtoull (cStr text)).1 % 2 ^ 16 := by
  have cast : (convertStrToLong text).2 = (strtoull (cStr text)).1 % 2 ^ 32 := rfl
  rw [cast]
  omega

theorem connect_of_createClient {answers : SocketAnswers} {parameters : Parameters}
    {protocol : Protocol} {destination : SockaddrIn}
    (connects : .connect protocol destination ∈ createClient answers parameters) :
    createSockInStruct answers.inetPton parameters.destAddress parameters.destPort =
      .returned destination := by
  unfold createClient at connects
  split at connects
  · simp at connects
  · rename_i address created
    rw [created]
    split at connects
    · obtain ⟨_, rfl⟩ : protocol = _ ∧ destination = address := by simpa using connects
      rfl
    · simp at connects

theorem connect_of_bindSocket {answers : SocketAnswers} {parameters : Parameters}
    {protocol : Protocol} {address destination : SockaddrIn}
    (connects : .connect protocol destination ∈ bindSocket answers parameters address) :
    parameters.transportType = .client ∧
      createSockInStruct answers.inetPton parameters.destAddress parameters.destPort =
        .returned destination := by
  simp only [bindSocket, List.mem_cons, reduceCtorEq, false_or] at connects
  split at connects
  · simp at connects
  · split at connects
    · rename_i client
      exact ⟨client, connect_of_createClient connects⟩
    · simp at connects

theorem bind_of_bindSocket {answers : SocketAnswers} {parameters : Parameters}
    {address bound : SockaddrIn} (binds : .bind bound ∈ bindSocket answers parameters address) :
    bound = address := by
  rcases List.mem_cons.mp binds with first | later
  · exact SocketAction.bind.inj first
  · split at later
    · simp at later
    · split at later
      · unfold createClient at later
        split at later
        · simp at later
        · split at later <;> simp at later
      · simp at later

/-- `create_socket` gets to `bind` with the source address, and to `::connect` with the
destination. -/
theorem addresses_of_createSocket (answers : SocketAnswers) (parameters : Parameters) :
    (∀ bound, .bind bound ∈ createSocket answers parameters →
      createSockInStruct answers.inetPton parameters.srcAddress parameters.srcPort =
        .returned bound) ∧
    ∀ protocol destination, .connect protocol destination ∈ createSocket answers parameters →
      parameters.transportType = .client ∧
        createSockInStruct answers.inetPton parameters.destAddress parameters.destPort =
          .returned destination := by
  unfold createSocket
  split
  · simp
  · split
    · simp
    · split
      · simp
      · rename_i address created
        simp only [List.mem_cons, reduceCtorEq, false_or]
        constructor
        · intro bound binds
          rw [created, bind_of_bindSocket binds]
        · intro protocol destination connects
          exact connect_of_bindSocket connects

theorem mainActions_of_mem {answers : SocketAnswers} {srcPort destPort : Nat}
    {arguments : List String} {action : SocketAction}
    (member : action ∈ mainActions answers srcPort destPort arguments) :
    ∃ parameters,
      validateArgument arguments (mainParameters srcPort destPort) = .returned parameters ∧
        action ∈ createSocket answers parameters := by
  unfold mainActions at member
  split at member
  · rename_i parameters accepted
    exact ⟨parameters, accepted, member⟩
  · simp at member
  · simp at member

/-- A process that binds has been given an address and a port for it. -/
theorem bind_of_mainActions {answers : SocketAnswers} {srcPort destPort : Nat}
    {arguments : List String} {bound : SockaddrIn}
    (binds : .bind bound ∈ mainActions answers srcPort destPort arguments) :
    ∃ address port, arguments[3]? = some address ∧ arguments[5]? = some port ∧
      createSockInStruct answers.inetPton address (convertStrToLong port).2 =
        .returned bound := by
  obtain ⟨parameters, accepted, member⟩ := mainActions_of_mem binds
  obtain ⟨address, ⟨port, fifth, read⟩, _⟩ := validateArgument_returned accepted
  have created := (addresses_of_createSocket answers parameters).1 bound member
  rw [read] at created
  exact ⟨parameters.srcAddress, port, address, fifth, created⟩

/-- A process that connects is a client, and has been given where to. -/
theorem connect_of_mainActions {answers : SocketAnswers} {srcPort destPort : Nat}
    {arguments : List String} {protocol : Protocol} {destination : SockaddrIn}
    (connects : .connect protocol destination ∈
      mainActions answers srcPort destPort arguments) :
    ∃ address port, arguments[7]? = some address ∧ arguments[9]? = some port ∧
      createSockInStruct answers.inetPton address (convertStrToLong port).2 =
        .returned destination := by
  obtain ⟨parameters, accepted, member⟩ := mainActions_of_mem connects
  obtain ⟨client, created⟩ :=
    (addresses_of_createSocket answers parameters).2 protocol destination member
  by_cases vector : IsClientVector arguments
  · obtain ⟨first, h, own, p, ownPort, H, address, P, port, rfl⟩ := isClientVector_iff.mp vector
    rw [validateArgument_client] at accepted
    cases accepted
    exact ⟨address, port, rfl, rfl, created⟩
  · by_cases server : IsServerVector arguments
    · obtain ⟨first, h, own, p, ownPort, rfl⟩ := isServerVector_iff.mp server
      rw [validateArgument_server] at accepted
      cases accepted
      cases client
    · rw [validateArgument_other _ vector server] at accepted
      split at accepted <;> cases accepted

/-- A process connects to the address another one is bound to if and only if the two
command lines name the same octets, and what `strtoull` reads in the two ports agrees
modulo 2^16; where both are written as integers, these are what has to agree. -/
theorem connects_to_bound_iff {leadingZeros : Bool} {clientAnswers serverAnswers : SocketAnswers}
    (clientPton : clientAnswers.inetPton = inetPton leadingZeros)
    (serverPton : serverAnswers.inetPton = inetPton leadingZeros)
    {clientPorts serverPorts : Nat × Nat} {clientArguments serverArguments : List String}
    {protocol : Protocol} {destination bound : SockaddrIn}
    (connects : .connect protocol destination ∈
      mainActions clientAnswers clientPorts.1 clientPorts.2 clientArguments)
    (binds : .bind bound ∈
      mainActions serverAnswers serverPorts.1 serverPorts.2 serverArguments)
    {destAddress destPort srcAddress srcPort : String}
    (namesAddress : clientArguments[7]? = some destAddress)
    (namesPort : clientArguments[9]? = some destPort)
    (boundAddress : serverArguments[3]? = some srcAddress)
    (boundPort : serverArguments[5]? = some srcPort) :
    (kernelAddress destination.storage = kernelAddress bound.storage ↔
      parse (octetFormat leadingZeros) 4 (cStr destAddress) =
          parse (octetFormat leadingZeros) 4 (cStr srcAddress) ∧
        (strtoull (cStr destPort)).1 % 2 ^ 16 = (strtoull (cStr srcPort)).1 % 2 ^ 16) ∧
    ∀ named served, WritesInt (cStr destPort) named → WritesInt (cStr srcPort) served →
      ((strtoull (cStr destPort)).1 % 2 ^ 16 = (strtoull (cStr srcPort)).1 % 2 ^ 16 ↔
        named % 2 ^ 16 = served % 2 ^ 16) := by
  obtain ⟨address, port, seventh, ninth, client⟩ := connect_of_mainActions connects
  obtain ⟨own, ownPort, third, fifth, server⟩ := bind_of_mainActions binds
  obtain rfl := Option.some.inj (namesAddress.symm.trans seventh)
  obtain rfl := Option.some.inj (namesPort.symm.trans ninth)
  obtain rfl := Option.some.inj (boundAddress.symm.trans third)
  obtain rfl := Option.some.inj (boundPort.symm.trans fifth)
  rw [clientPton] at client
  rw [serverPton] at server
  constructor
  · rw [kernelAddress_eq_iff client server, convertStrToLong_mod, convertStrToLong_mod]
  · intro named served writesNamed writesServed
    have portNamed := strtoull_of_writesInt writesNamed
    have portServed := strtoull_of_writesInt writesServed
    omega

def startupAnswers : SocketAnswers where
  socketfd := 3
  fcntl := 0
  setsockopt := 0
  inetPton := inetPton false
  bind := 0
  pthreadCreate := 0

def clientArguments (port : String) : List String :=
  ["-tcp", "-c", "-h", "127.0.0.1", "-p", "0", "-H", "127.0.0.1", "-P", port]

/-- With -65456 or 80x for the port, a client reaches the server at port 80. -/
theorem connects_to_bound_iff_odd :
    (∃ destination bound,
      .connect .tcp destination ∈ mainActions startupAnswers 0 0 (clientArguments "-65456") ∧
        .bind bound ∈ mainActions startupAnswers 0 0 (serverArguments "80") ∧
        kernelAddress destination.storage = kernelAddress bound.storage) ∧
    ∃ destination bound,
      .connect .tcp destination ∈ mainActions startupAnswers 0 0 (clientArguments "80x") ∧
        .bind bound ∈ mainActions startupAnswers 0 0 (serverArguments "80") ∧
        kernelAddress destination.storage = kernelAddress bound.storage := by
  have binds : .bind ⟨htons 80, 16777343⟩ ∈
      mainActions startupAnswers 0 0 (serverArguments "80") := by
    decide
  have negative : .connect .tcp ⟨htons 80, 16777343⟩ ∈
      mainActions startupAnswers 0 0 (clientArguments "-65456") := by
    decide
  have trailing : .connect .tcp ⟨htons 80, 16777343⟩ ∈
      mainActions startupAnswers 0 0 (clientArguments "80x") := by
    decide
  constructor
  · exact ⟨_, _, negative, binds, (@connects_to_bound_iff false _ _ rfl rfl (0, 0) (0, 0) _ _ _ _ _
      negative binds _ _ _ _ rfl rfl rfl rfl).1.mpr ⟨rfl, by decide⟩⟩
  · exact ⟨_, _, trailing, binds, (@connects_to_bound_iff false _ _ rfl rfl (0, 0) (0, 0) _ _ _ _ _
      trailing binds _ _ _ _ rfl rfl rfl rfl).1.mpr ⟨rfl, by decide⟩⟩

end TlsClient
