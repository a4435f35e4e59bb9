import TlsClient.SystemCalls
import TlsClient.DecimalNumerals

/-!
# `validate_argument`

The usage comment of `main` gives the two forms of the command line; they are
written down here as a syntax with its rendering.  The code reads the strings
by position.  It looks at the first two and at the length of the vector, and
takes the addresses and the ports from where the forms have them.
-/

namespace TlsClient

open DecimalNumerals

def isspace (char : Char) : Bool :=
  decide (char.toNat = 32 ∨ (9 ≤ char.toNat ∧ char.toNat ≤ 13))

def readSign : List Char → Bool × List Char
  | '-' :: rest => (true, rest)
  | '+' :: rest => (false, rest)
  | rest => (false, rest)

/-- `strtoull ( ..., 10 )`: the value, and the text from `*endptr` on. -/
def strtoull (chars : List Char) : Nat × List Char :=
  let (negative, digits) := readSign (chars.dropWhile isspace)
  let (value, rest) := readDigits digits
  if rest.length = digits.length then (0, chars)
  else if 2 ^ 64 ≤ value then (2 ^ 64 - 1, rest)
  else if negative then ((2 ^ 64 - value) % 2 ^ 64, rest)
  else (value, rest)

def cStr (value : String) : List Char :=
  value.toList.takeWhile fun char => char ≠ '\x00'

/-- `convertStrToLong`: what it returns, and `convertedValue`. -/
def convertStrToLong (value : String) : Bool × Nat :=
  let (intvalue, endPtr) := strtoull (cStr value)
  (endPtr.isEmpty, intvalue % 2 ^ 32)

structure Parameters where
  transportType : TransportType
  srcAddress : String
  destAddress : String
  srcPort : Nat
  destPort : Nat
  protocol : Protocol
  deriving DecidableEq, Repr

/-- How `validate_argument` ends; `outOfRange` is an index past the end of the
vector. -/
inductive Validation
  | returned (parameters : Parameters)
  | exited
  | outOfRange
  deriving DecidableEq, Repr

def indexed (arguments : List String) (index : Nat) (use : String → Validation) : Validation :=
  match arguments[index]? with
  | some argument => use argument
  | none => .outOfRange

/-- The first test of `validate_argument`: it has no `else`. -/
def readProtocol (argument : String) (parameters : Parameters) : Parameters :=
  if argument = "-tcp" then { parameters with protocol := .tcp }
  else if argument = "-sctp" then { parameters with protocol := .sctp }
  else parameters

/-- The last part of `validate_argument`.  The flag `convertStrToLong` returns
is dropped. -/
def readAddresses (arguments : List String) (parameters : Parameters) : Validation :=
  indexed arguments 3 fun srcAddress =>
  indexed arguments 5 fun srcPort =>
    let parameters :=
      { parameters with srcAddress := srcAddress, srcPort := (convertStrToLong srcPort).2 }
    match parameters.transportType with
    | .client =>
        indexed arguments 7 fun destAddress =>
        indexed arguments 9 fun destPort =>
          .returned
            { parameters with
              destAddress := destAddress, destPort := (convertStrToLong destPort).2 }
    | .server => .returned parameters

def checkSize (arguments : List String) (parameters : Parameters) : Validation :=
  if parameters.transportType = .client ∧ arguments.length ≠ 10 then .exited
  else if parameters.transportType = .server ∧ arguments.length ≠ 6 then .exited
  else readAddresses arguments parameters

def validateArgument (arguments : List String) (parameters : Parameters) : Validation :=
  if arguments.isEmpty then .exited
  else
    indexed arguments 0 fun first =>
    indexed arguments 1 fun second =>
      let parameters := readProtocol first parameters
      if second = "-c" then checkSize arguments { parameters with transportType := .client }
      else if second = "-s" then checkSize arguments { parameters with transportType := .server }
      else .exited

/-! The documented command line. -/

structure PortNumeral where
  text : String
  number : Nat
  written : numeral? text.toList = some number
  fits : number ≤ 65535

def Protocol.option : Protocol → String
  | .tcp => "-tcp"
  | .sctp => "-sctp"

inductive CommandLine
  | client (protocol : Protocol) (srcAddress : String) (srcPort : PortNumeral)
      (destAddress : String) (destPort : PortNumeral)
  | server (protocol : Protocol) (srcAddress : String) (srcPort : PortNumeral)

namespace CommandLine

/-- The two forms of the usage comment. -/
def render : CommandLine → List String
  | client protocol srcAddress srcPort destAddress destPort =>
      [protocol.option, "-c", "-h", srcAddress, "-p", srcPort.text,
        "-H", destAddress, "-P", destPort.text]
  | server protocol srcAddress srcPort =>
      [protocol.option, "-s", "-h", srcAddress, "-p", srcPort.text]

def Names : CommandLine → Parameters → Prop
  | client protocol srcAddress _ destAddress _, parameters =>
      parameters.protocol = protocol ∧ parameters.transportType = .client ∧
        parameters.srcAddress = srcAddress ∧ parameters.destAddress = destAddress
  | server protocol srcAddress _, parameters =>
      parameters.protocol = protocol ∧ parameters.transportType = .server ∧
        parameters.srcAddress = srcAddress

end CommandLine

@[simp]
theorem readProtocol_option (protocol : Protocol) (parameters : Parameters) :
    readProtocol protocol.option parameters = { parameters with protocol := protocol } := by
  cases protocol <;> rfl

/-- What the code asks of a client's vector. -/
def IsClientVector (arguments : List String) : Prop :=
  arguments[1]? = some "-c" ∧ arguments.length = 10

def IsServerVector (arguments : List String) : Prop :=
  arguments[1]? = some "-s" ∧ arguments.length = 6

theorem isClientVector_iff {arguments : List String} :
    IsClientVector arguments ↔ ∃ protocol h srcAddress p srcPort H destAddress P destPort,
      arguments =
        [protocol, "-c", h, srcAddress, p, srcPort, H, destAddress, P, destPort] := by
  constructor
  · rintro ⟨second, length⟩
    match arguments, length with
    | [protocol, mode, h, srcAddress, p, srcPort, H, destAddress, P, destPort], _ =>
        obtain rfl : mode = "-c" := by simpa using second
        exact ⟨protocol, h, srcAddress, p, srcPort, H, destAddress, P, destPort, rfl⟩
  · rintro ⟨protocol, h, srcAddress, p, srcPort, H, destAddress, P, destPort, rfl⟩
    exact ⟨rfl, rfl⟩

theorem isServerVector_iff {arguments : List String} :
    IsServerVector arguments ↔ ∃ protocol h srcAddress p srcPort,
      arguments = [protocol, "-s", h, srcAddress, p, srcPort] := by
  constructor
  · rintro ⟨second, length⟩
    match arguments, length with
    | [protocol, mode, h, srcAddress, p, srcPort], _ =>
        obtain rfl : mode = "-s" := by simpa using second
        exact ⟨protocol, h, srcAddress, p, srcPort, rfl⟩
  · rintro ⟨protocol, h, srcAddress, p, srcPort, rfl⟩
    exact ⟨rfl, rfl⟩

theorem validateArgument_client
    (protocol h srcAddress p srcPort H destAddress P destPort : String) (initial : Parameters) :
    validateArgument
        [protocol, "-c", h, srcAddress, p, srcPort, H, destAddress, P, destPort] initial =
      .returned
        { transportType := .client
          srcAddress := srcAddress
          destAddress := destAddress
          srcPort := (convertStrToLong srcPort).2
          destPort := (convertStrToLong destPort).2
          protocol := (readProtocol protocol initial).protocol } :=
  rfl

theorem validateArgument_server (protocol h srcAddress p srcPort : String)
    (initial : Parameters) :
    validateArgument [protocol, "-s", h, srcAddress, p, srcPort] initial =
      .returned
        { transportType := .server
          srcAddress := srcAddress
          destAddress := (readProtocol protocol initial).destAddress
          srcPort := (convertStrToLong srcPort).2
          destPort := (readProtocol protocol initial).destPort
          protocol := (readProtocol protocol initial).protocol } :=
  rfl

/-- Every vector the code does not accept stops the program, except for a
single argument. -/
theorem validateArgument_other {arguments : List String} (initial : Parameters)
    (client : ¬ IsClientVector arguments) (server : ¬ IsServerVector arguments) :
    validateArgument arguments initial =
      if arguments.length = 1 then .outOfRange else .exited := by
  match arguments with
  | [] => rfl
  | [protocol] => rfl
  | protocol :: mode :: rest =>
      simp only [validateArgument, indexed, List.isEmpty_cons, List.length_cons,
        List.getElem?_cons_zero, List.getElem?_cons_succ]
      by_cases isClient : mode = "-c"
      · subst isClient
        have length : rest.length + 1 + 1 ≠ 10 := fun length => client ⟨rfl, length⟩
        simp [checkSize, length]
      · by_cases isServer : mode = "-s"
        · subst isServer
          have length : rest.length + 1 + 1 ≠ 6 := fun length => server ⟨rfl, length⟩
          simp [checkSize, length]
        · simp [isClient, isServer]

theorem validateArgument_returned {arguments : List String} {initial parameters : Parameters}
    (accepted : validateArgument arguments initial = .returned parameters) :
    arguments[3]? = some parameters.srcAddress ∧
      (∃ srcPort, arguments[5]? = some srcPort ∧
        parameters.srcPort = (convertStrToLong srcPort).2) ∧
      match parameters.transportType with
      | .client => ∃ destPort, arguments[9]? = some destPort ∧
          parameters.destPort = (convertStrToLong destPort).2
      | .server => arguments[9]? = none := by
  by_cases client : IsClientVector arguments
  · obtain ⟨protocol, h, srcAddress, p, srcPort, H, destAddress, P, destPort, rfl⟩ :=
      isClientVector_iff.mp client
    rw [validateArgument_client] at accepted
    cases accepted
    exact ⟨rfl, ⟨srcPort, rfl, rfl⟩, destPort, rfl, rfl⟩
  · by_cases server : IsServerVector arguments
    · obtain ⟨protocol, h, srcAddress, p, srcPort, rfl⟩ := isServerVector_iff.mp server
      rw [validateArgument_server] at accepted
      cases accepted
      exact ⟨rfl, ⟨srcPort, rfl, rfl⟩, rfl⟩
    · rw [validateArgument_other initial client server] at accepted
      split at accepted <;> cases accepted

/-- `validate_argument` accepts the documented command lines and no others, and
stays inside the vector. -/
def Validates (arguments : List String) (initial : Parameters) : Prop :=
  match validateArgument arguments initial with
  | .returned parameters => ∃ line : CommandLine, line.render = arguments ∧ line.Names parameters
  | .exited => ∀ line : CommandLine, line.render ≠ arguments
  | .outOfRange => False

theorem validateArgument_render (line : CommandLine) (initial : Parameters) :
    ∃ parameters, validateArgument line.render initial = .returned parameters ∧
      line.Names parameters := by
  cases line with
  | client protocol srcAddress srcPort destAddress destPort =>
      exact ⟨_, validateArgument_client _ _ _ _ _ _ _ _ _ initial, by
        simp [CommandLine.Names]⟩
  | server protocol srcAddress srcPort =>
      exact ⟨_, validateArgument_server _ _ _ _ _ initial, by simp [CommandLine.Names]⟩

theorem validates_iff_accepts_only (arguments : List String) (initial : Parameters) :
    Validates arguments initial ↔
      validateArgument arguments initial ≠ .outOfRange ∧
        ∀ parameters, validateArgument arguments initial = .returned parameters →
          ∃ line : CommandLine, line.render = arguments := by
  unfold Validates
  cases outcome : validateArgument arguments initial with
  | returned parameters =>
      constructor
      · rintro ⟨line, rendered, _⟩
        exact ⟨by simp, fun _ _ => ⟨line, rendered⟩⟩
      · rintro ⟨_, documented⟩
        obtain ⟨line, rfl⟩ := documented parameters rfl
        obtain ⟨found, returned, names⟩ := validateArgument_render line initial
        obtain rfl : parameters = found := by simpa using outcome.symm.trans returned
        exact ⟨line, rfl, names⟩
  | exited =>
      refine ⟨fun _ => ⟨by simp, by simp⟩, ?_⟩
      rintro _ line rfl
      obtain ⟨found, returned, _⟩ := validateArgument_render line initial
      simp [returned] at outcome
  | outOfRange => simp

def isPort (text : String) : Bool :=
  match numeral? text.toList with
  | some number => decide (number ≤ 65535)
  | none => false

/-- The six strings both forms begin with, but for the second. -/
def SourceSpelled (arguments : List String) : Prop :=
  (arguments[0]? = some "-tcp" ∨ arguments[0]? = some "-sctp") ∧
    arguments[2]? = some "-h" ∧ arguments[4]? = some "-p" ∧ arguments[5]?.any isPort

def DestinationSpelled (arguments : List String) : Prop :=
  arguments[6]? = some "-H" ∧ arguments[8]? = some "-P" ∧ arguments[9]?.any isPort

theorem isPort_iff {text : String} :
    isPort text = true ↔ ∃ port : PortNumeral, port.text = text := by
  unfold isPort
  constructor
  · intro holds
    cases written : numeral? text.toList with
    | none => simp [written] at holds
    | some number => exact ⟨⟨text, number, written, by simpa [written] using holds⟩, rfl⟩
  · rintro ⟨⟨text, number, written, fits⟩, rfl⟩
    simpa [written] using fits

theorem option_iff {argument : String} :
    (argument = "-tcp" ∨ argument = "-sctp") ↔
      ∃ protocol : Protocol, protocol.option = argument := by
  constructor
  · rintro (rfl | rfl)
    exacts [⟨.tcp, rfl⟩, ⟨.sctp, rfl⟩]
  · rintro ⟨_ | _, rfl⟩
    exacts [Or.inl rfl, Or.inr rfl]

theorem client_documented_iff {arguments : List String} (client : IsClientVector arguments) :
    (∃ line : CommandLine, line.render = arguments) ↔
      SourceSpelled arguments ∧ DestinationSpelled arguments := by
  obtain ⟨protocol, h, srcAddress, p, srcPort, H, destAddress, P, destPort, rfl⟩ :=
    isClientVector_iff.mp client
  constructor
  · rintro ⟨line, rendered⟩
    cases line with
    | client protocol srcAddress srcPort destAddress destPort =>
        obtain ⟨rfl, rfl, rfl, rfl, rfl, rfl, rfl, rfl, rfl⟩ := by
          simpa [CommandLine.render] using rendered
        simp [SourceSpelled, DestinationSpelled, option_iff, isPort_iff]
    | server protocol srcAddress srcPort => simp [CommandLine.render] at rendered
  · simp only [SourceSpelled, DestinationSpelled, List.getElem?_cons_zero,
      List.getElem?_cons_succ, Option.some.injEq, Option.any_some, option_iff, isPort_iff]
    rintro ⟨⟨⟨protocol, rfl⟩, rfl, rfl, srcPort, rfl⟩, rfl, rfl, destPort, rfl⟩
    exact ⟨.client protocol srcAddress srcPort destAddress destPort, rfl⟩

theorem server_documented_iff {arguments : List String} (server : IsServerVector arguments) :
    (∃ line : CommandLine, line.render = arguments) ↔ SourceSpelled arguments := by
  obtain ⟨protocol, h, srcAddress, p, srcPort, rfl⟩ := isServerVector_iff.mp server
  constructor
  · rintro ⟨line, rendered⟩
    cases line with
    | client protocol srcAddress srcPort destAddress destPort =>
        simp [CommandLine.render] at rendered
    | server protocol srcAddress srcPort =>
        obtain ⟨rfl, rfl, rfl, rfl, rfl⟩ := by simpa [CommandLine.render] using rendered
        simp [SourceSpelled, option_iff, isPort_iff]
  · simp only [SourceSpelled, List.getElem?_cons_zero, List.getElem?_cons_succ,
      Option.some.injEq, Option.any_some, option_iff, isPort_iff]
    rintro ⟨⟨protocol, rfl⟩, rfl, rfl, srcPort, rfl⟩
    exact ⟨.server protocol srcAddress srcPort, rfl⟩

/-- `validate_argument` recognises the documented command lines except on a
single argument, and on vectors of the right length and mode whose other
options or ports are not as documented: it does not look at those. -/
theorem validateArgument_validates_iff (arguments : List String) (initial : Parameters) :
    Validates arguments initial ↔
      arguments.length ≠ 1 ∧
        (IsClientVector arguments → SourceSpelled arguments ∧ DestinationSpelled arguments) ∧
        (IsServerVector arguments → SourceSpelled arguments) := by
  rw [validates_iff_accepts_only]
  by_cases client : IsClientVector arguments
  · have server : ¬ IsServerVector arguments := fun server =>
      absurd (client.2.symm.trans server.2) (by decide)
    rw [← client_documented_iff client]
    obtain ⟨protocol, h, srcAddress, p, srcPort, H, destAddress, P, destPort, rfl⟩ :=
      isClientVector_iff.mp client
    simp [validateArgument_client, client, server]
  · by_cases server : IsServerVector arguments
    · rw [← server_documented_iff server]
      obtain ⟨protocol, h, srcAddress, p, srcPort, rfl⟩ := isServerVector_iff.mp server
      simp [validateArgument_server, client, server]
    · rw [validateArgument_other initial client server]
      by_cases single : arguments.length = 1 <;> simp [single, client, server]

/-- The parameters as `main` passes them; it leaves the ports uninitialised. -/
def mainParameters (srcPort destPort : Nat) : Parameters :=
  ⟨.client, "", "", srcPort, destPort, .tcp⟩

/-- A single argument is indexed past its end, and misspelt or swapped options
are accepted. -/
theorem validateArgument_accepts_undocumented :
    ¬ Validates ["-tcp"] (mainParameters 0 0) ∧
      ¬ Validates ["tcp", "-s", "-p", "10.0.0.1", "-h", "port"] (mainParameters 0 0) := by
  have none_rendered : ¬ ∃ line : CommandLine,
      line.render = ["tcp", "-s", "-p", "10.0.0.1", "-h", "port"] := by
    rw [server_documented_iff ⟨rfl, rfl⟩]
    simp [SourceSpelled]
  refine ⟨id, ?_⟩
  rintro ⟨line, rendered, _⟩
  exact none_rendered ⟨line, rendered⟩

end TlsClient
