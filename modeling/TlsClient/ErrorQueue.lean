import TlsClient.Handshake

/-!
# The error queue of the client's thread

OpenSSL queues the errors of a thread.  `SSL_get_error` looks into the queue, and
`tls_connect` empties it for its log.  `tlsmanager::init` leaves the errors of its
calls there, and `SSL_connect` drops them: it empties the queue before it starts.
-/

namespace TlsClient

open EventDriven

/-- An entry, as `ERR_get_error_line_data` hands it out.  The code 0 says that there
is none; `data` is there if `ERR_TXT_STRING` is set in `flags`. -/
structure ErrorEntry where
  code : Nat
  nonzero : code ≠ 0
  file : String
  line : Nat
  data : Option String
  deriving DecidableEq, Repr

section

variable (errorStringN : Nat → String) (tid : Nat)

end

/-- One attempt of `tls_connect`: what `SSL_connect` returns and raises, what the
session wants then, and the wait for it. -/
structure QueuedAttempt where
  sslConnect : Int
  raised : List ErrorEntry
  wants : SslError
  poll : Answered PollAnswer
  deriving DecidableEq, Repr

section

variable (capacity : Nat) (errorStringN : Nat → String) (tid : Nat)
variable (sslGetError : Int → List ErrorEntry → SslError → SslError)

/-- The attempt without its queue. -/
def QueuedAttempt.plain (attempt : QueuedAttempt) : HandshakeCall where
  sslConnect := attempt.sslConnect
  sslError := attempt.wants
  poll := attempt.poll

variable {sslGetError}

end

end TlsClient
