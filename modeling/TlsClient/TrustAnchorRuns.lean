import TlsClient.ContextSetup

/-!
# The file in `/tmp` over a run of the server

Every connection of a server makes a context of its own, and all of them load their
trust anchors through one file, named after the process.  What a connection trusts
is therefore what was last put there, by an earlier connection or by another process
that may write to `/tmp`.
-/

namespace TlsClient

open EventDriven ObjectLifetime

/-- A call of `tlsmanager::init`, with the PEM files as they are then, in two steps: up
to `fileOp1.close ( )`, and from `X509_STORE_load_locations` on.  Another process may
write the file in `/tmp` or remove it at any time. -/
inductive CaEvent
  | writes (answers : InitAnswers) (content : PemFile → List Char)
  | loads
  | replaced (text : Option (List Char))

/-- `begun` is the call that has written and not loaded yet, and `stores` has the text
each context has loaded its store from, in order. -/
structure CaProcess where
  tmpFile : Option (List Char)
  locks : LockTable
  begun : Option (InitAnswers × (PemFile → List Char))
  stores : List (Option (List Char))

/-- What the event leaves in the file, if it sets it. -/
def CaEvent.leaves : CaEvent → Option (Option (List Char))
  | .writes answers content =>
      if answers.opens then some (some ((content .caCert).take answers.written)) else none
  | .loads => none
  | .replaced text => some text

/-- Whose file the event leaves, if it sets it: `true` for this process. -/
def CaEvent.owns : CaEvent → Option Bool
  | .writes answers _ => if answers.opens then some true else none
  | .loads => none
  | .replaced _ => some false

/-- The second step leaves the file as it is. -/
def InitAnswers.unopened (answers : InitAnswers) : InitAnswers :=
  { answers with opens := false }

section

variable {Certificate Key : Type} (library : TlsLibrary Certificate Key) (numLocks : Nat)
  (transport : Transport)

/-- A call of `init` that does not return ends the process, before it writes. -/
def caStep (process : CaProcess) : CaEvent → Option CaProcess
  | .writes answers content =>
      match process.begun,
        init library answers ⟨content, process.tmpFile⟩ numLocks transport process.locks with
      | none, .again _ =>
          some { process with
            tmpFile := writeTmpFile (answers.feed ([] : List Certificate)) (content .caCert)
              process.tmpFile
            begun := some (answers, content) }
      | _, _ => none
  | .loads =>
      match process.begun with
      | some (answers, content) =>
          match init library answers.unopened ⟨content, process.tmpFile⟩ numLocks transport
            process.locks with
          | .again setup =>
              some { process with
                locks := setup.locks
                begun := none
                stores := process.stores ++ [setup.context.certStore] }
          | .done _ _ => none
      | none => none
  | .replaced text => some { process with tmpFile := text }

/-- Without a replacement between its two steps, a call is `init`. -/
theorem init_unopened (answers : InitAnswers) (content : PemFile → List Char)
    (tmpFile : Option (List Char)) (locks : LockTable) :
    init library answers.unopened
        ⟨content, writeTmpFile (answers.feed ([] : List Certificate)) (content .caCert) tmpFile⟩
        numLocks transport locks =
      init library answers ⟨content, tmpFile⟩ numLocks transport locks :=
  rfl

theorem exec_undisturbed {process : CaProcess} {answers : InitAnswers}
    {content : PemFile → List Char} {setup : Setup Certificate Key}
    (idle : process.begun = none)
    (returned : init library answers ⟨content, process.tmpFile⟩ numLocks transport
      process.locks = .again setup) :
    exec (caStep library numLocks transport) process [.writes answers content, .loads] =
      some
        { tmpFile := writeTmpFile (answers.feed ([] : List Certificate)) (content .caCert)
            process.tmpFile
          locks := setup.locks
          begun := none
          stores := process.stores ++ [setup.context.certStore] } := by
  simp only [exec_cons, exec_nil, caStep, idle, returned, Option.bind_some, init_unopened]

end

section

variable {Certificate Key : Type} (library : TlsLibrary Certificate Key) (numLocks : Nat)
  (transport : Transport)

end

end TlsClient
