import TlsClient.SystemCalls
import Mathlib.Data.List.Infix

/-!
# `tlsmanager::feed_ca_cert`

The certificate authority is read from `rootca_key/ca.cert.pem`, written to a
file in `/tmp` whose name depends on the process only, and loaded from there
into the store that becomes the trust anchor of `m_ctx`.  A failure to open,
write or load that file is traced and nothing else.
-/

namespace TlsClient

/-- What the code uses of OpenSSL: the certificate in the PEM block a text
starts with, the first certificate of a memory buffer, and the certificates of
a file, if `X509_STORE_load_locations` returns 1 on it. -/
structure PemLibrary (Certificate : Type) where
  block : List Char → Option Certificate
  PEM_read_bio_X509 : List Char → Option Certificate
  loadLocations : List Char → Option (List Certificate)

namespace PemLibrary

variable {Certificate : Type} (library : PemLibrary Certificate)

/-- A certificate is contained in a text if one of its PEM blocks encodes it. -/
def Contained (certificate : Certificate) (content : List Char) : Prop :=
  ∃ text, text <:+: content ∧ library.block text = some certificate

/-- What is loaded from a file stands in one of its PEM blocks. -/
def LoadsBlocks : Prop :=
  ∀ content certificates, library.loadLocations content = some certificates →
    ∀ certificate ∈ certificates, library.Contained certificate content

variable {library}

theorem contained_of_prefix {certificate : Certificate} {part content : List Char}
    (contained : library.Contained certificate part) (written : part <+: content) :
    library.Contained certificate content := by
  obtain ⟨text, within, encodes⟩ := contained
  exact ⟨text, within.trans written.isInfix, encodes⟩

end PemLibrary

/-- The environment's part in a call of `feed_ca_cert`: whether `BIO_new_mem_buf`
and `X509_STORE_new` return an object, whether the file in `/tmp` can be opened
for writing and how much of the certificate arrives in it, and what a store that
has been freed is found to hold. -/
structure FeedAnswers (Certificate : Type) where
  bio : Bool
  opens : Bool
  written : Nat
  store : Bool
  freed : List Certificate

/-- `feed_ca_cert` returns with a store installed in `m_ctx`, runs into `exit`,
or hands a null store to `X509_STORE_load_locations`. -/
inductive Fed (Certificate : Type)
  | installed (store : List Certificate)
  | exited
  | crashed
  deriving DecidableEq, Repr

/-- The buffer behind `BIO_new_mem_buf`.  Its length is an `int`, and a negative
one asks for the text up to the null character. -/
def memBuf (content : List Char) : List Char :=
  let length := toInt (content.length % 2 ^ 32 : Nat)
  if length < 0 then content.takeWhile fun char => char ≠ '\x00'
  else content.take length.toNat

section

variable {Certificate : Type} (library : PemLibrary Certificate)
variable (answers : FeedAnswers Certificate)

def writeTmpFile (certFileContent : List Char) (tmpFile : Option (List Char)) :
    Option (List Char) :=
  if answers.opens then some (certFileContent.take answers.written) else tmpFile

/-- The store that is installed: after a failure to load it has been freed. -/
def loadStore (tmpFile : Option (List Char)) : List Certificate :=
  match tmpFile.bind library.loadLocations with
  | some certificates => certificates
  | none => answers.freed

/-- `feed_ca_cert`, with the content of `rootca_key/ca.cert.pem` and the file
that is in `/tmp` beforehand. -/
def feedCaCert (certFileContent : List Char) (tmpFile : Option (List Char)) :
    Fed Certificate :=
  if answers.bio = false then .exited
  else
    match library.PEM_read_bio_X509 (memBuf certFileContent) with
    | none => .exited
    | some _ =>
        let tmpFile := writeTmpFile answers certFileContent tmpFile
        if answers.store = false then .crashed
        else .installed (loadStore library answers tmpFile)

/-- If `feed_ca_cert` returns, every certificate of the store it installs is
contained in `rootca_key/ca.cert.pem`. -/
def AnchorsFromCaCert (certFileContent : List Char) (tmpFile : Option (List Char)) : Prop :=
  ∀ store, feedCaCert library answers certFileContent tmpFile = .installed store →
    ∀ certificate ∈ store, library.Contained certificate certFileContent

def Loads (certFileContent : List Char) : Prop :=
  answers.bio = true ∧ (library.PEM_read_bio_X509 (memBuf certFileContent)).isSome ∧
    answers.store = true

theorem feedCaCert_of_loads {certFileContent : List Char} (tmpFile : Option (List Char))
    (loads : Loads library answers certFileContent) :
    feedCaCert library answers certFileContent tmpFile =
      .installed (loadStore library answers (writeTmpFile answers certFileContent tmpFile)) := by
  obtain ⟨bio, read, store⟩ := loads
  obtain ⟨certificate, read⟩ := Option.isSome_iff_exists.mp read
  simp [feedCaCert, bio, read, store]

theorem loads_of_installed {certFileContent : List Char} {tmpFile : Option (List Char)}
    {store : List Certificate}
    (installed : feedCaCert library answers certFileContent tmpFile = .installed store) :
    Loads library answers certFileContent := by
  unfold feedCaCert at installed
  split at installed
  · cases installed
  · rename_i bio
    split at installed
    · cases installed
    · rename_i certificate read
      split at installed
      · cases installed
      · rename_i created
        exact ⟨by simpa using bio, by simp [read], by simpa using created⟩

theorem anchorsFromCaCert_iff_loadStore (certFileContent : List Char)
    (tmpFile : Option (List Char)) :
    AnchorsFromCaCert library answers certFileContent tmpFile ↔
      (Loads library answers certFileContent →
        ∀ certificate ∈
            loadStore library answers (writeTmpFile answers certFileContent tmpFile),
          library.Contained certificate certFileContent) := by
  constructor
  · intro anchors loads
    exact anchors _ (feedCaCert_of_loads library answers tmpFile loads)
  · intro contained store installed
    have loads := loads_of_installed library answers installed
    rw [feedCaCert_of_loads library answers tmpFile loads] at installed
    cases installed
    exact contained loads

variable {library}

theorem contained_of_written (loadsBlocks : library.LoadsBlocks) {certFileContent : List Char}
    {written : Nat} {certificates : List Certificate}
    (loaded : library.loadLocations (certFileContent.take written) = some certificates) :
    ∀ certificate ∈ certificates, library.Contained certificate certFileContent :=
  fun certificate member =>
    PemLibrary.contained_of_prefix
      (loadsBlocks _ certificates loaded certificate member) (List.take_prefix _ _)

/-- The trust anchors come from `rootca_key/ca.cert.pem` exactly when the call
stops before it loads them, or neither the file it finds in `/tmp` and cannot
open for writing nor, after a failure to load, the freed store brings another
certificate. -/
theorem anchorsFromCaCert_iff (loadsBlocks : library.LoadsBlocks)
    (certFileContent : List Char) (tmpFile : Option (List Char)) :
    AnchorsFromCaCert library answers certFileContent tmpFile ↔
      (Loads library answers certFileContent →
        (answers.opens = false → ∀ found certificates, tmpFile = some found →
          library.loadLocations found = some certificates →
            ∀ certificate ∈ certificates, library.Contained certificate certFileContent) ∧
        ((writeTmpFile answers certFileContent tmpFile).bind library.loadLocations = none →
          ∀ certificate ∈ answers.freed, library.Contained certificate certFileContent)) := by
  rw [anchorsFromCaCert_iff_loadStore]
  apply imp_congr_right
  intro _
  unfold loadStore
  cases loaded : (writeTmpFile answers certFileContent tmpFile).bind library.loadLocations with
  | none =>
      constructor
      · intro contained
        refine ⟨?_, fun _ => contained⟩
        rintro closed found certificates rfl reads
        simp [writeTmpFile, closed, reads] at loaded
      · exact fun ⟨_, freed⟩ => freed rfl
  | some certificates =>
      simp only [reduceCtorEq, false_implies, and_true]
      cases opens : answers.opens with
      | true =>
          simp only [writeTmpFile, opens, if_true, Option.bind_some] at loaded
          simpa using contained_of_written loadsBlocks loaded
      | false =>
          simp only [writeTmpFile, opens, Bool.false_eq_true, if_false] at loaded
          obtain ⟨found, rfl, reads⟩ := Option.bind_eq_some_iff.mp loaded
          constructor
          · intro contained _ other others present again
            obtain rfl : found = other := by simpa using present
            obtain rfl : certificates = others := by simpa using reads.symm.trans again
            exact contained
          · intro sound
            exact sound rfl found certificates rfl reads

end

/-! A reader of PEM files, for concrete inputs. -/

/-- The body of the certificate block a text starts with. -/
def pemBlock (text : List Char) : Option (List Char) :=
  let header := "-----BEGIN CERTIFICATE-----\n".toList
  if header.isPrefixOf text then
    let body := (text.drop header.length).takeWhile fun char => char ≠ '-'
    if "-----END CERTIFICATE-----\n".toList.isPrefixOf (text.drop (header.length + body.length))
    then some body
    else none
  else none

def pemCertificates (content : List Char) : List (List Char) :=
  content.tails.filterMap pemBlock

/-- A file without a certificate is not loaded. -/
def pemLibrary : PemLibrary (List Char) where
  block := pemBlock
  PEM_read_bio_X509 content := (pemCertificates content).head?
  loadLocations content :=
    if pemCertificates content = [] then none else some (pemCertificates content)

theorem loadsBlocks_pemLibrary : pemLibrary.LoadsBlocks := by
  intro content certificates loaded certificate member
  simp only [pemLibrary, Option.ite_none_left_eq_some, Option.some.injEq] at loaded
  obtain ⟨_, rfl⟩ := loaded
  obtain ⟨text, suffix, encodes⟩ := List.mem_filterMap.mp member
  exact ⟨text, ((List.mem_tails _ _).mp suffix).isInfix, encodes⟩

theorem mem_of_pemBlock {text body : List Char} (encodes : pemBlock text = some body) :
    ∀ char ∈ body, char ∈ text := by
  simp only [pemBlock] at encodes
  split at encodes
  · split at encodes
    · intro char member
      cases encodes
      exact List.mem_of_mem_drop ((List.takeWhile_sublist _).subset member)
    · cases encodes
  · cases encodes

def pemFile (body : String) : List Char :=
  "-----BEGIN CERTIFICATE-----\n".toList ++ body.toList ++
    "-----END CERTIFICATE-----\n".toList

def feedAnswers (opens : Bool) (written : Nat) : FeedAnswers (List Char) where
  bio := true
  opens := opens
  written := written
  store := true
  freed := []

theorem anchorsFromCaCert_iff_overwritten :
    AnchorsFromCaCert pemLibrary (feedAnswers true 60) (pemFile "own")
      (some (pemFile "other")) :=
  (anchorsFromCaCert_iff (feedAnswers true 60) loadsBlocks_pemLibrary (pemFile "own")
    (some (pemFile "other"))).mpr fun _ => ⟨by simp [feedAnswers], by simp [feedAnswers]⟩

/-- The certificate of a file in `/tmp` that cannot be written becomes a trust
anchor. -/
theorem foreign_anchor_installed :
    feedCaCert pemLibrary (feedAnswers false 0) (pemFile "own") (some (pemFile "other")) =
        .installed ["other".toList] ∧
      ¬ AnchorsFromCaCert pemLibrary (feedAnswers false 0) (pemFile "own")
        (some (pemFile "other")) := by
  have installed :
      feedCaCert pemLibrary (feedAnswers false 0) (pemFile "own") (some (pemFile "other")) =
        .installed ["other".toList] := by
    decide
  refine ⟨installed, fun anchors => ?_⟩
  obtain ⟨text, within, encodes⟩ :=
    anchors _ installed "other".toList (List.mem_singleton.mpr rfl)
  have absent : 't' ∉ pemFile "own" := by decide
  exact absent (within.subset (mem_of_pemBlock encodes 't' (by decide)))

end TlsClient
