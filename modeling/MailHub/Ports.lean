import MailHub.Actions.Kinds

/-!
# Ports of the mail services

What the services ask of the outside: the clock, fresh identifiers, durable storage, the SMTP
transport, a mailbox session and the executor of mail actions; and the library functions they
compute with. The libraries are a parameter of the development.
-/

namespace MailHub

open Interleaving

/-! ## Constants -/

/-- The largest original this deployment parses and sends. -/
def maxMessageBytes : ℕ := 50 * 1024 * 1024

/-- Locator version that attachment rows carry. -/
def locatorVersion : ℕ := 1

/-- The sanitizer version that body rows carry. -/
def sanitizerVersion : String := "dompurify@3.4.15/config-1"

/-! ## Library functions -/

/-- A located part of a parsed original. -/
structure LocatedPart where
  partPath : String
  decodedSha256 : String
  sizeBytes : ℕ
  filename : Option String
  contentType : String
  contentId : Option String
  disposition : Option String
  deriving DecidableEq, Repr

/-- One parsed original, normalized to the message and body columns. -/
structure ParsedMessage where
  messageId : Option String
  inReplyTo : Option String
  referenceIds : List String
  sender : Option EmailAddress
  replyTo : Option (List EmailAddress)
  recipients : Option Recipients
  subject : Option String
  sentAt : Option Time
  textPlain : Option String
  /-- Raw HTML part, before sanitizing. -/
  html : Option String
  attachments : List LocatedPart
  deriving DecidableEq, Repr

/-- One file attached to an outbound message, read from durable storage. -/
structure OutboundAttachment where
  filename : String
  contentType : String
  content : Bytes

/-- The frozen message one snapshot is built from; blind copies are excluded by construction. -/
structure OutboundMimeInput where
  identity : EmailAddress
  «to» : List EmailAddress
  cc : List EmailAddress
  subject : Option String
  markdown : String
  html : String
  rfcMessageId : String
  date : Time
  inReplyTo : Option String
  referenceIds : List String
  attachments : List OutboundAttachment

/-- The functions of third-party libraries that the services compute with. -/
structure Libraries where
  /-- The SHA-256 digest in hexadecimal. -/
  sha256Hex : Bytes → String
  /-- The MIME composer. -/
  composeMime : OutboundMimeInput → Except String Bytes
  /-- The MIME parser, with the normalization of its result. -/
  simpleParser : Bytes → Except String ParsedMessage
  /-- Markdown rendered to sanitized HTML. -/
  renderMarkdownHtml : String → String
  /-- A reply quote in Markdown, from sanitized HTML and plain text. -/
  extractReplyQuote : Option String → Option String → String

namespace Libraries

variable (libs : Libraries)

/-- Parse complete MIME bytes into the normalized message shape. -/
def parseMime (bytes : Bytes) : Except Failure ParsedMessage :=
  match libs.simpleParser bytes with
  | .ok parsed => .ok parsed
  | .error cause => .error (.ingestion .parseFailed
      s!"The stored original could not be parsed: {cause}" none)

/-- Compile one frozen message into its exact MIME bytes. -/
def composeOutboundMime (input : OutboundMimeInput) : Except Failure Bytes :=
  match libs.composeMime input with
  | .ok bytes => .ok bytes
  | .error cause => .error (.send .invalidRequest
      s!"The outbound message could not be composed: {cause}" none)

end Libraries

/-! ## Requests -/

/-- What durable storage reports about one stored object. -/
structure StoredObject where
  sha256 : String
  sizeBytes : ℕ
  deriving DecidableEq, Repr

/-- The SMTP settings and credentials one submission needs. -/
structure SmtpCredentials where
  host : String
  port : ℕ
  security : String
  username : String
  password : String
  deriving DecidableEq, Repr

/-- The envelope of one submission: its sender and every recipient, blind copies included. -/
structure SmtpEnvelope where
  «from» : String
  «to» : List String
  deriving DecidableEq, Repr

/-- One SMTP submission request against a verified endpoint. -/
structure SmtpSubmitRequest extends SmtpCredentials where
  envelope : SmtpEnvelope
  /-- The exact bytes to submit. -/
  raw : Bytes
  deriving DecidableEq, Repr

inductive SmtpSubmitState
  | accepted | rejected | unknown
  deriving DecidableEq, Repr

/-- The classified report of one SMTP submission attempt. -/
structure SmtpSubmitReport where
  state : SmtpSubmitState
  response : Option String
  responseCode : Option ℕ
  recipients : List RecipientResult
  error : Option StoredError
  deriving DecidableEq, Repr

/-- The generation of a selected folder. -/
structure SelectedFolder where
  uidValidity : ℕ
  uidNext : ℕ
  deriving DecidableEq, Repr

/-- The classified answer of one Sent-folder append attempt. -/
inductive SentCopyWriteResult
  | appended (uidvalidity uid : Option ℕ)
  | rejected
  | uncertain (reason : String)
  deriving DecidableEq, Repr

/-- One request of a mail service to the outside. -/
inductive MailCall
  /-- The clock. -/
  | now
  /-- A random identifier. -/
  | generateId
  | storagePut (key : String) (bytes : Bytes)
  | storageGet (key : String)
  | storageStat (key : String)
  | storageVerify (key sha256 : String)
  | resolveCredentials (accountId : Uuid)
  /-- A submission; the transport sees the request only, the row it is made for is a record. -/
  | submit (outboundId : Uuid) (request : SmtpSubmitRequest)
  /-- Opens a mailbox session, named by the number in the answer. -/
  | openSentCopy (accountId : Uuid)
  | select (session : ℕ) (folder : String)
  | searchByMessageId (session : ℕ) (rfcMessageId : String)
  | fetchOriginal (session : ℕ) (uid : ℕ)
  | appendMessage (session : ℕ) (folder : String) (bytes : Bytes)
  | logout (session : ℕ)
  | fetchFlags (session : ℕ) (uids : List ℕ)
  | revalidate (session : ℕ)
  /-- The remote write of one prepared action item. -/
  | applyAction (session : ℕ) (item : PreparedActionItem)

/-- The type of the answer to each request. -/
def MailCall.Answer : MailCall → Type
  | now => Time
  | generateId => Uuid
  | storagePut .. => StoredObject
  | storageGet _ => Bytes
  | storageStat _ => Option ℕ
  | storageVerify .. => Bool
  | resolveCredentials _ => SmtpCredentials
  | submit .. => SmtpSubmitReport
  | openSentCopy _ => ℕ
  | select .. => SelectedFolder
  | searchByMessageId .. => List ℕ
  | fetchOriginal .. => Option Bytes
  | appendMessage .. => SentCopyWriteResult
  | logout _ => Unit
  | fetchFlags .. => List ActionMailboxFlags
  | revalidate _ => SelectedFolder
  | applyAction .. => ExecutorOutcome

/-- The transactions of the mail services that a specification names. -/
inductive MailTag
  /-- A worker takes the claim of a queued row. -/
  | claimSend (outboundId : Uuid)
  /-- A worker takes the claim of a Sent-copy append. -/
  | claimSentCopy (outboundId : Uuid)
  /-- A worker concludes the Sent-copy append it claimed. -/
  | concludeSentCopy (outboundId : Uuid)
  /-- A worker records the end of a Sent copy that nobody claimed. -/
  | recordSentCopy (outboundId : Uuid)
  /-- A worker records an outcome that nobody can classify. -/
  | recordUnknown (outboundId : Uuid)
  /-- A worker claims an action item. -/
  | claimItem (actionId itemKey : Uuid)
  /-- A worker reads the items of an action that it is about to work on. -/
  | reloadItems (actionId : Uuid)
  deriving DecidableEq, Repr

/-- The mail services, as programs on the database. -/
abbrev mailSignature : Signature where
  Store := Database
  Failure := Failure
  Tag := MailTag
  Call := MailCall
  Answer := MailCall.Answer

/-- An operation of a mail service. -/
abbrev MailProgram := Program mailSignature

namespace MailProgram

variable {α : Type}

/-- A computation that may fail. -/
def lift (r : Except Failure α) : MailProgram α := Program.ofExcept r

/-- Run one transaction without a name. -/
def transact (t : Tx α) : MailProgram α := Program.transaction none t

/-- Read the database outside any transaction. -/
def query (f : Database → α) : MailProgram α := Program.read f

/-- Send one request and wait for its answer. -/
def ask (c : MailCall) : MailProgram c.Answer := Program.request (S := mailSignature) c

def now : MailProgram Time := ask .now

def generateId : MailProgram Uuid := ask .generateId

def storagePut (key : String) (bytes : Bytes) : MailProgram StoredObject :=
  ask (.storagePut key bytes)

def storageGet (key : String) : MailProgram Bytes := ask (.storageGet key)

def storageStat (key : String) : MailProgram (Option ℕ) := ask (.storageStat key)

def storageVerify (key sha256 : String) : MailProgram Bool := ask (.storageVerify key sha256)

def resolveCredentials (accountId : Uuid) : MailProgram SmtpCredentials :=
  ask (.resolveCredentials accountId)

def submit (outboundId : Uuid) (request : SmtpSubmitRequest) : MailProgram SmtpSubmitReport :=
  ask (.submit outboundId request)

def openSentCopy (accountId : Uuid) : MailProgram ℕ := ask (.openSentCopy accountId)

def select (session : ℕ) (folder : String) : MailProgram SelectedFolder :=
  ask (.select session folder)

def searchByMessageId (session : ℕ) (rfcMessageId : String) : MailProgram (List ℕ) :=
  ask (.searchByMessageId session rfcMessageId)

def fetchOriginal (session uid : ℕ) : MailProgram (Option Bytes) :=
  ask (.fetchOriginal session uid)

def appendMessage (session : ℕ) (folder : String) (bytes : Bytes) :
    MailProgram SentCopyWriteResult :=
  ask (.appendMessage session folder bytes)

def logout (session : ℕ) : MailProgram Unit := ask (.logout session)

def fetchFlags (session : ℕ) (uids : List ℕ) : MailProgram (List ActionMailboxFlags) :=
  ask (.fetchFlags session uids)

def revalidate (session : ℕ) : MailProgram SelectedFolder := ask (.revalidate session)

def applyAction (session : ℕ) (item : PreparedActionItem) : MailProgram ExecutorOutcome :=
  ask (.applyAction session item)

end MailProgram

/-! ## Durable object keys -/

/-- The key of the frozen MIME bytes of one send. -/
def outboundMimeKey (outboundId : Uuid) : String := s!"outbound/{outboundId}.eml"

/-- The key of one uploaded file. -/
def uploadKey (uploadId : Uuid) : String := s!"uploads/{uploadId}.bin"

end MailHub
