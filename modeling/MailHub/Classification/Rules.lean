import MailHub.Schema
import MailHub.Text

/-!
# Deterministic rules

Known senders and subject patterns answer before the classification model sees anything. The
patterns ignore letter case as a pattern without the Unicode flag does: among ASCII letters only.
-/

namespace MailHub.Classification

/-! ## Patterns -/

/-- The characters of `\w`. -/
def isWordChar (c : Char) : Bool := c.isAlphanum || c == '_'

/-- Whether a word starts or ends between two characters: `\b`. -/
def isBoundary (before after : Option Char) : Bool := before.any isWordChar != after.any isWordChar

/-- What follows a lowercase word that the text starts with, in any letter case. -/
def afterWord (word : String) (text : List Char) : Option (List Char) :=
  if (text.take word.length).map Char.toLower = word.toList then some (text.drop word.length)
  else none

/-- What follows each of the words that stands at the start of the text as a whole word, after the
given character. -/
def afterWholeWord (words : List String) (before : Option Char) (text : List Char) :
    List (String × List Char) :=
  if isBoundary before text.head? then
    words.filterMap fun word => (afterWord word text).bind fun rest =>
      if isBoundary word.toList.getLast? rest.head? then some (word, rest) else none
  else []

/-- Whether something is found at some position of the text. -/
def found (p : Option Char → List Char → Bool) : Option Char → List Char → Bool
  | before, [] => p before []
  | before, c :: cs => p before (c :: cs) || found p (some c) cs

/-- Whether one of the words stands within the next code units of one sentence: `[^.\n]{0,n}`. -/
def foundWithin (words : List String) : ℕ → Option Char → List Char → Bool
  | _, before, [] => afterWholeWord words before [] ≠ []
  | n, before, c :: cs =>
      afterWholeWord words before (c :: cs) ≠ [] ||
        (c ≠ '.' && c ≠ '\n' && textLength c.toString ≤ n &&
          foundWithin words (n - textLength c.toString) (some c) cs)

/-- Whether a word of the first list is followed by one of the second list within 40 characters. -/
def hasPair (first second : List String) (subject : String) : Bool :=
  found (fun before text => (afterWholeWord first before text).any fun hit =>
    foundWithin second 40 hit.1.toList.getLast? hit.2) none subject.toList

/-! ## The rules -/

/-- One matched rule: the class it proves and its stable name. -/
structure DeterministicRuleMatch where
  classHint : MessageClass
  rule : String
  deriving DecidableEq, Repr

/-- Sender domains whose mail is a security notification by contract. -/
def securitySenderDomains : List String :=
  ["accounts.google.com", "appleid.apple.com", "github.com", "login.microsoftonline.com",
    "no-reply.accounts.firefox.com", "signin.aws.amazon.com"]

/-- Sender local parts that mark machine-generated delivery reports. -/
def bounceSenderLocals : List String := ["mailer-daemon", "postmaster"]

/-- What an access code is for. -/
def securityPurposes : List String :=
  ["verification", "verify", "security", "login", "log-in", "sign-in", "sign in", "one-time",
    "two-factor", "2fa"]

/-- The names of an access code. -/
def securityCodes : List String := ["code", "otp", "passcode", "token"]

/-- Whether a subject announces an access code. -/
def isSecuritySubject (subject : String) : Bool :=
  hasPair securityPurposes securityCodes subject || hasPair securityCodes securityPurposes subject

/-- Whether a subject announces a statement, an invoice or a receipt. -/
def isReceiptSubject (subject : String) : Bool :=
  found (fun before text => afterWholeWord ["statement", "invoice", "receipt", "order confirmation",
    "payment confirmation", "payment receipt"] before text ≠ []) none subject.toList

/-- Whether a subject is one that a mail server stamps on a delivery failure. -/
def isBounceSubject (subject : String) : Bool :=
  ["undeliverable", "undelivered mail", "mail delivery failed", "delivery has failed",
    "delivery failed", "delivery status notification", "returned mail", "mail system error"].any
      fun start => (afterWord start subject.toList).isSome

/-- The address fields one rule may read. -/
structure RuleInput where
  senderAddress : Option String
  subject : Option String

/-- Match the deterministic rules for one message; the first match wins. -/
def matchDeterministicRules (toLowerCase : String → String) (input : RuleInput) :
    Option DeterministicRuleMatch :=
  let subject := input.subject.getD ""
  let pieces := split '@' (toLowerCase (input.senderAddress.getD ""))
  let localPart := pieces.getD 0 ""
  let domain := pieces.getD 1 ""
  if localPart ∈ bounceSenderLocals ∨ isBounceSubject subject then
    some ⟨.bounce, "bounce_sender_or_subject"⟩
  else if domain ∈ securitySenderDomains ∨ isSecuritySubject subject then
    some ⟨.securityAlert, "security_sender_or_subject"⟩
  else if isReceiptSubject subject then
    some ⟨.receipt, "receipt_subject"⟩
  else none

example : matchDeterministicRules toLowerCase ⟨some "a@example.org", some "Your Login: the CODE"⟩ =
    some ⟨.securityAlert, "security_sender_or_subject"⟩ := by decide +kernel

end MailHub.Classification
