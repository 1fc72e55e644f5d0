import MailHub.Errors
import MailHub.Text

/-!
# Input validation for composing

Every rule runs before anything reaches the database, so stored drafts stay well formed and
identity choices always name a configured identity of the holding account.
-/

namespace MailHub

/-! ## Bounds -/

def nameMax : ℕ := 128

def subjectMax : ℕ := 998

/-- Shared so the derived reply quote can respect the same ceiling. -/
def markdownMax : ℕ := 1000000

def filenameMax : ℕ := 255

def contentTypeMax : ℕ := 255

def listMax : ℕ := 100

/-- One upload may not exceed this size. -/
def uploadMaxBytes : ℕ := 25 * 1024 * 1024

/-- The most attachment bytes one draft may reference in total. -/
def attachmentsTotalMaxBytes : ℕ := 32 * 1024 * 1024

/-- A compose rejection of a malformed request. -/
def invalidCompose (message : String) : Failure := .compose .invalidRequest message none

/-! ## Addresses -/

/-- Lower-case letters and digits. -/
def isAlnum (c : Char) : Bool := ('a' ≤ c && c ≤ 'z') || ('0' ≤ c && c ≤ '9')

/-- The characters of a local part. -/
def isLocalChar (c : Char) : Bool := isAlnum c || c ∈ ".!#$%&'*+/=?^_`\x7b|\x7d~-".toList

/-- One label of a domain: letters, digits and inner hyphens, at most 63 characters. -/
def isDomainLabel (label : List Char) : Bool :=
  label.length ≤ 63 && label.all (fun c => isAlnum c || c == '-') &&
    (label.head?.any isAlnum) && (label.getLast?.any isAlnum)

/-- The address pattern: a local part of 1 to 64 characters and a domain of two or more labels. -/
def isEmailAddress (text : String) : Bool :=
  match splitList '@' text.toList with
  | [localPart, domain] =>
      1 ≤ localPart.length && localPart.length ≤ 64 && localPart.all isLocalChar &&
        2 ≤ (splitList '.' domain).length && (splitList '.' domain).all isDomainLabel
  | _ => false

/-- Normalize one email address. -/
def normalizeEmailAddress (input : String) : Except Failure String :=
  let trimmed := toLowerCase (trim input)
  let shown := if trimmed = "" then "(empty)" else trimmed
  if isEmailAddress trimmed then .ok trimmed
  else .error (invalidCompose s!"The address {shown} is not a valid email address.")

/-- Normalize an optional text with a bound: blank is absent. -/
def normalizeOptionalText (max : ℕ) (message : String) : Option String →
    Except Failure (Option String)
  | none => .ok none
  | some input =>
      let trimmed := trim input
      if trimmed = "" then .ok none
      else if max < textLength trimmed ∨ trimmed.toList.any isControl then
        .error (invalidCompose message)
      else .ok (some trimmed)

/-- Normalize an optional display name. -/
def normalizeAddressName : Option String → Except Failure (Option String) :=
  normalizeOptionalText nameMax
    s!"A display name must hold 1 to {nameMax} characters without controls."

/-- Normalize a draft subject. An absent or blank subject clears the field. -/
def normalizeSubject : Option String → Except Failure (Option String) :=
  normalizeOptionalText subjectMax
    s!"A subject must hold 1 to {subjectMax} characters without controls."

/-- Normalize the addresses of one list, given those already seen, rejecting duplicates. -/
def normalizeAddresses (field : String) (seen : List String) :
    List EmailAddress → Except Failure (List EmailAddress)
  | [] => .ok []
  | item :: items => do
      let address ← normalizeEmailAddress item.address
      if address ∈ seen then
        throw (invalidCompose
          s!"The address {address} appears more than once in the {field} list.")
      let name ← normalizeAddressName item.name
      let rest ← normalizeAddresses field (address :: seen) items
      return ⟨address, name⟩ :: rest

/-- Normalize a list of addresses, rejecting duplicates within one list. -/
def normalizeAddressList (input : List EmailAddress) (field : String) :
    Except Failure (List EmailAddress) :=
  if listMax < input.length then
    .error (invalidCompose s!"The {field} list may hold at most {listMax} addresses.")
  else normalizeAddresses field [] input

/-- The entries of one list whose address no earlier list already holds. -/
def dropSeen (list earlier : List EmailAddress) : List EmailAddress :=
  list.filter fun address => address.address ∉ earlier.map (·.address)

/-- Normalize one recipient list set; the earlier list keeps an address. -/
def normalizeRecipients : Option Recipients → Except Failure Recipients
  | none => .ok { «to» := [] }
  | some input => do
      let toList ← normalizeAddressList input.«to» "To"
      let ccList := dropSeen (← normalizeAddressList input.cc "Cc") toList
      let bccList := dropSeen (← normalizeAddressList input.bcc "Bcc") (toList ++ ccList)
      return { «to» := toList, cc := ccList, bcc := bccList }

/-- Resolve the From identity of a draft: the account's default, or one configured identity
matched without case. -/
def resolveIdentity (configured : List AccountIdentity) (requested : Option String) :
    Except Failure EmailAddress :=
  match configured with
  | [] => .error (.compose .identityInvalid ("This account has no send identities. Add one in " ++
      "account settings before composing.") none)
  | first :: _ =>
      match requested with
      | none => .ok ((configured.find? (·.isDefault)).getD first).toEmailAddress
      | some requested => do
          let address ← normalizeEmailAddress requested
          match configured.find? (·.address == address) with
          | some identity => return identity.toEmailAddress
          | none => throw (.compose .identityInvalid
              s!"The address {address} is not a configured identity of this account." none)

/-! ## Content and files -/

/-- Normalize draft Markdown. The source is the record and stays verbatim. -/
def normalizeMarkdown : Option String → Except Failure String
  | none => .ok ""
  | some input =>
      if markdownMax < textLength input then
        .error (invalidCompose s!"Draft Markdown must hold at most {markdownMax} characters.")
      else .ok input

/-- Normalize an upload's file name. -/
def normalizeFilename (input : String) : Except Failure String :=
  let trimmed := trim input
  if textLength trimmed = 0 ∨ filenameMax < textLength trimmed ∨ trimmed = "." ∨ trimmed = ".." ∨
      trimmed.toList.any isControl then
    .error (invalidCompose
      s!"An attachment file name must hold 1 to {filenameMax} characters without controls.")
  else .ok trimmed

/-- The media type pattern: two nonempty parts around one slash. -/
def isContentType (text : String) : Bool :=
  match splitList '/' text.toList with
  | [type, subtype] =>
      type ≠ [] && type.all (fun c => isAlnum c || c ∈ "-.".toList) &&
        subtype ≠ [] && subtype.all fun c => isAlnum c || c ∈ "-.+*".toList
  | _ => false

/-- Normalize an upload's media type. Parameters after `;` are dropped. -/
def normalizeContentType (input : Option String) : Except Failure String :=
  let mediaType := toLowerCase (trim ((split ';' (input.getD "")).headD ""))
  if mediaType = "" then .ok "application/octet-stream"
  else if contentTypeMax < textLength mediaType ∨ isContentType mediaType = false then
    .error (invalidCompose "An attachment media type must be a valid content type.")
  else .ok mediaType

/-- Validate upload bytes before any durable write. -/
def validateUploadBytes (bytes : Bytes) : Except Failure Unit :=
  if bytes.length = 0 then .error (invalidCompose "Attachment bytes are empty.")
  else if uploadMaxBytes < bytes.length then
    .error (invalidCompose s!"An attachment may hold at most {uploadMaxBytes} bytes.")
  else .ok ()

end MailHub
