import MailHub.Compose.Validation

/-!
# Reply addressing and frozen reply headers

Every rule here derives from one selected parent message alone. `Reply-To` and `From` fill the
recipient lists only through the rules below, and delivery headers never select an identity.
-/

namespace MailHub

/-- The frozen wire references of one reply draft. -/
structure FrozenReplyReferences where
  /-- The parent's single valid `Message-ID`, or `none` when unavailable. -/
  inReplyTo : Option String
  /-- The parent's ancestor identifiers followed by its own, when available. -/
  referenceIds : List String
  deriving DecidableEq, Repr

/-- The element of a list that has exactly one. -/
def single {α : Type} : List α → Option α
  | [a] => some a
  | _ => none

/-- Freeze the reply headers of one parent. -/
def freezeReplyReferences (parent : Message) : FrozenReplyReferences :=
  let parentMessageId := single (extractMessageIds parent.messageId)
  let references := firstOccurrences (parent.referenceIds.flatMap fun id =>
    extractMessageIds (some id))
  let ancestors := if references ≠ [] then references
    else (single (extractMessageIds parent.inReplyTo)).toList
  match parentMessageId with
  | none => ⟨none, ancestors⟩
  | some id => ⟨some id, firstOccurrences (ancestors ++ [id])⟩

/-- One address key: identities and recipient lists compare without case. -/
def addressKey (address : String) : String := toLowerCase (trim address)

/-- Resolve the From identity of one reply: the sender's own identity, or the only configured
identity that the parent's visible recipients name. -/
def preselectReplyIdentity (parent : Message) (configured : List AccountIdentity) :
    Option AccountIdentity :=
  let own := parent.sender.bind fun sender =>
    configured.find? fun identity => addressKey identity.address == addressKey sender.address
  let visible := (parent.recipients.map fun r => r.«to» ++ r.cc).getD []
  let matching := configured.filter fun identity =>
    addressKey identity.address ∈ visible.map fun entry => addressKey entry.address
  own.orElse fun _ => single matching

/-- Convert derived addresses into draft form, in order, without duplicates, without the account's
own identities and without the addresses of an earlier list. -/
def usableAddresses (own seen : List String) :
    List EmailAddress → Except Failure (List EmailAddress)
  | [] => .ok []
  | entry :: entries =>
      match normalizeEmailAddress entry.address with
      | .error _ => .error (.compose .recipientsRequired ("The parent message names a recipient " ++
          "address that cannot be sent to; correct the recipients.") none)
      | .ok address =>
          if address ∈ own ∨ address ∈ seen then usableAddresses own seen entries
          else do
            let name := (normalizeAddressName entry.name).toOption.join
            return ⟨address, name⟩ :: (← usableAddresses own (address :: seen) entries)

/-- Reject an empty derived recipient set: an explicit choice is required. -/
def requireRecipients (addresses : List EmailAddress) : Except Failure Unit :=
  if addresses = [] then .error (.compose .recipientsRequired ("No recipients remain after removing " ++
      "duplicates and this account's identities; choose the recipients explicitly.") none)
  else .ok ()

/-- The primary recipients of one reply: the parent's valid `Reply-To` addresses, or its `From`
when the header is absent. -/
def primaryRecipients (parent : Message) : Except Failure (List EmailAddress) :=
  match parent.replyTo with
  | none => .ok parent.sender.toList
  | some [] => .error (.compose .recipientsRequired ("The parent message has a malformed or empty " ++
      "Reply-To header; correct the recipients before sending.") none)
  | some replyTo => .ok replyTo

inductive ReplyMode
  | reply | replyAll
  deriving DecidableEq, Repr

/-- Derive the recipient lists of one reply. -/
def deriveReplyRecipients (parent : Message) (identities : List AccountIdentity)
    (mode : ReplyMode) : Except Failure Recipients := do
  let own := identities.map fun identity => addressKey identity.address
  let visible := parent.recipients.getD { «to» := [] }
  if parent.sender.any fun sender => addressKey sender.address ∈ own then
    let toList ← usableAddresses own [] visible.«to»
    let ccList ← usableAddresses own (toList.map (·.address)) visible.cc
    requireRecipients (toList ++ ccList)
    return { «to» := toList, cc := ccList }
  else
    let toList ← usableAddresses own [] (← primaryRecipients parent)
    match mode with
    | .reply =>
        requireRecipients toList
        return { «to» := toList }
    | .replyAll =>
        let ccList ← usableAddresses own (toList.map (·.address)) (visible.«to» ++ visible.cc)
        requireRecipients (toList ++ ccList)
        return { «to» := toList, cc := ccList }

/-- The subject of one reply draft: the parent's subject with an `Re:` prefix unless it already
carries one. -/
def replySubject (parentSubject : Option String) : Option String :=
  parentSubject.bind fun subject =>
    let trimmed := trim subject
    if trimmed = "" then none
    else
      let carries := (trimmed.toList.take 3).map Char.toLower = ['r', 'e', ':']
      (normalizeSubject (some (if carries then trimmed else "Re: " ++ trimmed))).toOption.join

end MailHub
