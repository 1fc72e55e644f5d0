import MailHub.Classification.Service

/-!
# Classification corrections

A correction names its scope before anything changes: this message only, this sender, or the
deterministic rule that answered. Its effect and its event commit together; the message that it is
about was read before.
-/

namespace MailHub.Classification

open Relational Interleaving

open ClassifyProgram (lift query transact transactAs ask)

/-! ## Requests -/

/-- What a correction applies to. -/
inductive CorrectionScope
  | message | sender | rule
  deriving DecidableEq, Repr

/-- One correction the owner submitted, before validation. -/
structure CorrectionRequest where
  messageId : Uuid
  scope : CorrectionScope
  /-- The corrected class; `none` records "no class for this scope". -/
  classHint : Option MessageClass
  note : Option String
  deriving DecidableEq, Repr

/-- The answer that stood on one row. -/
structure PreviousAnswer where
  source : Option SuggestionSource
  classHint : Option MessageClass
  deriving DecidableEq, Repr

/-- What one correction did. -/
structure CorrectionResult where
  scope : CorrectionScope
  classHint : Option MessageClass
  sender : Option String
  rule : Option String
  previous : Option PreviousAnswer
  /-- Messages that now carry the corrected answer. -/
  reapplied : ℕ
  deriving DecidableEq, Repr

/-- The longest note one correction may carry. -/
def maxNoteChars : ℕ := 2000

/-- One optional note: absent and blank both store nothing. -/
def normalizeNote : Option String → Except Failure (Option String)
  | none => .ok none
  | some note =>
      let trimmed := trim note
      if trimmed = "" then .ok none
      else if maxNoteChars < textLength trimmed then
        .error (.classification .invalidRequest
          s!"The note must hold {maxNoteChars} characters or fewer.")
      else .ok (some trimmed)

/-- The text of a metadata entry that is a string. -/
def stringEntry (metadata : Metadata) (key : String) : Option String :=
  match metadata.lookup key with
  | some (.text value) => some value
  | _ => none

/-- The sources of answers. -/
def suggestionSources : List SuggestionSource := [.manual, .override, .rule, .jev]

/-- The answer that stood on one row before the correction, when one did. -/
def previousAnswerOf (row : CorrectedRow) : Option PreviousAnswer :=
  let source := (stringEntry row.metadata "classSource").bind fun text =>
    suggestionSources.find? fun source => source.text == text
  if source.isNone ∧ row.classHint.isNone then none else some ⟨source, row.classHint⟩

/-- The rule that answered one row, when the deterministic rules did. -/
def ruleNameOf (row : CorrectedRow) : Option String :=
  (stringEntry row.metadata "rule").filter fun rule => rule ≠ ""

/-! ## The correction -/

/-- The event of one correction. -/
def recordCorrection (messageId : Uuid) : Tx Unit :=
  Tx.recordEvent .user "class.corrected" "message" messageId

/-- The owner's own answer for one message. -/
def correctMessage (row : CorrectedRow) (classHint : Option MessageClass) : Tx ℕ := do
  modify fun db =>
    { db with
      messages := db.messages.update (fun m => m.id == row.id) (fun m =>
        { m with
          classHint
          metadata := mergeMetadata row.metadata
            [("classSource", .text SuggestionSource.manual.text)] }) fun _ => rfl }
  recordCorrection row.id
  return 1

/-- Whether the sweep of a sender correction takes a message: one of the sender in the account that
the owner did not place by hand. -/
def isSwept (s : ClassificationService) (accountId : Uuid) (sender : String) (m : Message) : Bool :=
  m.accountId == accountId &&
    (m.sender.any fun a => s.lower a.address == s.toLowerCase sender) &&
    m.metadata.text "classSource" != some SuggestionSource.manual.text

/-- A message with the answer of an override over what the row holds. -/
def sweep (classHint : Option MessageClass) (m : Message) : Message :=
  { m with
    classHint
    metadata := mergeMetadata m.metadata
      [("classSource", .text SuggestionSource.override.text)] }

/-- The override row of a sender with the new class; a note stays when none is given. -/
def overrideRow (s : ClassificationService) (accountId : Uuid) (sender : String)
    (classHint : Option MessageClass) (note : Option String) (db : Database) : SenderOverride where
  accountId
  sender := s.toLowerCase sender
  classHint
  note := note <|> (db.senderOverrides.find? (accountId, s.toLowerCase sender)).bind (·.note)

/-- The override of one sender, applied to the sender's mail in the account. -/
def correctSender (s : ClassificationService) (row : CorrectedRow) (sender : String)
    (classHint : Option MessageClass) (note : Option String) : Tx ℕ := do
  let db ← get
  set { db with
    senderOverrides :=
      db.senderOverrides.put (overrideRow s row.accountId sender classHint note db)
    messages := db.messages.update (isSwept s row.accountId sender) (sweep classHint)
      fun _ => rfl }
  recordCorrection row.id
  return (db.messages.select (isSwept s row.accountId sender)).length

/-- The effect of a correction, with its event. -/
def commitCorrection (s : ClassificationService) (row : CorrectedRow) (request : CorrectionRequest)
    (sender note : Option String) : ClassifyProgram ℕ :=
  match request.scope, sender with
  | .message, _ =>
      transactAs (.correctMessage row request.classHint) (correctMessage row request.classHint)
  | .sender, some sender =>
      transactAs (.correctSender row.accountId sender request.classHint)
        (correctSender s row sender request.classHint note)
  | .sender, none | .rule, _ => do
      transact (recordCorrection row.id)
      return 0

/-- Apply one correction. -/
def correct (s : ClassificationService) (requestGeneration : Option Uuid)
    (request : CorrectionRequest) : ClassifyProgram CorrectionResult := do
  let gate ← query (gateMutation s.generation requestGeneration)
  let _ ← lift gate
  let note ← lift (normalizeNote request.note)
  let row ← query fun db => (db.messages.find? request.messageId).map fun m =>
    (⟨m.id, m.accountId, m.sender, m.classHint, m.metadata⟩ : CorrectedRow)
  match row with
  | none => throw (Failure.classification .notFound "No message exists with that id.")
  | some row =>
      let sender := senderAddressOf row.sender
      let rule := ruleNameOf row
      if request.scope = .rule ∧ rule = none then
        throw (Failure.classification .invalidRequest <|
          "The deterministic rules did not answer this message, so there is no rule to edit.")
      if request.scope = .sender ∧ sender = none then
        throw (Failure.classification .invalidRequest <|
          "This message carries no usable sender address, so no sender can be corrected.")
      let reapplied ← commitCorrection s row request sender note
      return ⟨request.scope, request.classHint, sender, rule, previousAnswerOf row, reapplied⟩

end MailHub.Classification
