import MailHub.Send.Execution

/-!
# Sent copies and recovery

The Sent append is a job of its own on the stored bytes. It reconciles first, appends only when
absence is proved, and keeps `sent` whatever the append does. Uncertain sends resolve only from a
Sent copy whose bytes hash to the frozen snapshot, and attempts that a crash left behind are held
once their lease expires.
-/

namespace MailHub

open Relational Interleaving

/-! ## Concluding one append attempt -/

/-- How one append attempt ended. -/
inductive SentCopyOutcome
  | stored (destination : SentCopyDestination)
  | failed (error : StoredError)
  | unknown (error : StoredError)
  deriving DecidableEq, Repr

/-- Whether a conclusion belongs to a claimed attempt. -/
inductive SentCopyClaim
  | claimed | unclaimed
  deriving DecidableEq, Repr

/-- The copy states from which an append may be claimed. -/
def SentCopyStatus.isOpen : SentCopyStatus → Bool
  | .pending | .failed | .unknown => true
  | .appending | .stored => false

/-- The columns that a conclusion writes. -/
def concludedRow (outcome : SentCopyOutcome) (r : OutboundMessage) : OutboundMessage :=
  match outcome with
  | .stored destination =>
      { r with sentCopyStatus := .stored, sentFolderId := some destination.folderId,
               sentUidvalidity := destination.uidvalidity, sentUid := destination.uid,
               lastError := none }
  -- Every attempt that ends without a stored copy counts.
  | .failed error =>
      { r with sentCopyStatus := .failed, lastError := some error,
               sentCopyAttempts := r.sentCopyAttempts + 1 }
  | .unknown error =>
      { r with sentCopyStatus := .unknown, lastError := some error,
               sentCopyAttempts := r.sentCopyAttempts + 1 }

/-- A conclusion leaves the frozen part of the row alone. -/
theorem concludedRow_snapshot (outcome : SentCopyOutcome) (r : OutboundMessage) :
    (concludedRow outcome r).toOutboundSnapshot = r.toOutboundSnapshot := by
  cases outcome <;> rfl

/-- The rows that a conclusion writes to. -/
def concludes (outboundId : Uuid) (claim : SentCopyClaim) (r : OutboundMessage) : Bool :=
  inStatus outboundId .sent r &&
    match claim with
    | .claimed => r.sentCopyStatus == .appending
    | .unclaimed => r.sentCopyStatus.isOpen

/-- The event of a conclusion. -/
def SentCopyOutcome.event : SentCopyOutcome → String
  | stored _ => "send.sent_copy_stored"
  | failed _ => "send.sent_copy_failed"
  | unknown _ => "send.sent_copy_unknown"

/-- Whether a conclusion left no stored copy. -/
def SentCopyOutcome.isOpen : SentCopyOutcome → Bool
  | stored _ => false
  | failed _ | unknown _ => true

/-- The transaction that concludes one append attempt. -/
def commitSentCopy (row : OutboundMessage) (claim : SentCopyClaim) (outcome : SentCopyOutcome) :
    Tx OutboundMessage := do
  match ← updateOutbound (concludes row.id claim)
      ⟨concludedRow outcome, concludedRow_snapshot outcome⟩ with
  -- A concurrent recovery moved the row: nothing is written and no event is invented.
  | [] => return row
  | after :: _ =>
      recordSendEvent outcome.event row.id
      if outcome.isOpen && sendSweepAttemptCap ≤ after.sentCopyAttempts then
        recordSendEvent "send.sent_copy_halted" row.id
      return after

/-- Conclude one append attempt. -/
def concludeSentCopy (row : OutboundMessage) (claim : SentCopyClaim) (outcome : SentCopyOutcome) :
    MailProgram OutboundMessage :=
  let tag := match claim with
    | .claimed => MailTag.concludeSentCopy row.id
    | .unclaimed => MailTag.recordSentCopy row.id
  Program.transaction (S := mailSignature) (some tag) (commitSentCopy row claim outcome)

/-- Hold one claimed attempt as unknown. -/
def holdSentCopy (row : OutboundMessage) (code message : String) : MailProgram OutboundMessage :=
  concludeSentCopy row .claimed (.unknown ⟨code, message⟩)

/-! ## Evidence -/

/-- One folder by its identifier and path. -/
structure SentFolder where
  id : Uuid
  path : String
  deriving DecidableEq, Repr

/-- The folder one account maps to the Sent role. -/
def findSentFolder (accountId : Uuid) (db : Database) : Option SentFolder :=
  (db.folders.rows.find? fun f => f.accountId == accountId && f.role == some .sent).map fun f =>
    ⟨f.id, f.name⟩

/-- What a search of the Sent folder found. -/
inductive CopyEvidence
  | verified (destination : SentCopyDestination)
  | absent
  | conflict
  deriving DecidableEq, Repr

/-- The name of a finding that verified nothing. -/
def CopyEvidence.kind : CopyEvidence → String
  | verified _ => "verified"
  | absent => "absent"
  | conflict => "conflict"

/-- Verify candidates one by one against the frozen hash. -/
def verifyCandidates (s : OutboundService) (session : ℕ) (folder : SentFolder)
    (uidValidity : ℕ) (row : OutboundMessage) : Bool → List ℕ → MailProgram CopyEvidence
  | candidateSeen, [] => return if candidateSeen then .conflict else .absent
  | candidateSeen, uid :: uids => do
      let bytes ← MailProgram.fetchOriginal session uid
      match bytes with
      | none => verifyCandidates s session folder uidValidity row candidateSeen uids
      | some bytes =>
          if s.libs.sha256Hex bytes = row.mimeSha256 then
            return .verified ⟨folder.id, some uidValidity, some uid⟩
          else verifyCandidates s session folder uidValidity row true uids

/-- Search one Sent folder for the snapshot's copy and verify every candidate. -/
def locateVerifiedCopy (s : OutboundService) (session : ℕ) (folder : SentFolder)
    (row : OutboundMessage) : MailProgram CopyEvidence := do
  let state ← MailProgram.select session folder.path
  let uids ← MailProgram.searchByMessageId session row.rfcMessageId
  verifyCandidates s session folder state.uidValidity row false uids

/-! ## The append job -/

/-- Decide an append that gave no usable coordinates, from a second search. -/
def settleAppend (s : OutboundService) (session : ℕ) (folder : SentFolder)
    (row : OutboundMessage) (appended : SentCopyWriteResult) : MailProgram OutboundMessage := do
  match ← locateVerifiedCopy s session folder row with
  | .verified destination => concludeSentCopy row .claimed (.stored destination)
  | .conflict =>
      holdSentCopy row "sent_copy_conflict" ("The Sent folder holds a message with this identifier " ++
          "but different bytes; the append outcome stays unknown.")
  | .absent =>
      match appended with
      | .uncertain reason =>
          holdSentCopy row "append_uncertain" s!"The Sent append response was lost: {reason}"
      | _ => concludeSentCopy row .claimed (.stored ⟨folder.id, none, none⟩)

/-- Append the stored bytes over one open session; reconcile before and after. -/
def appendOverSession (s : OutboundService) (session : ℕ) (folder : SentFolder)
    (row : OutboundMessage) : MailProgram OutboundMessage := do
  match ← (MailProgram.storageGet row.mimeStorageKey).attempt with
  | .error _ =>
      holdSentCopy row "mime_missing"
        "The stored MIME bytes could not be read; nothing was appended."
  | .ok bytes =>
      if s.libs.sha256Hex bytes ≠ row.mimeSha256 then
        holdSentCopy row "mime_mismatch" ("The stored MIME bytes no longer match their recorded " ++
            "hash; nothing was appended.")
      else
        match ← locateVerifiedCopy s session folder row with
        | .verified destination => concludeSentCopy row .claimed (.stored destination)
        | .conflict =>
            holdSentCopy row "sent_copy_conflict" ("The Sent folder holds a message with this " ++
                "identifier but different bytes; the copy was not verified and nothing was appended.")
        | .absent =>
            match ← MailProgram.appendMessage session folder.path bytes with
            | .rejected =>
                concludeSentCopy row .claimed (.failed ⟨"append_rejected",
                  "The server refused the Sent append; the sent state is unchanged."⟩)
            | .appended (some uidvalidity) (some uid) =>
                concludeSentCopy row .claimed (.stored ⟨folder.id, some uidvalidity, some uid⟩)
            | appended => settleAppend s session folder row appended

/-- Work one claimed append attempt to its conclusion; the session closes in every case. -/
def appendClaimed (s : OutboundService) (folder : SentFolder) (row : OutboundMessage) :
    MailProgram OutboundMessage := do
  match ← (MailProgram.openSentCopy row.accountId).attempt with
  | .error cause =>
      holdSentCopy row "session_unavailable"
        s!"The Sent-copy connection could not be opened: {firstLine cause}"
  | .ok session =>
      Program.cleanup
        (tryCatch (appendOverSession s session folder row) fun cause =>
          holdSentCopy row "session_error" s!"The Sent-copy session failed: {firstLine cause}")
        (do let _ ← (MailProgram.logout session).attempt)

/-- The transaction of the append claim: `appending` persists before the connection opens. -/
def claimSentCopy (outboundId : Uuid) (now : Time) : Tx (Option OutboundMessage) := do
  let claimed ← updateOutbound (fun r => inStatus outboundId .sent r && r.sentCopyStatus.isOpen)
    ⟨fun r => { r with sentCopyStatus := .appending, appendStartedAt := some now }, fun _ => rfl⟩
  return claimed.head?

/-- The row of an account without a Sent folder stays as it is once that was recorded. -/
def staysUnmapped (row : OutboundMessage) : Bool :=
  row.sentCopyStatus == .unknown || (row.sentCopyStatus == .failed &&
    row.lastError.any fun error => error.code == "sent_folder_unmapped")

/-- Run the Sent append job of one snapshot; the flag says whether it did anything. -/
def executeSentCopyAppend (s : OutboundService) (outboundId : Uuid) :
    MailProgram (OutboundRecord × Bool) := do
  if s.canStoreSentCopy = false then
    throw (Failure.send .sentCopyUnavailable
      "This process cannot store sent copies: no Sent-copy session factory is configured." none)
  let before ← loadOutbound outboundId
  if before.status ≠ .sent ∨ before.sentCopyStatus = .stored then
    return (toOutboundRecord before, false)
  let status ← MailProgram.query (readStatus s.generation)
  if mayRun status before.recoveryGeneration = false then
    return (toOutboundRecord before, false)
  match ← MailProgram.query (findSentFolder before.accountId) with
  | none =>
      if staysUnmapped before then
        return (toOutboundRecord before, false)
      let failed ← concludeSentCopy before .unclaimed (.failed ⟨"sent_folder_unmapped",
        ("The account has no folder mapped to the Sent role; map one in settings to store the " ++
            "sent copy.")⟩)
      return (toOutboundRecord failed, true)
  | some folder =>
      let now ← MailProgram.now
      match ← Program.transaction (S := mailSignature) (some (.claimSentCopy outboundId))
          (claimSentCopy outboundId now) with
      | none =>
          let current ← loadOutbound outboundId
          return (toOutboundRecord current, false)
      | some row =>
          let concluded ← appendClaimed s folder row
          return (toOutboundRecord concluded, true)

/-- True when the row's account maps no folder to the Sent role. -/
def missingSentFolder (db : Database) (row : OutboundMessage) : Bool :=
  !db.folders.rows.any fun f => f.accountId == row.accountId && f.role == some .sent

/-- The Sent copies that are due: open, under the cap, and not quiet for want of a folder. -/
def isCopyDue (db : Database) (row : OutboundMessage) : Bool :=
  row.status == .sent && row.sentCopyStatus.isOpen &&
    row.sentCopyAttempts < sendSweepAttemptCap &&
    !(row.sentCopyStatus != .pending && missingSentFolder db row)

/-- Sweep the due Sent copies of this deployment. -/
def appendDueSentCopies (s : OutboundService) (limit : ℕ) : MailProgram SweepSummary :=
  sweep s (fun db => dueRows (isCopyDue db) limit db) fun id => do
    let outcome ← executeSentCopyAppend s id
    return outcome.2

/-! ## Unknown outcomes -/

/-- The transaction that counts one evidence pass without a result. -/
def commitReconcilePass (outboundId : Uuid) : Tx Unit := do
  let updated ← updateOutbound (inStatus outboundId .outcomeUnknown)
    ⟨fun r => { r with reconcileAttempts := r.reconcileAttempts + 1 }, fun _ => rfl⟩
  if updated.any fun after => sendSweepAttemptCap ≤ after.reconcileAttempts then
    recordSendEvent "send.reconcile_halted" outboundId

/-- Count one evidence pass that settled nothing. -/
def noteReconcilePass (row : OutboundMessage) : MailProgram Unit :=
  MailProgram.transact (commitReconcilePass row.id)

/-- What one reconciliation reports. -/
structure ReconcileResult where
  outbound : OutboundRecord
  reconciled : Bool
  reason : Option String
  deriving DecidableEq, Repr

/-- Look for evidence over one open session and resolve the row from it. -/
def reconcileOverSession (s : OutboundService) (session : ℕ) (folder : SentFolder)
    (before : OutboundMessage) : MailProgram ReconcileResult := do
  match ← locateVerifiedCopy s session folder before with
  | .verified destination =>
      let bytes ← MailProgram.fetchOriginal session (destination.uid.getD 0)
      match bytes.filter fun bytes => s.libs.sha256Hex bytes == before.mimeSha256 with
      | none =>
          noteReconcilePass before
          return ⟨toOutboundRecord before, false, some "candidate_unreadable"⟩
      | some bytes =>
          let resolved ← commitAcceptance s before
            { fromStatus := .outcomeUnknown, bytes, smtpResponse := before.smtpResponse,
              recipientResults := reconciledRecipientResults before,
              sentCopy := some destination }
          return ⟨toOutboundRecord resolved, true, none⟩
  | evidence =>
      noteReconcilePass before
      return ⟨toOutboundRecord before, false, some evidence.kind⟩

/-- Reconcile one uncertain send. -/
def reconcileUnknownOutcome (s : OutboundService) (outboundId : Uuid) :
    MailProgram ReconcileResult := do
  if s.canStoreSentCopy = false then
    throw (Failure.send .sentCopyUnavailable
      "This process cannot reconcile sends: no Sent-copy session factory is configured." none)
  let before ← loadOutbound outboundId
  if before.status ≠ .outcomeUnknown then
    return ⟨toOutboundRecord before, false, none⟩
  let status ← MailProgram.query (readStatus s.generation)
  if mayRun status before.recoveryGeneration = false then
    return ⟨toOutboundRecord before, false, none⟩
  match ← MailProgram.query (findSentFolder before.accountId) with
  | none => return ⟨toOutboundRecord before, false, some "sent_folder_unmapped"⟩
  | some folder =>
      match ← (MailProgram.openSentCopy before.accountId).attempt with
      | .error cause =>
          noteReconcilePass before
          return ⟨toOutboundRecord before, false, some s!"session_unavailable: {firstLine cause}"⟩
      | .ok session =>
          Program.cleanup (reconcileOverSession s session folder before)
            (do let _ ← (MailProgram.logout session).attempt)

/-- Sweep the unknown outcomes of this deployment. -/
def reconcileUnknownOutcomes (s : OutboundService) (limit : ℕ) : MailProgram SweepSummary :=
  sweep s (fun db => dueRows (fun row => row.status == .outcomeUnknown &&
      row.reconcileAttempts < sendSweepAttemptCap && !missingSentFolder db row) limit db)
    fun id => do
      let outcome ← reconcileUnknownOutcome s id
      return outcome.reconciled

/-! ## Abandoned attempts -/

/-- The reason of an abandoned submission. -/
def sendingAbandoned : StoredError :=
  ⟨"sending_abandoned", "The submission attempt recorded no outcome before the process stopped; " ++
    "nothing was resubmitted."⟩

/-- The transaction that holds one abandoned `sending` row as unknown. -/
def holdSending (outboundId : Uuid) : Tx Bool := do
  let updated ← updateOutbound (inStatus outboundId .sending)
    ⟨fun r => { r with status := .outcomeUnknown, lastError := some sendingAbandoned },
      fun _ => rfl⟩
  if updated.isEmpty then
    return false
  recordSendEvent "send.outcome_unknown" outboundId
  return true

/-- The reason of an abandoned append. -/
def appendAbandoned : StoredError :=
  ⟨"append_abandoned", "The Sent append attempt recorded no outcome before the process stopped; " ++
    "it was not retried blindly."⟩

/-- The transaction that holds one abandoned `appending` row as unknown. -/
def holdAppending (outboundId : Uuid) : Tx Bool := do
  let updated ← updateOutbound
    (fun r => r.id == outboundId && r.sentCopyStatus == .appending)
    ⟨fun r => { r with sentCopyStatus := .unknown, lastError := some appendAbandoned },
      fun _ => rfl⟩
  if updated.isEmpty then
    return false
  recordSendEvent "send.sent_copy_unknown" outboundId
  return true

/-- What one recovery pass over the abandoned attempts did. -/
structure AbandonedAttemptSummary where
  heldSends : ℕ
  heldAppends : ℕ
  skippedStale : ℕ
  blocked : Bool
  deriving DecidableEq, Repr

/-- Rows that a condition selects, with their generations. -/
def rowsWhere (p : OutboundMessage → Bool) (db : Database) : List (Uuid × Uuid) :=
  (db.outboundMessages.select p).map fun row => (row.id, row.recoveryGeneration)

/-- Hold every row of the current generation; count the held and the skipped rows. -/
def holdRows (status : ControlStatus) (hold : Uuid → Tx Bool) (rows : List (Uuid × Uuid)) :
    MailProgram (ℕ × ℕ) := do
  let mut counts := (0, 0)
  for (id, generation) in rows do
    if assessJob status generation = .stale then
      counts := (counts.1, counts.2 + 1)
    else
      let held ← MailProgram.transact (hold id)
      if held then
        counts := (counts.1 + 1, counts.2)
  return counts

/-- Hold the attempts a crash left behind, once their lease expired. -/
def recoverAbandonedAttempts (s : OutboundService) : MailProgram AbandonedAttemptSummary := do
  let status ← MailProgram.query (readStatus s.generation)
  match status with
  | .ready _ =>
      let now ← MailProgram.now
      let expiredBefore := now - attemptLeaseMs
      let sending ← MailProgram.query (rowsWhere fun row =>
        row.status == .sending && row.sendingStartedAt.any (· < expiredBefore))
      let sends ← holdRows status holdSending sending
      let appending ← MailProgram.query (rowsWhere fun row =>
        row.sentCopyStatus == .appending && row.appendStartedAt.all (· < expiredBefore))
      let appends ← holdRows status holdAppending appending
      return ⟨sends.1, appends.1, sends.2 + appends.2, false⟩
  | _ => return ⟨0, 0, 0, true⟩

end MailHub
