import MailHub.Errors
import MailHub.Classification.Rules
import MailHub.Recovery.Status
import Mathlib.Data.List.Sort
import Mathlib.Data.Rat.Floor

/-!
# Classification

One pass walks the messages that still lack an answer and applies the precedence chain: a manual
placement, a sender override, the deterministic rules, and Jev for the rest. Every answer is written
over the copy of the message that the pass read before.
-/

namespace MailHub.Classification

open Relational Interleaving

/-! ## Requests -/

/-- The settings that classification reads. -/
structure Settings where
  classificationEnabled : Bool
  /-- In US dollars. -/
  classificationMonthlyCostCapUsd : Option Rat
  backfillClassification : Bool
  deriving DecidableEq, Repr

inductive SenderRelationship
  | knownContact | serviceInUse | bulkSender | unknown
  deriving DecidableEq, Repr

/-- A sender relationship as message metadata stores it. -/
def SenderRelationship.text : SenderRelationship → String
  | knownContact => "known_contact"
  | serviceInUse => "service_in_use"
  | bulkSender => "bulk_sender"
  | unknown => "unknown"

/-- One successful Jev evaluation: its bounded answers, and the probability that it asks for an
action. -/
structure JevDecision where
  classHint : MessageClass
  senderRelationship : SenderRelationship
  asksAction : Bool
  asksReply : Bool
  timeSensitive : Bool
  actionConfidence : Option Rat
  deriving DecidableEq, Repr

/-- How one adapter call failed. -/
inductive JevFailureKind
  | timeout | requestFailed | invalidResponse
  deriving DecidableEq, Repr

/-- One request of classification to the clock, to a generator or to another service. The audit
trail of the model keeps no times, so what the guardrails read from it is a request, too. -/
inductive ClassifyCall
  | now
  /-- The time at which a transaction starts, as the database stamps its rows. -/
  | transactionStart
  | randomUuid
  | readSettings
  /-- The times of the recorded failures after a time, in ascending order. -/
  | failureTimes (since : Time)
  /-- Whether the newest session event marks classification as enabled. -/
  | recordedSession
  /-- When classification was last enabled. -/
  | enabledBoundary
  /-- The messages that were ingested after a time. -/
  | ingestedAfter (boundary : Time)
  /-- Ask Jev the whole question set over one text. -/
  | ask (text : String)
  deriving DecidableEq, Repr

/-- The type of the answer to each request. -/
def ClassifyCall.Answer : ClassifyCall → Type
  | now => Time
  | transactionStart => Instant
  | randomUuid => Uuid
  | readSettings => Settings
  | failureTimes _ => List Time
  | recordedSession => Option Bool
  | enabledBoundary => Option Time
  | ingestedAfter _ => List Uuid
  | ask _ => Except JevFailureKind JevDecision

/-! ## Answers -/

/-- Which precedence level answered for one message; top wins. -/
inductive SuggestionSource
  | manual | «override» | rule | jev
  deriving DecidableEq, Repr

/-- A source as message metadata stores it. -/
def SuggestionSource.text : SuggestionSource → String
  | manual => "manual"
  | «override» => "override"
  | rule => "rule"
  | jev => "jev"

/-- One message as a classification pass read it. -/
structure CandidateRow where
  id : Uuid
  accountId : Uuid
  sender : Option EmailAddress
  subject : Option String
  metadata : Metadata
  deriving DecidableEq, Repr

/-- One message as a correction read it. -/
structure CorrectedRow where
  id : Uuid
  accountId : Uuid
  sender : Option EmailAddress
  classHint : Option MessageClass
  metadata : Metadata
  deriving DecidableEq, Repr

/-- The statements of classification that a specification names. -/
inductive ClassifyTag
  /-- A pass writes its answer for a message. -/
  | answer (candidate : CandidateRow)
  /-- The owner corrects one message. -/
  | correctMessage (row : CorrectedRow) (classHint : Option MessageClass)
  /-- The owner corrects one sender. -/
  | correctSender (accountId : Uuid) (sender : String) (classHint : Option MessageClass)
  /-- Another service commits. -/
  | elsewhere
  deriving DecidableEq, Repr

/-- Classification, as programs on the database. -/
abbrev classifySignature : Signature where
  Store := Database
  Failure := Failure
  Tag := ClassifyTag
  Call := ClassifyCall
  Answer := ClassifyCall.Answer

/-- An operation of classification. -/
abbrev ClassifyProgram := Program classifySignature

namespace ClassifyProgram

variable {α : Type}

/-- A computation that may fail. -/
def lift (r : Except Failure α) : ClassifyProgram α := Program.ofExcept r

/-- Read the database in one statement. -/
def query (f : Database → α) : ClassifyProgram α := Program.read f

/-- Run statements that commit together. -/
def transact (t : Tx α) : ClassifyProgram α := Program.transaction (S := classifySignature) none t

/-- Run statements that commit together under a name. -/
def transactAs (tag : ClassifyTag) (t : Tx α) : ClassifyProgram α :=
  Program.transaction (S := classifySignature) (some tag) t

/-- Send one request and wait for its answer. -/
def ask (c : ClassifyCall) : ClassifyProgram c.Answer :=
  Program.request (S := classifySignature) c

end ClassifyProgram

open ClassifyProgram (lift query transact transactAs ask)

/-- What the classification service is built from. -/
structure ClassificationService where
  /-- The configured recovery generation. -/
  generation : Option Uuid
  /-- Whether a Jev adapter is configured. -/
  adapter : Bool
  /-- Lower case as the database computes it, by its locale. -/
  lower : String → String
  /-- Lower case as the language computes it. -/
  toLowerCase : String → String
  /-- The start of the month of a time, UTC. -/
  monthStart : Time → Time
  /-- The minimized text of a sender, a subject and a body. -/
  minimizeMessageInput : String → Option String → Option String → String
  /-- The text of sanitized HTML. -/
  htmlToText : String → String

/-- Merge one metadata patch without touching keys it does not name. -/
def mergeMetadata (current patch : Metadata) : Metadata :=
  patch ++ current.filter fun entry => (patch.lookup entry.1).isNone

/-- The address of one stored sender, or `none` when unusable. -/
def senderAddressOf (sender : Option EmailAddress) : Option String :=
  (sender.map (·.address)).filter fun address => address ≠ ""

/-- The display name of one stored sender, or `none` when absent. -/
def senderNameOf (sender : Option EmailAddress) : Option String :=
  (sender.bind (·.name)).filter fun name => name ≠ ""

/-! ## Guardrails -/

/-- Failures inside one burst window that trip the breaker. -/
def circuitErrorThreshold : ℕ := 5

/-- The burst window that trips the breaker, in milliseconds. -/
def circuitWindowMs : ℕ := 10 * 60000

/-- How long a tripped breaker stays open after the burst that tripped it. -/
def circuitCooldownMs : ℕ := 30 * 60000

/-- Billed input tokens one call is assumed to cost. -/
def estimatedInputTokensPerCall : Rat := 2000

/-- The vendor-reported rate, in US dollars per million input tokens. -/
def pricePerMillionInputTokensUsd : Rat := 42 / 1000

/-- The estimated cost of one call, in US dollars. -/
def estimatedCostPerCallUsd : Rat :=
  estimatedInputTokensPerCall * pricePerMillionInputTokensUsd / 1000000

/-- How many messages one cycle classifies. -/
def defaultClassifyBatchLimit : ℕ := 25

/-- An amount in whole cents. -/
def roundCents (value : Rat) : Rat := (⌊value * 100 + 1 / 2⌋ : ℤ) / 100

/-- The failures of one window that ends with a failure: those that are not older than the window,
counted from the newest. -/
def burstSize (windowMs : ℕ) (last : Time) (earlier : List Time) : ℕ :=
  1 + (earlier.takeWhile fun t => last - t ≤ windowMs).length

/-- The most failures one span of the window holds, over times from the newest to the oldest. -/
def widestBurstSize (windowMs : ℕ) : List Time → ℕ
  | [] => 0
  | last :: earlier => max (burstSize windowMs last earlier) (widestBurstSize windowMs earlier)

/-- Why the guardrails pause classification. -/
inductive CircuitReason
  | noAdapter | disabled | errors | costCap
  deriving DecidableEq, Repr

/-- Recorded Jev calls since the month began. -/
def countMonthCalls (s : ClassificationService) : ClassifyProgram ℕ := do
  let now ← ask .now
  query fun db => (db.decisions.select fun d => s.monthStart now * 1000 ≤ d.createdAt).length

/-- The failures of the whole cooldown stay readable. -/
def cooldownStart (now : Time) : Time := now - circuitCooldownMs

/-- Both spend guardrails and the breaker, from durable records only. -/
def assessCircuit (s : ClassificationService) (settings : Settings) :
    ClassifyProgram (Option CircuitReason) := do
  if s.adapter = false then
    return some .noAdapter
  if settings.classificationEnabled = false then
    return some .disabled
  let now ← ask .now
  let failureTimes ← ask (.failureTimes (cooldownStart now))
  if circuitErrorThreshold ≤ widestBurstSize circuitWindowMs (failureTimes : List Time).reverse then
    return some .errors
  match settings.classificationMonthlyCostCapUsd with
  | none => return none
  | some cap => do
      let monthCalls ← countMonthCalls s
      if cap ≤ roundCents (monthCalls * estimatedCostPerCallUsd) then
        return some .costCap
      return none

/-! ## One message -/

/-- What classifying one message produced. -/
inductive ClassifyMessageOutcome
  | classified (source : SuggestionSource) (classHint : Option MessageClass)
  | notFound | notReady | alreadyClassified | costCap | circuitOpen
  | failed (kind : JevFailureKind)
  deriving DecidableEq, Repr

/-- Whether the owner moved or archived an occurrence of this message. -/
def hasManualPlacement (messageId : Uuid) (db : Database) : Bool :=
  db.actionItems.rows.any fun item =>
    (item.status == .confirmed) &&
    ((db.actions.find? item.actionId).any fun a => a.kind == .move || a.kind == .archive) &&
    db.messageOccurrences.rows.any fun o =>
      o.id == item.target.occurrenceId && o.messageId == messageId

/-- The order of override rows: the lowercase-canonical one first, then by sender. -/
def overrideBefore (lower : String → String) (a b : SenderOverride) : Bool :=
  if a.sender = lower a.sender then b.sender ≠ lower b.sender || a.sender ≤ b.sender
  else b.sender ≠ lower b.sender && a.sender ≤ b.sender

/-- The owner's class override for one sender, when one is recorded; the class may be absent. -/
def loadSenderOverride (s : ClassificationService) (accountId : Uuid)
    (senderAddress : Option String) (db : Database) : Option (Option MessageClass) := do
  let address ← senderAddress
  let rows := db.senderOverrides.select fun o =>
    o.accountId == accountId && s.lower o.sender == s.toLowerCase address
  let row ← (rows.insertionSort fun a b => overrideBefore s.lower a b).head?
  return row.classHint

/-- Record one answer without Jev: the hint, when there is one, and the metadata that marks the
message answered. -/
def applyAnswer (candidate : CandidateRow) (source : SuggestionSource)
    (classHint : Option MessageClass) (patch : Metadata) : ClassifyProgram Unit :=
  transactAs (.answer candidate) <| modify fun db =>
    { db with
      messages := db.messages.update (fun m => m.id == candidate.id) (fun m =>
        { m with
          classHint := if classHint.isSome then classHint else m.classHint
          metadata := mergeMetadata candidate.metadata
            (patch ++ [("classSource", .text source.text)]) }) fun _ => rfl }

/-- The minimized input for one message, from its stored derivatives only. -/
def buildInput (s : ClassificationService) (candidate : CandidateRow) (db : Database) : String :=
  let bodyText := (db.bodies.find? candidate.id).bind fun body =>
    body.textPlain <|> body.htmlSanitized.map s.htmlToText
  let senderText := match senderAddressOf candidate.sender, senderNameOf candidate.sender with
    | none, _ => ""
    | some address, none => address
    | some address, some name => s!"{name} <{address}>"
  s.minimizeMessageInput senderText candidate.subject bodyText

/-- Store one Jev answer: the decision, and the answers on the message. -/
def commitDecision (candidate : CandidateRow) (decisionId : Uuid) (createdAt : Instant)
    (decision : JevDecision) : Tx Unit := do
  let db ← get
  if (db.messages.find? candidate.id).isNone then
    throw (Failure.constraintViolation "decisions_message_id_messages_id_fk")
  let decisions ← Tx.inserted "decisions_pkey" db.decisions
    ⟨decisionId, candidate.id, decision.actionConfidence, createdAt⟩
  set { db with
    decisions
    messages := db.messages.update (fun m => m.id == candidate.id) (fun m =>
      { m with
        classHint := some decision.classHint
        asksAction := some decision.asksAction
        asksReply := some decision.asksReply
        timeSensitive := some decision.timeSensitive
        metadata := mergeMetadata candidate.metadata
          [("classSource", .text SuggestionSource.jev.text),
            ("senderRelationship", .text decision.senderRelationship.text)] }) fun _ => rfl }

/-- Ask Jev about one message; a failure is one event. -/
def askJev (s : ClassificationService) (candidate : CandidateRow) :
    ClassifyProgram ClassifyMessageOutcome := do
  let input ← query (buildInput s candidate)
  let reply ← (ask (.ask input)).attempt
  match (reply : Except Failure (Except JevFailureKind JevDecision)) with
  | .ok (.ok decision) =>
      let decisionId ← ask .randomUuid
      let createdAt ← ask .transactionStart
      transactAs (.answer candidate) (commitDecision candidate decisionId createdAt decision)
      return .classified .jev (some decision.classHint)
  | .ok (.error kind) =>
      transact (Tx.recordEvent .system "class.error" "message" candidate.id)
      return .failed kind
  | .error _ =>
      transact (Tx.recordEvent .system "class.error" "message" candidate.id)
      return .failed .requestFailed

/-- Precedence for one loaded candidate row. -/
def classifyRow (s : ClassificationService) (candidate : CandidateRow) (settings : Settings)
    (monthCalls : ℕ) : ClassifyProgram ClassifyMessageOutcome := do
  let placed ← query (hasManualPlacement candidate.id)
  if placed then
    applyAnswer candidate .manual none []
    return .classified .manual none
  let address := senderAddressOf candidate.sender
  match ← query (loadSenderOverride s candidate.accountId address) with
  | some classHint =>
      applyAnswer candidate .override classHint []
      return .classified .override classHint
  | none =>
      match matchDeterministicRules s.toLowerCase ⟨address, candidate.subject⟩ with
      | some rule =>
          applyAnswer candidate .rule (some rule.classHint) [("rule", .text rule.rule)]
          return .classified .rule (some rule.classHint)
      | none =>
          if settings.classificationMonthlyCostCapUsd.any fun cap =>
              cap ≤ monthCalls * estimatedCostPerCallUsd then
            return .costCap
          if s.adapter = false then
            return .notReady
          askJev s candidate

/-- One raw row as a candidate. -/
def toCandidate (m : Message) : CandidateRow :=
  ⟨m.id, m.accountId, m.sender, m.subject, m.metadata⟩

/-- Whether one row already carries an answer of any level. -/
def hasAnswer (m : Message) : Bool :=
  m.classHint.isSome || (m.metadata.lookup "classSource").isSome

/-- Whether classification is enabled for the account of a message. -/
def classifyEnabled (db : Database) (m : Message) : Bool :=
  (db.accounts.find? m.accountId).any (·.classifyEnabled)

/-- Classify one message by identifier. -/
def classifyMessage (s : ClassificationService) (messageId : Uuid) :
    ClassifyProgram ClassifyMessageOutcome := do
  let settings ← ask .readSettings
  if (settings : Settings).classificationEnabled = false ∨ s.adapter = false then
    return .notReady
  let assessment ← assessCircuit s settings
  if assessment = some .errors then
    return .circuitOpen
  let row ← query fun db => (db.messages.find? messageId).bind fun m =>
    if (db.accounts.find? m.accountId).isSome then some (m, classifyEnabled db m) else none
  match row with
  | none => return .notFound
  | some (m, enabled) =>
      if hasAnswer m then
        return .alreadyClassified
      if enabled = false ∨ m.fetchedBody = false then
        return .notReady
      let monthCalls ← countMonthCalls s
      classifyRow s (toCandidate m) settings monthCalls

/-! ## One cycle -/

/-- Why a cycle paused or skipped its work. -/
inductive CycleSkipReason
  | notConfigured | disabled | circuitOpen | costCap | noCandidates
  deriving DecidableEq, Repr

/-- What one classification cycle did. -/
structure ClassifyCycleSummary where
  /-- The answers, by the precedence level that gave them. -/
  answered : List SuggestionSource
  skipped : Option CycleSkipReason
  errors : ℕ
  deriving DecidableEq, Repr

/-- The order of the pending set: the newest first, unknown times last. -/
def pendingBefore (a b : Message) : Bool :=
  match a.sentAt, b.sentAt with
  | some x, some y => y < x || (x == y && a.id ≤ b.id)
  | some _, none => true
  | none, some _ => false
  | none, none => a.id ≤ b.id

/-- Messages that still lack an answer, newest first, up to the limit. -/
def listCandidates (eligible : Option (List Uuid)) (limit : ℕ) (db : Database) :
    List CandidateRow :=
  let pending := db.messages.select fun m =>
    m.fetchedBody && classifyEnabled db m && m.classHint.isNone &&
      (m.metadata.text "classSource").isNone &&
      !(db.decisions.rows.any fun d => d.messageId == m.id) &&
      eligible.all fun ids => m.id ∈ ids
  ((pending.insertionSort fun a b => pendingBefore a b).take limit).map toCandidate

/-- Whether the newest session event says it already; only an enabled session is closed. -/
def isRecorded (enabled : Bool) (recorded : Option Bool) : Bool :=
  if enabled then recorded == some true else recorded != some true

/-- Keep the enabled session marker honest: one event for each change. -/
def recordSessionState (enabled : Bool) : ClassifyProgram Unit := do
  let recorded ← ask .recordedSession
  if isRecorded enabled recorded then
    return ()
  transact (modify fun db =>
    { db with events := db.events ++ [⟨.system, "class.session", "", 0⟩] })

/-- Classify the candidates of a cycle; the first adapter failure ends it. -/
def classifyRows (s : ClassificationService) (settings : Settings) :
    List CandidateRow → ℕ → List SuggestionSource → ClassifyProgram ClassifyCycleSummary
  | [], _, answered => return ⟨answered, none, 0⟩
  | candidate :: rest, monthCalls, answered => do
      match ← classifyRow s candidate settings monthCalls with
      | .classified source _ =>
          classifyRows s settings rest (if source = .jev then monthCalls + 1 else monthCalls)
            (answered ++ [source])
      | .failed _ => return ⟨answered, none, 1⟩
      | .costCap => return ⟨answered, some .costCap, 0⟩
      | _ => classifyRows s settings rest monthCalls answered

/-- One bounded classification pass; the guardrails run first. -/
def runCycle (s : ClassificationService) (limit : ℕ) : ClassifyProgram ClassifyCycleSummary := do
  let limit := if limit < 1 then defaultClassifyBatchLimit else limit
  let settings ← ask .readSettings
  if (settings : Settings).classificationEnabled = false then
    recordSessionState false
    return ⟨[], some .disabled, 0⟩
  if s.adapter = false then
    return ⟨[], some .notConfigured, 0⟩
  recordSessionState true
  let assessment ← assessCircuit s settings
  if assessment = some .errors then
    return ⟨[], some .circuitOpen, 0⟩
  let monthCalls ← countMonthCalls s
  if assessment = some .costCap then
    return ⟨[], some .costCap, 0⟩
  let eligible ← eligibleMessages settings
  let candidates ← query (listCandidates eligible limit)
  if candidates = [] then
    return ⟨[], some .noCandidates, 0⟩
  classifyRows s settings candidates monthCalls []
where
  /-- The messages that the backfill gate lets through, when it is closed. -/
  eligibleMessages (settings : Settings) : ClassifyProgram (Option (List Uuid)) := do
    if settings.backfillClassification then
      return none
    let boundary ← ask .enabledBoundary
    match (boundary : Option Time) with
    | none => return none
    | some enabledAt =>
        let ids ← ask (.ingestedAfter enabledAt)
        return some ids

end MailHub.Classification
