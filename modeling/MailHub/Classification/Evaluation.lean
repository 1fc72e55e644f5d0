import MailHub.Classification.Corrections

/-!
# The evaluation gate

The owner hand-labels a sample of their own mail, and one evaluation measures the stored answers
against the labels. Routing may be enabled only when the set is large enough and holds no critical
false negative: personal or action mail that routing would bundle and that does not break out.
-/

namespace MailHub.Classification

open Relational

/-! ## Labels and measurements -/

/-- The smallest labeled set that may enable routing. -/
def minimumLabeledMessages : ℕ := 100

/-- The action confidence at or above which a bundled message breaks out. -/
def asksActionBreakoutConfidence : Rat := 3 / 4

/-- The classes routing would bundle into Reading. -/
def readingBundleClasses : List MessageClass := [.newsletter, .marketing]

/-- The classes routing would bundle into the Notifications strip. -/
def notificationBundleClasses : List MessageClass := [.notification]

/-- One hand label: the truth for a message the owner read themselves. -/
structure ClassificationLabel where
  messageId : Uuid
  classHint : MessageClass
  /-- Whether the message truly asks the owner to act, when judged. -/
  asksAction : Option Bool
  deriving DecidableEq, Repr

/-- One critical false negative the evaluation found. -/
structure CriticalFalseNegative where
  messageId : Uuid
  sender : Option String
  labeledClassHint : MessageClass
  labeledAsksAction : Bool
  suggestedClassHint : MessageClass
  source : Option SuggestionSource
  deriving DecidableEq, Repr

/-- The correction rate of one sender's labeled mail. -/
structure SenderCorrectionRate where
  sender : String
  labeled : ℕ
  answered : ℕ
  corrections : ℕ
  rate : Rat
  deriving DecidableEq, Repr

/-- Answered labeled mail per precedence level. -/
structure SourceCounts where
  manual : ℕ
  «override» : ℕ
  rule : ℕ
  jev : ℕ
  deriving DecidableEq, Repr

/-- The counts with one more answer of a level. -/
def SourceCounts.add (counts : SourceCounts) : SuggestionSource → SourceCounts
  | .manual => { counts with manual := counts.manual + 1 }
  | .override => { counts with «override» := counts.override + 1 }
  | .rule => { counts with rule := counts.rule + 1 }
  | .jev => { counts with jev := counts.jev + 1 }

/-- The verdict one evaluation produces. -/
structure RoutingGateVerdict where
  /-- True only when routing may run: minimum met and zero critical misses. -/
  passed : Bool
  routingEnabled : Bool
  description : String
  deriving DecidableEq, Repr

/-- The full measurement over one labeled set. -/
structure ClassificationEvaluation where
  labeled : ℕ
  answered : ℕ
  /-- The share of the labeled set that carries an answer. -/
  coverage : Rat
  bySource : SourceCounts
  criticalFalseNegatives : List CriticalFalseNegative
  /-- Per sender, over the labeled set, sorted by corrections descending. -/
  senders : List SenderCorrectionRate
  gate : RoutingGateVerdict
  deriving DecidableEq, Repr

/-- What an evaluation takes from outside the rows of the database. -/
structure Evaluator where
  /-- Lower case as the language computes it. -/
  toLowerCase : String → String
  /-- Whether the locale places a text no later than another. -/
  localeBefore : String → String → Bool
  /-- Decisions in the order in which the database returns them, the newest first. -/
  newestFirst : List Decision → List Decision
  /-- Correction events per sender address, lowercased. -/
  correctionsPerSender : List (String × ℕ)

/-- The database returns the decisions it was asked for, none before a newer one; the order of
decisions of one time is not specified. -/
structure Evaluator.Ordered (e : Evaluator) : Prop where
  perm : ∀ rows, (e.newestFirst rows).Perm rows
  sorted : ∀ rows, (e.newestFirst rows).Pairwise fun a b => b.createdAt ≤ a.createdAt

/-! ## The evaluation -/

/-- Which precedence level answered one row, when one did. -/
def sourceOf (row : Message) : Option SuggestionSource :=
  (stringEntry row.metadata "classSource").bind fun text =>
    suggestionSources.find? fun source => source.text == text

/-- The confidences with the number of one more decision, unless its message has one already. -/
def addConfidence (confidences : List (Uuid × Rat)) (row : Decision) : List (Uuid × Rat) :=
  match row.actionConfidence with
  | none => confidences
  | some confidence =>
      if (confidences.lookup row.messageId).isSome then confidences
      else confidences ++ [(row.messageId, confidence)]

/-- The newest action confidence per message id, when Jev reported one. -/
def readAsksActionConfidences (e : Evaluator) (messageIds : List Uuid) (db : Database) :
    List (Uuid × Rat) :=
  (e.newestFirst (db.decisions.select fun d => d.messageId ∈ messageIds)).foldl addConfidence []

/-- Whether routing would bundle a class. -/
def bundles (suggested : MessageClass) : Bool :=
  suggested ∈ readingBundleClasses || suggested ∈ notificationBundleClasses

/-- Whether a row breaks out of its bundle: a security alert, or an action flagged with high
confidence. -/
def brokeOut (confidences : List (Uuid × Rat)) (row : Message) : Bool :=
  row.classHint == some .securityAlert ||
    (row.asksAction == some true &&
      asksActionBreakoutConfidence ≤ (confidences.lookup row.id).getD 0)

/-- Whether a miss on this label is critical: personal or action mail. -/
def ClassificationLabel.critical (label : ClassificationLabel) : Bool :=
  label.classHint == .correspondence || label.asksAction == some true

/-- The critical false negative of one label, when routing would bundle critical mail. -/
def missOf (confidences : List (Uuid × Rat)) (label : ClassificationLabel) (row : Message) :
    Option CriticalFalseNegative :=
  match row.classHint with
  | none => none
  | some suggested =>
      if label.critical && bundles suggested && !brokeOut confidences row then
        some ⟨row.id, senderAddressOf row.sender, label.classHint, label.asksAction == some true,
          suggested, sourceOf row⟩
      else none

/-- What one sender's labeled mail counts. -/
structure SenderCounts where
  labeled : ℕ
  answered : ℕ
  deriving DecidableEq, Repr

/-- Set the counts of one sender; a sender keeps the place of its first mail. -/
def setCounts (sender : String) (counts : SenderCounts) :
    List (String × SenderCounts) → List (String × SenderCounts)
  | [] => [(sender, counts)]
  | entry :: rest =>
      if entry.1 = sender then (sender, counts) :: rest else entry :: setCounts sender counts rest

/-- What the labels so far add up to. -/
structure EvaluationTally where
  answered : ℕ
  bySource : SourceCounts
  criticalFalseNegatives : List CriticalFalseNegative
  perSender : List (String × SenderCounts)
  deriving DecidableEq, Repr

/-- Measure one label against its row. -/
def measureLabel (e : Evaluator) (confidences : List (Uuid × Rat)) (tally : EvaluationTally)
    (label : ClassificationLabel) (row : Message) : EvaluationTally :=
  let senderKey := ((senderAddressOf row.sender).map e.toLowerCase).getD ""
  let counts := (tally.perSender.lookup senderKey).getD ⟨0, 0⟩
  let counts := { counts with labeled := counts.labeled + 1 }
  let source := sourceOf row
  if row.classHint.isNone && source.isNone then
    { tally with perSender := setCounts senderKey counts tally.perSender }
  else
    let counts := { counts with answered := counts.answered + 1 }
    { answered := tally.answered + 1
      bySource := source.elim tally.bySource tally.bySource.add
      criticalFalseNegatives :=
        tally.criticalFalseNegatives ++ (missOf confidences label row).toList
      perSender := setCounts senderKey counts tally.perSender }

/-- Measure the labels in order; every label has its row. -/
def measureLabels (e : Evaluator) (confidences : List (Uuid × Rat)) (rows : List Message)
    (labels : List ClassificationLabel) : EvaluationTally :=
  labels.foldl (fun tally label =>
    match rows.find? (·.id == label.messageId) with
    | some row => measureLabel e confidences tally label row
    | none => tally) ⟨0, ⟨0, 0, 0, 0⟩, [], []⟩

/-- The correction rates, the most corrected sender first. -/
def correctionRates (e : Evaluator) (perSender : List (String × SenderCounts)) :
    List SenderCorrectionRate :=
  let rates := perSender.map fun (sender, counts) =>
    let corrections := (e.correctionsPerSender.lookup sender).getD 0
    (⟨sender, counts.labeled, counts.answered, corrections,
      if counts.labeled = 0 then 0 else corrections / counts.labeled⟩ : SenderCorrectionRate)
  rates.insertionSort fun a b => b.corrections < a.corrections ∨
    a.corrections = b.corrections ∧ e.localeBefore a.sender b.sender = true

/-- The verdict one measurement produces, before it is recorded. -/
def gateVerdict (labeled criticalFalseNegatives : ℕ) : RoutingGateVerdict :=
  if 0 < criticalFalseNegatives then
    let below :=
      if labeled < minimumLabeledMessages then
        s!" The labeled set also holds fewer than the {minimumLabeledMessages} the gate requires."
      else ""
    ⟨false, false, s!"Routing stays off: {criticalFalseNegatives} critical false negative(s) " ++
      s!"in the labeled set.{below}"⟩
  else if labeled < minimumLabeledMessages then
    ⟨false, false, s!"Routing stays off: the labeled set holds {labeled} message(s), below the " ++
      s!"{minimumLabeledMessages} the gate requires."⟩
  else
    ⟨true, true,
      s!"Routing may be enabled: zero critical false negatives over {labeled} labeled messages."⟩

/-- Measure one labeled set against the stored answers; every label must name a stored message. -/
def evaluateClassification (e : Evaluator) (labels : List ClassificationLabel) (db : Database) :
    Except Failure ClassificationEvaluation :=
  let messageIds := labels.map (·.messageId)
  let rows := db.messages.select fun m => m.id ∈ messageIds
  let missing := labels.filter fun label => !rows.any (·.id == label.messageId)
  if labels = [] then
    .error (.classification .invalidRequest "The labeled set is empty.")
  else match missing with
    | first :: _ =>
        .error (.classification .invalidRequest <|
          s!"{missing.length} label(s) name messages that are not stored, for example " ++
            s!"{first.messageId}.")
    | [] =>
        let tally := measureLabels e (readAsksActionConfidences e messageIds db) rows labels
        .ok {
          labeled := labels.length
          answered := tally.answered
          coverage := tally.answered / labels.length
          bySource := tally.bySource
          criticalFalseNegatives := tally.criticalFalseNegatives
          senders := correctionRates e tally.perSender
          gate := gateVerdict labels.length tally.criticalFalseNegatives.length }

end MailHub.Classification
