import MailHub.Interleaving.Outcome
import MailHub.Ordering.Retries
import MailHub.Sync.Bodies

/-!
# Body passes

Each synchronization cycle of an account fetches a bounded number of bodies. The pass takes the
newest messages that still qualify as body jobs and fetches them one after the other; a job that
throws is counted and skipped. Nothing about a failed attempt is kept on the row, so a job that
stays qualified is taken again by the next pass.
-/

namespace MailHub

open Relational Interleaving Ordering

open IngestProgram (query)

/-! ## Pending bodies -/

/-- Conditions that make one occurrence a fetchable body target right now. -/
def pendingBodyConditions (accountId : Uuid) (db : Database) (m : Message)
    (o : MessageOccurrence) : Bool :=
  m.accountId == accountId && !m.fetchedBody && m.bodyFailedAt.isNone && o.isActive &&
    -- only the current folder generation resolves UIDs
    ((db.folders.find? o.folderId).any fun f => f.uidvalidity == some o.uidvalidity) &&
    m.sizeBytes.all (· ≤ maxMessageBytes)

/-- A message with the occurrences that its body can be fetched from. -/
structure BodyCandidate where
  messageId : Uuid
  occurrences : List MessageOccurrence
  deriving DecidableEq, Repr

/-- The date of the newest occurrence. -/
def BodyCandidate.internalDate (c : BodyCandidate) : Time :=
  (c.occurrences.map (·.internalDate)).foldr max 0

/-- The occurrences that the body of a message can be fetched from. -/
def fetchableOccurrences (accountId : Uuid) (db : Database) (m : Message) :
    List MessageOccurrence :=
  db.messageOccurrences.select fun o => o.messageId == m.id && o.accountId == m.accountId &&
    pendingBodyConditions accountId db m o

/-- A message as a body job, if it is one. -/
def candidateOf (accountId : Uuid) (db : Database) (m : Message) : Option BodyCandidate :=
  match fetchableOccurrences accountId db m with
  | [] => none
  | o :: os => some ⟨m.id, o :: os⟩

/-- The messages of an account that are body jobs. -/
def bodyCandidates (accountId : Uuid) (db : Database) : List BodyCandidate :=
  db.messages.rows.filterMap (candidateOf accountId db)

/-- The body jobs of an account, newest first; jobs of one date stand as the table has them. -/
def rankedBodies (accountId : Uuid) (db : Database) : List BodyCandidate :=
  (bodyCandidates accountId db).insertionSort fun a b => b.internalDate ≤ a.internalDate

/-- The pending body jobs of one account, newest first, with one occurrence for each message. -/
def pendingBodies (accountId : Uuid) (limit : ℕ) (db : Database) : List PendingBody :=
  ((rankedBodies accountId db).take limit).filterMap fun c =>
    c.occurrences.head?.map fun o => ⟨c.messageId, o.folderId, o.uid, o.uidvalidity⟩

/-! ## One pass -/

/-- What the body pass of one cycle did; the kinds of the failures are for the log. -/
structure BodyPassSummary where
  bodiesFetched : ℕ
  bodyErrors : ℕ
  deriving DecidableEq, Repr

/-- Count one attempt. -/
def BodyPassSummary.count (summary : BodyPassSummary) :
    Except Failure BodyFetchOutcome → BodyPassSummary
  | .ok (.fetched ..) => { summary with bodiesFetched := summary.bodiesFetched + 1 }
  | .ok _ => summary
  | .error _ => { summary with bodyErrors := summary.bodyErrors + 1 }

/-- The body loop of one account cycle. -/
def bodyPass (s : IngestionService) (accountId : Uuid) (limit : ℕ) :
    IngestProgram BodyPassSummary := do
  if limit = 0 then
    throw (Failure.sync .invalidRequest "The body-fetch limit must be a positive integer.")
  let pending ← query (pendingBodies accountId limit)
  let mut summary : BodyPassSummary := ⟨0, 0⟩
  for job in pending do
    -- one stale job is skipped, not allowed to abort the account cycle
    let outcome ← (fetchBody s accountId job).attempt
    summary := summary.count outcome
  return summary

/-! ## The attempts of a pass -/

/-- One attempt of a body job. -/
structure BodyAttempt where
  messageId : Uuid
  result : Except Failure BodyFetchOutcome

/-- The attempts of some jobs, one after the other, from a database to another one. -/
def Attempts (s : IngestionService) (accountId : Uuid) :
    List PendingBody → Database → List BodyAttempt → Database → Prop
  | [], db, attempts, db' => attempts = [] ∧ db' = db
  | job :: jobs, db, attempts, db' => ∃ result db₁ rest,
      (fetchBody s accountId job).Outcome (.alone ingestSignature) db result db₁ ∧
        attempts = ⟨job.messageId, result⟩ :: rest ∧ Attempts s accountId jobs db₁ rest db'

/-- The attempts of `k` passes with nothing else in between. -/
def Passes (s : IngestionService) (accountId : Uuid) (limit : ℕ) :
    ℕ → Database → List BodyAttempt → Database → Prop
  | 0, db, attempts, db' => attempts = [] ∧ db' = db
  | k + 1, db, attempts, db' => ∃ earlier db₁ last,
      Passes s accountId limit k db earlier db₁ ∧
        Attempts s accountId (pendingBodies accountId limit db₁) db₁ last db' ∧
        attempts = earlier ++ last

variable {s : IngestionService} {accountId : Uuid} {limit : ℕ} {db db' : Database}

/-- The loop of a pass. -/
def fetchBodies (s : IngestionService) (accountId : Uuid) (jobs : List PendingBody)
    (summary : BodyPassSummary) : IngestProgram BodyPassSummary :=
  forIn jobs summary fun job summary => do
    let outcome ← (fetchBody s accountId job).attempt
    pure (.yield (summary.count outcome))

theorem fetchBodies_cons {job : PendingBody} {jobs : List PendingBody}
    {summary : BodyPassSummary} :
    fetchBodies s accountId (job :: jobs) summary =
      (fetchBody s accountId job).attempt.bind fun outcome =>
        fetchBodies s accountId jobs (summary.count outcome) := by
  unfold fetchBodies
  rw [List.forIn_cons]
  exact Program.bind_assoc ..

/-- The loop makes the attempts one after the other and counts them. -/
theorem fetchBodies_outcome_iff {jobs : List PendingBody} {summary : BodyPassSummary}
    {r : Except Failure BodyPassSummary} :
    (fetchBodies s accountId jobs summary).Outcome (.alone ingestSignature) db r db' ↔
      ∃ attempts, Attempts s accountId jobs db attempts db' ∧
        r = .ok ((attempts.map (·.result)).foldl BodyPassSummary.count summary) := by
  induction jobs generalizing db summary with
  | nil =>
      constructor
      · rintro ⟨rfl, rfl⟩
        exact ⟨[], ⟨rfl, rfl⟩, rfl⟩
      · rintro ⟨_, ⟨rfl, rfl⟩, rfl⟩
        exact ⟨rfl, rfl⟩
  | cons job jobs ih =>
      rw [fetchBodies_cons, Program.outcome_bind]
      constructor
      · rintro (⟨_, db₁, hjob, hjobs⟩ | ⟨e, -, hfail⟩)
        · obtain ⟨result, hresult, hjob⟩ := Program.outcome_attempt.mp hjob
          obtain rfl := Except.ok.inj hresult
          obtain ⟨rest, hrest, rfl⟩ := ih.mp hjobs
          exact ⟨_, ⟨_, db₁, rest, hjob, rfl, hrest⟩, rfl⟩
        · obtain ⟨_, he, -⟩ := Program.outcome_attempt.mp hfail
          cases he
      · rintro ⟨_, ⟨result, db₁, rest, hjob, rfl, hrest⟩, rfl⟩
        exact .inl ⟨result, db₁, Program.outcome_attempt.mpr ⟨result, rfl, hjob⟩,
          ih.mpr ⟨rest, hrest, rfl⟩⟩

/-- What one pass comes to with no one else around is what its attempts come to. -/
theorem bodyPass_outcome_iff {r : Except Failure BodyPassSummary} (hlimit : limit ≠ 0) :
    (bodyPass s accountId limit).Outcome (.alone ingestSignature) db r db' ↔
      ∃ attempts, Attempts s accountId (pendingBodies accountId limit db) db attempts db' ∧
        r = .ok ((attempts.map (·.result)).foldl BodyPassSummary.count ⟨0, 0⟩) := by
  have hpass : bodyPass s accountId limit = (query (pendingBodies accountId limit)).bind fun jobs =>
      fetchBodies s accountId jobs ⟨0, 0⟩ := by
    unfold bodyPass fetchBodies
    rw [if_neg hlimit]
    simp only [Program.pure_eq, Program.bind_eq, Program.bind_pure]
  rw [hpass, Program.outcome_bind]
  constructor
  · rintro (⟨_, _, hquery, h⟩ | ⟨e, -, hfail⟩)
    · obtain ⟨hjobs, rfl⟩ := Program.outcome_read_alone.mp hquery
      obtain rfl := Except.ok.inj hjobs
      exact fetchBodies_outcome_iff.mp h
    · cases (Program.outcome_read_alone.mp hfail).1
  · intro h
    exact .inl ⟨_, _, Program.outcome_read_alone.mpr ⟨rfl, rfl⟩, fetchBodies_outcome_iff.mpr h⟩

end MailHub
