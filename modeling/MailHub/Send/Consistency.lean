import MailHub.Send.SentCopy

/-!
# Consistency of drafts and sends

A draft lock and a send status live in two tables. `Consistent` says how they agree: which drafts
are locked, that a locked draft is still what its snapshot froze, and that a snapshot's request
hash describes its frozen links. `Evolves` says what every transaction leaves alone. Both depend on
four tables only, and each way in which a transaction changes these tables keeps them.
-/

namespace MailHub

open Relational

/-! ## The invariant -/

/-- A send without a definitive outcome. -/
def OutboundStatus.isUnresolved : OutboundStatus → Bool
  | queued | sending | outcomeUnknown => true
  | sent | failed => false

/-- What a send takes over from its draft. -/
structure DraftContent where
  accountId : Uuid
  identity : EmailAddress
  threadId : Option Uuid
  replyParentId : Option Uuid
  inReplyTo : Option String
  referenceIds : List String
  recipients : Recipients
  subject : Option String
  markdown : String
  deriving DecidableEq

/-- The content of a draft. -/
def Draft.content (d : Draft) : DraftContent :=
  ⟨d.accountId, d.identity, d.threadId, d.replyParentId, d.inReplyTo, d.referenceIds,
    d.recipients, d.subject, d.markdown⟩

/-- The content that a snapshot froze. -/
def OutboundSnapshot.content (s : OutboundSnapshot) : DraftContent :=
  ⟨s.accountId, s.identity, s.threadId, s.replyParentId, s.inReplyTo, s.referenceIds,
    s.recipients, s.subject, s.markdownSource⟩

/-- The uploads and positions that a snapshot froze, in ordinal order. -/
def frozenPairs (outboundId : Uuid) (db : Database) : List (Uuid × ℕ) :=
  (outboundLinks outboundId db).map fun l => (l.uploadId, l.ordinal)

/-- A draft is what a snapshot was built from. -/
structure FrozenFrom (db : Database) (draft : Draft) (row : OutboundMessage) : Prop where
  /-- The draft is live. -/
  live : draft.deletedAt = none
  /-- No edit has happened since. -/
  revision : draft.revision = row.draftRevision
  /-- The content is the frozen content. -/
  content : draft.content = row.content
  /-- The attachment links are the frozen links. -/
  links : linkPairs (draftLinks draft.id db) = frozenPairs row.id db

/-- A draft is locked by a send: the send is its own and has no definitive outcome. -/
def Holds (db : Database) (draftId outboundId : Uuid) : Prop :=
  ∃ row, db.outboundMessages.find? outboundId = some row ∧ row.draftId = some draftId ∧
    row.status.isUnresolved = true

/-- The key and the revision that a queueing request may carry. -/
structure ValidRequest (idempotencyKey : String) (baseRevision : ℕ) : Prop where
  key : ¬ (textLength idempotencyKey = 0 ∨ maxIdempotencyKeyLength < textLength idempotencyKey)
  revision : ¬ (baseRevision < 1 ∨ maxSafeInteger < baseRevision)

/-- How drafts, sends and their links agree. -/
structure Consistent (libs : Libraries) (db : Database) : Prop where
  /-- A draft is locked by exactly the unresolved sends of its own. -/
  locked_iff : ∀ d draft o, db.drafts.find? d = some draft →
    (draft.lockedBySend = some o ↔ Holds db d o)
  /-- A locked draft is what its snapshot froze. -/
  frozen : ∀ d draft o row, db.drafts.find? d = some draft → draft.lockedBySend = some o →
    db.outboundMessages.find? o = some row → FrozenFrom db draft row
  /-- The request hash of a snapshot describes its frozen links. -/
  hash : ∀ o row d, db.outboundMessages.find? o = some row → row.draftId = some d →
    row.requestHash = hashRequest libs d row.draftRevision (frozenPairs o db)
  /-- One row holds each idempotency key. -/
  key : ∀ o o' row row', db.outboundMessages.find? o = some row →
    db.outboundMessages.find? o' = some row' → row.idempotencyKey = row'.idempotencyKey → o = o'
  /-- Every row was queued by a request that passed its checks. -/
  request : ∀ o row, db.outboundMessages.find? o = some row →
    ValidRequest row.idempotencyKey row.draftRevision
  /-- The draft of a row exists. -/
  owner : ∀ o row d, db.outboundMessages.find? o = some row → row.draftId = some d →
    ∃ draft, db.drafts.find? d = some draft
  /-- Frozen links belong to rows. -/
  link : ∀ l ∈ db.outboundUploads, ∃ row, db.outboundMessages.find? l.outboundId = some row
  /-- Only an accepted send has a Sent copy to store. -/
  copy : ∀ o row, db.outboundMessages.find? o = some row → row.status ≠ .sent →
    row.sentCopyStatus = .pending

/-- What every transaction leaves alone. -/
structure Evolves (db db' : Database) : Prop where
  /-- Rows stay, with what they froze, and none returns to the queue. -/
  row : ∀ o row, db.outboundMessages.find? o = some row →
    ∃ row', db'.outboundMessages.find? o = some row' ∧
      row'.toOutboundSnapshot = row.toOutboundSnapshot ∧
      (row'.status = .queued → row.status = .queued)
  /-- The frozen links of a row stay. -/
  links : ∀ o row, db.outboundMessages.find? o = some row → frozenPairs o db' = frozenPairs o db
  /-- Drafts stay, their revision never falls, and one revision has one content. -/
  draft : ∀ d draft, db.drafts.find? d = some draft →
    ∃ draft', db'.drafts.find? d = some draft' ∧ draft.revision ≤ draft'.revision ∧
      (draft'.revision = draft.revision → draft'.content = draft.content)

/-- No append claim appears. -/
def NoCopyClaim (db db' : Database) : Prop :=
  ∀ o row', db'.outboundMessages.find? o = some row' → row'.sentCopyStatus = .appending →
    ∃ row, db.outboundMessages.find? o = some row ∧ row.sentCopyStatus = .appending

/-- A transaction of another service leaves drafts, sends and their links alone. -/
structure SameMail (db db' : Database) : Prop where
  drafts : db'.drafts = db.drafts
  draftUploads : db'.draftUploads = db.draftUploads
  outboundMessages : db'.outboundMessages = db.outboundMessages
  outboundUploads : db'.outboundUploads = db.outboundUploads

/-- A transaction without a name: it keeps the invariant, leaves alone what must stay, and takes no
append claim. -/
structure MailStep (libs : Libraries) (db db' : Database) : Prop where
  consistent : Consistent libs db'
  evolves : Evolves db db'
  noClaim : NoCopyClaim db db'

/-! ## Transitions -/

theorem Evolves.refl (db : Database) : Evolves db db :=
  ⟨fun _ row h => ⟨row, h, rfl, id⟩, fun _ _ _ => rfl,
    fun _ draft h => ⟨draft, h, le_rfl, fun _ => rfl⟩⟩

theorem Evolves.trans {db₁ db₂ db₃ : Database} (h₁ : Evolves db₁ db₂) (h₂ : Evolves db₂ db₃) :
    Evolves db₁ db₃ := by
  refine ⟨fun o row h => ?_, fun o row h => ?_, fun d draft h => ?_⟩
  · obtain ⟨row₂, hrow₂, hs₂, hq₂⟩ := h₁.row o row h
    obtain ⟨row₃, hrow₃, hs₃, hq₃⟩ := h₂.row o row₂ hrow₂
    exact ⟨row₃, hrow₃, hs₃.trans hs₂, hq₂ ∘ hq₃⟩
  · obtain ⟨row₂, hrow₂, -⟩ := h₁.row o row h
    exact (h₂.links o row₂ hrow₂).trans (h₁.links o row h)
  · obtain ⟨draft₂, hdraft₂, hle₂, hc₂⟩ := h₁.draft d draft h
    obtain ⟨draft₃, hdraft₃, hle₃, hc₃⟩ := h₂.draft d draft₂ hdraft₂
    refine ⟨draft₃, hdraft₃, hle₂.trans hle₃, fun he => ?_⟩
    -- the revision stood still in between
    have hmid : draft₂.revision = draft.revision := le_antisymm (he ▸ hle₃) hle₂
    exact (hc₃ (he.trans hmid.symm)).trans (hc₂ hmid)

/-- Two steps in a row are a step. -/
theorem MailStep.trans {libs : Libraries} {db₁ db₂ db₃ : Database} (h₁ : MailStep libs db₁ db₂)
    (h₂ : MailStep libs db₂ db₃) : MailStep libs db₁ db₃ := by
  refine ⟨h₂.consistent, h₁.evolves.trans h₂.evolves, fun o row₃ h₃ hs => ?_⟩
  obtain ⟨row₂, hrow₂, hs₂⟩ := h₂.noClaim o row₃ h₃ hs
  exact h₁.noClaim o row₂ hrow₂ hs₂

/-- A locked draft has a row that locks it. -/
theorem Consistent.row_of_locked {libs : Libraries} {db : Database} (h : Consistent libs db)
    {d : Uuid} {draft : Draft} {o : Uuid} (hd : db.drafts.find? d = some draft)
    (hl : draft.lockedBySend = some o) :
    ∃ row, db.outboundMessages.find? o = some row ∧ row.draftId = some d ∧
      row.status.isUnresolved = true :=
  (h.locked_iff d draft o hd).mp hl

variable {libs : Libraries} {db db' : Database}

/-- The links of a draft depend on the link table only. -/
theorem draftLinks_congr (h : db'.draftUploads = db.draftUploads) (d : Uuid) :
    draftLinks d db' = draftLinks d db := by
  rw [draftLinks, draftLinks, h]

/-- The frozen links of a row depend on the frozen link table only. -/
theorem frozenPairs_congr (h : db'.outboundUploads = db.outboundUploads) (o : Uuid) :
    frozenPairs o db' = frozenPairs o db := by
  rw [frozenPairs, frozenPairs, outboundLinks, outboundLinks, h]

/-! ### Changes of drafts -/

/-- What a transaction that edits drafts does to the draft `d`. -/
def DraftChange (db db' : Database) (d : Uuid) (draft' : Draft) : Prop :=
  (db.drafts.find? d = none ∧ draft'.lockedBySend = none) ∨
    ∃ draft, db.drafts.find? d = some draft ∧ draft'.lockedBySend = draft.lockedBySend ∧
      (draft.lockedBySend ≠ none → draft' = draft ∧ draftLinks d db' = draftLinks d db) ∧
      draft.revision ≤ draft'.revision ∧
      (draft'.revision = draft.revision → draft'.content = draft.content)

/-- Drafts may be created and unlocked drafts edited. -/
theorem MailStep.of_drafts (h : Consistent libs db)
    (ho : db'.outboundMessages = db.outboundMessages)
    (hu : db'.outboundUploads = db.outboundUploads)
    (hkeep : ∀ d draft, db.drafts.find? d = some draft → ∃ draft', db'.drafts.find? d = some draft')
    (hchange : ∀ d draft', db'.drafts.find? d = some draft' → DraftChange db db' d draft') :
    MailStep libs db db' := by
  have hholds : ∀ d o, Holds db' d o ↔ Holds db d o := fun d o => by rw [Holds, Holds, ho]
  refine ⟨⟨fun d draft' o hd => ?_, fun d draft' o row hd hl hrow => ?_, ?_, ?_, ?_, ?_, ?_, ?_⟩,
    ⟨fun o row hrow => ⟨row, by rw [ho, hrow], rfl, id⟩, fun o _ _ => frozenPairs_congr hu o,
      fun d draft hd => ?_⟩,
    fun o row' hrow hs => ⟨row', by rwa [ho] at hrow, hs⟩⟩
  · rw [hholds]
    rcases hchange d draft' hd with ⟨hnone, hl⟩ | ⟨draft, hd₀, hl, -⟩
    · -- a new draft is nobody's, because every row has a draft
      simp only [hl, reduceCtorEq, false_iff]
      rintro ⟨row, hrow, hrd, -⟩
      obtain ⟨draft, hd₀⟩ := h.owner o row d hrow hrd
      simp [hnone] at hd₀
    · rw [hl]
      exact h.locked_iff d draft o hd₀
  · rcases hchange d draft' hd with ⟨-, hnone⟩ | ⟨draft, hd₀, hl₀, hsame, -⟩
    · simp [hnone] at hl
    · rw [hl₀] at hl
      obtain ⟨rfl, hlinks⟩ := hsame (by simp [hl])
      have hfrozen := h.frozen d draft' o row hd₀ hl (by rwa [ho] at hrow)
      have hid : draft'.id = d := Table.key_of_find? hd₀
      exact ⟨hfrozen.live, hfrozen.revision, hfrozen.content, by
        rw [frozenPairs_congr hu, ← hfrozen.links, hid, hlinks]⟩
  · intro o row d hrow hd
    rw [frozenPairs_congr hu]
    exact h.hash o row d (by rwa [ho] at hrow) hd
  · rw [ho]
    exact h.key
  · rw [ho]
    exact h.request
  · intro o row d hrow hd
    obtain ⟨draft, hd₀⟩ := h.owner o row d (by rwa [ho] at hrow) hd
    exact hkeep d draft hd₀
  · rw [hu, ho]
    exact h.link
  · rw [ho]
    exact h.copy
  · obtain ⟨draft', hd'⟩ := hkeep d draft hd
    rcases hchange d draft' hd' with ⟨hnone, -⟩ | ⟨draft₀, hd₀, -, -, hle, hc⟩
    · simp [hnone] at hd
    · obtain rfl : draft₀ = draft := by simpa [hd₀] using hd
      exact ⟨draft', hd', hle, hc⟩

/-- What other services do keeps everything. -/
theorem MailStep.of_same (h : Consistent libs db) (hs : SameMail db db') : MailStep libs db db' :=
  .of_drafts h hs.outboundMessages hs.outboundUploads
    (fun d draft hd => ⟨draft, by rw [hs.drafts, hd]⟩) fun d draft' hd =>
      .inr ⟨draft', by rwa [hs.drafts] at hd, rfl,
        fun _ => ⟨rfl, draftLinks_congr hs.draftUploads d⟩, le_rfl, fun _ => rfl⟩

/-- What other services do after a step belongs to the step. -/
theorem MailStep.and_same {db₁ : Database} (h : MailStep libs db db₁) (hs : SameMail db₁ db') :
    MailStep libs db db' :=
  h.trans (.of_same h.consistent hs)

/-! ### Changes of rows -/

/-- A draft without the lock of a released send. -/
def unlocked (released : Option Uuid) (d : Draft) : Draft :=
  if d.lockedBySend = released then { d with lockedBySend := none } else d

/-- What a transaction may do to one row when it gives the released send a definitive outcome. -/
structure RowChange (released : Option Uuid) (r r' : OutboundMessage) : Prop where
  /-- What the row froze stays. -/
  snapshot : r'.toOutboundSnapshot = r.toOutboundSnapshot
  /-- The released row has a definitive outcome, every other row has one or lacks one as before. -/
  unresolved : r'.status.isUnresolved = true ↔ some r.id ≠ released ∧ r.status.isUnresolved = true
  /-- The row does not return to the queue. -/
  queue : r'.status = .queued → r.status = .queued
  /-- Only an accepted send has a Sent copy to store. -/
  copy : r'.status ≠ .sent → r'.sentCopyStatus = .pending

theorem unlocked_none (d : Draft) : unlocked none d = d := by
  unfold unlocked
  split
  next h => rw [← h]
  next => rfl

theorem unlocked_eq (released : Option Uuid) (d : Draft) :
    (unlocked released d).revision = d.revision ∧ (unlocked released d).content = d.content ∧
      (unlocked released d).deletedAt = d.deletedAt ∧ (unlocked released d).id = d.id := by
  unfold unlocked
  split <;> exact ⟨rfl, rfl, rfl, rfl⟩

/-- A draft stays locked exactly when its send is not the released one. -/
theorem unlocked_lock {released : Option Uuid} {d : Draft} {o : Uuid} :
    (unlocked released d).lockedBySend = some o ↔
      some o ≠ released ∧ d.lockedBySend = some o := by
  unfold unlocked
  split
  next h => simp only [reduceCtorEq, false_iff, not_and, h]; exact fun hne he => hne he.symm
  next h => exact ⟨fun he => ⟨fun hr => h (he.trans hr), he⟩, And.right⟩

/-- Rows may change their execution record while every lock stays, but for the lock of a released
send. -/
theorem consistent_of_rows (released : Option Uuid) (h : Consistent libs db)
    (hd : ∀ d, db'.drafts.find? d = (db.drafts.find? d).map (unlocked released))
    (hl : db'.draftUploads = db.draftUploads) (hu : db'.outboundUploads = db.outboundUploads)
    {g : OutboundMessage → OutboundMessage}
    (ho : ∀ o, db'.outboundMessages.find? o = (db.outboundMessages.find? o).map g)
    (hg : ∀ o row, db.outboundMessages.find? o = some row → RowChange released row (g row)) :
    Consistent libs db' ∧ Evolves db db' := by
  have hrow : ∀ o row', db'.outboundMessages.find? o = some row' →
      ∃ row, db.outboundMessages.find? o = some row ∧ RowChange released row row' := by
    intro o row' h'
    rw [ho, Option.map_eq_some_iff] at h'
    obtain ⟨row, hrow, rfl⟩ := h'
    exact ⟨row, hrow, hg o row hrow⟩
  have hdraft : ∀ d draft', db'.drafts.find? d = some draft' →
      ∃ draft, db.drafts.find? d = some draft ∧ draft' = unlocked released draft := by
    intro d draft' h'
    rw [hd, Option.map_eq_some_iff] at h'
    obtain ⟨draft, hdraft, rfl⟩ := h'
    exact ⟨draft, hdraft, rfl⟩
  have hkey : ∀ o row, db.outboundMessages.find? o = some row → row.id = o :=
    fun o row h₀ => Table.key_of_find? h₀
  refine ⟨⟨fun d draft' o hd' => ?_, fun d draft' o row' hd' hlock hrow' => ?_,
    fun o row' d hrow' hd' => ?_, fun o o' row₁ row₂ h₁ h₂ hkey => ?_, fun o row' hrow' => ?_,
    fun o row' d hrow' hd' => ?_, fun l hlink => ?_, fun o row' hrow' hs => ?_⟩,
    ⟨fun o row h₀ => ?_, fun o _ _ => frozenPairs_congr hu o, fun d draft h₀ => ?_⟩⟩
  · obtain ⟨draft, hd₀, rfl⟩ := hdraft d draft' hd'
    rw [unlocked_lock, h.locked_iff d draft o hd₀]
    constructor
    · rintro ⟨hne, row, h₀, hrd, hun⟩
      have hr := hg o row h₀
      refine ⟨g row, by rw [ho, h₀, Option.map_some], by rw [hr.snapshot, hrd], ?_⟩
      exact hr.unresolved.mpr ⟨by rwa [hkey o row h₀], hun⟩
    · rintro ⟨row', hrow', hrd, hun⟩
      obtain ⟨row, h₀, hr⟩ := hrow o row' hrow'
      obtain ⟨hne, hun₀⟩ := hr.unresolved.mp hun
      rw [hkey o row h₀] at hne
      exact ⟨hne, row, h₀, by rw [← hr.snapshot, hrd], hun₀⟩
  · obtain ⟨draft, hd₀, rfl⟩ := hdraft d draft' hd'
    obtain ⟨row, h₀, hr⟩ := hrow o row' hrow'
    have hfrozen := h.frozen d draft o row hd₀ (unlocked_lock.mp hlock).2 h₀
    obtain ⟨hrev, hcontent, hdeleted, hid⟩ := unlocked_eq released draft
    refine ⟨hdeleted.trans hfrozen.live, ?_, ?_, ?_⟩
    · rw [hrev, hfrozen.revision, hr.snapshot]
    · rw [hcontent, hfrozen.content, hr.snapshot]
    · rw [hid, draftLinks_congr hl, frozenPairs_congr hu, hfrozen.links, hr.snapshot]
  · obtain ⟨row, h₀, hr⟩ := hrow o row' hrow'
    rw [hr.snapshot] at hd' ⊢
    rw [frozenPairs_congr hu]
    exact h.hash o row d h₀ hd'
  · obtain ⟨r₁, h₁, hr₁⟩ := hrow o row₁ h₁
    obtain ⟨r₂, h₂, hr₂⟩ := hrow o' row₂ h₂
    rw [hr₁.snapshot, hr₂.snapshot] at hkey
    exact h.key o o' r₁ r₂ h₁ h₂ hkey
  · obtain ⟨row, h₀, hr⟩ := hrow o row' hrow'
    rw [hr.snapshot]
    exact h.request o row h₀
  · obtain ⟨row, h₀, hr⟩ := hrow o row' hrow'
    rw [hr.snapshot] at hd'
    obtain ⟨draft, hd₀⟩ := h.owner o row d h₀ hd'
    exact ⟨unlocked released draft, by rw [hd, hd₀, Option.map_some]⟩
  · rw [hu] at hlink
    obtain ⟨row, h₀⟩ := h.link l hlink
    exact ⟨g row, by rw [ho, h₀, Option.map_some]⟩
  · obtain ⟨row, h₀, hr⟩ := hrow o row' hrow'
    exact hr.copy hs
  · have hr := hg o row h₀
    exact ⟨g row, by rw [ho, h₀, Option.map_some], hr.snapshot, hr.queue⟩
  · obtain ⟨hrev, hcontent, -⟩ := unlocked_eq released draft
    exact ⟨unlocked released draft, by rw [hd, h₀, Option.map_some], hrev.ge, fun _ => hcontent⟩

/-- Rows that leave every claim alone take no append claim. -/
theorem noCopyClaim_of_rows {g : OutboundMessage → OutboundMessage}
    (ho : ∀ o, db'.outboundMessages.find? o = (db.outboundMessages.find? o).map g)
    (hg : ∀ row, (g row).sentCopyStatus = .appending → row.sentCopyStatus = .appending) :
    NoCopyClaim db db' := by
  intro o row' h' hs
  rw [ho, Option.map_eq_some_iff] at h'
  obtain ⟨row, h₀, rfl⟩ := h'
  exact ⟨row, h₀, hg row hs⟩

/-! ### A new snapshot -/

/-- A new row that freezes an unlocked draft and locks it. -/
theorem MailStep.of_snapshot (h : Consistent libs db) {row : OutboundMessage} {draft : Draft}
    {pairs : List (Uuid × ℕ)} (hdraft : db.drafts.find? draft.id = some draft)
    (hfree : draft.lockedBySend = none) (hlive : draft.deletedAt = none)
    (hnew : db.outboundMessages.find? row.id = none)
    (hkeys : ∀ o row', db.outboundMessages.find? o = some row' →
      row'.idempotencyKey ≠ row.idempotencyKey)
    (hrequest : ValidRequest row.idempotencyKey row.draftRevision)
    (hrd : row.draftId = some draft.id) (hrev : row.draftRevision = draft.revision)
    (hcontent : row.content = draft.content) (hqueued : row.status = .queued)
    (hcopy : row.sentCopyStatus = .pending)
    (hlinks : linkPairs (draftLinks draft.id db) = pairs)
    (hhash : row.requestHash = hashRequest libs draft.id draft.revision pairs)
    (hd : ∀ d, db'.drafts.find? d = (db.drafts.find? d).map fun x =>
      if x.id = draft.id then { x with lockedBySend := some row.id } else x)
    (hl : db'.draftUploads = db.draftUploads)
    (ho : ∀ o, db'.outboundMessages.find? o =
      if row.id = o then some row else db.outboundMessages.find? o)
    (hu : ∀ o, frozenPairs o db' = if row.id = o then pairs else frozenPairs o db)
    (hlink : ∀ l ∈ db'.outboundUploads, l.outboundId = row.id ∨ l ∈ db.outboundUploads) :
    MailStep libs db db' := by
  have hrow : ∀ o row', db'.outboundMessages.find? o = some row' →
      (row.id = o ∧ row' = row) ∨ (row.id ≠ o ∧ db.outboundMessages.find? o = some row') := by
    intro o row' h'
    rw [ho] at h'
    split at h'
    next he => exact .inl ⟨he, (Option.some.inj h').symm⟩
    next hne => exact .inr ⟨hne, h'⟩
  have hold : ∀ o row', db.outboundMessages.find? o = some row' →
      row.id ≠ o ∧ db'.outboundMessages.find? o = some row' := by
    intro o row' h'
    have hne : row.id ≠ o := by
      rintro rfl
      simp [hnew] at h'
    exact ⟨hne, by rw [ho, if_neg hne, h']⟩
  have hlock : ∀ d draft', db'.drafts.find? d = some draft' →
      (d = draft.id ∧ draft' = { draft with lockedBySend := some row.id }) ∨
        (d ≠ draft.id ∧ db.drafts.find? d = some draft') := by
    intro d draft' h'
    rw [hd, Option.map_eq_some_iff] at h'
    obtain ⟨draft₀, hd₀, rfl⟩ := h'
    have hid : draft₀.id = d := Table.key_of_find? hd₀
    by_cases he : d = draft.id
    · subst he
      obtain rfl : draft = draft₀ := by simpa [hdraft] using hd₀
      exact .inl ⟨rfl, if_pos rfl⟩
    · rw [if_neg (hid.trans_ne he)]
      exact .inr ⟨he, hd₀⟩
  refine ⟨⟨fun d draft' o hd' => ?_, fun d draft' o row' hd' hl' hrow' => ?_,
    fun o row' d hrow' hd' => ?_, fun o o' row₁ row₂ h₁ h₂ hkey => ?_, fun o row' hrow' => ?_,
    fun o row' d hrow' hd' => ?_, fun l hmem => ?_, fun o row' hrow' hs => ?_⟩,
    ⟨fun o row' h₀ => ⟨row', (hold o row' h₀).2, rfl, id⟩,
      fun o row' h₀ => by rw [hu, if_neg (hold o row' h₀).1], fun d draft' h₀ => ?_⟩,
    fun o row' hrow' hs => ?_⟩
  · rcases hlock d draft' hd' with ⟨rfl, rfl⟩ | ⟨hne, hd₀⟩
    · constructor
      · intro he
        obtain rfl : row.id = o := Option.some.inj he
        exact ⟨row, by rw [ho, if_pos rfl], hrd, by rw [hqueued]; rfl⟩
      · rintro ⟨row', hrow', hrd', hun⟩
        rcases hrow o row' hrow' with ⟨he, -⟩ | ⟨-, h₀⟩
        · exact congrArg some he
        · -- the draft was locked by no one
          have hheld := (h.locked_iff draft.id draft o hdraft).mpr ⟨row', h₀, hrd', hun⟩
          simp [hfree] at hheld
    · rw [h.locked_iff d draft' o hd₀]
      constructor
      · rintro ⟨row', h₀, hrd', hun⟩
        exact ⟨row', (hold o row' h₀).2, hrd', hun⟩
      · rintro ⟨row', hrow', hrd', hun⟩
        rcases hrow o row' hrow' with ⟨-, rfl⟩ | ⟨-, h₀⟩
        · exact absurd (Option.some.inj (hrd'.symm.trans hrd)) hne
        · exact ⟨row', h₀, hrd', hun⟩
  · rcases hlock d draft' hd' with ⟨rfl, rfl⟩ | ⟨-, hd₀⟩
    · obtain rfl : row.id = o := Option.some.inj hl'
      rcases hrow _ row' hrow' with ⟨-, rfl⟩ | ⟨hne, -⟩
      · exact ⟨hlive, hrev.symm, hcontent.symm, by
          rw [hu, if_pos rfl, ← hlinks]
          exact congrArg linkPairs (draftLinks_congr hl draft.id)⟩
      · exact absurd rfl hne
    · rcases hrow o row' hrow' with ⟨rfl, -⟩ | ⟨hne, h₀⟩
      · obtain ⟨row₀, h₀, -⟩ := h.row_of_locked hd₀ hl'
        simp [hnew] at h₀
      · have hfrozen := h.frozen d draft' o row' hd₀ hl' h₀
        have hid : row'.id = o := Table.key_of_find? h₀
        exact ⟨hfrozen.live, hfrozen.revision, hfrozen.content, by
          rw [draftLinks_congr hl, hfrozen.links, hu, if_neg (by rwa [hid])]⟩
  · rcases hrow o row' hrow' with ⟨rfl, rfl⟩ | ⟨hne, h₀⟩
    · obtain rfl : draft.id = d := Option.some.inj (hrd.symm.trans hd')
      rw [hu, if_pos rfl, hrev, hhash]
    · rw [hu, if_neg hne]
      exact h.hash o row' d h₀ hd'
  · rcases hrow o row₁ h₁ with ⟨rfl, rfl⟩ | ⟨-, h₁₀⟩ <;>
      rcases hrow o' row₂ h₂ with ⟨rfl, rfl⟩ | ⟨-, h₂₀⟩
    · rfl
    · exact absurd hkey.symm (hkeys o' row₂ h₂₀)
    · exact absurd hkey (hkeys o row₁ h₁₀)
    · exact h.key o o' row₁ row₂ h₁₀ h₂₀ hkey
  · rcases hrow o row' hrow' with ⟨-, rfl⟩ | ⟨-, h₀⟩
    · exact hrequest
    · exact h.request o row' h₀
  · have hexists : ∃ draft₀, db.drafts.find? d = some draft₀ := by
      rcases hrow o row' hrow' with ⟨-, rfl⟩ | ⟨-, h₀⟩
      · obtain rfl : draft.id = d := Option.some.inj (hrd.symm.trans hd')
        exact ⟨draft, hdraft⟩
      · exact h.owner o row' d h₀ hd'
    obtain ⟨draft₀, hd₀⟩ := hexists
    rw [hd, hd₀]
    exact ⟨_, rfl⟩
  · rcases hlink l hmem with he | hmem₀
    · exact ⟨row, by rw [ho, if_pos he.symm]⟩
    · obtain ⟨row', h₀⟩ := h.link l hmem₀
      exact ⟨row', (hold _ row' h₀).2⟩
  · rcases hrow o row' hrow' with ⟨-, rfl⟩ | ⟨-, h₀⟩
    · exact hcopy
    · exact h.copy o row' h₀ hs
  · simp only [hd, h₀, Option.map_some]
    by_cases he : draft'.id = draft.id
    · simp only [if_pos he]
      exact ⟨_, rfl, le_rfl, fun _ => rfl⟩
    · simp only [if_neg he]
      exact ⟨_, rfl, le_rfl, fun _ => rfl⟩
  · rcases hrow o row' hrow' with ⟨-, rfl⟩ | ⟨-, h₀⟩
    · simp [hcopy] at hs
    · exact ⟨row', h₀, hs⟩

end MailHub
