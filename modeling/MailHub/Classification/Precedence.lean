import MailHub.Actions.Service
import MailHub.Classification.Corrections
import MailHub.Interleaving.Safety

/-!
# Precedence of answers

A classification and a correction write class and metadata over the copy of the message that they
read before, and Jev may answer minutes later. The owner's answers stand, and no metadata key is
lost, in every run in which each of these writes finds the metadata that its copy holds.
-/

namespace MailHub.Classification

open Relational Interleaving

open ClassifyProgram (lift query transact transactAs ask)

/-! ## The system -/

/-- A transaction that may drop messages and change other columns, but adds no message and leaves
what classification reads of the others alone. -/
def LeavesClasses (db db' : Database) : Prop :=
  ∀ m' ∈ db'.messages, ∃ m ∈ db.messages, m.id = m'.id ∧ m.accountId = m'.accountId ∧
    m.sender = m'.sender ∧ m.classHint = m'.classHint ∧ m.metadata = m'.metadata

/-- One operation. -/
inductive ClassifyOp
  | runCycle (limit : ℕ)
  | classifyMessage (messageId : Uuid)
  | correct (requestGeneration : Option Uuid) (request : CorrectionRequest)
  /-- A mail action confirms a move or stores another disposition. -/
  | dispose (actionId : Uuid) (item : ActionItem) (write : ItemWrite)
  /-- A transaction of another service. -/
  | elsewhere (t : Tx Unit) (ht : ∀ db db', t.run db = .ok ((), db') → LeavesClasses db db')

/-- The program of one operation; its result goes back to the caller. -/
def ClassifyOp.run (s : ClassificationService) : ClassifyOp → ClassifyProgram Unit
  | runCycle limit => do let _ ← Classification.runCycle s limit
  | classifyMessage messageId => do let _ ← Classification.classifyMessage s messageId
  | correct requestGeneration request => do
      let _ ← Classification.correct s requestGeneration request
  | dispose actionId item write => do
      let now ← ask .now
      transactAs .elsewhere (disposeItem actionId item write now)
  | elsewhere t _ => transactAs .elsewhere t

/-- The corrections of the owner so far, the newest first. -/
structure CorrectionLog where
  /-- The message-scope corrections. -/
  answers : List (Uuid × Option MessageClass)
  /-- The sender-scope corrections, by account and lowercase sender. -/
  overrides : List ((Uuid × String) × Option MessageClass)
  deriving DecidableEq, Repr

/-- The log at the start. -/
def CorrectionLog.empty : CorrectionLog := ⟨[], []⟩

/-- The log after a commit. -/
def CorrectionLog.afterCommit (s : ClassificationService) (log : CorrectionLog) :
    Option ClassifyTag → CorrectionLog
  | some (.correctMessage row classHint) =>
      { log with answers := (row.id, classHint) :: log.answers }
  | some (.correctSender accountId sender classHint) =>
      { log with
        overrides := ((accountId, s.toLowerCase sender), classHint) :: log.overrides }
  | _ => log

/-- Classification next to the other services; every statement may meet a database fault. -/
def classifySystem (s : ClassificationService) : System classifySignature CorrectionLog where
  Op := ClassifyOp
  program := ClassifyOp.run s
  Tick := Empty
  advance := fun t => nomatch t
  respond := fun _ _ _ log => some log
  fault := Failure.isDatabaseFault
  observe := fun _ tag _ _ log => log.afterCommit s tag
  observe_read := fun _ _ _ => rfl
  retire := fun _ log => log

/-- The database and the log. -/
abbrev ClassifyWorld := World classifySignature CorrectionLog

/-! ## The property and its condition -/

/-- The source that answered for a message, as its metadata names it. -/
def classSource (m : Message) : Option String := m.metadata.text "classSource"

/-- A message that the owner corrected carries the owner's last answer, and a message of a sender
whom the owner corrected the class of the last correction of that sender, unless it has a manual
answer. -/
structure Precedence (s : ClassificationService) (log : CorrectionLog) (m : Message) : Prop where
  /-- No override, rule or Jev answer replaces the owner's own one. -/
  manual : ∀ classHint, log.answers.lookup m.id = some classHint →
    classSource m = some SuggestionSource.manual.text ∧ m.classHint = classHint
  /-- An override reaches all mail of its sender in the account. -/
  sender : ∀ address classHint, senderAddressOf m.sender = some address →
    log.overrides.lookup (m.accountId, s.toLowerCase address) = some classHint →
    classSource m ≠ some SuggestionSource.manual.text →
      classSource m = some SuggestionSource.override.text ∧ m.classHint = classHint

/-- The precedence of answers holds for every message. -/
def PrecedenceHolds (s : ClassificationService) (w : ClassifyWorld) : Prop :=
  ∀ m ∈ w.store.messages, Precedence s w.outside m

/-- Every message was there before, with each metadata key that it had then. -/
def KeysKept (db db' : Database) : Prop :=
  ∀ m' ∈ db'.messages, ∃ m ∈ db.messages, m.id = m'.id ∧
    ∀ key, (m.metadata.lookup key).isSome → (m'.metadata.lookup key).isSome

/-- An answer and a message-scope correction find the metadata that their writer has read, and a
sender-scope correction finds addresses that the database and the language lowercase alike. -/
def writesCurrent (s : ClassificationService) : Policy classifySignature CorrectionLog where
  commit _ tag w _ :=
    match tag with
    | some (.answer candidate) =>
        ∀ m ∈ w.store.messages, m.id = candidate.id → m.metadata = candidate.metadata
    | some (.correctMessage row _) =>
        ∀ m ∈ w.store.messages, m.id = row.id → m.metadata = row.metadata
    | some (.correctSender accountId sender _) =>
        ∀ m ∈ w.store.messages, m.accountId = accountId → ∀ a, senderAddressOf m.sender = some a →
          (s.lower a = s.toLowerCase sender ↔ s.toLowerCase a = s.toLowerCase sender)
    | _ => True
  call _ _ _ _ := True

/-! ## Metadata -/

/-- A merged entry is the one of the patch, or else the one that was there. -/
theorem lookup_mergeMetadata (current patch : Metadata) (key : String) :
    (mergeMetadata current patch).lookup key = (patch.lookup key).or (current.lookup key) := by
  unfold mergeMetadata
  rw [List.lookup_append]
  cases hpatch : patch.lookup key with
  | some value => rfl
  | none =>
      rw [Option.none_or, Option.none_or]
      induction current with
      | nil => rfl
      | cons entry current ih =>
          obtain ⟨name, value⟩ := entry
          by_cases hkey : key = name
          · subst hkey
            rw [List.filter_cons, if_pos (by simp [hpatch]), List.lookup_cons_self,
              List.lookup_cons_self]
          · have hne : (key == name) = false := by simpa using hkey
            rw [List.lookup_cons, hne, List.filter_cons]
            split
            · rw [List.lookup_cons, hne]
              exact ih
            · exact ih

/-- A merge keeps every key. -/
theorem mergeMetadata_keeps (current patch : Metadata) {key : String}
    (h : (current.lookup key).isSome) : ((mergeMetadata current patch).lookup key).isSome := by
  rw [lookup_mergeMetadata, Option.isSome_or, h, Bool.or_true]

/-- A merge with a source makes it the source. -/
theorem classSource_mergeMetadata {m : Message} {current patch : Metadata}
    {source : SuggestionSource} (hm : m.metadata = mergeMetadata current patch)
    (hpatch : patch.lookup "classSource" = some (.text source.text)) :
    classSource m = some source.text := by
  unfold classSource Metadata.text
  rw [hm, lookup_mergeMetadata, hpatch]
  rfl

/-! ## The discipline -/

variable {s : ClassificationService} {i : ℕ} {α : Type} {w w' : ClassifyWorld}
variable {db db' db'' : Database}

theorem KeysKept.refl (db : Database) : KeysKept db db := fun m hm => ⟨m, hm, rfl, fun _ => id⟩

theorem KeysKept.trans (h₁ : KeysKept db db') (h₂ : KeysKept db' db'') : KeysKept db db'' := by
  intro m'' hm''
  obtain ⟨m', hm', hid', hkeys'⟩ := h₂ m'' hm''
  obtain ⟨m, hm, hid, hkeys⟩ := h₁ m' hm'
  exact ⟨m, hm, hid.trans hid', fun key h => hkeys' key (hkeys key h)⟩

/-- The discipline of classification: the owner's answers stand, and every commit keeps the
metadata keys. -/
def classifyDiscipline (s : ClassificationService) : Discipline (classifySystem s) where
  inv := PrecedenceHolds s
  rely := fun _ _ _ => True
  assumes := writesCurrent s
  ensures := ⟨fun _ _ w w' => KeysKept w.store w'.store, fun _ _ _ _ => True⟩
  rely_refl := fun _ _ => trivial
  rely_trans := fun _ _ _ _ _ _ => trivial
  ensures_read := fun _ w _ => .refl w.store
  inv_tick := fun _ t => nomatch t
  rely_tick := fun _ _ t => nomatch t
  inv_retire := fun _ _ h => h
  rely_retire := fun _ _ _ _ _ => trivial

/-! ## What a commit does to one message -/

/-- Two states of one message. -/
structure SameMessage (m m' : Message) : Prop where
  id : m.id = m'.id
  accountId : m.accountId = m'.accountId
  sender : m.sender = m'.sender

/-- A message with its class and metadata keeps its precedence. -/
theorem Precedence.congr {log : CorrectionLog} {m m' : Message} (h : Precedence s log m)
    (hsame : SameMessage m m') (hclass : m.classHint = m'.classHint)
    (hmetadata : m.metadata = m'.metadata) : Precedence s log m' := by
  have hsource : classSource m = classSource m' := by
    unfold classSource
    rw [hmetadata]
  constructor
  · intro classHint hlookup
    rw [← hsame.id] at hlookup
    rw [← hsource, ← hclass]
    exact h.manual classHint hlookup
  · intro address classHint haddress hlookup
    rw [← hsame.sender] at haddress
    rw [← hsame.accountId] at hlookup
    rw [← hsource, ← hclass]
    exact h.sender address classHint haddress hlookup

/-- No correction is about a message that nothing has answered, whatever answers it now. -/
theorem Precedence.of_unanswered {log : CorrectionLog} {m m' : Message} (h : Precedence s log m)
    (hsame : SameMessage m m') (hsource : classSource m = none) : Precedence s log m' := by
  constructor
  · intro classHint hlookup
    rw [← hsame.id] at hlookup
    have hmanual := (h.manual classHint hlookup).1
    rw [hsource] at hmanual
    simp at hmanual
  · intro address classHint haddress hlookup _
    rw [← hsame.sender] at haddress
    rw [← hsame.accountId] at hlookup
    have hoverride := (h.sender address classHint haddress hlookup (by simp [hsource])).1
    rw [hsource] at hoverride
    simp at hoverride

/-- The message that the owner corrects carries the answer. -/
theorem Precedence.of_answer {log : CorrectionLog} {m : Message} {id : Uuid}
    {classHint : Option MessageClass} (hid : m.id = id)
    (hsource : classSource m = some SuggestionSource.manual.text) (hclass : m.classHint = classHint) :
    Precedence s { log with answers := (id, classHint) :: log.answers } m := by
  constructor
  · intro classHint' hlookup
    rw [hid, List.lookup_cons_self, Option.some.injEq] at hlookup
    exact ⟨hsource, hclass.trans hlookup⟩
  · intro address classHint' _ _ hne
    exact absurd hsource hne

/-- A correction of another message changes nothing. -/
theorem Precedence.of_answer_of_ne {log : CorrectionLog} {m : Message} {id : Uuid}
    {classHint : Option MessageClass} (h : Precedence s log m) (hne : m.id ≠ id) :
    Precedence s { log with answers := (id, classHint) :: log.answers } m := by
  refine ⟨fun classHint' hlookup => h.manual classHint' ?_, h.sender⟩
  have hbeq : (m.id == id) = false := by simpa using hne
  rw [List.lookup_cons, hbeq] at hlookup
  exact hlookup

/-- The sweep of a sender correction gives its messages the new class. -/
theorem Precedence.of_sweep {log : CorrectionLog} {m : Message} {accountId : Uuid}
    {sender : String} {classHint : Option MessageClass} (h : Precedence s log m)
    (hswept : isSwept s accountId sender m = true)
    (hcase : ∀ a, senderAddressOf m.sender = some a →
      s.lower a = s.toLowerCase sender → s.toLowerCase a = s.toLowerCase sender) :
    Precedence s { log with
      overrides := ((accountId, s.toLowerCase sender), classHint) :: log.overrides }
      (sweep classHint m) := by
  unfold isSwept at hswept
  simp only [Bool.and_eq_true, beq_iff_eq, bne_iff_ne] at hswept
  obtain ⟨⟨haccount, hlower⟩, hmanual⟩ := hswept
  have hsource : classSource (sweep classHint m) = some SuggestionSource.override.text :=
    classSource_mergeMetadata (m := sweep classHint m) rfl rfl
  constructor
  · intro classHint' hlookup
    exact absurd (h.manual classHint' hlookup).1 hmanual
  · intro address classHint' haddress hlookup _
    have haddress' : senderAddressOf m.sender = some address := haddress
    have hkey : s.lower address = s.toLowerCase sender := by
      obtain ⟨a, ha, hlow⟩ := (Option.any_eq_true ..).mp hlower
      obtain rfl : a.address = address := by
        unfold senderAddressOf at haddress'
        rw [ha] at haddress'
        simpa using (Option.filter_eq_some_iff.mp haddress').1
      exact beq_iff_eq.mp hlow
    have hlookup' : some classHint = some classHint' := by
      rw [← hlookup]
      change _ = List.lookup (m.accountId, s.toLowerCase address) _
      rw [hcase address haddress' hkey, haccount, List.lookup_cons_self]
    exact ⟨hsource, Option.some.inj hlookup'⟩

/-- A message that the sweep of a sender correction leaves alone is another sender's, or has a
manual answer. -/
theorem Precedence.of_not_swept {log : CorrectionLog} {m : Message} {accountId : Uuid}
    {sender : String} {classHint : Option MessageClass} (h : Precedence s log m)
    (hswept : isSwept s accountId sender m = false)
    (hcase : m.accountId = accountId → ∀ a, senderAddressOf m.sender = some a →
      s.toLowerCase a = s.toLowerCase sender → s.lower a = s.toLowerCase sender) :
    Precedence s { log with
      overrides := ((accountId, s.toLowerCase sender), classHint) :: log.overrides } m := by
  refine ⟨h.manual, fun address classHint' haddress hlookup hmanual => ?_⟩
  by_cases hkey : (m.accountId, s.toLowerCase address) = (accountId, s.toLowerCase sender)
  · obtain ⟨haccount, hlower⟩ := Prod.mk.inj hkey
    have hlow := hcase haccount address haddress hlower
    obtain ⟨a, ha, rfl⟩ : ∃ a, m.sender = some a ∧ a.address = address := by
      unfold senderAddressOf at haddress
      exact Option.map_eq_some_iff.mp (Option.filter_eq_some_iff.mp haddress).1
    have hsource : m.metadata.text "classSource" ≠ some SuggestionSource.manual.text := hmanual
    simp [isSwept, haccount, ha, hlow, hsource] at hswept
  · have hbeq : ((m.accountId, s.toLowerCase address) == (accountId, s.toLowerCase sender)) =
        false := by simpa using hkey
    rw [List.lookup_cons, hbeq] at hlookup
    exact h.sender address classHint' haddress hlookup hmanual

/-! ## Steps -/

/-- A request changes nothing. -/
theorem preserves_ask (c : ClassifyCall) :
    Preserves (classifyDiscipline s) i (fun _ => True) (ask c) := by
  refine ⟨fun w _ => .request fun w' _ hi r o ho _ => ?_⟩
  obtain rfl : w'.outside = o := Option.some.inj ho
  exact ⟨⟨hi, fun _ _ => trivial⟩, trivial, (Preserves.ofExcept .trivial r).safe w' trivial⟩

theorem preserves_query (f : Database → α) :
    Preserves (classifyDiscipline s) i (fun _ => True) (query f) := by
  have hK : Stable (classifyDiscipline s) i fun _ => True := .trivial
  exact .read hK f

/-- A transaction is safe when its commits keep the precedence and the keys. -/
theorem preserves_commit {tag : Option ClassifyTag} {t : Tx α}
    (h : ∀ w : ClassifyWorld, ∀ b db', PrecedenceHolds s w →
      (writesCurrent s).commit i tag w ⟨db', w.outside.afterCommit s tag⟩ →
      t.run w.store = .ok (b, db') →
        PrecedenceHolds s ⟨db', w.outside.afterCommit s tag⟩ ∧ KeysKept w.store db') :
    Preserves (classifyDiscipline s) i (fun _ => True)
      (Program.transaction (S := classifySignature) tag t) := by
  refine ⟨fun w _ => .transaction (fun w' _ hi b db' hrun ha => ?_) fun _ _ _ _ _ => trivial⟩
  obtain ⟨hinv, hkeys⟩ := h w' b db' hi ha hrun
  exact ⟨⟨hinv, fun _ _ => trivial⟩, hkeys, .pure fun _ _ _ => trivial⟩

/-- Another service leaves the classes alone. -/
theorem preserves_leaving {tag : Option ClassifyTag} {t : Tx α}
    (htag : ∀ log : CorrectionLog, log.afterCommit s tag = log)
    (ht : ∀ b db db', t.run db = .ok (b, db') → LeavesClasses db db') :
    Preserves (classifyDiscipline s) i (fun _ => True)
      (Program.transaction (S := classifySignature) tag t) := by
  refine preserves_commit fun w b db' hi _ hrun => ?_
  have hleaves := ht b _ _ hrun
  rw [htag]
  constructor
  · intro m' hm'
    obtain ⟨m, hm, hid, haccount, hsender, hclass, hmetadata⟩ := hleaves m' hm'
    exact (hi m hm).congr ⟨hid, haccount, hsender⟩ hclass hmetadata
  · intro m' hm'
    obtain ⟨m, hm, hid, -, -, -, hmetadata⟩ := hleaves m' hm'
    refine ⟨m, hm, hid, fun key hkey => ?_⟩
    rw [← hmetadata]
    exact hkey

/-- Statements that leave the messages alone. -/
theorem leavesClasses_of_eq (h : db'.messages = db.messages) : LeavesClasses db db' :=
  fun m' hm' => ⟨m', h ▸ hm', rfl, rfl, rfl, rfl, rfl⟩

theorem preserves_record {type entityType : String} {actor : Actor} {id : Uuid} :
    Preserves (classifyDiscipline s) i (fun _ => True)
      (transact (Tx.recordEvent actor type entityType id)) := by
  refine preserves_leaving (fun _ => rfl) fun b db db' hrun => ?_
  obtain rfl : { db with events := db.events ++ [⟨actor, type, entityType, id⟩] } = db' := by
    simpa using hrun
  exact leavesClasses_of_eq rfl

/-! ### Mail actions -/

/-- The statements leave the messages alone. -/
def MessagesKept (db db' : Database) : Prop := db'.messages = db.messages

instance : Std.Refl MessagesKept := ⟨fun _ => rfl⟩

instance : IsTrans Database MessagesKept := ⟨fun _ _ _ h₁ h₂ => Eq.trans h₂ h₁⟩

theorem recordEvent_kept (actor : Actor) (type entityType : String) (id : Uuid) :
    Steps MessagesKept db (Tx.recordEvent actor type entityType id) := .modify rfl

theorem finalizeActionStatus_kept (actionId : Uuid) :
    Steps MessagesKept db (finalizeActionStatus actionId) := by
  refine .get_bind (.ite (fun _ => .set rfl) fun _ => .ite (fun _ => ?_) fun _ => .pure ())
  exact .set_bind rfl (recordEvent_kept ..)

theorem recordObservation_kept (occurrenceId : Uuid) (write : ItemWrite) (now : Time) :
    Steps MessagesKept db (recordObservation occurrenceId write now) := by
  refine .get_bind ?_
  cases findOccurrence occurrenceId db with
  | none => exact .pure ()
  | some current => exact .ite (fun _ => .set rfl) fun _ => .pure ()

/-- A mail action that stores a disposition leaves the messages alone. -/
theorem disposeItem_kept (actionId : Uuid) (item : ActionItem) (write : ItemWrite) (now : Time) :
    Steps MessagesKept db (disposeItem actionId item write now) := by
  have hevent : ∀ db, Steps MessagesKept db (do
      if write.applied then
        Tx.recordEvent .user "action.applied" "occurrence" item.target.occurrenceId
      finalizeActionStatus actionId) := fun db =>
    .ite (fun _ => .bind (recordEvent_kept ..) fun _ _ _ => finalizeActionStatus_kept _)
      fun _ => finalizeActionStatus_kept _
  refine .get_bind (.ite (fun _ => .set_bind rfl ?_) fun _ => .pure ())
  exact .ite (fun _ => .bind (recordObservation_kept ..) fun _ _ _ => hevent _) fun _ => hevent _

/-! ### Answers of a pass -/

/-- What a pass does to the messages: it writes its answer over the copy that it read. -/
def Answers (candidate : CandidateRow) (db db' : Database) : Prop :=
  ∀ m' ∈ db'.messages, ∃ m ∈ db.messages, SameMessage m m' ∧
    ((m.classHint = m'.classHint ∧ m.metadata = m'.metadata) ∨ (m.id = candidate.id ∧
      ∃ patch, m'.metadata = mergeMetadata candidate.metadata patch))

/-- An answer over metadata that names no source, and that is still there, keeps the precedence. -/
theorem preserves_answer {candidate : CandidateRow} {t : Tx α}
    (hcandidate : candidate.metadata.text "classSource" = none)
    (ht : ∀ b db db', t.run db = .ok (b, db') → Answers candidate db db') :
    Preserves (classifyDiscipline s) i (fun _ => True) (transactAs (.answer candidate) t) := by
  refine preserves_commit fun w b db' hi hcurrent hrun => ?_
  have hcopy : ∀ m ∈ w.store.messages, m.id = candidate.id → m.metadata = candidate.metadata :=
    hcurrent
  have hanswers := ht b _ _ hrun
  constructor
  · intro m' hm'
    obtain ⟨m, hm, hsame, ⟨hclass, hmetadata⟩ | ⟨hid, -⟩⟩ := hanswers m' hm'
    · exact (hi m hm).congr hsame hclass hmetadata
    · refine (hi m hm).of_unanswered hsame ?_
      unfold classSource
      rw [hcopy m hm hid]
      exact hcandidate
  · intro m' hm'
    obtain ⟨m, hm, hsame, hrow⟩ := hanswers m' hm'
    refine ⟨m, hm, hsame.id, fun key hkey => ?_⟩
    rcases hrow with ⟨-, hmetadata⟩ | ⟨hid, patch, hpatch⟩
    · rw [← hmetadata]
      exact hkey
    · rw [hpatch]
      rw [hcopy m hm hid] at hkey
      exact mergeMetadata_keeps _ _ hkey

/-- An update of one message that merges into a copy answers it. -/
theorem answers_update {candidate : CandidateRow} {f : Message → Message} {patch : Metadata}
    (hdb : ∀ m' ∈ db'.messages, ∃ m ∈ db.messages,
      (if m.id == candidate.id then f m else m) = m')
    (hsame : ∀ m, SameMessage m (f m))
    (hf : ∀ m, (f m).metadata = mergeMetadata candidate.metadata patch) :
    Answers candidate db db' := by
  intro m' hm'
  obtain ⟨m, hm, rfl⟩ := hdb m' hm'
  refine ⟨m, hm, ?_⟩
  by_cases hid : m.id = candidate.id
  · rw [if_pos (by simpa using hid)]
    exact ⟨hsame m, .inr ⟨hid, patch, hf m⟩⟩
  · rw [if_neg (by simpa using hid)]
    exact ⟨⟨rfl, rfl, rfl⟩, .inl ⟨rfl, rfl⟩⟩

theorem preserves_applyAnswer {candidate : CandidateRow} {source : SuggestionSource}
    {classHint : Option MessageClass} {patch : Metadata}
    (hcandidate : candidate.metadata.text "classSource" = none) :
    Preserves (classifyDiscipline s) i (fun _ => True)
      (applyAnswer candidate source classHint patch) := by
  refine preserves_answer hcandidate fun b db db' hrun => ?_
  obtain rfl : { db with messages := db.messages.update _ _ _ } = db' := by
    simpa using hrun
  exact answers_update (fun _ => List.mem_map.mp) (fun _ => ⟨rfl, rfl, rfl⟩) fun _ => rfl

theorem preserves_commitDecision {candidate : CandidateRow} {decisionId : Uuid}
    {createdAt : Instant} {decision : JevDecision}
    (hcandidate : candidate.metadata.text "classSource" = none) :
    Preserves (classifyDiscipline s) i (fun _ => True)
      (transactAs (.answer candidate) (commitDecision candidate decisionId createdAt decision)) := by
  refine preserves_answer hcandidate fun b db db' hrun => ?_
  have hstep : Steps (Answers candidate) db
      (commitDecision candidate decisionId createdAt decision) := by
    refine .get_bind (.ite (fun _ => .throw_bind) fun _ => ⟨fun b' db₁ h => ?_⟩)
    simp only [StateT.run_bind, bind_eq_ok, Prod.exists] at h
    obtain ⟨decisions, db₂, hins, hset⟩ := h
    obtain ⟨-, rfl⟩ := Tx.inserted_ok.mp hins
    obtain rfl : { db with decisions, messages := db.messages.update _ _ _ } = db₁ := by
      simpa using hset
    exact answers_update (fun _ => List.mem_map.mp) (fun _ => ⟨rfl, rfl, rfl⟩) fun _ => rfl
  exact hstep.step b db' hrun

/-! ### Corrections -/

/-- A message-scope correction gives its message the owner's answer. -/
theorem preserves_correctMessage (row : CorrectedRow) (classHint : Option MessageClass) :
    Preserves (classifyDiscipline s) i (fun _ => True)
      (transactAs (.correctMessage row classHint) (correctMessage row classHint)) := by
  refine preserves_commit fun w b db' hi hcurrent hrun => ?_
  have hcopy : ∀ m ∈ w.store.messages, m.id = row.id → m.metadata = row.metadata := hcurrent
  obtain ⟨-, hdb⟩ : 1 = b ∧ _ = db' := by simpa [correctMessage, recordCorrection] using hrun
  have hmessages : db'.messages = w.store.messages.update (fun m => m.id == row.id)
      (fun m => { m with
        classHint
        metadata := mergeMetadata row.metadata
          [("classSource", .text SuggestionSource.manual.text)] }) fun _ => rfl := by
    rw [← hdb]
  constructor
  · intro m' hm'
    rw [hmessages] at hm'
    obtain ⟨m, hm, rfl⟩ := Table.mem_update.mp hm'
    by_cases hid : m.id = row.id
    · rw [if_pos (by simpa using hid)]
      exact .of_answer hid (classSource_mergeMetadata rfl rfl) rfl
    · rw [if_neg (by simpa using hid)]
      exact (hi m hm).of_answer_of_ne hid
  · intro m' hm'
    rw [hmessages] at hm'
    obtain ⟨m, hm, rfl⟩ := Table.mem_update.mp hm'
    by_cases hid : m.id = row.id
    · rw [if_pos (by simpa using hid)]
      refine ⟨m, hm, rfl, fun key hkey => ?_⟩
      rw [hcopy m hm hid] at hkey
      exact mergeMetadata_keeps _ _ hkey
    · rw [if_neg (by simpa using hid)]
      exact ⟨m, hm, rfl, fun _ => id⟩

/-- A sender-scope correction gives the sender's mail the class of the override. -/
theorem preserves_correctSender (row : CorrectedRow) (sender : String)
    (classHint : Option MessageClass) (note : Option String) :
    Preserves (classifyDiscipline s) i (fun _ => True)
      (transactAs (.correctSender row.accountId sender classHint)
        (correctSender s row sender classHint note)) := by
  refine preserves_commit fun w b db' hi hcurrent hrun => ?_
  have hcase : ∀ m ∈ w.store.messages, m.accountId = row.accountId → ∀ a,
      senderAddressOf m.sender = some a →
        (s.lower a = s.toLowerCase sender ↔ s.toLowerCase a = s.toLowerCase sender) := hcurrent
  obtain ⟨-, hdb⟩ : _ = b ∧ _ = db' := by simpa [correctSender, recordCorrection] using hrun
  have hmessages : db'.messages = w.store.messages.update (isSwept s row.accountId sender)
      (sweep classHint) fun _ => rfl := by
    rw [← hdb]
  constructor
  · intro m' hm'
    rw [hmessages] at hm'
    obtain ⟨m, hm, rfl⟩ := Table.mem_update.mp hm'
    by_cases hswept : isSwept s row.accountId sender m = true
    · rw [if_pos hswept]
      refine (hi m hm).of_sweep hswept fun a ha => (hcase m hm ?_ a ha).mp
      simp only [isSwept, Bool.and_eq_true, beq_iff_eq] at hswept
      exact hswept.1.1
    · rw [if_neg hswept]
      refine (hi m hm).of_not_swept (by simpa using hswept) fun haccount a ha => ?_
      exact (hcase m hm haccount a ha).mpr
  · intro m' hm'
    rw [hmessages] at hm'
    obtain ⟨m, hm, rfl⟩ := Table.mem_update.mp hm'
    by_cases hswept : isSwept s row.accountId sender m = true
    · rw [if_pos hswept]
      exact ⟨m, hm, rfl, fun key hkey => mergeMetadata_keeps _ _ hkey⟩
    · rw [if_neg hswept]
      exact ⟨m, hm, rfl, fun _ => id⟩

/-! ## Operations -/

theorem preserves_applyAndReturn {candidate : CandidateRow} {source : SuggestionSource}
    {classHint : Option MessageClass} {patch : Metadata} (a : α)
    (hcandidate : candidate.metadata.text "classSource" = none) :
    Preserves (classifyDiscipline s) i (fun _ => True) (do
      applyAnswer candidate source classHint patch
      return a) :=
  .bind (preserves_applyAnswer hcandidate) fun _ => .pure .trivial a

theorem preserves_askJev {candidate : CandidateRow}
    (hcandidate : candidate.metadata.text "classSource" = none) :
    Preserves (classifyDiscipline s) i (fun _ => True) (askJev s candidate) := by
  refine .bind (preserves_query _) fun input => ?_
  refine .bind (.attempt .trivial (preserves_ask _)) fun reply => ?_
  split
  · refine .bind (preserves_ask _) fun decisionId => .bind (preserves_ask _) fun createdAt => ?_
    exact .bind (preserves_commitDecision hcandidate) fun _ => .pure .trivial _
  · exact .bind preserves_record fun _ => .pure .trivial _
  · exact .bind preserves_record fun _ => .pure .trivial _

/-- A pass keeps the precedence for a candidate that nothing has answered. -/
theorem preserves_classifyRow {candidate : CandidateRow} (settings : Settings) (monthCalls : ℕ)
    (hcandidate : candidate.metadata.text "classSource" = none) :
    Preserves (classifyDiscipline s) i (fun _ => True)
      (classifyRow s candidate settings monthCalls) := by
  refine .bind (preserves_query _) fun placed => ?_
  refine .ite (fun _ => preserves_applyAndReturn _ hcandidate) fun _ => ?_
  refine .bind (preserves_query _) fun recorded => ?_
  cases recorded with
  | some classHint => exact preserves_applyAndReturn _ hcandidate
  | none =>
      simp only
      split
      · exact preserves_applyAndReturn _ hcandidate
      · refine .ite (fun _ => .pure .trivial _) fun _ => ?_
        exact .ite (fun _ => .pure .trivial _) fun _ => preserves_askJev hcandidate

theorem preserves_countMonthCalls :
    Preserves (classifyDiscipline s) i (fun _ => True) (countMonthCalls s) :=
  .bind (preserves_ask _) fun _ => preserves_query _

theorem preserves_assessCircuit (settings : Settings) :
    Preserves (classifyDiscipline s) i (fun _ => True) (assessCircuit s settings) := by
  refine .ite (fun _ => .pure .trivial _) fun _ => .ite (fun _ => .pure .trivial _) fun _ => ?_
  refine .bind (preserves_ask _) fun now => .bind (preserves_ask _) fun failureTimes => ?_
  refine .ite (fun _ => .pure .trivial _) fun _ => ?_
  split
  · exact .pure .trivial _
  · refine .bind preserves_countMonthCalls fun monthCalls => ?_
    exact .ite (fun _ => .pure .trivial _) fun _ => .pure .trivial _

/-- A message without an answer names no source. -/
theorem classSource_of_not_hasAnswer {m : Message} (h : hasAnswer m = false) :
    m.metadata.text "classSource" = none := by
  unfold hasAnswer at h
  rw [Bool.or_eq_false_iff, Option.isSome_eq_false_iff, Option.isSome_eq_false_iff] at h
  unfold Metadata.text
  rw [Option.isNone_iff_eq_none.mp h.2]

theorem preserves_classifyMessage (messageId : Uuid) :
    Preserves (classifyDiscipline s) i (fun _ => True) (classifyMessage s messageId) := by
  refine .bind (preserves_ask _) fun settings => .ite (fun _ => .pure .trivial _) fun _ => ?_
  refine .bind (preserves_assessCircuit _) fun assessment => ?_
  refine .ite (fun _ => .pure .trivial _) fun _ => .bind (preserves_query _) fun row => ?_
  cases row with
  | none => exact .pure .trivial _
  | some row =>
      obtain ⟨m, enabled⟩ := row
      by_cases hanswer : hasAnswer m = true
      · simp only [if_pos hanswer]
        exact .pure .trivial _
      · simp only [if_neg hanswer]
        refine .ite (fun _ => .pure .trivial _) fun _ => ?_
        refine .bind preserves_countMonthCalls fun monthCalls => ?_
        refine preserves_classifyRow settings monthCalls ?_
        exact classSource_of_not_hasAnswer (by simpa using hanswer)

/-- The candidates of a cycle name no source. -/
theorem classSource_of_listCandidates {eligible : Option (List Uuid)} {limit : ℕ}
    {candidate : CandidateRow} (h : candidate ∈ listCandidates eligible limit db) :
    candidate.metadata.text "classSource" = none := by
  obtain ⟨m, hm, rfl⟩ := List.mem_map.mp h
  have hpending := (List.mem_insertionSort _).mp (List.mem_of_mem_take hm)
  have hcond := (Table.mem_select.mp hpending).2
  simp only [Bool.and_eq_true, Option.isNone_iff_eq_none] at hcond
  exact hcond.1.1.2

theorem preserves_classifyRows (settings : Settings) {candidates : List CandidateRow}
    (hcandidates : ∀ candidate ∈ candidates, candidate.metadata.text "classSource" = none)
    (monthCalls : ℕ) (answered : List SuggestionSource) :
    Preserves (classifyDiscipline s) i (fun _ => True)
      (classifyRows s settings candidates monthCalls answered) := by
  induction candidates generalizing monthCalls answered with
  | nil => exact .pure .trivial _
  | cons candidate rest ih =>
      have hrest := fun n => ih (fun c hc => hcandidates c (List.mem_cons_of_mem _ hc)) n
      refine .bind (preserves_classifyRow settings monthCalls
        (hcandidates candidate List.mem_cons_self)) fun outcome => ?_
      cases outcome with
      | classified source classHint => exact hrest _ _
      | failed kind => exact .pure .trivial _
      | costCap => exact .pure .trivial _
      | notFound | notReady | alreadyClassified | circuitOpen => exact hrest _ _

theorem preserves_recordSessionState (enabled : Bool) :
    Preserves (classifyDiscipline s) i (fun _ => True) (recordSessionState enabled) := by
  refine .bind (preserves_ask _) fun recorded => .ite (fun _ => .pure .trivial _) fun _ => ?_
  refine preserves_leaving (fun _ => rfl) fun b db db' hrun => ?_
  obtain rfl : { db with events := db.events ++ [⟨.system, "class.session", "", 0⟩] } = db' := by
    simpa using hrun
  exact leavesClasses_of_eq rfl

theorem preserves_eligibleMessages (settings : Settings) :
    Preserves (classifyDiscipline s) i (fun _ => True) (runCycle.eligibleMessages settings) := by
  refine .ite (fun _ => .pure .trivial _) fun _ => .bind (preserves_ask _) fun boundary => ?_
  split
  · exact .pure .trivial _
  · exact .bind (preserves_ask _) fun ids => .pure .trivial _

/-- What a query of the database finds is a value of that query. -/
theorem safe_listCandidates {eligible : Option (List Uuid)} {limit : ℕ} :
    Safe (classifyDiscipline s) i (query (listCandidates eligible limit)) w
      (fun candidates _ => ∀ candidate ∈ candidates,
        candidate.metadata.text "classSource" = none) fun _ _ => True := by
  refine .read (fun w' _ _ => .pure fun _ _ _ candidate hc => ?_) fun _ _ _ _ _ => trivial
  exact classSource_of_listCandidates hc

theorem preserves_runCycle (limit : ℕ) :
    Preserves (classifyDiscipline s) i (fun _ => True) (runCycle s limit) := by
  refine .bind (preserves_ask _) fun settings => .ite (fun _ => ?_) fun _ => ?_
  · exact .bind (preserves_recordSessionState _) fun _ => .pure .trivial _
  refine .ite (fun _ => .pure .trivial _) fun _ => ?_
  refine .bind (preserves_recordSessionState _) fun _ => ?_
  refine .bind (preserves_assessCircuit _) fun assessment => ?_
  refine .ite (fun _ => .pure .trivial _) fun _ => .bind preserves_countMonthCalls fun calls => ?_
  refine .ite (fun _ => .pure .trivial _) fun _ => ?_
  refine .bind (preserves_eligibleMessages _) fun eligible => ?_
  refine ⟨fun w _ => .bind (safe_listCandidates.mono (fun candidates w' _ hc => ?_)
    fun _ _ _ h => h)⟩
  refine Preserves.safe (K := fun _ => True) ?_ w' trivial
  exact .ite (fun _ => .pure .trivial _) fun _ => preserves_classifyRows _ hc _ _

theorem preserves_commitCorrection (row : CorrectedRow) (request : CorrectionRequest)
    (sender note : Option String) : Preserves (classifyDiscipline s) i (fun _ => True)
      (commitCorrection s row request sender note) := by
  unfold commitCorrection
  split
  · exact preserves_correctMessage _ _
  · exact preserves_correctSender _ _ _ _
  · exact .bind preserves_record fun _ => .pure .trivial _
  · exact .bind preserves_record fun _ => .pure .trivial _

theorem preserves_correct (requestGeneration : Option Uuid) (request : CorrectionRequest) :
    Preserves (classifyDiscipline s) i (fun _ => True)
      (correct s requestGeneration request) := by
  refine .bind (preserves_query _) fun gate => .bind (.ofExcept .trivial _) fun _ => ?_
  refine .bind (.ofExcept .trivial _) fun note => .bind (preserves_query _) fun row => ?_
  cases row with
  | none => exact .throw .trivial _
  | some row =>
      refine .ite (fun _ => .throw_bind .trivial) fun _ => ?_
      refine .ite (fun _ => .throw_bind .trivial) fun _ => ?_
      exact .bind (preserves_commitCorrection _ _ _ _) fun _ => .pure .trivial _

/-- Every operation keeps the precedence. -/
theorem safe_classifyOp (op : ClassifyOp) (i : ℕ) (w : ClassifyWorld) :
    Safe (classifyDiscipline s) i (op.run s) w (fun _ _ => True) fun _ _ => True := by
  have h : Preserves (classifyDiscipline s) i (fun _ => True) (op.run s) := by
    cases op with
    | runCycle limit => exact .bind (preserves_runCycle limit) fun _ => .pure .trivial _
    | classifyMessage messageId =>
        exact .bind (preserves_classifyMessage messageId) fun _ => .pure .trivial _
    | correct requestGeneration request =>
        exact .bind (preserves_correct requestGeneration request) fun _ => .pure .trivial _
    | dispose actionId item write =>
        refine .bind (preserves_ask _) fun now => preserves_leaving (fun _ => rfl) ?_
        exact fun b db db' hrun => leavesClasses_of_eq ((disposeItem_kept ..).step b db' hrun)
    | elsewhere t ht => exact preserves_leaving (fun _ => rfl) fun _ db db' hrun => ht db db' hrun
  exact h.safe w trivial

/-! ## Runs -/

variable {c₀ c₁ c₂ : Config classifySignature CorrectionLog}

/-- In every run whose writes are current, the precedence of answers holds, and between any two of
its moments no metadata key is lost. -/
theorem answers_kept (hworkers : c₀.workers = []) (hlog : c₀.world.outside = .empty)
    (h₁ : Reaches (classifySystem s) (writesCurrent s) c₀ c₁)
    (h₂ : Reaches (classifySystem s) (writesCurrent s) c₁ c₂) :
    PrecedenceHolds s c₂.world ∧ KeysKept c₁.world.store c₂.world.store := by
  have hsound₀ : c₀.Sound (classifyDiscipline s) := by
    refine ⟨fun m _ => ?_, fun i p hp => ?_⟩
    · rw [hlog]
      exact ⟨fun _ h => by simp [CorrectionLog.empty] at h,
        fun _ _ _ h => by simp [CorrectionLog.empty] at h⟩
    · rw [hworkers] at hp
      simp at hp
  have hreach₁ : Reaches (classifySystem s) (classifyDiscipline s).assumes c₀ c₁ := h₁
  have hreach₂ : Reaches (classifySystem s) (classifyDiscipline s).assumes c₁ c₂ := h₂
  have hsound₁ := hreach₁.sound hsound₀ safe_classifyOp
  refine ⟨(hreach₂.sound hsound₁ safe_classifyOp).inv, ?_⟩
  exact hreach₂.related hsound₁ safe_classifyOp .refl (fun _ _ _ => .trans)
    fun _ _ _ _ hkeys => hkeys

/-! ## A sample -/

/-- The sample service: Jev sees the sender only. -/
def sampleService : ClassificationService where
  generation := some 7
  adapter := true
  lower := toLowerCase
  toLowerCase := toLowerCase
  monthStart := fun _ => 0
  minimizeMessageInput := fun sender _ _ => sender
  htmlToText := fun html => html

/-- A fetched message of a sender. -/
def sampleMessage (id : Uuid) (address : String) : Message :=
  { Message.bare id 1 0 with fetchedBody := true, sender := some ⟨address, none⟩ }

/-- One account with three messages, two of them of one sender. -/
def sampleMail : Database :=
  { Database.empty with
    serviceState := some ⟨7, .ready⟩
    accounts := Table.empty.put ⟨1, [], true⟩
    messages := ((Table.empty.put (sampleMessage 1 "Ann@x.org")).put
      (sampleMessage 2 "ann@x.org")).put (sampleMessage 3 "bob@x.org") }

/-- The sample before any step. -/
def sampleClasses : Config classifySignature CorrectionLog := ⟨⟨sampleMail, .empty⟩, []⟩

/-- Answers in which Jev takes every message for marketing. -/
def sampleReply (id : Uuid) : (c : ClassifyCall) → Except Failure c.Answer
  | .now => .ok (0 : ℕ)
  | .transactionStart => .ok (0 : ℕ)
  | .randomUuid => .ok id
  | .readSettings => .ok (⟨true, none, true⟩ : Settings)
  | .failureTimes _ => .ok ([] : List Time)
  | .recordedSession => .ok (some true)
  | .enabledBoundary => .ok (none : Option Time)
  | .ingestedAfter _ => .ok ([] : List Uuid)
  | .ask _ => .ok (.ok ⟨.marketing, .bulkSender, false, false, false, none⟩)

/-- The sample system. -/
abbrev sampleSystem : System classifySignature CorrectionLog := classifySystem sampleService

/-- Worker `i` classifies a message up to its call of Jev. -/
def sampleAsk (i : ℕ) (id : Uuid) : List (Event sampleSystem) :=
  [.spawn (.classifyMessage id)] ++ List.replicate 3 (.answer i (sampleReply id)) ++
    [.commit i, .answer i (sampleReply id)] ++ List.replicate 4 (.commit i)

/-- Worker `i` stores the answer of Jev. -/
def sampleStore (i : ℕ) (id : Uuid) : List (Event sampleSystem) :=
  List.replicate 3 (.answer i (sampleReply id)) ++ [.commit i]

/-- Worker `i` makes a correction of the owner. -/
def sampleCorrect (i : ℕ) (request : CorrectionRequest) : List (Event sampleSystem) :=
  [.spawn (.correct (some 7) request)] ++ List.replicate 3 (.commit i)

/-- What answered for the messages, the corrections, and whether a step is in flight. -/
structure ClassView where
  messages : List (Uuid × Option String × Option MessageClass)
  log : CorrectionLog
  idle : Bool
  deriving DecidableEq

/-- The view of a pool. -/
def classView (c : Config classifySignature CorrectionLog) : ClassView :=
  ⟨c.world.store.messages.rows.map fun m => (m.id, classSource m, m.classHint), c.world.outside,
    c.workers.all (·.finished)⟩

/-- The owner corrects a message while Jev is asked about it: the answer of Jev replaces the
owner's one, and no step is in flight any more. -/
theorem jev_overwrites : ∃ c, Reaches sampleSystem .free sampleClasses c ∧
    sampleClasses.workers = [] ∧ sampleClasses.world.outside = .empty ∧
      (∀ p ∈ c.workers, p.finished = true) ∧ ¬ PrecedenceHolds sampleService c.world := by
  have h : (sampleClasses.run sampleSystem (sampleAsk 0 1 ++
      sampleCorrect 1 ⟨1, .message, some .correspondence, none⟩ ++ sampleStore 0 1)).map classView =
        some ⟨[(1, some "jev", some .marketing), (2, none, none), (3, none, none)],
          ⟨[(1, some .correspondence)], []⟩, true⟩ := by
    decide +kernel
  obtain ⟨c, hrun, hview⟩ := Option.map_eq_some_iff.mp h
  obtain ⟨hmessages, hlog, hidle⟩ := ClassView.mk.inj hview
  refine ⟨c, .of_run hrun, rfl, rfl, List.all_eq_true.mp hidle, fun hholds => ?_⟩
  obtain ⟨m, hm, hrow⟩ : ∃ m ∈ c.world.store.messages.rows,
      (m.id, classSource m, m.classHint) = (1, some "jev", some MessageClass.marketing) := by
    rw [← List.mem_map, hmessages]
    exact List.mem_cons_self
  obtain ⟨hid, hsource, -⟩ : m.id = 1 ∧ classSource m = some "jev" ∧
      m.classHint = some MessageClass.marketing := by simpa using hrow
  have hmanual := ((hholds m hm).manual (some .correspondence) (by rw [hlog, hid]; rfl)).1
  rw [hsource] at hmanual
  exact absurd hmanual (by decide)

/-! ### A run with current writes -/

/-- Whether an event writes over what its writer has read. -/
def isCurrent (c : Config classifySignature CorrectionLog) : Event sampleSystem → Bool
  | .commit i =>
      match c.standsAt i with
      | some (.answer candidate) => c.world.store.messages.rows.all fun m =>
          m.id ≠ candidate.id || m.metadata = candidate.metadata
      | some (.correctMessage row _) => c.world.store.messages.rows.all fun m =>
          m.id ≠ row.id || m.metadata = row.metadata
      | _ => true
  | _ => true

/-- An event that passes the check meets the policy. -/
theorem writesCurrent_of_isCurrent {c : Config classifySignature CorrectionLog}
    {e : Event sampleSystem} (h : isCurrent c e = true) :
    (writesCurrent sampleService).Meets sampleSystem c e := by
  cases e with
  | commit i =>
      intro β tag f k b db hp _
      have hstands : c.standsAt i = tag := by simp [Config.standsAt, hp]
      simp only [isCurrent, hstands] at h
      match tag with
      | some (.answer candidate) =>
          intro m hm hid
          simpa [hid] using List.all_eq_true.mp h m hm
      | some (.correctMessage row classHint) =>
          intro m hm hid
          simpa [hid] using List.all_eq_true.mp h m hm
      | some (.correctSender accountId sender classHint) => exact fun _ _ _ _ _ => Iff.rfl
      | some .elsewhere | none => trivial
  | answer i r => exact fun _ _ _ _ _ => trivial
  | spawn op | abort i e | stop i | tick t => trivial

/-- A run in which each write comes alone: the owner's answer stands against an override. -/
theorem answers_kept_sample : ∃ c,
    sampleClasses.runChecked sampleSystem isCurrent
      (sampleAsk 0 1 ++ sampleStore 0 1 ++
        sampleCorrect 1 ⟨1, .message, some .correspondence, none⟩ ++
        sampleCorrect 2 ⟨2, .sender, some .receipt, none⟩) = some c ∧
      classView c = ⟨[(1, some "manual", some .correspondence), (2, some "override", some .receipt),
        (3, none, none)], ⟨[(1, some .correspondence)], [((1, "ann@x.org"), some .receipt)]⟩,
        true⟩ ∧
      PrecedenceHolds sampleService c.world ∧
        KeysKept sampleClasses.world.store c.world.store := by
  have h : (sampleClasses.runChecked sampleSystem isCurrent
      (sampleAsk 0 1 ++ sampleStore 0 1 ++
        sampleCorrect 1 ⟨1, .message, some .correspondence, none⟩ ++
        sampleCorrect 2 ⟨2, .sender, some .receipt, none⟩)).map classView =
      some ⟨[(1, some "manual", some .correspondence), (2, some "override", some .receipt),
        (3, none, none)], ⟨[(1, some .correspondence)], [((1, "ann@x.org"), some .receipt)]⟩,
        true⟩ := by
    decide +kernel
  obtain ⟨c, hrun, hview⟩ := Option.map_eq_some_iff.mp h
  have hreach : Reaches sampleSystem (writesCurrent sampleService) sampleClasses c :=
    .of_runChecked (fun _ _ => writesCurrent_of_isCurrent) hrun
  exact ⟨c, hrun, hview, answers_kept rfl rfl .start hreach⟩

end MailHub.Classification
