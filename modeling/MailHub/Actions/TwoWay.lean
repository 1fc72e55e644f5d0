import MailHub.Actions.Service
import MailHub.Interleaving.Outcome
import MailHub.Interleaving.Transaction

/-!
# The two-way flag and move executor

Every action sets a desired value; none of them toggles a remote value. A flag write carries the
captured modification sequence when it can, and is read back before anything is confirmed; a move
is one request without a fallback. Other clients change the mailbox at any time, the server may
refuse a command, and an answer may be lost after its command took effect.
-/

namespace MailHub.TwoWay

open Interleaving

/-! ## The mailbox of the server -/

/-- The keywords that the tracked flags are stored as. -/
inductive Keyword
  | seen | flagged
  deriving DecidableEq, Repr

/-- One message of the selected folder. -/
structure RemoteMessage where
  uid : ℕ
  seen : Bool
  flagged : Bool
  modseq : ℕ
  deriving DecidableEq, Repr

/-- The message with one keyword added or removed. -/
def RemoteMessage.store (m : RemoteMessage) (keyword : Keyword) (on : Bool) (modseq : ℕ) :
    RemoteMessage :=
  match keyword with
  | .seen => { m with seen := on, modseq }
  | .flagged => { m with flagged := on, modseq }

/-- The flags of a message as a fetch reports them; the modification sequence when the session has
one. -/
def RemoteMessage.flags (m : RemoteMessage) (condstore : Bool) : ActionMailboxFlags :=
  ⟨⟨!m.seen, m.flagged⟩, m.uid, if condstore then some m.modseq else none⟩

/-- How the next command ends. -/
inductive Connection
  | usable
  /-- The server refuses commands. -/
  | refusing
  /-- The client is no longer usable; its command may have been carried out. -/
  | dropped (carriedOut : Bool)
  /-- The command ends with an error; it may have been carried out. -/
  | failing (carriedOut : Bool) (cause : String)
  deriving DecidableEq, Repr

/-- What a command of this session did to a message. -/
inductive Effect
  | stored (before : RemoteMessage) (keyword : Keyword) (on : Bool) (unchangedSince : Option ℕ)
  | moved (before : RemoteMessage) (folder : String)
  deriving DecidableEq, Repr

/-- The selected folder on the server, with the connection to it. -/
structure ServerMailbox where
  messages : List RemoteMessage
  /-- The greatest modification sequence. -/
  highestModseq : ℕ
  /-- Conditional stores are usable on this session. -/
  condstore : Bool
  /-- The server advertises MOVE. -/
  move : Bool
  /-- A folder is selected. -/
  selected : Bool
  connection : Connection
  /-- What the server reports of the next message that it moves. -/
  copyUid : Option (ℕ × ℕ)
  /-- What the commands of this session did, in order. -/
  effects : List Effect
  deriving DecidableEq, Repr

namespace ServerMailbox

/-- The message with a UID. -/
def find (box : ServerMailbox) (uid : ℕ) : Option RemoteMessage :=
  box.messages.find? fun m => m.uid == uid

/-- Store one keyword of one message, unless it changed since. -/
def store (uid : ℕ) (keyword : Keyword) (on : Bool) (unchangedSince : Option ℕ)
    (box : ServerMailbox) : ServerMailbox :=
  match box.find uid with
  | none => box
  | some m =>
      if unchangedSince.all (m.modseq ≤ ·) then
        { box with
          messages := box.messages.map fun x =>
            if x.uid == uid then x.store keyword on (box.highestModseq + 1) else x
          highestModseq := box.highestModseq + 1
          effects := box.effects ++ [.stored m keyword on unchangedSince] }
      else box

/-- Move one message away. -/
def moveAway (uid : ℕ) (folder : String) (box : ServerMailbox) : ServerMailbox :=
  match box.find uid with
  | none => box
  | some m =>
      { box with
        messages := box.messages.filter fun x => x.uid != uid
        effects := box.effects ++ [.moved m folder] }

end ServerMailbox

/-! ## Commands of the client -/

/-- Programs against one mailbox; a failure is the message of its cause. -/
abbrev mailboxSignature : Signature where
  Store := ServerMailbox
  Failure := String
  Tag := Unit
  Call := Empty
  Answer := fun _ => Unit

abbrev MailboxProgram := Program mailboxSignature

/-- How one command ended for the client. -/
inductive CommandEnd (α : Type)
  | done (a : α)
  | refused
  /-- The client gave no answer and is no longer usable. -/
  | dropped
  | failed (cause : String)
  deriving DecidableEq, Repr

/-- One command: what it does to the mailbox, and what a server that takes it answers. -/
def command {α : Type} (effect : ServerMailbox → ServerMailbox) (answer : ServerMailbox → α) :
    MailboxProgram (CommandEnd α) :=
  Program.transaction (S := mailboxSignature) none do
    let box ← get
    match box.connection with
    | .usable =>
        set (effect box)
        return .done (answer box)
    | .refusing => return .refused
    | .dropped carriedOut =>
        if carriedOut then set (effect box)
        return .dropped
    | .failing carriedOut cause =>
        if carriedOut then set (effect box)
        return .failed cause

def look {α : Type} (f : ServerMailbox → α) : MailboxProgram α :=
  Program.read (S := mailboxSignature) f

/-! ## The session -/

/-- The capabilities the two-way write paths consult. -/
structure ActionMailboxCapabilities where
  condstore : Bool
  move : Bool
  deriving DecidableEq, Repr

/-- One explicit flag assignment the mailbox must perform. -/
structure FlagWriteRequest where
  uid : ℕ
  flag : MessageFlag
  value : Bool
  /-- Asks for a conditional write. -/
  unchangedSince : Option ℕ
  deriving DecidableEq, Repr

/-- One move the mailbox must perform. -/
structure MoveWriteRequest where
  uid : ℕ
  destinationFolder : String
  deriving DecidableEq, Repr

/-- The answer of one flag write. -/
inductive FlagWriteResult
  | accepted | rejected
  | uncertain (reason : String)
  deriving DecidableEq, Repr

/-- The answer of one move. -/
inductive MoveWriteResult
  | moved (destination : MoveDestination)
  | rejected
  | uncertain (reason : String)
  deriving DecidableEq, Repr

/-- The wire keyword each tracked flag maps to. -/
def imapFlags : MessageFlag → Keyword
  | .unread => .seen
  | .flagged => .flagged

def capabilities : MailboxProgram ActionMailboxCapabilities :=
  look fun box => ⟨box.condstore, box.move⟩

/-- Flags for specific UIDs of the selected folder. -/
def fetchFlags (uids : List ℕ) : MailboxProgram (List ActionMailboxFlags) := do
  if uids = [] then return []
  else
    match ← command id fun box => (box.messages.filter fun m => uids.contains m.uid).map
        (·.flags box.condstore) with
    | .done flags => return flags
    | .refused | .dropped => throw ""
    | .failed cause => throw cause

/-- Add or remove one keyword. -/
def writeFlag (request : FlagWriteRequest) : MailboxProgram FlagWriteResult := do
  let selected ← look (·.selected)
  if selected = false then throw "No mailbox is selected to write flags to."
  else
    match ← command (ServerMailbox.store request.uid (imapFlags request.flag) request.value
        request.unchangedSince) fun _ => () with
    | .done () => return .accepted
    | .refused => return .rejected
    | .dropped => return .uncertain "The flag write response was lost."
    | .failed cause => return .uncertain cause

/-- Move one message; a UID that is gone moves nothing and is answered all the same. -/
def moveMessage (request : MoveWriteRequest) : MailboxProgram MoveWriteResult := do
  let selected ← look (·.selected)
  if selected = false then throw "No mailbox is selected to move from."
  else
    let move ← look (·.move)
    if move = false then return .rejected
    else
      match ← command (ServerMailbox.moveAway request.uid request.destinationFolder) fun box =>
          (box.find request.uid).bind fun _ => box.copyUid with
      | .done copy =>
          return .moved ⟨request.destinationFolder, copy.map (·.1), copy.map (·.2)⟩
      | .refused => return .rejected
      | .dropped => return .uncertain "The move response was lost."
      | .failed cause => return .uncertain cause

/-! ## The executor -/

/-- A message, or what stands in its place. -/
def messageOf (cause fallback : String) : String := if cause = "" then fallback else cause

/-- Map one thrown write to an unknown outcome. -/
def unknownOf (cause : String) : ExecutorOutcome :=
  .unknown (messageOf cause "The mailbox ended the write without an answer.") none

/-- The receipt of an item that met an error before its write. -/
def failed (code cause : String) : ExecutorOutcome :=
  .failed code (messageOf cause "The mailbox capabilities could not be read.")

/-- The flags of one UID after a write, or nothing when the UID is gone. -/
def readback (uid : ℕ) : MailboxProgram (Option ActionMailboxFlags) := do
  let flags ← fetchFlags [uid]
  return flags.head?

/-- The receipt of a flag write that was read back. -/
def readOutcome (desire : FlagDesire) (conditional accepted : Bool) (flags : ActionMailboxFlags) :
    ExecutorOutcome :=
  if flags.get desire.flag = desire.value then .confirmed flags none
  else if !accepted && !conditional then
    .failed "write_rejected" "The server rejected the flag write."
  -- A plain write that applied and still missed the value raced a later change.
  else if accepted && !conditional then .confirmed flags none
  else .conflicted (if conditional then "condstore_rejected" else "write_rejected") flags

/-- Read the flag back, and decide the receipt. -/
def concludeWrite (item : PreparedActionItem) (desire : FlagDesire) (conditional accepted : Bool) :
    MailboxProgram ExecutorOutcome := do
  match ← (readback item.target.uid).attempt with
  | .error cause =>
      return .unknown ("The " ++ (if accepted then "accepted" else "rejected") ++
        " write could not be read back: " ++ messageOf cause "The connection dropped.")
        (some item.remote)
  | .ok none =>
      return if accepted then
        .unknown "The target left the folder before the write could be read back."
          (some item.remote)
      else .conflicted "absent_remote" item.remote
  | .ok (some flags) => return readOutcome desire conditional accepted flags

/-- One explicit flag assignment, with the readback that decides the receipt. -/
def applyFlags (item : PreparedActionItem) (desire : FlagDesire) (condstore : Bool) :
    MailboxProgram ExecutorOutcome := do
  -- A conditional write needs both a capable session and a captured modification sequence.
  let unchangedSince := if condstore then item.target.modseq else none
  let conditional := unchangedSince.isSome
  match ← (writeFlag ⟨item.target.uid, desire.flag, desire.value, unchangedSince⟩).attempt with
  | .error cause => return unknownOf cause
  | .ok (.uncertain reason) => return .unknown reason none
  | .ok .accepted => concludeWrite item desire conditional true
  | .ok .rejected => concludeWrite item desire conditional false

/-- One move to a frozen destination, `MOVE` only. -/
def applyMove (item : PreparedActionItem) (destinationFolderName : String) (move : Bool) :
    MailboxProgram ExecutorOutcome := do
  if move = false then
    return .failed "move_unsupported"
      "The server does not support MOVE, so move and archive are unavailable."
  else
    match ← (moveMessage ⟨item.target.uid, destinationFolderName⟩).attempt with
    | .error cause => return unknownOf cause
    | .ok (.uncertain reason) => return .unknown reason none
    | .ok .rejected => return .failed "move_rejected" "The server rejected the move."
    | .ok (.moved destination) => return .confirmed item.remote (some destination)

/-- Perform one prepared item on one mailbox. -/
def apply (item : PreparedActionItem) : MailboxProgram ExecutorOutcome := do
  match ← capabilities.attempt with
  | .error cause => return failed "capability_error" cause
  | .ok capabilities =>
      match item.desired with
      | .flags desire => applyFlags item desire capabilities.condstore
      | .move _ destinationFolderName => applyMove item destinationFolderName capabilities.move

/-! ## What the commands of a run do -/

variable {R : ServerMailbox → ServerMailbox → Prop} {box box' : ServerMailbox} {α : Type}

/-- The others change the mailbox as `R` says, and any statement may fail before it begins. -/
def beside (R : ServerMailbox → ServerMailbox → Prop) : Surroundings mailboxSignature where
  rely := R
  takes := fun _ _ => True
  answers := fun _ _ => True
  fault := fun _ => True

/-- What others may do between two commands: they take several steps, and what this session did
stays. -/
structure Others (R : ServerMailbox → ServerMailbox → Prop) : Prop where
  refl : ∀ box, R box box
  trans : ∀ box₁ box₂ box₃, R box₁ box₂ → R box₂ box₃ → R box₁ box₃
  effects : ∀ box box', R box box' → box'.effects = box.effects

/-- How a command ends that meets a mailbox. -/
inductive CommandRuns (effect : ServerMailbox → ServerMailbox) (answer : ServerMailbox → α)
    (box : ServerMailbox) : Except String (CommandEnd α) → ServerMailbox → Prop
  | thrown (cause : String) : CommandRuns effect answer box (.error cause) box
  | done : CommandRuns effect answer box (.ok (.done (answer box))) (effect box)
  | refused : CommandRuns effect answer box (.ok .refused) box
  | dropped (carriedOut : Bool) :
      CommandRuns effect answer box (.ok .dropped) (if carriedOut then effect box else box)
  | failed (carriedOut : Bool) (cause : String) :
      CommandRuns effect answer box (.ok (.failed cause)) (if carriedOut then effect box else box)

/-- A transaction commits where the others have led, or it has no effect. -/
theorem transaction_runs {t : Transaction mailboxSignature α} {r : Except String α}
    (h : (Program.transaction (S := mailboxSignature) none t).Outcome (beside R) box r box') :
    ∃ box₁, R box box₁ ∧ ((∃ a, r = .ok a ∧ t.run box₁ = .ok (a, box')) ∨
      ∃ cause, r = .error cause ∧ box' = box₁) := by
  obtain ⟨x, box₂, hruns, hx⟩ := h
  obtain ⟨rfl, rfl⟩ := Program.outcome_ofExcept.mp hx
  rcases hruns with ⟨hs, -, hf⟩ | ⟨hs, -, hf⟩ | ⟨hs, -⟩
  · exact ⟨_, hs, .inl ⟨_, rfl, hf⟩⟩
  · exact ⟨_, hs, .inr ⟨_, rfl, rfl⟩⟩
  · exact ⟨_, hs, .inr ⟨_, rfl, rfl⟩⟩

theorem command_runs {effect : ServerMailbox → ServerMailbox} {answer : ServerMailbox → α}
    {r : Except String (CommandEnd α)}
    (h : (command effect answer).Outcome (beside R) box r box') :
    ∃ box₁, R box box₁ ∧ CommandRuns effect answer box₁ r box' := by
  obtain ⟨box₁, hs, ⟨a, rfl, hrun⟩ | ⟨cause, rfl, rfl⟩⟩ := transaction_runs h
  · refine ⟨box₁, hs, ?_⟩
    cases hconnection : box₁.connection with
    | usable =>
        obtain ⟨rfl, rfl⟩ : .done (answer box₁) = a ∧ effect box₁ = box' := by
          simpa [hconnection] using hrun
        exact .done
    | refusing =>
        obtain ⟨rfl, rfl⟩ : .refused = a ∧ box₁ = box' := by simpa [hconnection] using hrun
        exact .refused
    | dropped carriedOut =>
        cases carriedOut with
        | true =>
            obtain ⟨rfl, rfl⟩ : .dropped = a ∧ effect box₁ = box' := by
              simpa [hconnection] using hrun
            exact .dropped true
        | false =>
            obtain ⟨rfl, rfl⟩ : .dropped = a ∧ box₁ = box' := by simpa [hconnection] using hrun
            exact .dropped false
    | failing carriedOut cause =>
        cases carriedOut with
        | true =>
            obtain ⟨rfl, rfl⟩ : .failed cause = a ∧ effect box₁ = box' := by
              simpa [hconnection] using hrun
            exact .failed true cause
        | false =>
            obtain ⟨rfl, rfl⟩ : .failed cause = a ∧ box₁ = box' := by
              simpa [hconnection] using hrun
            exact .failed false cause
  · exact ⟨_, hs, .thrown cause⟩

theorem look_runs {f : ServerMailbox → α} {r : Except String α}
    (h : (look f).Outcome (beside R) box r box') :
    R box box' ∧ ((∃ cause, r = .error cause) ∨ r = .ok (f box')) := by
  obtain ⟨x, box₂, hruns, hx⟩ := h
  obtain ⟨rfl, rfl⟩ := Program.outcome_ofExcept.mp hx
  rcases hruns with ⟨hs, -, hf⟩ | ⟨hs, -, hf⟩ | ⟨hs, -⟩
  · obtain ⟨rfl, rfl⟩ := Prod.mk.inj (Except.ok.inj hf)
    exact ⟨hs, .inr rfl⟩
  · exact ⟨hs, .inl ⟨_, rfl⟩⟩
  · exact ⟨hs, .inl ⟨_, rfl⟩⟩

/-- What a flag write stores. -/
def FlagWriteRequest.run (request : FlagWriteRequest) : ServerMailbox → ServerMailbox :=
  ServerMailbox.store request.uid (imapFlags request.flag) request.value request.unchangedSince

/-- How a flag write ends that meets a mailbox. -/
inductive WriteRuns (request : FlagWriteRequest) (box : ServerMailbox) :
    Except String FlagWriteResult → ServerMailbox → Prop
  | thrown (cause : String) : WriteRuns request box (.error cause) box
  | accepted : WriteRuns request box (.ok .accepted) (request.run box)
  | rejected : WriteRuns request box (.ok .rejected) box
  | uncertain (carriedOut : Bool) (reason : String) :
      WriteRuns request box (.ok (.uncertain reason)) (if carriedOut then request.run box else box)

theorem writeFlag_runs (hR : Others R) {request : FlagWriteRequest}
    {r : Except String FlagWriteResult}
    (h : (writeFlag request).Outcome (beside R) box r box') :
    ∃ box₁, R box box₁ ∧ WriteRuns request box₁ r box' := by
  rcases Program.outcome_bind.mp h with ⟨selected, box₁, hlook, h⟩ | ⟨e, rfl, hlook⟩
  · have hs := (look_runs hlook).1
    by_cases hselected : selected = false
    · simp only [if_pos hselected] at h
      obtain ⟨rfl, rfl⟩ := Program.outcome_throw.mp h
      exact ⟨_, hs, .thrown _⟩
    · simp only [if_neg hselected] at h
      rcases Program.outcome_bind.mp h with ⟨answer, box₂, hrun, h⟩ | ⟨e, rfl, hrun⟩
      · obtain ⟨box₃, hs', hrun⟩ := command_runs hrun
        refine ⟨box₃, hR.trans _ _ _ hs hs', ?_⟩
        cases hrun with
        | done =>
            obtain ⟨rfl, rfl⟩ := Program.outcome_pure.mp h
            exact .accepted
        | refused =>
            obtain ⟨rfl, rfl⟩ := Program.outcome_pure.mp h
            exact .rejected
        | dropped carriedOut =>
            obtain ⟨rfl, rfl⟩ := Program.outcome_pure.mp h
            exact .uncertain carriedOut _
        | failed carriedOut cause =>
            obtain ⟨rfl, rfl⟩ := Program.outcome_pure.mp h
            exact .uncertain carriedOut _
      · obtain ⟨box₃, hs', hrun⟩ := command_runs hrun
        cases hrun with
        | thrown => exact ⟨_, hR.trans _ _ _ hs hs', .thrown _⟩
  · exact ⟨_, (look_runs hlook).1, .thrown e⟩

/-- How a move ends that meets a mailbox. -/
inductive MoveRuns (request : MoveWriteRequest) (box : ServerMailbox) :
    Except String MoveWriteResult → ServerMailbox → Prop
  | thrown (cause : String) : MoveRuns request box (.error cause) box
  | moved (destination : MoveDestination) (hfolder : destination.folder = request.destinationFolder)
      (huid : destination.uid.isSome → (box.find request.uid).isSome) :
      MoveRuns request box (.ok (.moved destination))
        (ServerMailbox.moveAway request.uid request.destinationFolder box)
  | rejected : MoveRuns request box (.ok .rejected) box
  | uncertain (carriedOut : Bool) (reason : String) :
      MoveRuns request box (.ok (.uncertain reason)) (if carriedOut then
        ServerMailbox.moveAway request.uid request.destinationFolder box else box)

theorem moveMessage_runs (hR : Others R) {request : MoveWriteRequest}
    {r : Except String MoveWriteResult}
    (h : (moveMessage request).Outcome (beside R) box r box') :
    ∃ box₁, R box box₁ ∧ MoveRuns request box₁ r box' := by
  rcases Program.outcome_bind.mp h with ⟨selected, box₁, hlook, h⟩ | ⟨e, rfl, hlook⟩
  · have hs := (look_runs hlook).1
    by_cases hselected : selected = false
    · simp only [if_pos hselected] at h
      obtain ⟨rfl, rfl⟩ := Program.outcome_throw.mp h
      exact ⟨_, hs, .thrown _⟩
    simp only [if_neg hselected] at h
    rcases Program.outcome_bind.mp h with ⟨move, box₂, hlook, h⟩ | ⟨e, rfl, hlook⟩
    · have hs₂ := hR.trans _ _ _ hs (look_runs hlook).1
      by_cases hmove : move = false
      · simp only [if_pos hmove] at h
        obtain ⟨rfl, rfl⟩ := Program.outcome_pure.mp h
        exact ⟨_, hs₂, .rejected⟩
      simp only [if_neg hmove] at h
      rcases Program.outcome_bind.mp h with ⟨answer, box₃, hrun, h⟩ | ⟨e, rfl, hrun⟩
      · obtain ⟨box₄, hs', hrun⟩ := command_runs hrun
        refine ⟨box₄, hR.trans _ _ _ hs₂ hs', ?_⟩
        cases hrun with
        | done =>
            obtain ⟨rfl, rfl⟩ := Program.outcome_pure.mp h
            refine .moved _ rfl fun huid => ?_
            cases hfind : box₄.find request.uid with
            | none => simp [hfind] at huid
            | some m => rfl
        | refused =>
            obtain ⟨rfl, rfl⟩ := Program.outcome_pure.mp h
            exact .rejected
        | dropped carriedOut =>
            obtain ⟨rfl, rfl⟩ := Program.outcome_pure.mp h
            exact .uncertain carriedOut _
        | failed carriedOut cause =>
            obtain ⟨rfl, rfl⟩ := Program.outcome_pure.mp h
            exact .uncertain carriedOut _
      · obtain ⟨box₄, hs', hrun⟩ := command_runs hrun
        cases hrun with
        | thrown => exact ⟨_, hR.trans _ _ _ hs₂ hs', .thrown _⟩
    · exact ⟨_, hR.trans _ _ _ hs (look_runs hlook).1, .thrown e⟩
  · exact ⟨_, (look_runs hlook).1, .thrown e⟩

/-- A readback gives the flags that the server holds when it answers. -/
theorem readback_runs {uid : ℕ} {r : Except String (Option ActionMailboxFlags)}
    (h : (readback uid).Outcome (beside R) box r box') :
    R box box' ∧ ((∃ cause, r = .error cause) ∨
      r = .ok ((box'.find uid).map (·.flags box'.condstore))) := by
  have hfetch : ∀ {r : Except String (List ActionMailboxFlags)} {box' : ServerMailbox},
      (fetchFlags [uid]).Outcome (beside R) box r box' → R box box' ∧
        ((∃ cause, r = .error cause) ∨ r = .ok ((box'.messages.filter fun m =>
          [uid].contains m.uid).map (·.flags box'.condstore))) := by
    intro r box' h
    unfold fetchFlags at h
    rw [if_neg (List.cons_ne_nil _ _)] at h
    rcases Program.outcome_bind.mp h with ⟨answer, box₁, hrun, h⟩ | ⟨e, rfl, hrun⟩
    · obtain ⟨box₂, hs, hrun⟩ := command_runs hrun
      cases hrun with
      | done =>
          obtain ⟨rfl, rfl⟩ := Program.outcome_pure.mp h
          exact ⟨hs, .inr rfl⟩
      | refused =>
          obtain ⟨rfl, rfl⟩ := Program.outcome_throw.mp h
          exact ⟨hs, .inl ⟨_, rfl⟩⟩
      | dropped carriedOut =>
          obtain ⟨rfl, rfl⟩ := Program.outcome_throw.mp h
          exact ⟨by simpa using hs, .inl ⟨_, rfl⟩⟩
      | failed carriedOut cause =>
          obtain ⟨rfl, rfl⟩ := Program.outcome_throw.mp h
          exact ⟨by simpa using hs, .inl ⟨_, rfl⟩⟩
    · obtain ⟨box₂, hs, hrun⟩ := command_runs hrun
      cases hrun with
      | thrown cause => exact ⟨hs, .inl ⟨_, rfl⟩⟩
  rcases Program.outcome_bind.mp h with ⟨flags, box₁, hrun, h⟩ | ⟨e, rfl, hrun⟩
  · obtain ⟨rfl, rfl⟩ := Program.outcome_pure.mp h
    obtain ⟨hs, hcase⟩ := hfetch hrun
    refine ⟨hs, .inr ?_⟩
    rcases hcase with ⟨cause, hc⟩ | hc
    · cases hc
    · obtain rfl := Except.ok.inj hc
      have hsame : (fun m : RemoteMessage => [uid].contains m.uid) = fun m => m.uid == uid := by
        funext m
        rw [Bool.eq_iff_iff]
        simp
      rw [hsame, List.head?_map, List.head?_filter]
      rfl
  · exact ⟨(hfetch hrun).1, .inl ⟨e, rfl⟩⟩

/-! ## What a run of one item does -/

variable {item : PreparedActionItem} {desire : FlagDesire} {r : Except String ExecutorOutcome}

/-- What the readback makes of a flag write: the outcome is unknown, the target is gone, or the
flags that were read decide. -/
inductive Concluded (item : PreparedActionItem) (desire : FlagDesire) (conditional accepted : Bool)
    (box : ServerMailbox) : ExecutorOutcome → Prop
  | unknown (reason : String) :
      Concluded item desire conditional accepted box (.unknown reason (some item.remote))
  | gone (hrejected : accepted = false) (hgone : box.find item.target.uid = none) :
      Concluded item desire conditional accepted box (.conflicted "absent_remote" item.remote)
  | read (m : RemoteMessage) (hread : box.find item.target.uid = some m) :
      Concluded item desire conditional accepted box
        (readOutcome desire conditional accepted (m.flags box.condstore))

theorem concludeWrite_runs {conditional accepted : Bool}
    (h : (concludeWrite item desire conditional accepted).Outcome (beside R) box r box') :
    R box box' ∧ ∃ outcome, r = .ok outcome ∧
      Concluded item desire conditional accepted box' outcome := by
  rcases Program.outcome_bind.mp h with ⟨answer, box₁, hrun, h⟩ | ⟨e, rfl, hrun⟩
  · obtain ⟨x, hx, hrun⟩ := Program.outcome_attempt.mp hrun
    obtain rfl := Except.ok.inj hx
    obtain ⟨hs, ⟨cause, rfl⟩ | rfl⟩ := readback_runs hrun
    · obtain ⟨rfl, rfl⟩ := Program.outcome_pure.mp h
      exact ⟨hs, _, rfl, .unknown _⟩
    · cases hfind : box₁.find item.target.uid with
      | none =>
          rw [hfind] at h
          obtain ⟨rfl, rfl⟩ := Program.outcome_pure.mp h
          refine ⟨hs, _, rfl, ?_⟩
          cases accepted with
          | true => exact .unknown _
          | false => exact .gone rfl hfind
      | some m =>
          rw [hfind] at h
          obtain ⟨rfl, rfl⟩ := Program.outcome_pure.mp h
          exact ⟨hs, _, rfl, .read m hfind⟩
  · obtain ⟨x, hx, -⟩ := Program.outcome_attempt.mp hrun
    cases hx

/-- The write of one flag item. -/
def flagRequest (item : PreparedActionItem) (desire : FlagDesire) (since : Option ℕ) :
    FlagWriteRequest := ⟨item.target.uid, desire.flag, desire.value, since⟩

/-- What a run of a flag item does: it stores once or not at all, and its receipt says what the
readback found. -/
inductive FlagRun (item : PreparedActionItem) (desire : FlagDesire) (since : Option ℕ)
    (box₁ box₂ box' : ServerMailbox) : ExecutorOutcome → Prop
  | unknown (reason : String) (observed : Option ActionMailboxFlags)
      (hwrite : box₂ = box₁ ∨ box₂ = (flagRequest item desire since).run box₁) :
      FlagRun item desire since box₁ box₂ box' (.unknown reason observed)
  | concluded (accepted : Bool) {outcome : ExecutorOutcome}
      (hwrite : box₂ = if accepted then (flagRequest item desire since).run box₁ else box₁)
      (h : Concluded item desire since.isSome accepted box' outcome) :
      FlagRun item desire since box₁ box₂ box' outcome

theorem applyFlags_runs (hR : Others R) {condstore : Bool}
    (h : (applyFlags item desire condstore).Outcome (beside R) box r box') :
    ∃ since box₁ box₂ outcome, (since = none ∨ since = item.target.modseq) ∧ R box box₁ ∧
      R box₂ box' ∧ r = .ok outcome ∧ FlagRun item desire since box₁ box₂ box' outcome := by
  have hsince : (if condstore then item.target.modseq else none) = none ∨
      (if condstore then item.target.modseq else none) = item.target.modseq := by
    cases condstore <;> simp
  unfold applyFlags at h
  generalize (if condstore then item.target.modseq else none) = since at h hsince
  rcases Program.outcome_bind.mp h with ⟨answer, box₂, hrun, h⟩ | ⟨e, rfl, hrun⟩
  · obtain ⟨x, hx, hrun⟩ := Program.outcome_attempt.mp hrun
    obtain rfl := Except.ok.inj hx
    obtain ⟨box₁, hs, hwrite⟩ := writeFlag_runs hR hrun
    refine ⟨since, box₁, box₂, ?_⟩
    cases hwrite with
    | thrown cause =>
        obtain ⟨rfl, rfl⟩ := Program.outcome_pure.mp h
        exact ⟨_, hsince, hs, hR.refl _, rfl, .unknown _ _ (.inl rfl)⟩
    | accepted =>
        obtain ⟨hs', outcome, rfl, hend⟩ := concludeWrite_runs h
        exact ⟨outcome, hsince, hs, hs', rfl, .concluded true rfl hend⟩
    | rejected =>
        obtain ⟨hs', outcome, rfl, hend⟩ := concludeWrite_runs h
        exact ⟨outcome, hsince, hs, hs', rfl, .concluded false rfl hend⟩
    | uncertain carriedOut reason =>
        obtain ⟨rfl, rfl⟩ := Program.outcome_pure.mp h
        refine ⟨_, hsince, hs, hR.refl _, rfl, .unknown _ _ ?_⟩
        cases carriedOut with
        | true => exact .inr rfl
        | false => exact .inl rfl
  · obtain ⟨x, hx, -⟩ := Program.outcome_attempt.mp hrun
    cases hx

/-- What a run of a move item does. -/
inductive MoveRun (item : PreparedActionItem) (folder : String) (box₁ box' : ServerMailbox) :
    ExecutorOutcome → Prop
  | unknown (reason : String) (hmove : box' = box₁ ∨
      box' = ServerMailbox.moveAway item.target.uid folder box₁) :
      MoveRun item folder box₁ box' (.unknown reason none)
  | failed (code message : String) (hmove : box' = box₁) :
      MoveRun item folder box₁ box' (.failed code message)
  | moved (destination : MoveDestination) (hfolder : destination.folder = folder)
      (huid : destination.uid.isSome → (box₁.find item.target.uid).isSome)
      (hmove : box' = ServerMailbox.moveAway item.target.uid folder box₁) :
      MoveRun item folder box₁ box' (.confirmed item.remote (some destination))

theorem applyMove_runs (hR : Others R) {folder : String} {move : Bool}
    (h : (applyMove item folder move).Outcome (beside R) box r box') :
    ∃ box₁ outcome, R box box₁ ∧ r = .ok outcome ∧ MoveRun item folder box₁ box' outcome := by
  unfold applyMove at h
  by_cases hcapable : move = false
  · rw [if_pos hcapable] at h
    obtain ⟨rfl, rfl⟩ := Program.outcome_pure.mp h
    exact ⟨_, _, hR.refl _, rfl, .failed _ _ rfl⟩
  rw [if_neg hcapable] at h
  rcases Program.outcome_bind.mp h with ⟨answer, box₂, hrun, h⟩ | ⟨e, rfl, hrun⟩
  · obtain ⟨x, hx, hrun⟩ := Program.outcome_attempt.mp hrun
    obtain rfl := Except.ok.inj hx
    obtain ⟨box₁, hs, hmove⟩ := moveMessage_runs hR hrun
    refine ⟨box₁, ?_⟩
    cases hmove with
    | thrown cause =>
        obtain ⟨rfl, rfl⟩ := Program.outcome_pure.mp h
        exact ⟨_, hs, rfl, .unknown _ (.inl rfl)⟩
    | moved destination hfolder huid =>
        obtain ⟨rfl, rfl⟩ := Program.outcome_pure.mp h
        exact ⟨_, hs, rfl, .moved destination hfolder huid rfl⟩
    | rejected =>
        obtain ⟨rfl, rfl⟩ := Program.outcome_pure.mp h
        exact ⟨_, hs, rfl, .failed _ _ rfl⟩
    | uncertain carriedOut reason =>
        obtain ⟨rfl, rfl⟩ := Program.outcome_pure.mp h
        refine ⟨_, hs, rfl, .unknown _ ?_⟩
        cases carriedOut with
        | true => exact .inr rfl
        | false => exact .inl rfl
  · obtain ⟨x, hx, -⟩ := Program.outcome_attempt.mp hrun
    cases hx

/-- What a run of one item does. -/
theorem apply_runs (hR : Others R) (h : (apply item).Outcome (beside R) box r box') :
    ∃ box₀ outcome, R box box₀ ∧ r = .ok outcome ∧
      ((∃ code message, outcome = .failed code message ∧ box' = box₀) ∨
        (∃ desire since box₁ box₂, item.desired = .flags desire ∧
          (since = none ∨ since = item.target.modseq) ∧ R box₀ box₁ ∧ R box₂ box' ∧
            FlagRun item desire since box₁ box₂ box' outcome) ∨
        ∃ id folder box₁, item.desired = .move id folder ∧ R box₀ box₁ ∧
          MoveRun item folder box₁ box' outcome) := by
  rcases Program.outcome_bind.mp h with ⟨answer, box₀, hrun, h⟩ | ⟨e, rfl, hrun⟩
  · obtain ⟨x, hx, hrun⟩ := Program.outcome_attempt.mp hrun
    obtain rfl := Except.ok.inj hx
    refine ⟨box₀, ?_⟩
    obtain ⟨hs, ⟨cause, rfl⟩ | rfl⟩ := look_runs hrun
    · obtain ⟨rfl, rfl⟩ := Program.outcome_pure.mp h
      exact ⟨_, hs, rfl, .inl ⟨_, _, rfl, rfl⟩⟩
    cases hdesired : item.desired with
    | flags desire =>
        simp only [hdesired] at h
        obtain ⟨since, box₁, box₂, outcome, hsince, hs₁, hs₂, rfl, hend⟩ := applyFlags_runs hR h
        exact ⟨outcome, hs, rfl,
          .inr (.inl ⟨desire, since, box₁, box₂, rfl, hsince, hs₁, hs₂, hend⟩)⟩
    | move id folder =>
        simp only [hdesired] at h
        obtain ⟨box₁, outcome, hs₁, rfl, hend⟩ := applyMove_runs hR h
        exact ⟨outcome, hs, rfl, .inr (.inr ⟨id, folder, box₁, rfl, hs₁, hend⟩)⟩
  · obtain ⟨x, hx, -⟩ := Program.outcome_attempt.mp hrun
    cases hx

/-! ## Truthful receipts -/

/-- What a command of an item may do: one conditional or plain store of its own flag, or its own
move. -/
def Effect.IsFor (item : PreparedActionItem) : Effect → Prop
  | .stored before keyword on since => before.uid = item.target.uid ∧
      (∃ desire, item.desired = .flags desire ∧ keyword = imapFlags desire.flag ∧
        on = desire.value) ∧
      (since = none ∨ since = item.target.modseq) ∧ since.all (before.modseq ≤ ·) = true
  | .moved before folder => before.uid = item.target.uid ∧ ∃ id, item.desired = .move id folder

/-- What the receipt of an item says is true of the mailbox. -/
structure Truthful (item : PreparedActionItem) (box box' : ServerMailbox)
    (outcome : ExecutorOutcome) : Prop where
  /-- At most one command took effect, and it was for the item. -/
  effect : box'.effects = box.effects ∨ ∃ e, box'.effects = box.effects ++ [e] ∧ e.IsFor item
  /-- A failed item did nothing. -/
  failed : ∀ code message, outcome = .failed code message → box'.effects = box.effects
  /-- An absent item did nothing, and its message is gone. -/
  absent : ∀ observed, outcome = .conflicted "absent_remote" observed →
    box'.effects = box.effects ∧ box'.find item.target.uid = none
  /-- A confirmed move left no message behind, and moved the one that has a new UID. -/
  moved : ∀ observed destination, outcome = .confirmed observed (some destination) →
    box'.find item.target.uid = none ∧ (destination.uid.isSome →
      ∃ m, box'.effects = box.effects ++ [.moved m destination.folder])
  /-- A confirmed flag item states the flags that the server holds. -/
  observed : ∀ observed, outcome = .confirmed observed none →
    ∃ m, box'.find item.target.uid = some m ∧ observed = m.flags box'.condstore

theorem find_uid {uid : ℕ} {m : RemoteMessage} (h : box.find uid = some m) : m.uid = uid := by
  simpa using List.find?_some h

theorem store_cases (uid : ℕ) (keyword : Keyword) (on : Bool) (since : Option ℕ)
    (box : ServerMailbox) : box.store uid keyword on since = box ∨
      ∃ m, box.find uid = some m ∧ since.all (m.modseq ≤ ·) = true ∧
        box.store uid keyword on since = { box with
          messages := box.messages.map fun x =>
            if x.uid == uid then x.store keyword on (box.highestModseq + 1) else x
          highestModseq := box.highestModseq + 1
          effects := box.effects ++ [.stored m keyword on since] } := by
  unfold ServerMailbox.store
  cases hfind : box.find uid with
  | none => exact .inl rfl
  | some m =>
      by_cases hunchanged : since.all (m.modseq ≤ ·) = true
      · exact .inr ⟨m, rfl, hunchanged, by simp only [if_pos hunchanged]⟩
      · exact .inl (by simp only [if_neg hunchanged])

theorem moveAway_cases (uid : ℕ) (folder : String) (box : ServerMailbox) :
    (box.find uid = none ∧ box.moveAway uid folder = box) ∨
      ∃ m, box.find uid = some m ∧ box.moveAway uid folder = { box with
        messages := box.messages.filter fun x => x.uid != uid
        effects := box.effects ++ [.moved m folder] } := by
  unfold ServerMailbox.moveAway
  cases hfind : box.find uid with
  | none => exact .inl ⟨rfl, rfl⟩
  | some m => exact .inr ⟨m, rfl, rfl⟩

theorem find_moveAway (uid : ℕ) (folder : String) (box : ServerMailbox) :
    (box.moveAway uid folder).find uid = none := by
  rcases moveAway_cases uid folder box with ⟨hnone, hsame⟩ | ⟨m, -, hmoved⟩
  · rw [hsame, hnone]
  · rw [hmoved, ServerMailbox.find, List.find?_eq_none]
    intro x hx
    simpa using (List.mem_filter.mp hx).2

/-- The flags that were read are confirmed, the write failed without an effect, or they conflict. -/
theorem readOutcome_cases (desire : FlagDesire) (conditional accepted : Bool)
    (flags : ActionMailboxFlags) :
    readOutcome desire conditional accepted flags = .confirmed flags none ∨
      (accepted = false ∧ ∃ code message,
        readOutcome desire conditional accepted flags = .failed code message) ∨
      ∃ reason, reason ≠ "absent_remote" ∧
        readOutcome desire conditional accepted flags = .conflicted reason flags := by
  unfold readOutcome
  by_cases hread : flags.get desire.flag = desire.value
  · exact .inl (if_pos hread)
  rw [if_neg hread]
  cases accepted <;> cases conditional
  · exact .inr (.inl ⟨rfl, _, _, rfl⟩)
  · exact .inr (.inr ⟨_, by decide, rfl⟩)
  · exact .inl rfl
  · exact .inr (.inr ⟨_, by decide, rfl⟩)

/-- A flag item stores at most once. -/
theorem FlagRun.wrote {since : Option ℕ} {box₁ box₂ : ServerMailbox} {outcome : ExecutorOutcome}
    (h : FlagRun item desire since box₁ box₂ box' outcome) :
    box₂ = box₁ ∨ box₂ = (flagRequest item desire since).run box₁ := by
  cases h with
  | unknown reason observed hwrite => exact hwrite
  | concluded accepted hwrite hend =>
      cases accepted with
      | true => exact .inr hwrite
      | false => exact .inl hwrite

/-- The receipts of a flag item: the outcome is unknown, the target is gone, what was read is
confirmed, the write failed without an effect, or it conflicts with what was read. -/
theorem FlagRun.receipt {since : Option ℕ} {box₁ box₂ : ServerMailbox} {outcome : ExecutorOutcome}
    (h : FlagRun item desire since box₁ box₂ box' outcome) :
    (∃ reason observed, outcome = .unknown reason observed) ∨
      (box₂ = box₁ ∧ box'.find item.target.uid = none ∧
        outcome = .conflicted "absent_remote" item.remote) ∨
      (∃ m, box'.find item.target.uid = some m ∧
        outcome = .confirmed (m.flags box'.condstore) none) ∨
      (box₂ = box₁ ∧ ∃ code message, outcome = .failed code message) ∨
      ∃ reason observed, reason ≠ "absent_remote" ∧ outcome = .conflicted reason observed := by
  cases h with
  | unknown reason observed hwrite => exact .inl ⟨reason, observed, rfl⟩
  | concluded accepted hwrite hend =>
      have hidle : accepted = false → box₂ = box₁ := by
        rintro rfl
        exact hwrite
      cases hend with
      | unknown reason => exact .inl ⟨reason, _, rfl⟩
      | gone hrejected hgone => exact .inr (.inl ⟨hidle hrejected, hgone, rfl⟩)
      | read m hread =>
          rcases readOutcome_cases desire since.isSome accepted (m.flags box'.condstore) with
            hcase | ⟨hrejected, code, message, hcase⟩ | ⟨reason, hne, hcase⟩
          · exact .inr (.inr (.inl ⟨m, hread, hcase⟩))
          · exact .inr (.inr (.inr (.inl ⟨hidle hrejected, code, message, hcase⟩)))
          · exact .inr (.inr (.inr (.inr ⟨reason, _, hne, hcase⟩)))

/-- The receipt of a flag item is truthful. -/
theorem FlagRun.truthful {since : Option ℕ} {box₁ box₂ : ServerMailbox}
    {outcome : ExecutorOutcome} (h : FlagRun item desire since box₁ box₂ box' outcome)
    (hdesired : item.desired = .flags desire)
    (hsince : since = none ∨ since = item.target.modseq) (hbefore : box₁.effects = box.effects)
    (hafter : box'.effects = box₂.effects) : Truthful item box box' outcome := by
  have hsame : box₂ = box₁ → box'.effects = box.effects := by
    rintro rfl
    exact hafter.trans hbefore
  have heffect : box'.effects = box.effects ∨
      ∃ e, box'.effects = box.effects ++ [e] ∧ e.IsFor item := by
    rcases h.wrote with hnone | hwrote
    · exact .inl (hsame hnone)
    rcases store_cases item.target.uid (imapFlags desire.flag) desire.value since box₁ with
      hkept | ⟨m, hfind, hunchanged, hstored⟩
    · exact .inl (hsame (hwrote.trans hkept))
    · refine .inr ⟨.stored m (imapFlags desire.flag) desire.value since, ?_, find_uid hfind,
        ⟨desire, hdesired, rfl, rfl⟩, hsince, hunchanged⟩
      rw [hafter, ← hbefore, hwrote]
      exact congrArg ServerMailbox.effects hstored
  rcases h.receipt with ⟨reason, observed, rfl⟩ | ⟨hidle, hgone, rfl⟩ | ⟨m, hread, rfl⟩ |
    ⟨hidle, code, message, rfl⟩ | ⟨reason, observed, hne, rfl⟩
  · exact ⟨heffect, by simp, by simp, by simp, by simp⟩
  · exact ⟨heffect, by simp, fun _ _ => ⟨hsame hidle, hgone⟩, by simp, by simp⟩
  · refine ⟨heffect, by simp, by simp, by simp, fun observed hconfirmed => ⟨m, hread, ?_⟩⟩
    exact (ExecutorOutcome.confirmed.inj hconfirmed).1.symm
  · exact ⟨heffect, fun _ _ _ => hsame hidle, by simp, by simp, by simp⟩
  · refine ⟨heffect, by simp, fun observed' hsame' => ?_, by simp, by simp⟩
    exact absurd (ExecutorOutcome.conflicted.inj hsame').1 hne

/-- The receipt of a move item is truthful. -/
theorem MoveRun.truthful {id : Option Uuid} {folder : String} {box₁ : ServerMailbox}
    {outcome : ExecutorOutcome} (h : MoveRun item folder box₁ box' outcome)
    (hdesired : item.desired = .move id folder) (hbefore : box₁.effects = box.effects) :
    Truthful item box box' outcome := by
  have hmoves : box' = box₁.moveAway item.target.uid folder → box'.effects = box.effects ∨
      ∃ e, box'.effects = box.effects ++ [e] ∧ e.IsFor item := by
    rintro rfl
    rcases moveAway_cases item.target.uid folder box₁ with ⟨-, hsame⟩ | ⟨m, hfind, hmoved⟩
    · exact .inl (by rw [hsame, hbefore])
    · refine .inr ⟨.moved m folder, ?_, find_uid hfind, id, hdesired⟩
      rw [hmoved, hbefore]
  cases h with
  | unknown reason hmove =>
      refine ⟨?_, by simp, by simp, by simp, by simp⟩
      rcases hmove with rfl | hmove
      · exact .inl hbefore
      · exact hmoves hmove
  | failed code message hmove =>
      subst hmove
      exact ⟨.inl hbefore, fun _ _ _ => hbefore, by simp, by simp, by simp⟩
  | moved destination hfolder huid hmove =>
      refine ⟨hmoves hmove, by simp, by simp, fun observed destination' heq => ?_, by simp⟩
      obtain ⟨-, hsame⟩ := ExecutorOutcome.confirmed.inj heq
      obtain rfl := Option.some.inj hsame
      refine ⟨by rw [hmove, find_moveAway], fun hnew => ?_⟩
      rcases moveAway_cases item.target.uid folder box₁ with ⟨hnone, -⟩ | ⟨m, hfind, hmoved⟩
      · simp [hnone] at huid
        simp [huid] at hnew
      · exact ⟨m, by rw [hmove, hmoved, hfolder, hbefore]⟩

/-- Whatever the others do, and however commands end, the executor comes to a receipt, and it is
truthful. -/
theorem receipts_truthful (hR : Others R) (h : (apply item).Outcome (beside R) box r box') :
    ∃ outcome, r = .ok outcome ∧ Truthful item box box' outcome := by
  obtain ⟨box₀, outcome, hs, rfl, hcase⟩ := apply_runs hR h
  have hstart := hR.effects _ _ hs
  refine ⟨outcome, rfl, ?_⟩
  rcases hcase with ⟨code, message, rfl, rfl⟩ |
    ⟨desire, since, box₁, box₂, hdesired, hsince, hs₁, hs₂, hrun⟩ |
    ⟨id, folder, box₁, hdesired, hs₁, hrun⟩
  · exact ⟨.inl hstart, fun _ _ _ => hstart, by simp, by simp, by simp⟩
  · exact hrun.truthful hdesired hsince ((hR.effects _ _ hs₁).trans hstart) (hR.effects _ _ hs₂)
  · exact hrun.truthful hdesired ((hR.effects _ _ hs₁).trans hstart)

/-! ## What a flag item achieves -/

theorem find_store {uid : ℕ} {m : RemoteMessage} (keyword : Keyword) (on : Bool)
    (since : Option ℕ) (h : box.find uid = some m) :
    (box.store uid keyword on since).find uid = some m ∧
        (box.store uid keyword on since).effects = box.effects ∨
      (box.store uid keyword on since).find uid =
          some (m.store keyword on (box.highestModseq + 1)) ∧
        (box.store uid keyword on since).effects ≠ box.effects := by
  rcases store_cases uid keyword on since box with hsame | ⟨m', hfind, -, hstored⟩
  · exact .inl (by rw [hsame]; exact ⟨h, rfl⟩)
  · refine .inr ⟨?_, ?_⟩
    · rw [hstored]
      have huid : ∀ x : RemoteMessage, ((if x.uid == uid then
          x.store keyword on (box.highestModseq + 1) else x).uid == uid) = (x.uid == uid) := by
        intro x
        split
        · cases keyword <;> rfl
        · rfl
      have hm : (m.uid == uid) = true := by simp [find_uid h]
      unfold ServerMailbox.find at h ⊢
      rw [List.find?_map]
      simp only [Function.comp_def, huid]
      rw [h, Option.map_some, if_pos hm]
    · rw [hstored]
      simp

/-- Where nobody else touches its message, a flag item that is not satisfied yet is satisfied
afterwards exactly when its write took effect and its flag is `flagged`: the keyword of `unread` is
`seen`, so that storing the desired value of `unread` stores what is there. -/
theorem flag_get_iff (hR : Others R)
    (hquiet : ∀ b b', R b b' → b'.find item.target.uid = b.find item.target.uid)
    (hdesired : item.desired = .flags desire) {m : RemoteMessage}
    (hm : box.find item.target.uid = some m)
    (hopen : (m.flags box.condstore).get desire.flag ≠ desire.value)
    (h : (apply item).Outcome (beside R) box r box') :
    ∃ m', box'.find item.target.uid = some m' ∧
      ((m'.flags box'.condstore).get desire.flag = desire.value ↔
        desire.flag = .flagged ∧ box'.effects ≠ box.effects) := by
  obtain ⟨box₀, outcome, hs, rfl, hcase⟩ := apply_runs hR h
  have hfind₀ := (hquiet _ _ hs).trans hm
  have heffects₀ := hR.effects _ _ hs
  have hget : ∀ condstore, (m.flags condstore).get desire.flag ≠ desire.value := by
    intro condstore
    cases hf : desire.flag <;> simp only [hf] at hopen <;> exact hopen
  -- A run without an effect leaves the message as it was.
  have hidle : box'.find item.target.uid = some m → box'.effects = box.effects →
      ∃ m', box'.find item.target.uid = some m' ∧
        ((m'.flags box'.condstore).get desire.flag = desire.value ↔
          desire.flag = .flagged ∧ box'.effects ≠ box.effects) :=
    fun hfind heffects => ⟨m, hfind, fun hset => absurd hset (hget _),
      fun hwrote => absurd heffects hwrote.2⟩
  rcases hcase with ⟨code, message, -, rfl⟩ |
    ⟨desire', since, box₁, box₂, hdesired', -, hs₁, hs₂, hrun⟩ |
    ⟨id, folder, box₁, hdesired', -, -⟩
  · exact hidle hfind₀ heffects₀
  · obtain rfl : desire' = desire :=
      DesiredActionState.flags.inj (hdesired'.symm.trans hdesired)
    have hfind₁ := (hquiet _ _ hs₁).trans hfind₀
    have heffects₁ := (hR.effects _ _ hs₁).trans heffects₀
    have hfind₂ := hquiet _ _ hs₂
    have heffects₂ := hR.effects _ _ hs₂
    rcases hrun.wrote with rfl | rfl
    · exact hidle (hfind₂.trans hfind₁) (heffects₂.trans heffects₁)
    rcases find_store (imapFlags desire'.flag) desire'.value since hfind₁ with
      ⟨hfind, heffects⟩ | ⟨hfind, heffects⟩
    · exact hidle (hfind₂.trans hfind) (heffects₂.trans (heffects.trans heffects₁))
    · refine ⟨_, hfind₂.trans hfind, ?_⟩
      have hwrote : box'.effects ≠ box.effects := by
        rw [heffects₂, ← heffects₁]
        exact heffects
      obtain ⟨flag, value⟩ := desire'
      cases flag with
      | unread => cases value <;> simp [imapFlags, RemoteMessage.store, RemoteMessage.flags,
          TargetObservation.get]
      | flagged => simp [imapFlags, RemoteMessage.store, RemoteMessage.flags,
          TargetObservation.get, hwrote]
  · rw [hdesired] at hdesired'
    cases hdesired'

/-- An item that passes the refresh asks for a flag that the server does not show yet. -/
theorem preflight_open {g : SelectedGroup} {target : ActionItem} {remote : ActionMailboxFlags}
    {found : Option MessageOccurrence} (h : preflight g target remote found = none)
    (hkind : flagDesireOf g.action.kind = some desire) :
    remote.get desire.flag ≠ desire.value := by
  cases found with
  | none => cases h
  | some occurrence =>
      intro hsame
      unfold preflight at h
      dsimp only at h
      split at h
      · cases h
      split at h
      · cases h
      split at h
      · cases h
      rw [hkind, Option.any_some, beq_iff_eq.mpr hsame, if_pos rfl] at h
      cases h

/-- A flag item that passed the refresh, on a message that nobody else touches: a star is set or
removed exactly when the write took effect, and no message is ever marked as read or unread. -/
theorem flag_achieved_iff {g : SelectedGroup} {target : ActionItem} {remote : ActionMailboxFlags}
    {found : Option MessageOccurrence} (hR : Others R)
    (hquiet : ∀ b b', R b b' → b'.find target.target.uid = b.find target.target.uid)
    (hpassed : preflight g target remote found = none)
    (hkind : flagDesireOf g.action.kind = some desire) {m : RemoteMessage}
    (hm : box.find target.target.uid = some m) (hremote : m.flags box.condstore = remote)
    (h : (apply (preparedItem g target remote)).Outcome (beside R) box r box') :
    ∃ m', box'.find target.target.uid = some m' ∧
      ((m'.flags box'.condstore).get desire.flag = desire.value ↔
        (g.action.kind = .star ∨ g.action.kind = .unstar) ∧ box'.effects ≠ box.effects) := by
  have hdesired : (preparedItem g target remote).desired = .flags desire := by
    simp [preparedItem, desiredState, hkind]
  have hopen : (m.flags box.condstore).get desire.flag ≠ desire.value := by
    rw [hremote]
    exact preflight_open hpassed hkind
  have hflag : desire.flag = .flagged ↔ g.action.kind = .star ∨ g.action.kind = .unstar := by
    cases hk : g.action.kind <;> simp [hk, flagDesireOf] at hkind <;> simp [← hkind]
  obtain ⟨m', hfind, hget⟩ := flag_get_iff hR hquiet hdesired hm hopen h
  exact ⟨m', hfind, by rw [hget, hflag]⟩

/-! ## Samples -/

/-- Nobody else is there. -/
theorem others_eq : Others (fun box box' : ServerMailbox => box' = box) where
  refl := fun _ => rfl
  trans := fun _ _ _ h h' => h'.trans h
  effects := fun _ _ h => congrArg ServerMailbox.effects h

/-- An inbox with one unread message. -/
def sampleInbox : ServerMailbox :=
  ⟨[⟨1, false, false, 3⟩], 3, false, true, true, .usable, some (1, 9), []⟩

/-- What the refresh observed of that message. -/
def sampleRemote : ActionMailboxFlags := ⟨⟨true, false⟩, 1, none⟩

/-- An action of a kind on that message. -/
def sampleGroup (kind : ActionKind) (destination : Option (Uuid × String)) : SelectedGroup where
  action := ⟨40, 1, 1, "key", "hash", kind,
    ⟨kind, 1, [20], destination.map (·.1)⟩, .executing, 0⟩
  folder := ⟨5, "INBOX", 1⟩
  remoteFlags := [sampleRemote]
  destination := destination

/-- The item of the action. -/
def sampleTarget : ActionItem := ⟨40, 20, ⟨20, 1, 5, 1, 1, 0, ⟨true, false⟩, none⟩, .queued, none⟩

/-- The occurrence of the message. -/
def sampleOccurrence : MessageOccurrence :=
  ⟨20, 1, 30, 5, 1, 1, 0, true, false, none, 0, none, none⟩

/-- The run of the item without anybody else. -/
def sampleRun (g : SelectedGroup) : Option (Except String ExecutorOutcome × ServerMailbox) :=
  (apply (preparedItem g sampleTarget sampleRemote)).evaluate (fun c : Empty => c.elim) sampleInbox

theorem sampleRun_outcome {g : SelectedGroup} {r : Except String ExecutorOutcome}
    {box' : ServerMailbox} (h : sampleRun g = some (r, box')) :
    (apply (preparedItem g sampleTarget sampleRemote)).Outcome
      (beside fun box box' => box' = box) sampleInbox r box' :=
  Program.outcome_of_evaluate (fun _ => rfl) (fun _ _ => trivial) (fun c : Empty => c.elim) h

/-- The archive of the message is confirmed, and the message has left the inbox. -/
theorem receipts_truthful_sample : ∃ outcome box', box'.messages = [] ∧
    outcome = .confirmed sampleRemote (some ⟨"Archive", some 1, some 9⟩) ∧
      ∃ outcome', (.ok outcome : Except String ExecutorOutcome) = .ok outcome' ∧
        Truthful (preparedItem (sampleGroup .archive (some (6, "Archive"))) sampleTarget
          sampleRemote) sampleInbox box' outcome' := by
  have h : sampleRun (sampleGroup .archive (some (6, "Archive"))) =
      some (.ok (.confirmed sampleRemote (some ⟨"Archive", some 1, some 9⟩)),
        { sampleInbox with
          messages := [], effects := [.moved ⟨1, false, false, 3⟩ "Archive"] }) := rfl
  exact ⟨_, _, rfl, rfl, receipts_truthful others_eq (sampleRun_outcome h)⟩

/-- Marking the message as read is confirmed, and the message is unread as before. -/
theorem flag_achieved_iff_sample : ∃ box', sampleRun (sampleGroup .markRead none) =
      some (.ok (.confirmed sampleRemote none), box') ∧ box'.effects ≠ [] ∧
    ∃ m', box'.find 1 = some m' ∧ ((m'.flags box'.condstore).get .unread = false ↔
      ((sampleGroup .markRead none).action.kind = .star ∨
        (sampleGroup .markRead none).action.kind = .unstar) ∧ box'.effects ≠ []) := by
  have h : sampleRun (sampleGroup .markRead none) =
      some (.ok (.confirmed sampleRemote none), { sampleInbox with
        messages := [⟨1, false, false, 4⟩], highestModseq := 4
        effects := [.stored ⟨1, false, false, 3⟩ .seen false none] }) := rfl
  have hpassed : preflight (sampleGroup .markRead none) sampleTarget sampleRemote
      (some sampleOccurrence) = none := by decide
  have hkind : flagDesireOf (sampleGroup .markRead none).action.kind = some ⟨.unread, false⟩ := rfl
  have hm : sampleInbox.find 1 = some ⟨1, false, false, 3⟩ := rfl
  exact ⟨_, h, by decide, flag_achieved_iff others_eq
    (fun b b' hb => congrArg (ServerMailbox.find · 1) hb) hpassed hkind hm rfl
      (sampleRun_outcome h)⟩

end MailHub.TwoWay
