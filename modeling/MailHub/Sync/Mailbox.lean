import MailHub.Ordering.Numbered
import MailHub.Sync.Import
import Mathlib.Data.List.Perm.Basic
import Mathlib.Logic.Function.Basic

/-!
# Mailboxes

What folder synchronization reads: the mailboxes of a server, one for each generation of a folder,
and the session through which a worker reads them. Messages arrive under ascending UIDs and leave
for good; a folder that is replaced gets a generation that it never had before.
-/

namespace MailHub.FolderSync

open Relational Interleaving Ordering

/-! ## Mailboxes of a server -/

/-- The mailbox of one folder generation. -/
structure Mailbox where
  uidValidity : ℕ
  uidNext : ℕ
  /-- Every message with its flags and headers, as a fetch answers them. -/
  messages : List MailboxHeaders
  uidNext_pos : 0 < uidNext
  uid_lt : ∀ m ∈ messages, m.uid < uidNext

namespace Mailbox

variable (box : Mailbox)

/-- What a selection reports. -/
def state : SelectedFolder := ⟨box.uidValidity, box.uidNext⟩

/-- The UIDs that exist inside one inclusive range. -/
def uidsBetween (low high : ℕ) : List ℕ :=
  (box.messages.map (·.uid)).filter fun uid => low ≤ uid ∧ uid ≤ high

/-- The messages with specific UIDs. -/
def withUids (uids : List ℕ) : List MailboxHeaders := box.messages.filter (·.uid ∈ uids)

/-- The flags of a message. -/
def flagsOf (m : MailboxHeaders) : ActionMailboxFlags := ⟨⟨m.unread, m.flagged⟩, m.uid, none⟩

/-- A message arrives; the server may skip UIDs. -/
def arrive (m : MailboxHeaders) (h : box.uidNext ≤ m.uid) : Mailbox where
  uidValidity := box.uidValidity
  uidNext := m.uid + 1
  messages := box.messages ++ [m]
  uidNext_pos := Nat.succ_pos _
  uid_lt m' hm' := by
    rcases List.mem_append.mp hm' with hold | hnew
    · have hlt := box.uid_lt m' hold
      omega
    · obtain rfl : m' = m := by simpa using hnew
      omega

/-- A message is expunged. -/
def expunge (uid : ℕ) : Mailbox where
  uidValidity := box.uidValidity
  uidNext := box.uidNext
  messages := box.messages.filter (·.uid ≠ uid)
  uidNext_pos := box.uidNext_pos
  uid_lt m hm := box.uid_lt m (List.mem_of_mem_filter hm)

/-- The flags of a message change. -/
def setFlags (uid : ℕ) (unread flagged : Bool) : Mailbox where
  uidValidity := box.uidValidity
  uidNext := box.uidNext
  messages := box.messages.map fun m => if m.uid = uid then { m with unread, flagged } else m
  uidNext_pos := box.uidNext_pos
  uid_lt m hm := by
    obtain ⟨m', hm', rfl⟩ := List.mem_map.mp hm
    have hlt := box.uid_lt m' hm'
    split <;> exact hlt

/-- A mailbox as a numbered collection. -/
def numbered : Numbered where
  next := box.uidNext
  present := { uid | ∃ m ∈ box.messages, m.uid = uid }
  lt_next := by
    rintro _ ⟨m, hm, rfl⟩
    exact box.uid_lt m hm

variable {box : Mailbox} {low high uid : ℕ} {uids : List ℕ}

theorem mem_uidsBetween : uid ∈ box.uidsBetween low high ↔
    uid ∈ box.numbered.present ∧ low ≤ uid ∧ uid ≤ high := by
  simp [uidsBetween, numbered]

theorem mem_withUids {m : MailboxHeaders} :
    m ∈ box.withUids uids ↔ m ∈ box.messages ∧ m.uid ∈ uids := by
  simp [withUids]

theorem later_arrive {m : MailboxHeaders} {h : box.uidNext ≤ m.uid} :
    Numbered.Later box.numbered (box.arrive m h).numbered := by
  refine ⟨Nat.le_succ_of_le h, ?_⟩
  rintro uid ⟨m', hm', rfl⟩ hlt
  rcases List.mem_append.mp hm' with hold | hnew
  · exact ⟨m', hold, rfl⟩
  · obtain rfl : m' = m := by simpa using hnew
    have hlt' : m'.uid < box.uidNext := hlt
    omega

theorem later_expunge : Numbered.Later box.numbered (box.expunge uid).numbered := by
  refine ⟨Nat.le_refl _, ?_⟩
  rintro uid' ⟨m, hm, rfl⟩ -
  exact ⟨m, List.mem_of_mem_filter hm, rfl⟩

theorem later_setFlags {unread flagged : Bool} :
    Numbered.Later box.numbered (box.setFlags uid unread flagged).numbered := by
  refine ⟨Nat.le_refl _, ?_⟩
  rintro uid' ⟨m, hm, rfl⟩ -
  obtain ⟨m', hm', rfl⟩ := List.mem_map.mp hm
  refine ⟨m', hm', ?_⟩
  split <;> rfl

end Mailbox

/-! ## Folders of a server -/

/-- One folder of a server with the generations that it has had. -/
structure ServerFolder where
  /-- The generations, the oldest first. -/
  past : List ℕ
  /-- The mailbox, unless the folder does not exist now. -/
  box : Option Mailbox
  nodup : past.Nodup
  current : ∀ b, box = some b → past.getLast? = some b.uidValidity

namespace ServerFolder

variable (folder : ServerFolder)

/-- A folder as a place of numbered collections. -/
def succession : Succession ℕ := ⟨folder.past, folder.box.map fun b => (b.uidValidity, b.numbered)⟩

/-- The mailbox of the current generation changes. -/
def become (box : Mailbox) (h : ∀ b, folder.box = some b → b.uidValidity = box.uidValidity)
    (hsome : folder.box.isSome) : ServerFolder where
  past := folder.past
  box := some box
  nodup := folder.nodup
  current b hb := by
    obtain rfl : box = b := by simpa using hb
    obtain ⟨old, hold⟩ := Option.isSome_iff_exists.mp hsome
    rw [folder.current old hold, h old hold]

/-- A mailbox of a fresh generation takes the place of the folder. -/
def replace (box : Mailbox) (h : box.uidValidity ∉ folder.past) : ServerFolder where
  past := folder.past ++ [box.uidValidity]
  box := some box
  nodup := by
    refine List.nodup_append.mpr ⟨folder.nodup, List.nodup_singleton _, fun a ha b hb hab => ?_⟩
    obtain rfl : b = box.uidValidity := by simpa using hb
    exact h (hab ▸ ha)
  current b hb := by
    obtain rfl : box = b := by simpa using hb
    simp

/-- The folder goes away. -/
def remove : ServerFolder where
  past := folder.past
  box := none
  nodup := folder.nodup
  current b hb := by simp at hb

end ServerFolder

/-- What can happen to a folder of a server. -/
inductive ServerEvent
  | arrive (m : MailboxHeaders)
  | expunge (uid : ℕ)
  | setFlags (uid : ℕ) (unread flagged : Bool)
  | replace (box : Mailbox)
  | remove

/-- The folder after an event, unless the event cannot happen. -/
def ServerFolder.after (folder : ServerFolder) : ServerEvent → Option ServerFolder
  | .arrive m =>
      match hbox : folder.box with
      | some box =>
          if h : box.uidNext ≤ m.uid then
            some (folder.become (box.arrive m h)
              (fun b hb => by rw [Option.some.inj (hb.symm.trans hbox)]; rfl) (by simp [hbox]))
          else none
      | none => none
  | .expunge uid =>
      match hbox : folder.box with
      | some box => some (folder.become (box.expunge uid)
          (fun b hb => by rw [Option.some.inj (hb.symm.trans hbox)]; rfl) (by simp [hbox]))
      | none => none
  | .setFlags uid unread flagged =>
      match hbox : folder.box with
      | some box => some (folder.become (box.setFlags uid unread flagged)
          (fun b hb => by rw [Option.some.inj (hb.symm.trans hbox)]; rfl) (by simp [hbox]))
      | none => none
  | .replace box =>
      if h : box.uidValidity ∉ folder.past then some (folder.replace box h) else none
  | .remove => some folder.remove

namespace ServerFolder

variable {folder folder' : ServerFolder}

theorem later_become {box old : Mailbox} (hold : folder.box = some old)
    (h : ∀ b, folder.box = some b → b.uidValidity = box.uidValidity)
    (hsome : folder.box.isSome) (hlater : Numbered.Later old.numbered box.numbered) :
    Succession.Later folder.succession (folder.become box h hsome).succession := by
  refine ⟨List.prefix_rfl, fun g b hb => .inl ?_⟩
  obtain ⟨rfl, rfl⟩ : box.uidValidity = g ∧ box.numbered = b := by
    simpa [become, succession] using hb
  refine ⟨old.numbered, ?_, hlater⟩
  simp [succession, hold, h old hold]

/-- Whatever happens to a folder, it is a later state of the place. -/
theorem later_after {e : ServerEvent} (h : folder.after e = some folder') :
    Succession.Later folder.succession folder'.succession := by
  cases e with
  | arrive m =>
      simp only [after] at h
      split at h
      next box hbox =>
        split at h
        · obtain rfl := Option.some.inj h
          exact later_become hbox _ _ Mailbox.later_arrive
        · simp at h
      next => simp at h
  | expunge uid =>
      simp only [after] at h
      split at h
      next box hbox =>
        obtain rfl := Option.some.inj h
        exact later_become hbox _ _ Mailbox.later_expunge
      next => simp at h
  | setFlags uid unread flagged =>
      simp only [after] at h
      split at h
      next box hbox =>
        obtain rfl := Option.some.inj h
        exact later_become hbox _ _ Mailbox.later_setFlags
      next => simp at h
  | replace box =>
      simp only [after] at h
      split at h
      next hfresh =>
        obtain rfl := Option.some.inj h
        refine ⟨List.prefix_append _ _, fun g b hb => .inr ?_⟩
        obtain ⟨rfl, -⟩ : box.uidValidity = g ∧ box.numbered = b := by
          simpa [replace, succession] using hb
        exact hfresh
      next => simp at h
  | remove =>
      obtain rfl := Option.some.inj h
      exact ⟨List.prefix_rfl, fun g b hb => by simp [remove, succession] at hb⟩

/-- Every other generation is older than the current one. -/
theorem older_current {box : Mailbox} {g : ℕ} (hbox : folder.box = some box)
    (hg : g ∈ folder.past) (hne : g ≠ box.uidValidity) :
    folder.succession.Older g box.uidValidity :=
  Succession.older_of_getLast? hg (folder.current box hbox) folder.nodup hne

end ServerFolder

end MailHub.FolderSync
