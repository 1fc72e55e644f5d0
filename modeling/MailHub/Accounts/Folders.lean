import MailHub.Errors
import MailHub.Text
import MailHub.Recovery.Status
import Mathlib.Data.List.Sort

/-!
# Folders and their roles

One discovery run reports the folders of an account with the hints of the server. New folders
appear, and unambiguous hints fill empty roles; ambiguous hints leave the role unset for a manual
choice.
-/

namespace MailHub.Accounts

open Relational

/-! ## Records -/

/-- Every role a folder can hold. -/
def allRoles : List FolderRole := [.inbox, .sent, .drafts, .archive, .trash, .junk]

/-- The roles folder-bound actions depend on. -/
def requiredRoles : List FolderRole := [.inbox, .sent, .archive]

/-- What the account service is built from. -/
structure AccountService where
  /-- The configured recovery generation. -/
  generation : Option Uuid
  /-- Whether the database orders a name no later than another. -/
  nameBefore : String → String → Bool

/-- One folder a server reports. -/
structure DiscoveredFolder where
  name : String
  specialUse : Option (List String)
  deriving DecidableEq, Repr

/-- A discovered folder after normalization, with the roles its hints name. -/
structure NormalizedFolder where
  name : String
  roles : List FolderRole
  deriving DecidableEq, Repr

structure FolderSummary where
  id : Uuid
  name : String
  role : Option FolderRole
  deriving DecidableEq, Repr

/-- A hint that disagrees with an existing assignment. -/
structure RoleHintConflict where
  role : FolderRole
  /-- The folder that holds the role. -/
  current : String
  /-- The folder that the hint named instead. -/
  hinted : String
  deriving DecidableEq, Repr

/-- What one import did, and the folders after it. -/
structure FolderImportResult where
  created : List FolderSummary
  assignedRoles : List (FolderRole × String)
  ambiguousRoles : List FolderRole
  conflicts : List RoleHintConflict
  folders : List FolderSummary
  pendingRoleChoices : List FolderRole
  deriving DecidableEq, Repr

/-! ## Normalization -/

/-- The role of each special-use attribute the role mapper understands. -/
def roleBySpecialUse : List (String × FolderRole) :=
  [("\\Archive", .archive), ("\\Drafts", .drafts), ("\\Junk", .junk), ("\\Sent", .sent),
    ("\\Trash", .trash)]

/-- The folder name IMAP reserves for the inbox, matched without case. -/
def inboxName : String := "inbox"

def folderNameMax : ℕ := 512

def foldersMax : ℕ := 1024

/-- The key one folder name identifies a folder by: every spelling of the inbox name is one. -/
def folderKey (name : String) : String :=
  if toLowerCase name = inboxName then inboxName else name

/-- Roles one discovered folder hints at: its special-use attributes and the reserved name. -/
def rolesOf (item : DiscoveredFolder) (name : String) : List FolderRole :=
  ((if toLowerCase name = inboxName then [FolderRole.inbox] else []) ++
    (item.specialUse.getD []).filterMap fun use => roleBySpecialUse.lookup use).eraseDups

/-- Normalize one IMAP folder path. -/
def normalizeFolderName (input : String) : Except Failure String :=
  let trimmed := trim input
  if textLength trimmed = 0 ∨ folderNameMax < textLength trimmed ∨
      trimmed.toList.any isControl = true then
    .error (.account .invalidRequest
      s!"A folder name must hold 1 to {folderNameMax} characters without controls.")
  else .ok trimmed

/-- Normalize the folders of a run whose earlier folders had the keys `seen`. -/
def normalizeFrom (seen : List String) :
    List DiscoveredFolder → Except Failure (List NormalizedFolder)
  | [] => .ok []
  | item :: rest => do
      let name ← normalizeFolderName item.name
      if folderKey name ∈ seen then
        throw (.account .invalidRequest
          s!"The folder {name} appears more than once in the discovery result.")
      let folders ← normalizeFrom (folderKey name :: seen) rest
      return ⟨name, rolesOf item name⟩ :: folders

/-- Normalize one discovery run; duplicate names reject. -/
def normalizeDiscoveredFolders (input : List DiscoveredFolder) :
    Except Failure (List NormalizedFolder) :=
  if foldersMax < input.length then
    .error (.account .invalidRequest
      s!"One discovery run may report at most {foldersMax} folders.")
  else normalizeFrom [] input

/-! ## Reading folders -/

def accountMissing : Failure := .account .notFound "No account exists with this identifier."

/-- Reject a missing account. -/
def requireAccount (accountId : Uuid) : Tx Unit := do
  let db ← get
  if (db.accounts.find? accountId).isNone then
    throw accountMissing

/-- The account row, locked for every write of folder roles. -/
def lockAccountRow (accountId : Uuid) : Tx Unit := requireAccount accountId

/-- The folders of an account by name. -/
def selectFolders (s : AccountService) (accountId : Uuid) (db : Database) : List Folder :=
  (db.folders.select (·.accountId == accountId)).insertionSort fun a b =>
    s.nameBefore a.name b.name = true

def toFolderSummary (row : Folder) : FolderSummary := ⟨row.id, row.name, row.role⟩

/-- Required roles no folder holds yet. -/
def pendingRoleChoices (rows : List Folder) : List FolderRole :=
  requiredRoles.filter fun role => !rows.any (·.role == some role)

/-- Record one account audit event. -/
def recordAccountEvent (type : String) (accountId : Uuid) : Tx Unit :=
  Tx.recordEvent .user type "account" accountId

/-! ## The import -/

/-- The stored row of a folder key; of several the last. -/
def storedByKey (stored : List Folder) (key : String) : Option Folder :=
  stored.reverse.find? fun folder => folderKey folder.name == key

/-- A discovered folder under the name its stored row has. -/
def resolveName (stored : List Folder) (folder : NormalizedFolder) : NormalizedFolder :=
  match storedByKey stored (folderKey folder.name) with
  | none => folder
  | some present => { folder with name := present.name }

/-- The names of discovered folders without a stored row. -/
def freshNames (stored : List Folder) (normalized : List NormalizedFolder) : List String :=
  (normalized.filter fun folder => (storedByKey stored (folderKey folder.name)).isNone).map (·.name)

/-- A folder row as an insertion by name leaves it. -/
def Folder.named (id accountId : Uuid) (name : String) : Folder :=
  ⟨id, accountId, name, none, none, 0, none, none, false⟩

/-- The folders with one more row, unless its name or its identifier is taken. -/
def insertFolder? (folders : Table Folder) (row : Folder) : Option (Table Folder) :=
  if folders.rows.any fun f => f.accountId == row.accountId && f.name == row.name then none
  else folders.insert? row

/-- Insert the fresh folders, doing nothing on a conflict; `newId` gives each row its identifier.
The identifiers of the inserted rows come back. -/
def insertFresh (accountId : Uuid) (newId : ℕ → Uuid) : ℕ → List String → Tx (List Uuid)
  | _, [] => return []
  | n, name :: rest => do
      let db ← get
      match insertFolder? db.folders (Folder.named (newId n) accountId name) with
      | none => insertFresh accountId newId (n + 1) rest
      | some folders => do
          set { db with folders }
          let inserted ← insertFresh accountId newId (n + 1) rest
          return newId n :: inserted

/-- The snapshot of the folders and the reports while the roles are filled. -/
structure RoleFill where
  current : List Folder
  assignedRoles : List (FolderRole × String)
  ambiguousRoles : List FolderRole
  conflicts : List RoleHintConflict
  deriving DecidableEq, Repr

/-- The folders that the hints offer for a role: those without a role, or with this one. -/
def roleCandidates (normalized : List NormalizedFolder) (current : List Folder)
    (role : FolderRole) : List Folder :=
  ((normalized.filter fun folder => role ∈ folder.roles).filterMap fun folder =>
    current.reverse.find? (·.name == folder.name)).filter fun folder =>
      folder.role == none || folder.role == some role

/-- The folder that holds a role. -/
def roleHolder (current : List Folder) (role : FolderRole) : Option Folder :=
  current.reverse.find? (·.role == some role)

/-- Write the role of one folder; an account has one folder for each role. -/
def setRole (folderId : Uuid) (role : Option FolderRole) : Tx Unit := do
  let db ← get
  match db.folders.find? folderId with
  | none => return ()
  | some folder =>
      if role.isSome && db.folders.rows.any (fun f =>
          f.accountId == folder.accountId && f.role == role && f.id != folderId) then
        throw (.uniqueViolation "folders_account_id_role_uidx")
      set { db with
        folders := db.folders.update (·.id == folderId) (fun f => { f with role }) fun _ => rfl }

/-- Fill one role from the hints. -/
def fillRole (normalized : List NormalizedFolder) (fill : RoleFill) (role : FolderRole) :
    Tx RoleFill :=
  match roleCandidates normalized fill.current role, roleHolder fill.current role with
  | [], _ => return fill
  | [candidate], none => do
      setRole candidate.id (some role)
      -- the snapshot that the later roles read agrees with the row
      return { fill with
        current := fill.current.map fun f =>
          if f.id = candidate.id then { f with role := some role } else f
        assignedRoles := fill.assignedRoles ++ [(role, candidate.name)] }
  | [candidate], some holder =>
      return if holder.id = candidate.id then fill
        else { fill with
          conflicts := fill.conflicts ++ [⟨role, holder.name, candidate.name⟩] }
  | _ :: _ :: _, _ => return { fill with ambiguousRoles := fill.ambiguousRoles ++ [role] }

/-- Fill roles one after the other. -/
def fillRoles (normalized : List NormalizedFolder) : RoleFill → List FolderRole → Tx RoleFill
  | fill, [] => return fill
  | fill, role :: rest => do
      let fill ← fillRole normalized fill role
      fillRoles normalized fill rest

/-- The transaction of an import. -/
def importNormalized (s : AccountService) (accountId : Uuid) (newId : ℕ → Uuid)
    (normalized : List NormalizedFolder) : Tx FolderImportResult := do
  lockAccountRow accountId
  let stored ← Tx.read (selectFolders s accountId)
  let resolved := normalized.map (resolveName stored)
  let inserted ← insertFresh accountId newId 0 (freshNames stored normalized)
  let current ← Tx.read (selectFolders s accountId)
  let fill ← fillRoles resolved ⟨current, [], [], []⟩ allRoles
  let finalFolders ← Tx.read (selectFolders s accountId)
  recordAccountEvent "account.folders_imported" accountId
  return {
    created := (finalFolders.filter fun folder => folder.id ∈ inserted).map toFolderSummary
    assignedRoles := fill.assignedRoles
    ambiguousRoles := fill.ambiguousRoles
    conflicts := fill.conflicts
    folders := finalFolders.map toFolderSummary
    pendingRoleChoices := pendingRoleChoices finalFolders }

/-- The recovery gate, before a mutation. -/
def gateMutation (s : AccountService) (requestGeneration : Option Uuid) : Tx Unit := do
  let db ← get
  match MailHub.gateMutation s.generation requestGeneration db with
  | .ok _ => return ()
  | .error e => throw e

/-- Import one discovery run, such as the folder list a connection test reports. -/
def importFolders (s : AccountService) (requestGeneration : Option Uuid) (accountId : Uuid)
    (newId : ℕ → Uuid) (discovered : List DiscoveredFolder) : Tx FolderImportResult := do
  gateMutation s requestGeneration
  requireAccount accountId
  match normalizeDiscoveredFolders discovered with
  | .error e => throw e
  | .ok normalized => importNormalized s accountId newId normalized

/-! ## Manual choices -/

/-- A folder of an account. -/
def lockFolder (accountId folderId : Uuid) : Tx Folder := do
  let db ← get
  match (db.folders.find? folderId).filter (·.accountId == accountId) with
  | none =>
      throw (.account .notFound "No folder of this account exists with that identifier.")
  | some folder => return folder

/-- Assign one role manually; the choice replaces the folder that held the role. -/
def assignFolderRole (s : AccountService) (requestGeneration : Option Uuid)
    (accountId folderId : Uuid) (role : FolderRole) : Tx FolderSummary := do
  gateMutation s requestGeneration
  requireAccount accountId
  lockAccountRow accountId
  let folder ← lockFolder accountId folderId
  if folder.role = some role then
    return toFolderSummary folder
  modify fun db => { db with
    folders := db.folders.update (fun f => f.accountId == accountId && f.role == some role)
      (fun f => { f with role := none }) fun _ => rfl }
  setRole folderId (some role)
  recordAccountEvent "account.folder_role_assigned" accountId
  return toFolderSummary { folder with role := some role }

/-- Remove one folder's role. -/
def clearFolderRole (s : AccountService) (requestGeneration : Option Uuid)
    (accountId folderId : Uuid) : Tx FolderSummary := do
  gateMutation s requestGeneration
  requireAccount accountId
  lockAccountRow accountId
  let folder ← lockFolder accountId folderId
  if folder.role = none then
    return toFolderSummary folder
  setRole folderId none
  recordAccountEvent "account.folder_role_cleared" accountId
  return toFolderSummary { folder with role := none }

end MailHub.Accounts
