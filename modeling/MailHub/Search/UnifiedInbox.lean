import MailHub.Accounts.Folders
import MailHub.Search.Results

/-!
# The unified inbox

The unified inbox reads the first rows of every mapped inbox and merges them with a comparator of
its own. The main result says that the rows it shows are the first rows of all inboxes together in
the order of the server.
-/

namespace MailHub.Search

open MailHub Relational Interleaving Ordering
open MailHub.Accounts (FolderSummary)

/-! ## The client -/

/-- Rows fetched per page. -/
def pageSize : ℕ := 50

/-- The per-request row limit of the API. -/
def requestLimitCap : ℕ := 100

/-- The folders of each account, as the client resolved them; an account has one entry. -/
structure FolderIndex where
  entries : List (Uuid × List FolderSummary)
  nodup : (entries.map (·.1)).Nodup

/-- The folder one account mapped to a role, when the role is mapped. -/
def folderForRole (folders : List FolderSummary) (role : FolderRole) : Option FolderSummary :=
  folders.find? (·.role == some role)

/-- The accounts with a mapped inbox, each with its inbox folder. -/
def FolderIndex.inboxes (index : FolderIndex) : List (Uuid × Uuid) :=
  index.entries.filterMap fun entry =>
    (folderForRole entry.2 .inbox).map fun inbox => (entry.1, inbox.id)

/-- The row order of the server, mirrored for merges; an absent date counts as the epoch. -/
def compareItems (a b : SearchHit) : Ordering :=
  let byDate :=
    let at_ := a.sentAt.getD 0
    let bt := b.sentAt.getD 0
    if at_ ≠ bt then compare bt at_ else compare a.messageId b.messageId
  match a.rank, b.rank with
  | some x, some y => if x ≠ y then compare y x else byDate
  | some _, none => .lt
  | none, some _ => .gt
  | none, none => byDate

/-- The rows without a second row of one message. -/
def dedupe (rows : List SearchHit) : List SearchHit :=
  rows.foldl (fun kept row =>
    if kept.any (·.messageId == row.messageId) then kept else kept ++ [row]) []

/-- What one read of the unified inbox shows. -/
structure MessageList where
  rows : List SearchHit
  total : ℕ
  indexing : IndexingProgress
  deriving DecidableEq, Repr

/-- The read of one inbox. -/
def searchInbox (u : Unicode) (t : TextSearch) (query : String) (windowRows : ℕ) (db : Database)
    (inbox : Uuid × Uuid) : Except SearchError SearchResult :=
  let input : SearchInput :=
    { query := query
      accountIds := some [inbox.1]
      folderId := some inbox.2
      limit := some windowRows
      offset := some 0 }
  search u t input db

/-- Read the unified inbox for a number of pages. -/
def unifiedInbox (u : Unicode) (t : TextSearch) (index : FolderIndex) (query : String)
    (pages : ℕ) (db : Database) : Except SearchError MessageList := do
  let windowRows := min (pages * pageSize) requestLimitCap
  let responses ← index.inboxes.mapM (searchInbox u t (trim query) windowRows db)
  let merged := (dedupe (responses.flatMap (·.results))).insertionSort fun a b =>
    compareItems a b ≠ .gt
  return {
    rows := merged.take (pages * pageSize)
    total := (responses.map (·.total)).sum
    indexing := ⟨(responses.map (·.indexing.messages)).sum,
      (responses.map (·.indexing.bodies)).sum⟩ }

/-- Whether the list offers one more page. -/
def canLoadMore (list : MessageList) (pages : ℕ) : Bool :=
  list.rows.length < list.total && pages * pageSize < requestLimitCap

/-- The pages the client asks for: the first, and one more where the list it shows offers it. -/
inductive Asks : ℕ → Prop
  | first : Asks 1
  | more {pages : ℕ} (list : MessageList) (h : Asks pages)
      (hmore : canLoadMore list pages = true) : Asks (pages + 1)

/-- A window that the client asks for is not larger than one request allows. -/
theorem Asks.bounds {pages : ℕ} (h : Asks pages) :
    1 ≤ pages ∧ pages * pageSize ≤ requestLimitCap := by
  induction h with
  | first => decide
  | more list _ hmore ih =>
      unfold canLoadMore at hmore
      rw [Bool.and_eq_true, decide_eq_true_eq, decide_eq_true_eq] at hmore
      have hcap := hmore.2
      unfold pageSize requestLimitCap at hcap ⊢
      omega

/-! ## The two orders -/

variable {a b h : SearchHit} {db : Database} {u : Unicode} {t : TextSearch}
variable {parsed : ParsedSearchQuery}

/-- A row that both orders place alike: it has a date. -/
def Dated (h : SearchHit) : Prop := h.sentAt.isSome = true

theorem compare_ne_gt {κ : Type} [LinearOrder κ] {x y : κ} : compare x y ≠ .gt ↔ x ≤ y := by
  rw [Ne, compare_gt_iff_gt, not_lt]

/-- The comparator of the client is the order of the server on dated rows. -/
theorem compareItems_iff (ha : Dated a) (hb : Dated b) :
    compareItems a b ≠ .gt ↔ a.place ≤ b.place := by
  obtain ⟨x, hx⟩ := Option.isSome_iff_exists.mp ha
  obtain ⟨y, hy⟩ := Option.isSome_iff_exists.mp hb
  have hdate : (if x ≠ y then compare y x else compare a.messageId b.messageId) ≠ .gt ↔
      toLex (toLex (false, OrderDual.toDual x), a.messageId) ≤
        toLex (toLex (false, OrderDual.toDual y), b.messageId) := by
    rw [Prod.Lex.toLex_le_toLex, Prod.Lex.toLex_lt_toLex]
    by_cases hxy : x = y
    · subst hxy
      simp [compare_ne_gt]
    · rw [if_pos hxy, compare_ne_gt]
      have hne : y ≤ x ↔ y < x := ⟨fun hle => lt_of_le_of_ne hle (Ne.symm hxy), le_of_lt⟩
      simp [hxy, hne]
  unfold compareItems SearchHit.place
  rw [hx, hy]
  simp only [Option.getD_some, Option.isNone_some]
  cases hrank : a.rank with
  | none =>
      cases hrank' : b.rank with
      | none =>
          rw [Prod.Lex.toLex_le_toLex]
          simpa using hdate
      | some r =>
          simp [Prod.Lex.toLex_le_toLex, Prod.Lex.toLex_lt_toLex]
  | some q =>
      cases hrank' : b.rank with
      | none =>
          simp [Prod.Lex.toLex_le_toLex, Prod.Lex.toLex_lt_toLex]
      | some r =>
          by_cases hqr : q = r
          · subst hqr
            simpa [Prod.Lex.toLex_le_toLex, Prod.Lex.toLex_lt_toLex] using hdate
          · have hne : r ≤ q ↔ r < q := ⟨fun hle => lt_of_le_of_ne hle (Ne.symm hqr), le_of_lt⟩
            simp [Prod.Lex.toLex_le_toLex, Prod.Lex.toLex_lt_toLex, hqr, compare_ne_gt, hne]

/-! ## The rows of the inboxes -/

/-- The scope of the read of one inbox. -/
def inboxScope (inbox : Uuid × Uuid) : SearchScope := ⟨some [inbox.1], some inbox.2, [], false⟩

/-- The rows of one inbox. -/
def inboxHits (u : Unicode) (t : TextSearch) (parsed : ParsedSearchQuery) (db : Database)
    (inbox : Uuid × Uuid) : List SearchHit :=
  hits u t parsed (inboxScope inbox) db

theorem mem_inboxHits {inbox : Uuid × Uuid} (hh : h ∈ inboxHits u t parsed db inbox) :
    ∃ m ∈ db.messages, m.accountId = inbox.1 ∧ (scopeOccurrences (some inbox.2) db m) ≠ [] ∧
      h = toHit t parsed (some inbox.2) db m := by
  obtain ⟨m, hm, rfl⟩ := List.mem_map.mp hh
  obtain ⟨hstored, hselected⟩ := List.mem_filter.mp hm
  unfold selects inboxScope at hselected
  simp only [Bool.and_eq_true] at hselected
  obtain ⟨⟨⟨-, haccount⟩, hscope⟩, -⟩ := hselected
  refine ⟨m, hstored, by simpa using haccount, ?_, rfl⟩
  intro hnil
  rw [hnil] at hscope
  cases hscope

/-- A row of an inbox has an occurrence, so it has a date. -/
theorem dated_of_mem {inbox : Uuid × Uuid} (hh : h ∈ inboxHits u t parsed db inbox) : Dated h := by
  obtain ⟨m, -, -, hscope, rfl⟩ := mem_inboxHits hh
  obtain ⟨o, ho⟩ := List.exists_mem_of_ne_nil _ hscope
  have hmem : o.internalDate ∈
      (db.messageOccurrences.select (·.messageId == m.id)).map (·.internalDate) := by
    obtain ⟨hstored, hselected⟩ := List.mem_filter.mp ho
    rw [Bool.and_eq_true, Bool.and_eq_true] at hselected
    exact List.mem_map_of_mem (List.mem_filter.mpr ⟨hstored, hselected.1.1⟩)
  unfold Dated toHit effectiveAt
  cases m.sentAt with
  | some sentAt => rfl
  | none => exact List.isSome_min?_of_mem hmem

/-- The inboxes belong to accounts of their own. -/
theorem inboxes_nodup (index : FolderIndex) : (index.inboxes.map (·.1)).Nodup := by
  have hsub : (index.inboxes.map (·.1)).Sublist (index.entries.map (·.1)) := by
    unfold FolderIndex.inboxes
    induction index.entries with
    | nil => exact List.Sublist.slnil
    | cons entry rest ih =>
        rw [List.filterMap_cons, List.map_cons]
        cases folderForRole entry.2 .inbox with
        | none => exact ih.cons _
        | some inbox => exact ih.cons_cons _
  exact index.nodup.sublist hsub

/-- The rows of all inboxes belong to messages of their own. -/
theorem inboxHits_nodup {inboxes : List (Uuid × Uuid)} (h : (inboxes.map (·.1)).Nodup) :
    ((inboxes.flatMap (inboxHits u t parsed db)).map (·.messageId)).Nodup := by
  induction inboxes with
  | nil => exact List.nodup_nil
  | cons inbox rest ih =>
      obtain ⟨hfirst, hrest⟩ := List.nodup_cons.mp h
      rw [List.flatMap_cons, List.map_append, List.nodup_append]
      refine ⟨?_, ih hrest, ?_⟩
      · unfold inboxHits hits
        rw [List.map_map]
        exact db.messages.nodup.sublist (List.filter_sublist.map _)
      · rintro id hid id' hid' rfl
        obtain ⟨h₁, hh₁, rfl⟩ := List.mem_map.mp hid
        obtain ⟨h₂, hh₂, hsame⟩ := List.mem_map.mp hid'
        obtain ⟨other, hother, hh₂⟩ := List.mem_flatMap.mp hh₂
        obtain ⟨m₁, hm₁, haccount₁, -, rfl⟩ := mem_inboxHits hh₁
        obtain ⟨m₂, hm₂, haccount₂, -, rfl⟩ := mem_inboxHits hh₂
        have heq : m₂ = m₁ := db.messages.eq_of_key_eq hm₂ hm₁ hsame
        have hinbox : inbox.1 = other.1 := by rw [← haccount₁, ← heq, haccount₂]
        have hmem : other.1 ∈ rest.map (·.1) := List.mem_map_of_mem hother
        rw [← hinbox] at hmem
        exact hfirst hmem

theorem placed_of_nodup {rows : List SearchHit} (h : (rows.map (·.messageId)).Nodup) :
    Placed SearchHit.place rows := by
  refine (List.pairwise_map.mp h).imp fun hne heq => hne ?_
  have hlast := (Prod.mk.inj (toLex.injective heq)).2
  exact (Prod.mk.inj (toLex.injective hlast)).2

/-- Rows of messages of their own are all kept. -/
theorem dedupe_eq {rows : List SearchHit} (h : (rows.map (·.messageId)).Nodup) :
    dedupe rows = rows := by
  have hfold : ∀ (rows kept : List SearchHit), ((kept ++ rows).map (·.messageId)).Nodup →
      rows.foldl (fun kept row =>
        if kept.any (·.messageId == row.messageId) then kept else kept ++ [row]) kept =
          kept ++ rows := by
    intro rows
    induction rows with
    | nil =>
        intro kept _
        exact (List.append_nil kept).symm
    | cons row rest ih =>
        intro kept hkept
        have hnew : kept.any (·.messageId == row.messageId) = false := by
          rw [List.any_eq_false]
          intro k hk hsame
          rw [List.map_append, List.nodup_append] at hkept
          exact hkept.2.2 _ (List.mem_map_of_mem hk) _ (List.mem_map_of_mem List.mem_cons_self)
            (beq_iff_eq.mp hsame)
        rw [List.foldl_cons, hnew, if_neg Bool.false_ne_true, ih (kept ++ [row])
          (by rwa [List.append_assoc]), List.append_assoc]
        rfl
  exact hfold rows [] h

/-! ## One read -/

/-- A query that the server accepts. -/
def acceptQuery (u : Unicode) (query : String) : Except SearchError ParsedSearchQuery := do
  let text ← readQueryText query
  parseSearchQuery u text

/-- The first rows of one inbox, in the order of the server. -/
def firstRows (u : Unicode) (t : TextSearch) (parsed : ParsedSearchQuery) (windowRows : ℕ)
    (db : Database) (inbox : Uuid × Uuid) : List SearchHit :=
  (sortBy SearchHit.place (inboxHits u t parsed db inbox)).take windowRows

/-- The read of one inbox answers with its first rows. -/
theorem searchInbox_eq {query : String} {windowRows : ℕ} (hpositive : 1 ≤ windowRows)
    (hcap : windowRows ≤ requestLimitCap) (hquery : acceptQuery u query = .ok parsed)
    (inbox : Uuid × Uuid) :
    ∃ response, searchInbox u t query windowRows db inbox = .ok response ∧
      response.results = firstRows u t parsed windowRows db inbox := by
  obtain ⟨text, htext, hparsed⟩ := bind_eq_ok.mp hquery
  have hwithin : ¬(windowRows < 1 ∨ maxSearchLimit < windowRows) := by
    unfold maxSearchLimit
    unfold requestLimitCap at hcap
    omega
  have hlimit : readLimit (some windowRows) = .ok windowRows := by
    unfold readLimit
    simp only [hwithin, if_false]
  refine ⟨⟨firstRows u t parsed windowRows db inbox, (inboxHits u t parsed db inbox).length,
    bodyIndexingProgress (some [inbox.1]) db⟩, ?_, rfl⟩
  have hrows : (sortBy SearchHit.place (inboxHits u t parsed db inbox)).length =
      (inboxHits u t parsed db inbox).length := sortBy_perm.length_eq
  rw [← hrows]
  unfold searchInbox search
  simp only [htext, hparsed, hlimit, ok_bind]
  rfl

/-- The reads of the inboxes answer with the first rows of each. -/
theorem searchInboxes_eq {query : String} {windowRows : ℕ} (hpositive : 1 ≤ windowRows)
    (hcap : windowRows ≤ requestLimitCap) (hquery : acceptQuery u query = .ok parsed)
    (inboxes : List (Uuid × Uuid)) :
    ∃ responses, inboxes.mapM (searchInbox u t query windowRows db) = .ok responses ∧
      responses.flatMap (·.results) = inboxes.flatMap (firstRows u t parsed windowRows db) := by
  induction inboxes with
  | nil => exact ⟨[], rfl, rfl⟩
  | cons inbox rest ih =>
      obtain ⟨response, hresponse, hfirst⟩ := searchInbox_eq hpositive hcap hquery inbox
      obtain ⟨responses, hresponses, hrest⟩ := ih
      refine ⟨response :: responses, ?_, ?_⟩
      · rw [List.mapM_cons, hresponse, hresponses]
        rfl
      · rw [List.flatMap_cons, List.flatMap_cons, hfirst, hrest]

/-- The first rows of the inboxes are rows of the inboxes. -/
theorem firstRows_subperm {windowRows : ℕ} (inboxes : List (Uuid × Uuid)) :
    List.Subperm (inboxes.flatMap (firstRows u t parsed windowRows db))
      (inboxes.flatMap (inboxHits u t parsed db)) := by
  induction inboxes with
  | nil => exact List.Subperm.refl _
  | cons inbox rest ih =>
      have hfirst : List.Subperm (firstRows u t parsed windowRows db inbox)
          (inboxHits u t parsed db inbox) :=
        (List.take_sublist _ _).subperm.trans sortBy_perm.subperm
      rw [List.flatMap_cons, List.flatMap_cons]
      exact hfirst.append ih

/-- **The unified inbox shows the first rows of all inboxes.** For every window the client asks for
and every query the server accepts, the rows it shows are the first rows of all inboxes together,
in the order of the server. -/
theorem unifiedInbox_rows {index : FolderIndex} {query : String} {pages : ℕ} (hasks : Asks pages)
    (hquery : acceptQuery u (trim query) = .ok parsed) :
    ∃ list, unifiedInbox u t index query pages db = .ok list ∧
      list.rows = (sortBy SearchHit.place
        (index.inboxes.flatMap (inboxHits u t parsed db))).take (pages * pageSize) := by
  obtain ⟨hpages, hcap⟩ := hasks.bounds
  have hpositive : 1 ≤ pages * pageSize := by
    unfold pageSize
    omega
  have hwindow : min (pages * pageSize) requestLimitCap = pages * pageSize := Nat.min_eq_left hcap
  obtain ⟨responses, hresponses, hrows⟩ := searchInboxes_eq hpositive hcap hquery index.inboxes
  have hall : ((index.inboxes.flatMap (inboxHits u t parsed db)).map (·.messageId)).Nodup :=
    inboxHits_nodup (inboxes_nodup index)
  have hplaced := placed_of_nodup hall
  have hsub : List.Subperm (index.inboxes.flatMap (firstRows u t parsed (pages * pageSize) db))
      (index.inboxes.flatMap (inboxHits u t parsed db)) := firstRows_subperm index.inboxes
  have hkept : ((responses.flatMap (·.results)).map (·.messageId)).Nodup := by
    rw [hrows]
    obtain ⟨l, hperm, hl⟩ := hsub
    exact (hperm.map _).nodup_iff.mp (hall.sublist (hl.map _))
  have hdated : ∀ a ∈ responses.flatMap (·.results), Dated a := by
    intro a ha
    rw [hrows] at ha
    obtain ⟨inbox, -, hmem⟩ := List.mem_flatMap.mp (hsub.subset ha)
    exact dated_of_mem hmem
  have hlist : ∃ list, unifiedInbox u t index query pages db = .ok list ∧
      list.rows = ((dedupe (responses.flatMap (·.results))).insertionSort fun a b =>
        compareItems a b ≠ .gt).take (pages * pageSize) := by
    unfold unifiedInbox
    simp only [hwindow, hresponses, ok_bind]
    exact ⟨_, rfl, rfl⟩
  obtain ⟨list, hread, hlist⟩ := hlist
  have hsorted : ((responses.flatMap (·.results)).insertionSort fun a b => compareItems a b ≠ .gt) =
      sortBy SearchHit.place (responses.flatMap (·.results)) :=
    insertionSort_eq_sortBy fun a ha b hb => compareItems_iff (hdated a ha) (hdated b hb)
  rw [List.flatMap_def] at hplaced
  have hmerge := take_sortBy_flatMap hplaced (Nat.le_refl (pages * pageSize))
  rw [List.flatMap_map, ← List.flatMap_def] at hmerge
  refine ⟨list, hread, ?_⟩
  rw [hlist, dedupe_eq hkept, hsorted, hrows]
  exact hmerge

/-! ## A sample -/

/-- Two accounts, each with one message in its inbox. -/
def twoInboxes : Database :=
  { Database.empty with
    accounts := (Table.empty.put ⟨1, [], true⟩).put ⟨2, [], true⟩
    folders := (Table.empty.put ⟨1, 1, "INBOX", some .inbox, some 1, 0, none, none, false⟩).put
      ⟨2, 2, "INBOX", some .inbox, some 1, 0, none, none, false⟩
    messages := (Table.empty.put (Message.bare 1 1 0)).put (Message.bare 2 2 0)
    messageOccurrences :=
      (Table.empty.put ⟨1, 1, 1, 1, 1, 1, 5, true, false, none, 1, none, none⟩).put
        ⟨2, 2, 2, 2, 1, 1, 9, true, false, none, 1, none, none⟩ }

/-- The folders of the two accounts. -/
def twoFolders : FolderIndex where
  entries := [(1, [⟨1, "INBOX", some .inbox⟩]), (2, [⟨2, "INBOX", some .inbox⟩])]
  nodup := by decide

theorem unifiedInbox_rows_sample :
    ∃ list, unifiedInbox sampleUnicode ⟨fun _ _ => true, fun _ _ => 1, fun _ _ => none,
        fun _ _ => none⟩ twoFolders " hello " 1 twoInboxes = .ok list ∧
      list.rows.map (·.messageId) = [2, 1] := by
  have hquery : acceptQuery sampleUnicode (trim " hello ") =
      .ok { emptyQuery with text := "hello" } := rfl
  obtain ⟨list, hread, hrows⟩ := unifiedInbox_rows (t := ⟨fun _ _ => true, fun _ _ => 1,
    fun _ _ => none, fun _ _ => none⟩) (u := sampleUnicode) Asks.first hquery
  refine ⟨list, hread, ?_⟩
  rw [hrows]
  decide +kernel

end MailHub.Search
