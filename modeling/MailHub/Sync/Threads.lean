import MailHub.Ingestion.ThreadJobs

/-!
# Parent references

A message's parent comes only from its identifiers: the single identifier of `In-Reply-To`, or when
that is absent the last identifier of `References`. The link of a row is decided again when the row
is marked, so a change of the holders of an identifier must mark every row whose decision reads
them. The identifiers are extracted by a scan of the raw text here, and looked for by pattern in
the marking; the main result is that the second finds everything the first can.
-/

namespace MailHub

open Relational Interleaving

/-- What a message's reference headers resolve to, before holders are known. -/
inductive ParentReference
  | root
  /-- Exactly one candidate identifier; holder lookup decides the rest. -/
  | candidate (identifier : String)
  /-- More than one parent identifier; no safe choice exists. -/
  | conflicted
  deriving DecidableEq, Repr

/-- Resolve the parent reference of one message: the single identifier of `In-Reply-To`, otherwise
the last identifier of `References`, otherwise a root. -/
def resolveParentReference (inReplyTo : Option String) (referenceIds : List String) :
    ParentReference :=
  match extractMessageIds inReplyTo with
  | _ :: _ :: _ => .conflicted
  | [reply] => .candidate reply
  | [] =>
      match (referenceIds.flatMap fun id => extractMessageIds (some id)).getLast? with
      | none => .root
      | some last => .candidate last

/-- The identifiers whose holders the link of a message depends on: its candidate, or the set of
conflicting ones. -/
def parentIdentifiers (m : Message) : List String :=
  match resolveParentReference m.inReplyTo m.referenceIds with
  | .root => []
  | .candidate identifier => [identifier]
  | .conflicted => extractMessageIds m.inReplyTo

/-- What the link of a message depends on is extracted from one of its raw reference texts. -/
theorem extracted_of_mem_parentIdentifiers {m : Message} {identifier : String}
    (h : identifier ∈ parentIdentifiers m) :
    ∃ raw, (m.inReplyTo = some raw ∨ raw ∈ m.referenceIds) ∧
      identifier ∈ extractMessageIds (some raw) := by
  -- An identifier of the reply header comes from a header that is there.
  have hreply : identifier ∈ extractMessageIds m.inReplyTo →
      ∃ raw, (m.inReplyTo = some raw ∨ raw ∈ m.referenceIds) ∧
        identifier ∈ extractMessageIds (some raw) := by
    intro hmem
    cases hraw : m.inReplyTo with
    | none =>
        rw [hraw] at hmem
        cases hmem
    | some raw => exact ⟨raw, .inl rfl, hraw ▸ hmem⟩
  unfold parentIdentifiers resolveParentReference at h
  cases hids : extractMessageIds m.inReplyTo with
  | nil =>
      rw [hids] at h
      dsimp only at h
      cases hlast : (m.referenceIds.flatMap fun id => extractMessageIds (some id)).getLast? with
      | none =>
          rw [hlast] at h
          cases h
      | some last =>
          rw [hlast] at h
          obtain rfl := List.mem_singleton.mp h
          obtain ⟨raw, hraw, hmem⟩ := List.mem_flatMap.mp (List.mem_of_getLast? hlast)
          exact ⟨raw, .inr hraw, hmem⟩
  | cons reply rest =>
      refine hreply ?_
      rw [hids] at h ⊢
      cases rest with
      | nil => exact h
      | cons second rest => exact h

/-- A marking selects every row of its account whose link depends on one of its identifiers. -/
theorem marks_of_mem_parentIdentifiers {accountId : Uuid} {marking : ThreadJobMarking}
    {m : Message} {identifier : String} (hmarking : some identifier ∈ marking.identifiers)
    (haccount : m.accountId = accountId) (h : identifier ∈ parentIdentifiers m) :
    marking.marks accountId m = true := by
  obtain ⟨raw, hraw, hmem⟩ := extracted_of_mem_parentIdentifiers h
  obtain ⟨hidentifier, hinfix⟩ := mem_extractMessageIds_iff.mp hmem
  have hpresent : identifier ∈ marking.present := by
    unfold ThreadJobMarking.present
    rw [List.mem_filter, List.mem_filterMap, decide_eq_true_eq]
    exact ⟨⟨some identifier, hmarking, rfl⟩, hidentifier.ne_empty⟩
  have hreferences : referencesIdentifier marking.present m = true :=
    referencesIdentifier_iff.mpr ⟨raw, hraw, identifier, hpresent, hinfix⟩
  unfold ThreadJobMarking.marks
  rw [haccount, beq_self_eq_true, hreferences, Bool.or_true, Bool.and_true]

/-- Marking is complete: whatever the database holds and whatever else the marking names, a marking
with an identifier succeeds and makes a job of every row of the account whose parent reference is
that candidate, or a conflict that contains it. -/
theorem marking_complete (db : Database) (accountId : Uuid) (marking : ThreadJobMarking)
    {identifier : String} (hmarking : some identifier ∈ marking.identifiers) :
    ∃ db', (markThreadJobsDirty accountId marking).run db = .ok ((), db') ∧
      ∀ m ∈ db.messages, m.accountId = accountId → identifier ∈ parentIdentifiers m →
        { m with threadDirty := true } ∈ db'.messages := by
  refine ⟨_, markThreadJobsDirty_run accountId marking db, fun m hm haccount h => ?_⟩
  have hmarks := marks_of_mem_parentIdentifiers hmarking haccount h
  refine mem_markDirty.mpr ⟨m, hm, ?_⟩
  rw [if_pos hmarks]

/-- A reply whose header folds a comment around an identifier full of wildcards. -/
def sampleWildcardReply : Message :=
  { Message.bare 7 1 0 with
    inReplyTo := some "<(100% \\_note) <50%_off\\@shop>>"
    threadDirty := false }

/-- Marking the identifier makes a job of the row that names it inside a comment. -/
theorem marking_complete_sample :
    parentIdentifiers sampleWildcardReply = ["<50%_off\\@shop>"] ∧
      ∃ db', (markThreadJobsDirty 1 ⟨[], [none, some "<50%_off\\@shop>"]⟩).run
          { Database.empty with messages := Table.empty.put sampleWildcardReply } = .ok ((), db') ∧
        { sampleWildcardReply with threadDirty := true } ∈ db'.messages := by
  have hparent : parentIdentifiers sampleWildcardReply = ["<50%_off\\@shop>"] := by
    decide +kernel
  refine ⟨hparent, ?_⟩
  obtain ⟨db', hrun, hmarked⟩ : ∃ db', _ ∧ _ := marking_complete
    { Database.empty with messages := Table.empty.put sampleWildcardReply } 1
    ⟨[], [none, some "<50%_off\\@shop>"]⟩ (List.mem_cons_of_mem _ List.mem_cons_self)
  refine ⟨db', hrun, hmarked _ (Table.mem_put.mpr (.inr rfl)) rfl ?_⟩
  rw [hparent]
  exact List.mem_singleton_self _

end MailHub
