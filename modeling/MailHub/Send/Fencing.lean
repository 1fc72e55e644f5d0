import MailHub.Send.Runs

/-!
# Fencing of the Sent append

A worker concludes the append attempt that it claimed. The guard of the conclusion is the status
`appending` and not the claim itself, so a worker whose claim expired and was taken again by
another concludes the attempt of the other. It concludes only its own as long as no row is claimed
while another live worker is still at an attempt on it.
-/

namespace MailHub

open Relational Interleaving

variable {libs : Libraries} {c₀ c : Config mailSignature MailLog}

/-! ## Conclusions -/

/-- What a moment of a run promises about the conclusions that come next. -/
structure ConclusionsFenced (libs : Libraries) (c : Config mailSignature MailLog) : Prop where
  /-- A conclusion takes effect only on its row and under the claim that its worker holds. -/
  claimed : ∀ i o c', c.standsAt i = some (.concludeSentCopy o) →
    c.fire (mailSystem libs) (.commit i) = some c' → ∀ o',
      c'.world.store.outboundMessages.find? o' ≠ c.world.store.outboundMessages.find? o' →
        o' = o ∧ isAppending o c.world.store = true ∧ c.world.outside.copyClaimant o = some i
  /-- What is recorded without a claim leaves every claimed row alone. -/
  unclaimed : ∀ i o c', c.standsAt i = some (.recordSentCopy o) →
    c.fire (mailSystem libs) (.commit i) = some c' → ∀ o',
      c'.world.store.outboundMessages.find? o' ≠ c.world.store.outboundMessages.find? o' →
        isAppending o' c.world.store = false

/-- The runs in which a Sent copy changes hands only when no other live worker is at it. -/
def attended : Policy mailSignature MailLog := ⟨Unattended, fun _ _ _ _ => True⟩

/-- A worker that does not stand at an append claim commits under the fence. -/
theorem fenced_of_fire {c' : Config mailSignature MailLog} {i : ℕ} {tag : MailTag}
    (hc : c.Sound (mailDiscipline libs True)) (htag : c.standsAt i = some tag)
    (hclaim : ∀ o, tag ≠ .claimSentCopy o)
    (hfire : c.fire (mailSystem libs) (.commit i) = some c') :
    c'.world.store = c.world.store ∨ Fenced i (some tag) c.world
      (Config.committed (mailSystem libs) c.world i (some tag) c'.world.store) := by
  obtain ⟨β, f, k, hp⟩ := Config.standsAt_eq_some htag
  have hmeets : (mailDiscipline libs True).assumes.Meets (mailSystem libs) c (.commit i) := by
    intro β' tag' f' k' b s hp' _ _ o ho
    obtain ⟨-, rfl, -⟩ : β = β' ∧ some tag = tag' ∧ HEq f f' ∧ HEq k k' := by
      simpa using hp.symm.trans hp'
    exact absurd (Option.some.inj ho) (hclaim o)
  have hens := (hc.fire (fun op _ w => (quiet_run op).safe w trivial) hmeets hfire).2
  rcases Config.fire_store hfire with hsame | ⟨j, hj, β', tag', f', k', b, hp', hf⟩
  · exact .inl hsame
  · obtain rfl : i = j := by simpa using hj
    obtain ⟨-, rfl, -⟩ : β = β' ∧ some tag = tag' ∧ HEq f f' ∧ HEq k k' := by
      simpa using hp.symm.trans hp'
    exact .inr ((hens β' _ f' k' b _ hp' hf).2.2 trivial)

theorem conclusions_fenced (h₀ : MailStart c₀) (h : Reaches (mailSystem libs) attended c₀ c) :
    ConclusionsFenced libs c := by
  have hc : c.Sound (mailDiscipline libs True) :=
    mail_sound h₀ (h.mono (fun _ _ _ _ hu _ => hu) fun _ _ _ _ => id)
  refine ⟨fun i o c' ho hfire o' hne => ?_, fun i o c' ho hfire o' hne => ?_⟩
  · rcases fenced_of_fire hc ho (by simp) hfire with hsame | hf
    · exact absurd (by rw [hsame]) hne
    · exact hf.claimed o rfl o' hne
  · rcases fenced_of_fire hc ho (by simp) hfire with hsame | hf
    · exact absurd (by rw [hsame]) hne
    · exact hf.unclaimed o rfl o' hne

/-! ## Samples -/

/-- The answers up to the conclusion of an append: the server refuses it. -/
def sampleAppend (i : ℕ) : List (Event (mailSystem sampleLibraries)) :=
  [.answer i (sampleReply 14), .answer i (sampleReply 0), .answer i (sampleReply 0),
    .answer i (sampleReply 0), .answer i (sampleReply 0)]

/-- A worker up to its append claim of row 12. -/
def sampleClaim (i : ℕ) (now : Time) : List (Event (mailSystem sampleLibraries)) :=
  [.spawn (.executeSentCopyAppend sampleProcess 12), .commit i, .commit i, .commit i,
    .answer i (sampleReply now), .commit i]

/-- Workers 3 and 5 claim the Sent copy of row 12 one after the other; between them worker 4 holds
the first attempt, whose lease expired. Then worker 3 goes on. -/
def sampleExpiry : List (Event (mailSystem sampleLibraries)) :=
  sampleClaim 3 0 ++
    [.spawn (.recoverAbandonedAttempts sampleProcess), .commit 4, .answer 4 (sampleReply 600001),
      .commit 4, .commit 4, .commit 4] ++
    sampleClaim 5 600001 ++ sampleAppend 3

/-- What the samples show of a moment. -/
structure CopyView where
  /-- The state of every Sent copy. -/
  copies : List (Uuid × SentCopyStatus)
  /-- The worker that last claimed the copy of row 12. -/
  claimant : Option ℕ
  /-- What worker 3 is about to commit. -/
  next : Option MailTag
  deriving DecidableEq

/-- The view of one moment. -/
def copyView (c : Config mailSignature MailLog) : CopyView where
  copies := c.world.store.outboundMessages.rows.map fun row => (row.id, row.sentCopyStatus)
  claimant := c.world.outside.copyClaimant 12
  next := c.standsAt 3

/-- Worker 3 concludes the attempt that worker 5 claimed after the lease of worker 3 expired. -/
theorem conclusion_unfenced : ∃ c c',
    sampleStart.run (mailSystem sampleLibraries) (sampleQueue ++ sampleAccept ++ sampleExpiry) =
        some c ∧
      c.fire (mailSystem sampleLibraries) (.commit 3) = some c' ∧
      copyView c = ⟨[(12, .appending)], some 5, some (.concludeSentCopy 12)⟩ ∧
      copyView c' = ⟨[(12, .failed)], some 5, none⟩ := by
  have h : ((sampleStart.run (mailSystem sampleLibraries)
      (sampleQueue ++ sampleAccept ++ sampleExpiry)).bind fun c =>
        (c.fire (mailSystem sampleLibraries) (.commit 3)).map fun c' => (copyView c, copyView c')) =
      some (⟨[(12, .appending)], some 5, some (.concludeSentCopy 12)⟩,
        ⟨[(12, .failed)], some 5, none⟩) := by decide +kernel
  obtain ⟨c, hrun, hc⟩ := Option.bind_eq_some_iff.mp h
  obtain ⟨c', hfire, hview⟩ := Option.map_eq_some_iff.mp hc
  obtain ⟨hbefore, hafter⟩ := Prod.mk.inj hview
  exact ⟨c, c', hrun, hfire, hbefore, hafter⟩

/-- Whether an event claims no Sent copy that a live worker is still at. -/
def claimsUnattended (c : Config mailSignature MailLog) : Event (mailSystem libs) → Bool
  | .commit i => match c.standsAt i with
      | some (.claimSentCopy o) => c.world.outside.attempts.all fun a => a.2 != o || a.1 == i
      | _ => true
  | _ => true

theorem attended_of_claimsUnattended {c : Config mailSignature MailLog}
    {e : Event (mailSystem libs)} (h : claimsUnattended c e = true) :
    attended.Meets (mailSystem libs) c e := by
  cases e with
  | commit i =>
      intro β tag f k b s hp _ o htag _ _ j hj
      subst htag
      have hat : c.standsAt i = some (.claimSentCopy o) := by simp [Config.standsAt, hp]
      simp only [claimsUnattended, hat, List.all_eq_true] at h
      simpa using h (j, o) hj
  | answer i r => exact fun _ _ _ _ _ => trivial
  | spawn op | abort i e | stop i | tick t => trivial

/-- A lone worker claims the Sent copy of row 12, and its conclusion is fenced. -/
theorem conclusions_fenced_sample : ∃ c,
    Reaches (mailSystem sampleLibraries) attended sampleStart c ∧
      copyView c = ⟨[(12, .appending)], some 3, some (.concludeSentCopy 12)⟩ ∧
      ConclusionsFenced sampleLibraries c := by
  have h : (sampleStart.runChecked (mailSystem sampleLibraries) claimsUnattended
      (sampleQueue ++ sampleAccept ++ sampleClaim 3 0 ++ sampleAppend 3)).map copyView =
      some ⟨[(12, .appending)], some 3, some (.concludeSentCopy 12)⟩ := by decide +kernel
  obtain ⟨c, hrun, hview⟩ := Option.map_eq_some_iff.mp h
  have hreach := Reaches.of_runChecked (fun _ _ => attended_of_claimsUnattended) hrun
  exact ⟨c, hreach, hview, conclusions_fenced sampleStart_start hreach⟩

end MailHub
