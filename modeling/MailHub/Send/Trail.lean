import MailHub.Send.Runs

/-!
# The audit trail of every run

Over any run the send events of a row are what the changes of the row owe, in order, and a commit
that changes no row records none. Runs in which an unclassified outcome is recorded for a row that
has left `sending` are left out.
-/

namespace MailHub

open Relational Interleaving

variable {libs : Libraries} {c₀ c c' : Config mailSignature MailLog}

/-! ## Runs -/

/-- An unclassified outcome is recorded only while its row is being sent. -/
def unknownsApply (c : Config mailSignature MailLog) : Event (mailSystem libs) → Bool
  | .commit i =>
      match c.standsAt i with
      | some (.recordUnknown o) => isSending o c.world.store
      | _ => true
  | _ => true

/-- One event records for a row what the change of the row owes. -/
theorem audited_of_fire {e : Event (mailSystem libs)} (hc : c.Sound (mailDiscipline libs False))
    (hpass : unknownsApply c e = true) (hfire : c.fire (mailSystem libs) e = some c') :
    Audited c.world.store c'.world.store := by
  have hmeets : (mailDiscipline libs False).assumes.Meets (mailSystem libs) c e := by
    cases e with
    | commit i => exact fun _ _ _ _ _ _ _ _ => False.elim
    | answer i r => exact fun _ _ _ _ _ => trivial
    | spawn op | abort i e | stop i | tick t => trivial
  have hens := (hc.fire (fun op _ w => (quiet_run op).safe w trivial) hmeets hfire).2
  rcases Config.fire_store hfire with hsame | ⟨i, rfl, β, tag, f, k, b, hp, hf⟩
  · rw [hsame]
    exact (Std.Refl.refl c.world.store : SameSends _ _).recorded.audited
  · rcases (hens β tag f k b _ hp hf).2.1 with haudited | ⟨o, rfl, hleft⟩
    · exact haudited
    · have hstands : c.standsAt i = some (.recordUnknown o) := by
        rw [Config.standsAt, hp]
      rw [unknownsApply, hstands] at hpass
      exact absurd (hpass.symm.trans hleft) Bool.noConfusion

/-- What a run promises about the send events of one row. -/
structure AuditAgrees (libs : Libraries) (c₀ c : Config mailSignature MailLog)
    (es : List (Event (mailSystem libs))) (o : Uuid) : Prop where
  /-- The events are what the changes of the row owe, in order. -/
  trail : sendEvents o c.world.store = sendEvents o c₀.world.store ++
    c₀.trace (mailSystem libs) (fun db db' =>
      owedEvents (db.outboundMessages.find? o) (db'.outboundMessages.find? o)) es
  /-- What comes next and does not change the row records nothing for it. -/
  unchanged : ∀ e c', unknownsApply c e = true → c.fire (mailSystem libs) e = some c' →
    c'.world.store.outboundMessages.find? o = c.world.store.outboundMessages.find? o →
      sendEvents o c'.world.store = sendEvents o c.world.store

theorem audit_agrees (h₀ : MailStart c₀) {es : List (Event (mailSystem libs))}
    (h : c₀.runChecked (mailSystem libs) unknownsApply es = some c) (o : Uuid) :
    AuditAgrees libs c₀ c es o := by
  have hfree : ∀ (c : Config mailSignature MailLog) e, unknownsApply c e = true →
      Policy.free.Meets (mailSystem libs) c e := fun c e _ => Policy.free_meets _ c e
  refine ⟨?_, fun e c' hpass hfire hsame => ?_⟩
  · refine Config.trace_of_steps (g := sendEvents o) hfree (fun c c' e hc hpass hfire => ?_)
      .start h
    exact audited_of_fire (run_sound h₀ hc) hpass hfire o
  · have hc : Reaches (mailSystem libs) .free c₀ c := .of_runChecked hfree h
    rw [audited_of_fire (run_sound h₀ hc) hpass hfire o, hsame, owedEvents_self, List.append_nil]

/-! ## A sample -/

/-- What the sample shows of row 12. -/
structure TrailView where
  status : Option OutboundStatus
  events : List String
  deriving DecidableEq

/-- The view of a moment. -/
def trailView (c : Config mailSignature MailLog) : TrailView :=
  ⟨(c.world.store.outboundMessages.find? 12).map (·.status), sendEvents 12 c.world.store⟩

/-- The sample queues row 12 and sends it, and what holds of every run holds of it. -/
theorem audit_agrees_sample : ∃ c,
    sampleStart.runChecked (mailSystem sampleLibraries) unknownsApply
        (sampleQueue ++ sampleAccept) = some c ∧
      trailView c = ⟨some .sent, ["send.queued", "send.sent"]⟩ ∧
      AuditAgrees sampleLibraries sampleStart c (sampleQueue ++ sampleAccept) 12 := by
  have h : (sampleStart.runChecked (mailSystem sampleLibraries) unknownsApply
      (sampleQueue ++ sampleAccept)).map trailView =
        some ⟨some .sent, ["send.queued", "send.sent"]⟩ := by decide +kernel
  obtain ⟨c, hrun, hview⟩ := Option.map_eq_some_iff.mp h
  exact ⟨c, hrun, hview, audit_agrees sampleStart_start hrun 12⟩

/-- Worker 2 takes row 12: the row leaves the queue and the trail says nothing about it. -/
theorem claim_unrecorded : ∃ c c',
    sampleStart.run (mailSystem sampleLibraries) (sampleQueue ++ sampleAccept.take 4) = some c ∧
      c.fire (mailSystem sampleLibraries) (.commit 2) = some c' ∧
      trailView c = ⟨some .queued, ["send.queued"]⟩ ∧
      trailView c' = ⟨some .sending, ["send.queued"]⟩ := by
  have h : ((sampleStart.run (mailSystem sampleLibraries)
      (sampleQueue ++ sampleAccept.take 4)).bind fun c =>
        (c.fire (mailSystem sampleLibraries) (.commit 2)).map fun c' =>
          [trailView c, trailView c']) =
        some [⟨some .queued, ["send.queued"]⟩, ⟨some .sending, ["send.queued"]⟩] := by
    decide +kernel
  obtain ⟨c, hrun, hc⟩ := Option.bind_eq_some_iff.mp h
  obtain ⟨c', hfire, hviews⟩ := Option.map_eq_some_iff.mp hc
  obtain ⟨hview, hview'⟩ : trailView c = _ ∧ trailView c' = _ := by simpa using hviews
  exact ⟨c, c', hrun, hfire, hview, hview'⟩

end MailHub
