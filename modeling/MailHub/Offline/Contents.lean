import MailHub.Offline.Order

/-!
# What the service holds in the end

Once every save of a draft is synced, and nothing but replayed saves touched it, the service holds
in each field what the last queued save asks for that sets it.
-/

namespace MailHub.Offline

open Relational Interleaving MailHub OfflineStore Ordering

variable {fails : Bool} {i : ℕ} {d x : Uuid} {s : Device} {o o' : Journal}
  {w w' : World offlineSignature Journal}

/-- Whatever saves a draft is a save. -/
theorem QueuedPayload.isSave_of_saves {p : QueuedPayload} (h : p.saves d = true) :
    p.isSave = true := by
  obtain ⟨base, patch, rfl⟩ := saves_eq_true.mp h
  rfl

/-! ## The invariant -/

/-- The edits of a draft that took effect. -/
def Journal.effectsOn (d : Uuid) (o : Journal) : List Effect := o.effects.filter (·.draftId == d)

/-- The service holds in each field what the last effect asks for that sets it. -/
def Journal.Holds (d : Uuid) (o : Journal) : Prop :=
  ∀ l e r, o.effectsOn d = l ++ e :: r → ∀ f, e.input.sets f = true →
    (∀ e' ∈ r, e'.input.sets f = false) →
      ∃ row, o.server.drafts.find? d = some row ∧ row.Holds e.input f

/-- A replayed save that the service accepted took effect. -/
def Pass.TookEffect (d : Uuid) (effects : List Effect) (p : Pass) : Prop :=
  ∀ a, p.attempt = some a → a.accepted = true → a.queued.payload.saves d = true →
    ∃ e ∈ effects, e.localId = a.queued.localId ∧ e.draftId = d

/-- What is true of the contents of a draft throughout a run. -/
structure ContentKept (d : Uuid) (w : World offlineSignature Journal) : Prop where
  held : d ∉ w.outside.others → w.outside.Holds d
  accepted : w.outside.EveryPass (Pass.TookEffect d w.outside.effects)
  known : ∀ x ∈ w.outside.synced, x ∈ w.store.queuedIds
  synced : ∀ x ∈ w.outside.synced, x ∈ w.store.savesOf d →
    ∃ e ∈ w.outside.effects, e.localId = x ∧ e.draftId = d

/-! ## Drafts of the service -/

theorem Journal.Holds.congr (h : o.Holds d) (heffects : o'.effects = o.effects)
    (hserver : ∀ row, o.server.drafts.find? d = some row →
      ∃ row', o'.server.drafts.find? d = some row' ∧ row.SameText row') : o'.Holds d := by
  intro l e r hsplit f hsets hlast
  have hsplit' : o.effectsOn d = l ++ e :: r := by
    unfold effectsOn at hsplit ⊢
    rwa [← heffects]
  obtain ⟨row, hrow, hholds⟩ := h l e r hsplit' f hsets hlast
  obtain ⟨row', hrow', htext⟩ := hserver row hrow
  exact ⟨row', hrow', (htext.sameField f).holds hholds⟩

/-- An edit of another draft leaves the draft alone. -/
theorem Journal.Took.other {draftId : Uuid} {input : UpdateDraftInput}
    (h : o.Took draftId input o') (hne : d ≠ draftId) {row : Draft}
    (hrow : o.server.drafts.find? d = some row) :
    ∃ row', o'.server.drafts.find? d = some row' ∧ row.SameText row' := by
  obtain ⟨_, _, _, haccepted⟩ := h
  exact ⟨row, (haccepted.others d hne).trans hrow, .refl⟩

/-- An effect on the draft brings in what it names and keeps the rest. -/
theorem Journal.Holds.effect (h : o.Holds d) {e₀ : Effect}
    (heffects : o'.effects = o.effects ++ [e₀]) (htook : o.Took e₀.draftId e₀.input o') :
    o'.Holds d := by
  by_cases hd : e₀.draftId = d
  · subst hd
    obtain ⟨row, row', record, haccepted⟩ := htook
    have hon : o'.effectsOn e₀.draftId = o.effectsOn e₀.draftId ++ [e₀] := by
      simp [effectsOn, heffects, List.filter_append]
    intro l e r hsplit f hsets hlast
    rw [hon] at hsplit
    rcases List.eq_nil_or_concat r with rfl | ⟨r', e', rfl⟩
    · obtain ⟨-, he⟩ := List.append_inj' hsplit rfl
      obtain rfl : e₀ = e := by simpa using he
      exact ⟨row', haccepted.after, haccepted.named f hsets⟩
    · have hsplit' : o.effectsOn e₀.draftId ++ [e₀] = (l ++ e :: r') ++ [e'] := by
        rw [hsplit]
        simp
      obtain ⟨hfront, he⟩ := List.append_inj' hsplit' rfl
      obtain rfl : e₀ = e' := by simpa using he
      obtain ⟨row₀, hrow₀, hholds⟩ := h l e r' hfront f hsets fun e' he' => hlast e' (by simp [he'])
      obtain rfl : row = row₀ := Option.some.inj (haccepted.before.symm.trans hrow₀)
      exact ⟨row', haccepted.after, (haccepted.kept f (hlast e₀ (by simp))).holds hholds⟩
  · have hon : o'.effectsOn d = o.effectsOn d := by
      simp [effectsOn, heffects, List.filter_append, hd]
    intro l e r hsplit f hsets hlast
    obtain ⟨row, hrow, hholds⟩ := h l e r (hon ▸ hsplit) f hsets hlast
    obtain ⟨row', hrow', htext⟩ := htook.other (Ne.symm hd) hrow
    exact ⟨row', hrow', (htext.sameField f).holds hholds⟩

/-! ## Steps -/

/-- What is marked as synced was marked before, or is what the worker replays. -/
theorem mem_synced_observe {tag : Option StoreTag}
    (h : x ∈ (w.outside.observe i tag w.store).synced) : x ∈ w.outside.synced ∨
      ∃ patch, tag = some (.write (.updateAction x patch)) ∧ patch.state = some .synced := by
  cases tag with
  | none => exact .inl h
  | some tag =>
      cases tag with
      | write wr =>
          have hwrite : x ∈ (w.outside.afterWrite i wr).synced := h
          cases wr with
          | updateAction localId patch =>
              by_cases hstate : patch.state = some .synced
              · rw [Journal.afterWrite, if_pos hstate] at hwrite
                rcases List.mem_append.mp hwrite with hold | hnew
                · exact .inl hold
                · obtain rfl := List.mem_singleton.mp hnew
                  exact .inr ⟨patch, rfl, hstate⟩
              · rw [Journal.afterWrite, if_neg hstate] at hwrite
                split at hwrite <;> exact .inl hwrite
          | putPendingUploadWithAction upload action | updateUpload localId patch =>
              rw [Journal.afterWrite] at hwrite
              split at hwrite <;> exact .inl hwrite
          | _ => exact .inl hwrite
      | edit e =>
          obtain ⟨learnt, hlearnt⟩ := Journal.afterEdit_eq i w.store w.outside e
          have hedit : x ∈ (w.outside.afterEdit i w.store e).synced := h
          rw [hlearnt] at hedit
          exact .inl hedit
      | _ => exact .inl h

theorem Pass.TookEffect.map {es : List Effect} {p : Pass} {f : Attempt → Attempt}
    (h : p.TookEffect d es) (hf : ∀ a, (f a).queued = a.queued ∧ (f a).accepted = a.accepted) :
    Pass.TookEffect d es { p with attempt := p.attempt.map f } := by
  intro a' ha' hacc hsaves
  obtain ⟨a, ha, rfl⟩ := Option.map_eq_some_iff.mp ha'
  rw [(hf a).1] at hsaves ⊢
  exact h a ha ((hf a).2 ▸ hacc) hsaves

/-- A commit that meets the condition keeps the contents. -/
theorem ContentKept.commit {tag : Option StoreTag} (hs : Frozen w.store) (hO : OrderKept d w)
    (h : ContentKept d w) (hP : QueuesLast d tag w)
    (hD : Described i tag w ⟨s, w.outside.observe i tag w.store⟩) :
    ContentKept d ⟨s, w.outside.observe i tag w.store⟩ := by
  have ho : Onward d w.store s := hD.onward hs hP
  have hmarked : ∀ x patch, tag = some (.write (.updateAction x patch)) →
      patch.state = some .synced → ∃ a e, w.outside.attemptOf i = some a ∧
        e ∈ w.store.enqueued ∧ SameWork e a.queued ∧ a.queued.localId = x ∧
          (a.queued.payload.isSave = true → a.accepted = true) := by
    rintro x patch rfl hsynced
    obtain ⟨a, ha, hid, hacc⟩ := RewriteWarrant.synced hD.2 hsynced
    obtain ⟨p, hp, -, hpa⟩ := Journal.attemptOf_eq_some.mp ha
    obtain ⟨e, he, hsame⟩ := (hO.pass p hp).queued a.queued (by rw [Pass.current, hpa]; rfl)
    exact ⟨a, e, ha, he, hsame, hid, hacc⟩
  obtain ⟨pass, synced, discarded, acknowledged, dropped, learnt, heq⟩ :=
    Journal.observe_eq i tag w.store w.outside
  refine ⟨?_, ?_, fun x hx => ?_, fun x hx hsave => ?_⟩
  · show d ∉ (w.outside.observe i tag w.store).others → _
    intro hothers
    have hothers' : d ∉ w.outside.others := by
      rw [heq] at hothers
      exact hothers
    refine (h.held hothers').congr (by rw [heq]) fun row hrow => ⟨row, ?_, .refl⟩
    rw [heq]
    exact hrow
  · have heffects : (w.outside.observe i tag w.store).effects = w.outside.effects := by rw [heq]
    show (w.outside.observe i tag w.store).EveryPass
      (Pass.TookEffect d (w.outside.observe i tag w.store).effects)
    rw [heffects]
    refine h.accepted.onPass (fun p _ _ hp => hp) (fun p hi hp htook => ?_) Journal.observe_pass
    unfold Journal.passAfter
    split
    · split
      · exact htook.map fun _ => ⟨rfl, rfl⟩
      · exact htook
    · exact fun a ha => by simp at ha
    · exact htook
    · exact htook
    · intro a ha hacc
      obtain ⟨q, -, rfl⟩ := Option.map_eq_some_iff.mp ha
      simp [Attempt.fresh] at hacc
    · exact htook.map fun _ => ⟨rfl, rfl⟩
    · exact htook.map fun _ => ⟨rfl, rfl⟩
    · exact htook.map fun _ => ⟨rfl, rfl⟩
    · exact htook
  · rcases mem_synced_observe hx with hold | ⟨patch, htag, hsynced⟩
    · exact ho.queuedIds (h.known x hold)
    · obtain ⟨a, e, -, he, hsame, rfl, -⟩ := hmarked x patch htag hsynced
      exact ho.queuedIds (List.mem_map.mpr ⟨e, he, hsame.localId⟩)
  · show ∃ e ∈ (w.outside.observe i tag w.store).effects, _
    rw [heq]
    rcases mem_synced_observe hx with hold | ⟨patch, htag, hsynced⟩
    · exact h.synced x hold (ho.mem_savesOf (h.known x hold) hsave)
    · obtain ⟨a, e, ha, he, hsame, rfl, hacc⟩ := hmarked x patch htag hsynced
      have hid : a.queued.localId ∈ w.store.queuedIds := List.mem_map.mpr ⟨e, he, hsame.localId⟩
      obtain ⟨e', he', hid', hsaves⟩ := Device.mem_savesOf.mp (ho.mem_savesOf hid hsave)
      obtain rfl : e = e' := hs.unique he he' (hsame.localId.trans hid'.symm)
      have hqueued : a.queued.payload.saves d = true := by
        rw [← QueuedPayload.saves_work, ← hsame.work, QueuedPayload.saves_work]
        exact hsaves
      obtain ⟨p, hp, -, hpa⟩ := Journal.attemptOf_eq_some.mp ha
      exact h.accepted p hp a hpa (hacc (QueuedPayload.isSave_of_saves hqueued)) hqueued

/-- What a pass replays is what a pass replayed before. -/
theorem Pass.TookEffect.older {es : List Effect} (h : o.EveryPass (Pass.TookEffect d es))
    (ho : o.Older o') : o'.EveryPass (Pass.TookEffect d es) := by
  intro p hp
  rcases ho p hp with hold | hnone
  · exact h p hold
  · intro a ha
    rw [hnone] at ha
    cases ha

/-- An answer keeps the contents. -/
theorem ContentKept.call {c : OfflineCall} {r : Except OfflineFailure c.Answer}
    (h : ContentKept d w) (hasked : Asked i c w)
    (hresp : Journal.respond i c r w.outside = some o') : ContentKept d ⟨w.store, o'⟩ := by
  have hsynced : o'.synced = w.outside.synced := (Journal.respond_settled hresp).synced
  have hattempt : ∀ g d' input, c = .patchDraft none g d' input →
      ∃ a, w.outside.attemptOf i = some a := by
    rintro g d' input rfl
    obtain ⟨a, -, -, ha, -⟩ := hasked
    exact ⟨a, ha⟩
  have hsame : o'.effects = w.outside.effects → (d ∉ o'.others → o'.Holds d) →
      w.outside.Older o' → ContentKept d ⟨w.store, o'⟩ := by
    intro heffects hheld hpass
    refine ⟨hheld, ?_, fun x hx => h.known x (hsynced ▸ hx), fun x hx hsave => ?_⟩
    · show o'.EveryPass (Pass.TookEffect d o'.effects)
      rw [heffects]
      exact Pass.TookEffect.older h.accepted hpass
    · show ∃ e ∈ o'.effects, _
      rw [heffects]
      exact h.synced x (hsynced ▸ hx) hsave
  cases Journal.respond_answered hattempt hresp with
  | same hserver heffects hothers hpass =>
      refine hsame heffects (fun hd => ?_) hpass
      exact (h.held (hothers ▸ hd)).congr heffects fun row hrow =>
        ⟨row, by rw [hserver]; exact hrow, .refl⟩
  | locked hserver heffects hothers hpass =>
      exact hsame heffects (fun hd => (h.held (hothers ▸ hd)).congr heffects (hserver d)) hpass
  | edited draftId input htook heffects hothers hpass =>
      refine hsame heffects (fun hd => ?_) hpass
      rw [hothers, List.mem_append, List.mem_singleton, not_or] at hd
      exact (h.held hd.1).congr heffects fun row hrow => htook.other hd.2 hrow
  | replayed a g draftId input hc ha htook heffects hothers hpass =>
      subst hc
      obtain ⟨a', base, patch, ha', -, hpayload, rfl⟩ := hasked
      obtain rfl : a = a' := Option.some.inj (ha.symm.trans ha')
      have hkept : ∀ x, (∃ e ∈ w.outside.effects, e.localId = x ∧ e.draftId = d) →
          ∃ e ∈ o'.effects, e.localId = x ∧ e.draftId = d := by
        rintro x ⟨e, he, hrest⟩
        exact ⟨e, by rw [heffects]; exact List.mem_append_left _ he, hrest⟩
      have hnew : a.queued.payload.saves d = true →
          ∃ e ∈ o'.effects, e.localId = a.queued.localId ∧ e.draftId = d := by
        intro hsaves
        refine ⟨⟨a.queued.localId, draftId, editBody patch base⟩, by simp [heffects], rfl, ?_⟩
        simpa [hpayload, QueuedPayload.saves] using hsaves
      have hold : w.outside.EveryPass (Pass.TookEffect d o'.effects) := fun p hp a' ha' hacc hsaves =>
        hkept _ (h.accepted p hp a' ha' hacc hsaves)
      refine ⟨fun hd => (h.held (hothers ▸ hd)).effect heffects htook, ?_,
        fun x hx => h.known x (hsynced ▸ hx), fun x hx hsave => hkept x (h.synced x (hsynced ▸ hx) hsave)⟩
      show o'.EveryPass (Pass.TookEffect d o'.effects)
      rcases hpass with hpass | ⟨revision, hpass⟩
      · exact hold.congr hpass
      · refine hold.onPass (fun p _ _ hp => hp) (fun p hi hp _ => ?_) hpass
        intro a' ha' _ hsaves
        obtain ⟨a₀, ha₀, rfl⟩ := Option.map_eq_some_iff.mp ha'
        have hsame₀ : w.outside.attemptOf i = some a₀ :=
          Journal.attemptOf_eq_some.mpr ⟨p, hp, hi, ha₀⟩
        obtain rfl : a = a₀ := Option.some.inj (ha.symm.trans hsame₀)
        exact hnew hsaves

/-! ## Runs -/

/-- What is true of the saves of a draft throughout a run. -/
structure SavesKept (d : Uuid) (w : World offlineSignature Journal) : Prop where
  order : OrderKept d w
  content : ContentKept d w

/-- What the service does on its own keeps the saves. -/
theorem SavesKept.tick {t : ServerStep} (h : SavesKept d w) (ht : t.advance w.outside = some o') :
    SavesKept d ⟨w.store, o'⟩ := by
  have hpass : o'.pass = w.outside.pass := ServerStep.advance_pass ht
  cases t with
  | edit draftId input now =>
      simp only [ServerStep.advance] at ht
      split at ht
      next hrun =>
        obtain rfl := Option.some.inj ht
        obtain ⟨row, row', haccepted⟩ := commitDraftUpdate_ok hrun
        refine ⟨⟨h.order.sorted, h.order.pass, h.order.effects, h.order.done, h.order.ordered⟩,
          fun hd => ?_, h.content.accepted, h.content.known, h.content.synced⟩
        have hothers : d ∉ w.outside.others ++ [draftId] := hd
        rw [List.mem_append, List.mem_singleton, not_or] at hothers
        exact (h.content.held hothers.1).congr rfl fun row hrow =>
          ⟨row, (haccepted.others d hothers.2).trans hrow, .refl⟩
      next => cases ht
  | elsewhere f hf =>
      obtain rfl := Option.some.inj ht
      exact ⟨⟨h.order.sorted, h.order.pass, h.order.effects, h.order.done, h.order.ordered⟩,
        fun hd => (h.content.held hd).congr rfl (hf w.outside.server d), h.content.accepted,
        h.content.known, h.content.synced⟩

/-- Every step that meets the condition keeps the saves in order and their contents. -/
theorem savesKept : Kept (offlineDiscipline fails) (orderly d) (SavesKept d) where
  commit _ _ _ _ hs h hP hD :=
    ⟨h.order.commit hs.frozen hP hD, h.content.commit hs.frozen h.order hP hD⟩
  call _ _ _ _ _ hs h hresp hP hasked :=
    ⟨h.order.call hs.frozen hasked hP hresp, h.content.call hasked hresp⟩
  tick _ _ _ h ht := h.tick ht
  retire _ _ h := ⟨⟨h.order.sorted, h.order.pass.retire, h.order.effects, h.order.done,
    h.order.ordered⟩, h.content.held, h.content.accepted.retire, h.content.known,
    h.content.synced⟩

/-- What a moment of a run promises about the saves of a draft. -/
structure SavesInOrder (d : Uuid) (w : World offlineSignature Journal) : Prop where
  /-- No save takes effect before one that was queued earlier. -/
  ordered : (w.outside.effectsOn d).Pairwise fun e e' => ¬ Before d w.store e'.localId e.localId
  /-- Once all saves are synced the draft holds in each field what the last save asks for that
  sets it. -/
  content : (∀ x ∈ w.store.savesOf d, x ∈ w.outside.synced) → d ∉ w.outside.others →
    ∀ a ∈ w.store.enqueued, ∀ base patch f, a.payload = .draftSave d base patch →
      (editBody patch base).sets f = true →
      (∀ b ∈ w.store.enqueued, ∀ base' patch', b.payload = .draftSave d base' patch' →
        Before d w.store a.localId b.localId → (editBody patch' base').sets f = false) →
      ∃ row, w.outside.server.drafts.find? d = some row ∧ row.Holds (editBody patch base) f

/-- What an edit sets does not depend on its base. -/
theorem sets_editBody (patch : DraftEditPatch) (base base' : ℕ) (f : DraftField) :
    (editBody patch base).sets f = (editBody patch base').sets f := by
  cases f <;> rfl

theorem holds_editBody {row : Draft} {patch : DraftEditPatch} {base base' : ℕ} {f : DraftField}
    (h : row.Holds (editBody patch base) f) : row.Holds (editBody patch base') f := by
  cases f <;> exact h

/-- The last effect that sets a field replays the last save that sets it. -/
theorem SavesKept.inOrder (hs : Frozen w.store) (h : SavesKept d w) : SavesInOrder d w := by
  refine ⟨h.order.ordered, fun hsynced hothers a ha base patch f hpayload hsets hlast => ?_⟩
  have hsave : a.localId ∈ w.store.savesOf d := Device.mem_savesOf.mpr
    ⟨a, ha, rfl, QueuedPayload.saves_eq_true.mpr ⟨base, patch, hpayload⟩⟩
  obtain ⟨e, he, hid, hd⟩ := h.content.synced a.localId (hsynced _ hsave) hsave
  have hon : e ∈ w.outside.effectsOn d := List.mem_filter.mpr ⟨he, by simpa using hd⟩
  have hreplays : ∀ e' ∈ w.outside.effectsOn d, e'.localId = a.localId →
      ∃ base', e'.input = editBody patch base' := by
    intro e' he' hid'
    obtain ⟨he', hd'⟩ := List.mem_filter.mp he'
    obtain ⟨b, hb, hbid, base₁, base₂, patch', hbpayload, hinput⟩ :=
      h.order.effects e' he' (by simpa using hd')
    obtain rfl : b = a := hs.unique hb ha (hbid.trans hid')
    obtain ⟨-, -, rfl⟩ := QueuedPayload.draftSave.inj (hbpayload.symm.trans hpayload)
    exact ⟨base₂, hinput⟩
  have hesets : e.input.sets f = true := by
    obtain ⟨base', hinput⟩ := hreplays e hon hid
    rw [hinput, sets_editBody patch base' base]
    exact hsets
  obtain ⟨l, e', r, hsplit, hsets', hlast'⟩ := exists_last (p := fun e => e.input.sets f)
    ⟨e, hon, hesets⟩
  have hon' : e' ∈ w.outside.effectsOn d := by rw [hsplit]; simp
  -- the last effect that sets the field is the replay of the last save that sets it
  have hsame : e'.localId = a.localId := by
    obtain ⟨he', hd'⟩ := List.mem_filter.mp hon'
    obtain ⟨b, hb, hbid, base₁, base₂, patch', hbpayload, hinput⟩ :=
      h.order.effects e' he' (by simpa using hd')
    have hbsave : b.localId ∈ w.store.savesOf d := Device.mem_savesOf.mpr
      ⟨b, hb, rfl, QueuedPayload.saves_eq_true.mpr ⟨base₁, patch', hbpayload⟩⟩
    by_contra hne
    have hnotBefore : ¬ Before d w.store b.localId a.localId := by
      rw [hbid, ← hid]
      rw [hsplit] at hon
      rcases List.mem_append.mp hon with hl | hr
      · have hpairwise := h.order.ordered
        rw [show w.outside.effects.filter (·.draftId == d) = l ++ e' :: r from hsplit] at hpairwise
        exact (List.pairwise_append.mp hpairwise).2.2 e hl e' List.mem_cons_self
      · rcases List.mem_cons.mp hr with rfl | hr
        · exact absurd hid hne
        · have hunset : e.input.sets f = false := hlast' e hr
          rw [hesets] at hunset
          cases hunset
    have hbne : b.localId ≠ a.localId := fun heq => hne (hbid.symm.trans heq)
    rcases Precedes.total hbsave hsave hbne with hba | hab
    · exact hnotBefore hba
    · have hunset := hlast b hb base₁ patch' hbpayload hab
      rw [hinput, sets_editBody patch' base₂ base₁, hunset] at hsets'
      cases hsets'
  obtain ⟨row, hrow, hholds⟩ := h.content.held hothers l e' r hsplit f hsets' hlast'
  obtain ⟨base', hinput⟩ := hreplays e' hon' hsame
  rw [hinput] at hholds
  exact ⟨row, hrow, holds_editBody hholds⟩

theorem saves_inOrder {c₀ c : Config offlineSignature Journal} (h₀ : OfflineStart c₀)
    (h : Reaches (offlineSystem fails) (orderly d) c₀ c) : SavesInOrder d c.world := by
  have hkept : SavesKept d c.world := by
    refine h₀.kept savesKept ?_ h
    obtain ⟨server, hserver⟩ := h₀.outside
    refine ⟨⟨?_, ?_, ?_, ?_, ?_⟩, ⟨?_, ?_, ?_, ?_⟩⟩ <;>
      simp [hserver, h₀.store, Journal.start, Device.empty, Journal.EveryPass, Journal.Holds,
        Journal.effectsOn]
  have hsound : c.Sound (offlineDiscipline fails) :=
    (h.mono (fun _ _ _ _ _ => trivial) fun _ _ _ _ _ => trivial).sound h₀.sound OfflineOp.safe
  exact hkept.inOrder hsound.inv.frozen

/-! ## Samples -/

/-- Two edits of the subject of draft 10, queued one after the other. -/
def sampleSaves : List (Event (offlineSystem false)) :=
  sampleGeneration 0 1 ++ sampleSave 1 3 5 1 "a" ++ sampleSave 2 4 6 1 "b"

/-- The service is busy when the first edit arrives, so the second one overtakes it. -/
def sampleOvertaking : List (Event (offlineSystem false)) :=
  sampleSaves ++ samplePass 3 ++ sampleReplay 3 sampleBusy ++ sampleReplay 3 (sampleAnswer 7) ++
    sampleSettle 3 1 ++ sampleEnd 3 ++ samplePass 4 ++ sampleReplay 4 (sampleAnswer 8) ++
    sampleSettle 4 0

/-- What the samples show of a moment. -/
structure OrderView where
  /-- The saves of draft 10 in the order in which they were queued. -/
  saves : List Uuid
  /-- The order in which they took effect. -/
  effects : List Uuid
  /-- What is synced. -/
  synced : List Uuid
  /-- The subject that the service holds. -/
  subject : List (Option String)
  deriving DecidableEq

/-- The view of one moment. -/
def orderView (c : Config offlineSignature Journal) : OrderView where
  saves := c.world.store.savesOf 10
  effects := (c.world.outside.effectsOn 10).map (·.localId)
  synced := c.world.outside.synced
  subject := c.world.outside.server.drafts.rows.map (·.subject)

/-- The first save takes effect after the second one, and the service ends with the older text. -/
theorem saves_overtaken : ∃ c,
    sampleOffline.run (offlineSystem false) sampleOvertaking = some c ∧
      orderView c = ⟨[3, 4], [4, 3], [4, 3], [some "a"]⟩ ∧ ¬ SavesInOrder 10 c.world := by
  have h : (sampleOffline.run (offlineSystem false) sampleOvertaking).map orderView =
      some ⟨[3, 4], [4, 3], [4, 3], [some "a"]⟩ := by decide +kernel
  obtain ⟨c, hrun, hview⟩ := Option.map_eq_some_iff.mp h
  refine ⟨c, hrun, hview, fun horder => ?_⟩
  have hsaves : c.world.store.savesOf 10 = [3, 4] := congrArg OrderView.saves hview
  have heffects : (c.world.outside.effectsOn 10).map (·.localId) = [4, 3] :=
    congrArg OrderView.effects hview
  have hpairwise : ([4, 3] : List Uuid).Pairwise fun x y => ¬ Before 10 c.world.store y x := by
    rw [← heffects]
    exact List.pairwise_map.mpr horder.ordered
  have hbefore : Before 10 c.world.store 3 4 := by
    unfold Before
    rw [hsaves]
    exact List.Sublist.refl _
  simp only [List.pairwise_cons, List.mem_singleton, forall_eq] at hpairwise
  exact hpairwise.1 hbefore

/-- Whether an event keeps the saves of draft 10 in order. -/
def keepsOrder (c : Config offlineSignature Journal) : Event (offlineSystem false) → Bool
  | .commit i =>
      match c.standsAt i with
      | some (.write (.enqueue action)) => c.world.store.queue.rows.all fun b =>
          b.state != .pending || replaysBefore b action
      | some (.write (.updateAction _ patch)) => patch.state != some .pending
      | _ => true
  | .answer i _ => (c.world.outside.passOf i).all fun p => p.leftPending.isEmpty
  | _ => true

theorem orderly_of_keepsOrder {c : Config offlineSignature Journal}
    {e : Event (offlineSystem false)} (h : keepsOrder c e = true) :
    (orderly 10).Meets (offlineSystem false) c e := by
  cases e with
  | commit i =>
      intro β tag f k b s hp _
      have hat : c.standsAt i = tag := by simp [Config.standsAt, hp]
      simp only [keepsOrder, hat] at h
      cases tag with
      | none => trivial
      | some tag =>
          cases tag with
          | write wr =>
              cases wr with
              | enqueue action =>
                  intro _ b hb hstate _
                  have hall := List.all_eq_true.mp h b (Table.mem_iff.mp hb)
                  simpa [hstate] using hall
              | updateAction localId patch =>
                  intro hstate
                  simp [hstate] at h
              | _ => trivial
          | _ => trivial
  | answer i r =>
      intro q k o _ _ _ p a hp _ b hb
      have hempty : p.leftPending = [] := by simpa [keepsOrder, hp] using h
      rw [hempty] at hb
      cases hb
  | spawn op | abort i e | stop i | tick t => trivial

/-- A pass syncs both edits in their order, and the service holds the text of the last one. -/
theorem saves_inOrder_sample : ∃ c,
    Reaches (offlineSystem false) (orderly 10) sampleOffline c ∧
      orderView c = ⟨[3, 4], [3, 4], [3, 4], [some "b"]⟩ ∧ SavesInOrder 10 c.world := by
  have h : (sampleOffline.runChecked (offlineSystem false) keepsOrder
      (sampleSaves ++ samplePass 3 ++ sampleReplay 3 (sampleAnswer 7) ++ sampleSettle 3 1 ++
        sampleReplay 3 (sampleAnswer 7) ++ sampleSettle 3 0 ++ sampleEnd 3)).map orderView =
      some ⟨[3, 4], [3, 4], [3, 4], [some "b"]⟩ := by decide +kernel
  obtain ⟨c, hrun, hview⟩ := Option.map_eq_some_iff.mp h
  have hreach := Reaches.of_runChecked (fun _ _ => orderly_of_keepsOrder) hrun
  exact ⟨c, hreach, hview, saves_inOrder sampleOffline_start hreach⟩

end MailHub.Offline
