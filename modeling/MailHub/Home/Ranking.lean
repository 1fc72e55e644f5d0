import Mathlib.Order.Compare
import MailHub.Relational.Truth
import MailHub.Home.Sections

/-!
# The ranking rule and its query

The attention section is ranked twice: by a rule over candidates with nullable fields and dates in
whole milliseconds, and by the query that Home runs, over nullable columns and timestamps in
microseconds. The query selects what the rule gives a tier, in that tier and with its reasons. The
two orders agree exactly when no two messages of one tier fall into one millisecond with the
later one carrying the larger identifier.
-/

namespace MailHub.Home

open Relational

/-! ## The rule -/

/-- One message the attention section may consider. Every field comes from a stored answer or a
stored choice; nothing is inferred here. -/
structure AttentionCandidate where
  messageId : Uuid
  /-- The header date, or the arrival when there is none. -/
  sentAt : Option Time
  classHint : Option MessageClass
  classSource : Option String
  asksAction : Option Bool
  asksReply : Option Bool
  timeSensitive : Option Bool
  actionConfidence : Option Rat
  prioritySender : Bool
  priorityThread : Bool
  deriving DecidableEq, Repr

/-- A high-confidence action answer protects a candidate. -/
def isProtectedAction (candidate : AttentionCandidate) : Bool :=
  candidate.asksAction == some true &&
    candidate.actionConfidence.any fun confidence => actionBreakoutConfidence ≤ confidence

/-- The tier one candidate earns, or `none` when it asks for no attention. -/
def attentionTier (candidate : AttentionCandidate) : Option ℕ :=
  if candidate.prioritySender || candidate.priorityThread ||
      candidate.classHint == some .securityAlert || isProtectedAction candidate then
    some 0
  else if candidate.asksAction == some true || candidate.asksReply == some true ||
      candidate.timeSensitive == some true then
    some 1
  else none

/-- The attention reasons one candidate carries, most important first. -/
def AttentionCandidate.attentionReasons (candidate : AttentionCandidate) : List HomeReason :=
  let origin := suggestionOrigin candidate.classSource
  (if candidate.prioritySender then [⟨.youPrioritizedSender, .choice⟩] else []) ++
  (if candidate.priorityThread then [⟨.youPrioritizedThread, .choice⟩] else []) ++
  (if candidate.classHint = some .securityAlert then [⟨.securityAlert, origin⟩] else []) ++
  (if candidate.asksAction = some true then [⟨.mayNeedAction, origin⟩] else []) ++
  (if candidate.asksReply = some true then [⟨.mayNeedReply, origin⟩] else []) ++
  (if candidate.timeSensitive = some true then [⟨.timeSensitive, origin⟩] else [])

/-- The deterministic attention order: tier first, then recency, then the message identifier. -/
def compareAttention (a b : AttentionCandidate) : Except String Ordering :=
  match attentionTier a, attentionTier b with
  | some tierA, some tierB =>
      .ok <|
        if tierA ≠ tierB then compare tierA tierB
        -- a candidate without a date comes before every date, as `none` does
        else if a.sentAt ≠ b.sentAt then compare b.sentAt a.sentAt
        else compare a.messageId b.messageId
  | _, _ => .error "compareAttention needs attention-eligible candidates."

/-- The current stored signals of one message, for the rule. -/
def toAttentionCandidate (s : HomeSignal) : AttentionCandidate where
  messageId := s.message.id
  -- a date of the process holds whole milliseconds
  sentAt := s.message.sentAt <|> some (s.message.ingestedAt / 1000)
  classHint := s.message.classHint
  classSource := s.classSource
  asksAction := s.message.asksAction
  asksReply := s.message.asksReply
  timeSensitive := s.message.timeSensitive
  actionConfidence := s.actionConfidence
  prioritySender := s.prioritySender
  priorityThread := s.priorityThread

/-! ## The conditions of the query -/

/-- The condition of the query under which a message leads the attention section. -/
def leadsCondition (s : HomeSignal) : Truth :=
  (((Truth.or (some s.prioritySender) (some s.priorityThread)).or
    (Truth.compare (· == ·) s.message.classHint (some .securityAlert))).or
      ((Truth.isTrue s.message.asksAction).and
        (Truth.compare (fun confidence threshold => decide (threshold ≤ confidence))
          s.actionConfidence (some actionBreakoutConfidence))))

/-- The condition of the query under which a message asks for attention. -/
def attentionCondition (s : HomeSignal) : Truth :=
  (((((Truth.or (some s.prioritySender) (some s.priorityThread)).or
    (Truth.compare (· == ·) s.message.classHint (some .securityAlert))).or
      (Truth.isTrue s.message.asksAction)).or
        (Truth.isTrue s.message.asksReply)).or
          (Truth.isTrue s.message.timeSensitive))

variable {s : HomeSignal}

/-- A message leads when its condition holds, and not when it is unknown. -/
theorem leads_eq : s.leads = (leadsCondition s).holds := by
  unfold leadsCondition
  rw [Truth.holds_or, Truth.holds_or, Truth.holds_or, Truth.holds_and, Truth.holds_beq,
    Truth.holds_compare, Truth.holds_isTrue, Truth.holds_some, Truth.holds_some]
  rfl

/-- A message asks for attention when its condition holds, and not when it is unknown. -/
theorem asksAttention_eq : s.asksAttention = (attentionCondition s).holds := by
  unfold attentionCondition
  rw [Truth.holds_or, Truth.holds_or, Truth.holds_or, Truth.holds_or, Truth.holds_or,
    Truth.holds_beq, Truth.holds_isTrue, Truth.holds_isTrue, Truth.holds_isTrue,
    Truth.holds_some, Truth.holds_some]
  rfl

/-- What leads asks for attention. -/
theorem asksAttention_of_leads (h : s.leads = true) : s.asksAttention = true := by
  unfold HomeSignal.leads at h
  unfold HomeSignal.asksAttention
  simp only [Bool.or_eq_true, Bool.and_eq_true] at h ⊢
  tauto

/-- The rule gives a tier to exactly what the query takes, and the same tier. -/
theorem attentionTier_toAttentionCandidate :
    attentionTier (toAttentionCandidate s) =
      if s.asksAttention then some (if s.leads then 0 else 1) else none := by
  have hrule : attentionTier (toAttentionCandidate s) =
      if s.leads then some 0
      else if s.message.asksAction == some true || s.message.asksReply == some true ||
        s.message.timeSensitive == some true then some 1 else none := rfl
  rw [hrule]
  by_cases hleads : s.leads = true
  · rw [if_pos hleads, if_pos (asksAttention_of_leads hleads), if_pos hleads]
  · have hasks : s.asksAttention = (s.message.asksAction == some true ||
        s.message.asksReply == some true || s.message.timeSensitive == some true) := by
      unfold HomeSignal.leads at hleads
      unfold HomeSignal.asksAttention
      simp only [Bool.or_eq_true, not_or, Bool.not_eq_true] at hleads
      obtain ⟨⟨⟨hsender, hthread⟩, hsecurity⟩, -⟩ := hleads
      rw [hsender, hthread, hsecurity]
      rfl
    rw [if_neg hleads, if_neg hleads, hasks]

/-- The rule and the entries give the same reasons. -/
theorem attentionReasons_toAttentionCandidate :
    (toAttentionCandidate s).attentionReasons = attentionReasons s := rfl

/-- What asks for attention has a reason. -/
theorem attentionReasons_ne_nil (h : s.asksAttention = true) : attentionReasons s ≠ [] := by
  unfold HomeSignal.asksAttention at h
  unfold attentionReasons
  simp only [Bool.or_eq_true, beq_iff_eq] at h
  rcases h with ((((h | h) | h) | h) | h) | h <;> simp [h]

/-- A candidate of a stored message has a date: the effective time in whole milliseconds. -/
theorem toAttentionCandidate_sentAt :
    (toAttentionCandidate s).sentAt = some (effectiveTime s.message / 1000) := by
  unfold toAttentionCandidate effectiveTime
  cases s.message.sentAt with
  | none => rfl
  | some t =>
      have h : t * 1000 / 1000 = t := Nat.mul_div_cancel t (by decide)
      simp [h]

/-! ## The candidates of the query -/

/-- A message the attention section may take: it is stored with its account, lies in an inbox
folder and is not dismissed. -/
structure Eligible (db : Database) (m : Message) : Prop where
  stored : m ∈ db.messages
  account : (db.accounts.find? m.accountId).isSome = true
  inInbox : inboxOccurrence db m = true
  notDismissed : notDismissed db m = true

/-- The candidate of a message for the attention section. -/
def HomeSignal.attention (s : HomeSignal) : HomeCandidate :=
  ⟨s.entryKey, s.message.id, s.message.id, .needsAttention, if s.leads then 0 else 1,
    -(effectiveTime s.message : ℤ)⟩

variable {lower : String → String} {now : Time} {boundary : Option Instant} {db : Database}
variable {m n : Message} {c d : HomeCandidate}

/-- The attention candidates of one message. -/
theorem mem_candidates_signal :
    (c ∈ s.candidates boundary ∧ c.section = .needsAttention) ↔
      s.inInbox = true ∧ s.notDismissed = true ∧ s.asksAttention = true ∧ c = s.attention := by
  unfold HomeSignal.candidates HomeSignal.attention
  simp only [List.mem_append, List.mem_ite_nil_right, List.mem_singleton, Bool.and_eq_true]
  constructor
  · rintro ⟨((⟨⟨⟨hinbox, hshown⟩, hasks⟩, rfl⟩ | ⟨-, rfl⟩) | ⟨-, rfl⟩), hsection⟩
    · exact ⟨hinbox, hshown, hasks, rfl⟩
    · cases hsection
    · cases hsection
  · rintro ⟨hinbox, hshown, hasks, rfl⟩
    exact ⟨Or.inl (Or.inl ⟨⟨⟨hinbox, hshown⟩, hasks⟩, rfl⟩), rfl⟩

/-- A work record gives no attention candidate. -/
theorem section_ne_of_mem_work {w : HomeWorkEntry} (h : c ∈ w.candidates now) :
    c.section ≠ .needsAttention := by
  unfold HomeWorkEntry.candidates at h
  split at h
  · split at h
    · split at h
      · obtain rfl := List.mem_singleton.mp h
        exact nofun
      · cases h
    · cases h
  · obtain rfl := List.mem_singleton.mp h
    exact nofun

/-- The attention candidates are those of the eligible messages that ask for attention. -/
theorem mem_candidates_attention :
    (c ∈ candidates lower now boundary db ∧ c.section = .needsAttention) ↔
      ∃ m, Eligible db m ∧ (signalOf lower db m).asksAttention = true ∧
        c = (signalOf lower db m).attention := by
  unfold candidates signals
  simp only [List.mem_append, List.mem_flatMap, List.mem_map, Table.mem_select]
  constructor
  · rintro ⟨⟨w, -, hc⟩ | ⟨_, ⟨m, ⟨hm, haccount⟩, rfl⟩, hc⟩, hsection⟩
    · exact absurd hsection (section_ne_of_mem_work hc)
    · obtain ⟨hinbox, hshown, hasks, rfl⟩ := mem_candidates_signal.mp ⟨hc, hsection⟩
      exact ⟨m, ⟨hm, haccount, hinbox, hshown⟩, hasks, rfl⟩
  · rintro ⟨m, hm, hasks, rfl⟩
    obtain ⟨hc, hsection⟩ := mem_candidates_signal.mpr
      ⟨hm.inInbox, hm.notDismissed, hasks, rfl⟩
    exact ⟨Or.inr ⟨_, ⟨m, ⟨hm.stored, hm.account⟩, rfl⟩, hc⟩, hsection⟩

/-- The query takes a message into the attention section, with this candidate. -/
def Selects (lower : String → String) (db : Database) (now : Time) (boundary : Option Instant)
    (m : Message) (c : HomeCandidate) : Prop :=
  (c ∈ candidates lower now boundary db ∧ c.section = .needsAttention) ∧ c.messageId = m.id

/-- An eligible message is taken when it asks for attention, with its own candidate. -/
theorem selects_iff (hm : Eligible db m) :
    Selects lower db now boundary m c ↔
      (signalOf lower db m).asksAttention = true ∧ c = (signalOf lower db m).attention := by
  unfold Selects
  rw [mem_candidates_attention]
  constructor
  · rintro ⟨⟨n, hn, hasks, rfl⟩, hid⟩
    obtain rfl : n = m := Table.eq_of_key_eq hn.stored hm.stored hid
    exact ⟨hasks, rfl⟩
  · rintro ⟨hasks, rfl⟩
    exact ⟨⟨m, hm, hasks, rfl⟩, rfl⟩

/-! ## The two orders -/

/-- The candidate of a message for the rule. -/
def ruleCandidate (lower : String → String) (db : Database) (m : Message) : AttentionCandidate :=
  toAttentionCandidate (signalOf lower db m)

/-- The tier of the rule, in the words of the query. -/
theorem attentionTier_ruleCandidate :
    attentionTier (ruleCandidate lower db m) =
      if (signalOf lower db m).asksAttention then some (signalOf lower db m).attention.tier
      else none :=
  attentionTier_toAttentionCandidate

/-- Two candidates compare by tier, then by recency in milliseconds, then by identifier. -/
theorem compareAttention_eq_lt {k l : ℕ} (hm : attentionTier (ruleCandidate lower db m) = some k)
    (hn : attentionTier (ruleCandidate lower db n) = some l) :
    compareAttention (ruleCandidate lower db m) (ruleCandidate lower db n) = .ok .lt ↔
      k < l ∨ k = l ∧ (effectiveTime n / 1000 < effectiveTime m / 1000 ∨
        effectiveTime m / 1000 = effectiveTime n / 1000 ∧ m.id < n.id) := by
  have htime : ∀ m, (ruleCandidate lower db m).sentAt = some (effectiveTime m / 1000) :=
    fun m => toAttentionCandidate_sentAt
  have hcompare : ∀ x y : Time, compare (some x) (some y) = .lt ↔ x < y := by
    intro x y
    have h : compare x y = .lt ↔ x < y := compare_lt_iff_lt
    exact h
  have hid : ∀ m, (ruleCandidate lower db m).messageId = m.id := fun _ => rfl
  unfold compareAttention
  rw [hm, hn, htime, htime, hid, hid]
  simp only [Except.ok.injEq, ne_eq, Option.some_inj]
  by_cases htier : k = l
  · rw [if_neg (not_not.mpr htier)]
    by_cases hms : effectiveTime m / 1000 = effectiveTime n / 1000
    · rw [if_neg (not_not.mpr hms), compare_lt_iff_lt]
      simp [htier, hms]
    · rw [if_pos hms, hcompare]
      simp [htier, hms]
  · rw [if_pos htier, compare_lt_iff_lt]
    simp [htier]

/-- Two candidates are placed by tier, then by recency in microseconds, then by identifier. -/
theorem attention_place_lt :
    (signalOf lower db m).attention.place < (signalOf lower db n).attention.place ↔
      (signalOf lower db m).attention.tier < (signalOf lower db n).attention.tier ∨
        (signalOf lower db m).attention.tier = (signalOf lower db n).attention.tier ∧
          (effectiveTime n < effectiveTime m ∨
            effectiveTime m = effectiveTime n ∧ m.id < n.id) := by
  unfold HomeCandidate.place
  rw [Prod.Lex.toLex_lt_toLex, Prod.Lex.toLex_lt_toLex]
  have hid : ∀ m, (signalOf lower db m).attention.sortId = m.id := fun _ => rfl
  have hvalue : ∀ m, (signalOf lower db m).attention.sortValue = -(effectiveTime m : ℤ) :=
    fun _ => rfl
  rw [hid, hid, hvalue, hvalue, Int.neg_lt_neg_iff, Int.neg_inj, Int.ofNat_lt, Int.ofNat_inj]

/-- The orders by microseconds and by milliseconds agree on two messages when the later one of the
same millisecond has the smaller identifier. -/
theorem order_agrees_iff {x y i j : ℕ} (hij : x ≠ y → i ≠ j) :
    (y < x ∨ x = y ∧ i < j ↔ y / 1000 < x / 1000 ∨ x / 1000 = y / 1000 ∧ i < j) ↔
      (x / 1000 = y / 1000 → (x < y → j < i) ∧ (y < x → i < j)) := by
  by_cases hms : x / 1000 = y / 1000
  · rcases Nat.lt_trichotomy x y with h | rfl | h
    · have hne := hij (Nat.ne_of_lt h)
      omega
    · simp
    · have hne := hij (Nat.ne_of_gt h)
      omega
  · omega

/-- Of two messages whose effective times differ inside one millisecond, the later one has the
smaller identifier. -/
def LaterFirst (m n : Message) : Prop :=
  effectiveTime m / 1000 = effectiveTime n / 1000 →
    (effectiveTime m < effectiveTime n → n.id < m.id) ∧
      (effectiveTime n < effectiveTime m → m.id < n.id)

/-- The query and the rule order two messages alike when they stand in different tiers, or when the
later one of the same millisecond has the smaller identifier. -/
theorem attention_order_iff (hm : Eligible db m) (hn : Eligible db n)
    (hmask : (signalOf lower db m).asksAttention = true)
    (hnask : (signalOf lower db n).asksAttention = true) :
    ((signalOf lower db m).attention.place < (signalOf lower db n).attention.place ↔
      compareAttention (ruleCandidate lower db m) (ruleCandidate lower db n) = .ok .lt) ↔
    (attentionTier (ruleCandidate lower db m) = attentionTier (ruleCandidate lower db n) →
      LaterFirst m n) := by
  have htierm : attentionTier (ruleCandidate lower db m) =
      some (signalOf lower db m).attention.tier := by
    rw [attentionTier_ruleCandidate, if_pos hmask]
  have htiern : attentionTier (ruleCandidate lower db n) =
      some (signalOf lower db n).attention.tier := by
    rw [attentionTier_ruleCandidate, if_pos hnask]
  have hid : effectiveTime m ≠ effectiveTime n → m.id ≠ n.id := by
    intro htime hid
    exact htime (congrArg effectiveTime (Table.eq_of_key_eq hm.stored hn.stored hid))
  rw [compareAttention_eq_lt htierm htiern, attention_place_lt, htierm, htiern, Option.some_inj]
  by_cases htier : (signalOf lower db m).attention.tier = (signalOf lower db n).attention.tier
  · have horder := order_agrees_iff hid
    unfold LaterFirst
    simpa [htier] using horder
  · simp [htier]

/-! ## The refinement -/

/-- The query refines the rule: it selects what the rule gives a tier, in that tier and in the
order of the rule, and each entry that it lists carries a reason that the rule gives. -/
structure RankingRefines (lower : String → String) (db : Database) (now : Time)
    (boundary : Option Instant) : Prop where
  selects : ∀ m, Eligible db m →
    ((∃ c, Selects lower db now boundary m c) ↔ attentionTier (ruleCandidate lower db m) ≠ none)
  tiers : ∀ m, Eligible db m → ∀ c, Selects lower db now boundary m c →
    attentionTier (ruleCandidate lower db m) = some c.tier
  orders : ∀ m n, Eligible db m → Eligible db n → ∀ c d, Selects lower db now boundary m c →
    Selects lower db now boundary n d →
    (c.place < d.place ↔
      compareAttention (ruleCandidate lower db m) (ruleCandidate lower db n) = .ok .lt)
  reasons : ∀ limit cursor,
    ∀ item ∈ (rankedSection lower .needsAttention limit cursor boundary now db).items,
      ∃ m, Eligible db m ∧ m.id = item.message.messageId ∧
        ∃ r ∈ (ruleCandidate lower db m).attentionReasons, r ∈ item.reasons

/-- The signals of a message. -/
theorem mem_signals : s ∈ signals lower db ↔
    ∃ m ∈ db.messages, (db.accounts.find? m.accountId).isSome = true ∧ signalOf lower db m = s := by
  unfold signals
  simp only [List.mem_map, Table.mem_select, and_assoc]

theorem Eligible.mem_signals (hm : Eligible db m) : signalOf lower db m ∈ signals lower db :=
  Home.mem_signals.mpr ⟨m, hm.stored, hm.account, rfl⟩

/-- The message of a signal is stored. -/
theorem message_mem (h : s ∈ signals lower db) : s.message ∈ db.messages := by
  obtain ⟨m, hm, -, rfl⟩ := mem_signals.mp h
  exact hm

/-- The signals of a message are known by its identifier. -/
theorem signals_eq {s s' : HomeSignal} (hs : s ∈ signals lower db) (hs' : s' ∈ signals lower db)
    (hid : s.message.id = s'.message.id) : s = s' := by
  obtain ⟨m, hm, -, rfl⟩ := mem_signals.mp hs
  obtain ⟨m', hm', -, rfl⟩ := mem_signals.mp hs'
  obtain rfl : m = m' := Table.eq_of_key_eq hm hm' hid
  rfl

/-- Among the members of a conversation a message is found by its identifier. -/
theorem find?_members (hs : s ∈ signals lower db) {key : Uuid} (hkey : s.entryKey = key) :
    (((signals lower db).filter (·.entryKey == key)).insertionSort
      fun a b => a.message.id ≤ b.message.id).find? (·.message.id == s.message.id) = some s := by
  have hmem : s ∈ ((signals lower db).filter (·.entryKey == key)).insertionSort
      fun a b => a.message.id ≤ b.message.id := by
    rw [List.mem_insertionSort, List.mem_filter, beq_iff_eq]
    exact ⟨hs, hkey⟩
  obtain ⟨t, ht⟩ : ∃ t, (((signals lower db).filter (·.entryKey == key)).insertionSort
      fun a b => a.message.id ≤ b.message.id).find? (·.message.id == s.message.id) = some t :=
    Option.isSome_iff_exists.mp (List.find?_isSome.mpr ⟨_, hmem, beq_self_eq_true s.message.id⟩)
  have htmem := List.mem_of_mem_filter
    ((List.mem_insertionSort _).mp (List.mem_of_find?_eq_some ht))
  have hfound := List.find?_some ht
  have hid : t.message.id = s.message.id := eq_of_beq hfound
  obtain rfl := signals_eq htmem hs hid
  exact ht

/-- The entry of a candidate of a message shows the message. -/
theorem rankedEntry_messageId (hs : s ∈ signals lower db) {cs : List HomeCandidate}
    (hkey : s.entryKey = c.entryKey) (hid : c.messageId = s.message.id) :
    (rankedEntry lower cs db c).message.messageId = s.message.id := by
  unfold rankedEntry
  simp only [hid, find?_members hs hkey]
  rfl

/-- An attention entry carries the reasons of the rule. -/
theorem rankedEntry_reasons (hm : Eligible db m) {cs : List HomeCandidate}
    (hc : (signalOf lower db m).attention ∈ cs) :
    ∀ r ∈ (ruleCandidate lower db m).attentionReasons,
      r ∈ (rankedEntry lower cs db (signalOf lower db m).attention).reasons := by
  have hfind : (((signals lower db).filter
      (·.entryKey == (signalOf lower db m).attention.entryKey)).insertionSort
        fun a b => a.message.id ≤ b.message.id).find?
          (·.message.id == (signalOf lower db m).attention.messageId) =
        some (signalOf lower db m) :=
    find?_members hm.mem_signals rfl
  intro r hr
  unfold rankedEntry
  simp only [List.mem_reverse, List.mem_dedup, List.mem_flatMap, mem_ranked]
  refine ⟨_, List.mem_filter.mpr ⟨hc, beq_self_eq_true _⟩, ?_⟩
  unfold HomeCandidate.reasons
  rw [hfind]
  exact hr

/-- Every attention entry carries a reason that the rule gives for the message it shows. -/
theorem item_reasons {limit : ℕ} {cursor : Option HomeSectionCursor} {item : HomeItem}
    (h : item ∈ (rankedSection lower .needsAttention limit cursor boundary now db).items) :
    ∃ m, Eligible db m ∧ m.id = item.message.messageId ∧
      ∃ r ∈ (ruleCandidate lower db m).attentionReasons, r ∈ item.reasons := by
  obtain ⟨c, hc, rfl⟩ := List.mem_map.mp h
  obtain ⟨hleader, hsection⟩ :=
    mem_sectionLeaders.mp (mem_of_mem_pageLeaders (List.mem_of_mem_take hc))
  have hmem := mem_of_mem_leaders hleader
  obtain ⟨m, hm, hasks, rfl⟩ := mem_candidates_attention.mp ⟨hmem, hsection⟩
  obtain ⟨r, hr⟩ := List.exists_mem_of_ne_nil _ (attentionReasons_ne_nil hasks)
  exact ⟨m, hm, (rankedEntry_messageId hm.mem_signals rfl rfl).symm, r, hr,
    rankedEntry_reasons hm hmem r hr⟩

/-- The query refines the rule exactly when, of two attention messages of one tier whose effective
times differ inside one millisecond, the later one has the smaller identifier. -/
theorem ranking_refines_iff (lower : String → String) (db : Database) (now : Time)
    (boundary : Option Instant) :
    RankingRefines lower db now boundary ↔
      ∀ m n, Eligible db m → Eligible db n →
        attentionTier (ruleCandidate lower db m) ≠ none →
        attentionTier (ruleCandidate lower db m) = attentionTier (ruleCandidate lower db n) →
        LaterFirst m n := by
  have hasks : ∀ m, attentionTier (ruleCandidate lower db m) ≠ none ↔
      (signalOf lower db m).asksAttention = true := by
    intro m
    rw [attentionTier_ruleCandidate]
    by_cases h : (signalOf lower db m).asksAttention = true <;> simp [h]
  constructor
  · intro h m n hm hn hmtier htier
    have hmask := (hasks m).mp hmtier
    have hnask := (hasks n).mp (htier ▸ hmtier)
    exact (attention_order_iff hm hn hmask hnask).mp
      (h.orders m n hm hn _ _ ((selects_iff hm).mpr ⟨hmask, rfl⟩)
        ((selects_iff hn).mpr ⟨hnask, rfl⟩)) htier
  · intro h
    refine ⟨fun m hm => ?_, fun m hm c hc => ?_, fun m n hm hn c d hc hd => ?_,
      fun _ _ _ hitem => item_reasons hitem⟩
    · rw [hasks]
      constructor
      · rintro ⟨c, hc⟩
        exact ((selects_iff hm).mp hc).1
      · intro hmask
        exact ⟨_, (selects_iff hm).mpr ⟨hmask, rfl⟩⟩
    · obtain ⟨hmask, rfl⟩ := (selects_iff hm).mp hc
      rw [attentionTier_ruleCandidate, if_pos hmask]
    · obtain ⟨hmask, rfl⟩ := (selects_iff hm).mp hc
      obtain ⟨hnask, rfl⟩ := (selects_iff hn).mp hd
      exact (attention_order_iff hm hn hmask hnask).mpr
        (h m n hm hn ((hasks m).mpr hmask))

/-! ## A sample -/

/-- One account with an inbox that holds these messages. -/
def inboxOf (ms : List Message) : Database :=
  { Database.empty with
    accounts := Table.empty.put ⟨1, [], true⟩
    folders := Table.empty.put ⟨1, 1, "INBOX", some .inbox, some 1, 0, none, none, false⟩
    messages := ms.foldl Table.put .empty
    messageOccurrences := ms.foldl (fun t m =>
      t.put ⟨m.id, 1, m.id, 1, 1, m.id, 0, true, false, none, 1, none, none⟩) .empty }

/-- A message without a date that may need a reply. -/
def undated (id : Uuid) (ingestedAt : Instant) : Message :=
  { Message.bare id 1 ingestedAt with asksReply := some true }

/-- Two messages of one millisecond: the query puts the later one first, the rule the one with the
smaller identifier. -/
theorem ranking_differs :
    ¬ RankingRefines (fun text => text) (inboxOf [undated 1 1000300, undated 2 1000700]) 0
      none := by
  intro h
  have hfirst : Eligible (inboxOf [undated 1 1000300, undated 2 1000700]) (undated 1 1000300) :=
    ⟨List.mem_cons_self, rfl, by decide, by decide⟩
  have hsecond : Eligible (inboxOf [undated 1 1000300, undated 2 1000700]) (undated 2 1000700) :=
    ⟨List.mem_cons_of_mem _ List.mem_cons_self, rfl, by decide, by decide⟩
  have horder := h.orders _ _ hfirst hsecond _ _ ((selects_iff hfirst).mpr ⟨by decide, rfl⟩)
    ((selects_iff hsecond).mpr ⟨by decide, rfl⟩)
  have hrule := (attention_order_iff hfirst hsecond (by decide) (by decide)).mp horder (by decide)
  exact absurd ((hrule rfl).1 (by decide)) (by decide)

end MailHub.Home
