import SteamBee.Data.History
import SteamBee.Inventory.MarketRows
import SteamBee.Inventory.Serial

/-! Previews and batch rows are used up: each leads to at most one request to Steam,
and a preview to one for whom and what it was issued. -/
namespace SteamBee.Inventory

structure Request where
  accountId : AccountId
  kind : MarketKind
  origin : Origin
  takenAt : ℕ
  sentAt : ℕ

def MarketEvent.request : MarketEvent → Option Request
  | .posted _ p => some ⟨p.accountId, .sale, p.origin, p.takenAt, p.sentAt⟩
  | .removed _ r => some ⟨r.accountId, .cancel, r.origin, r.takenAt, r.sentAt⟩
  | _ => none

namespace Op

def source (op : Op) : Option (Uuid ⊕ Uuid × ℕ) :=
  match op.stage with
  | .queued (.row jobId index _) => some (.inr (jobId, index))
  | .queued _ => none
  | .running r => r.intent.map fun x => x.2.1.source

def isUnsent (op : Op) : Bool :=
  match op.stage with
  | .queued _ => true
  | .running r => r.unsent

def sends (op : Op) (read : MarketRead) : Bool :=
  match op.stage with
  | .queued _ => false
  | .running r => r.sends read

end Op

namespace Market
variable {m m' : Market} {a : MarketAction} {k : OpId} {op op' : Op} {s : Uuid ⊕ Uuid × ℕ}

/-- The request that a step records is that of an operation which had not sent one. -/
theorem LedgerStep.request {l : Ledger} {drawn : ℕ} (h : LedgerStep m drawn a l) :
    l.history = m.ledger.history ∨ ∃ e, l.history = e :: m.ledger.history ∧
      ∀ r, e.request = some r → ∃ k op run intent read, m.ops.lookup k = some op ∧
        op.stage = .running run ∧ run.unsent = true ∧
        run.intent = some (intent, r.origin, r.takenAt) ∧ r.accountId = op.accountId ∧
        r.kind = intent.kind ∧ a = .reads k read ∧ run.sends read = true := by
  cases h with
  | same => exact .inl rfl
  | loads => exact .inr ⟨_, rfl, fun r hr => (by cases hr)⟩
  | reads => exact .inr ⟨_, rfl, fun r hr => (by cases hr)⟩
  | posts h hstage =>
    refine .inr ⟨_, Ledger.history_post, fun r hr => ?_⟩
    obtain rfl := Option.some.inj hr
    exact ⟨_, _, _, _, _, h, hstage, rfl, rfl, rfl, rfl, rfl, rfl⟩
  | answers => exact .inr ⟨_, Ledger.history_answer, fun r hr => (by cases hr)⟩
  | issues => exact .inr ⟨_, rfl, fun r hr => (by cases hr)⟩
  | removes h hstage =>
    refine .inr ⟨_, rfl, fun r hr => ?_⟩
    obtain rfl := Option.some.inj hr
    exact ⟨_, _, _, _, _, h, hstage, rfl, rfl, rfl, rfl, rfl, rfl⟩
  | disappears h => exact .inl (Ledger.disappear_frame h).2.2.2

/-- Events are never forgotten. -/
theorem LedgerStep.keeps {l : Ledger} {drawn : ℕ} (h : LedgerStep m drawn a l) {e : MarketEvent}
    (he : e ∈ m.ledger.history) : e ∈ l.history := by
  rcases h.request with heq | ⟨e', heq, -⟩
  · rw [heq]
    exact he
  · rw [heq]
    exact List.mem_cons_of_mem _ he

/-- The previews that can be confirmed are issued ones, and each token is issued once. -/
structure Previews (m : Market) : Prop where
  known : ∀ token i, m.intents.lookup token = some i → token < m.drawn ∧
    .issued token i.accountId i.actor i.kind i.expiresAt ∈ m.ledger.history
  drawn : ∀ token accountId actor kind expiresAt,
    .issued token accountId actor kind expiresAt ∈ m.ledger.history → token < m.drawn
  unique : ∀ token accountId actor kind expiresAt accountId' actor' kind' expiresAt',
    .issued token accountId actor kind expiresAt ∈ m.ledger.history →
    .issued token accountId' actor' kind' expiresAt' ∈ m.ledger.history →
    accountId = accountId' ∧ actor = actor' ∧ kind = kind' ∧ expiresAt = expiresAt'

theorem previews_empty (steam : Table AccountId Steam) : (empty steam).Previews := by
  constructor
  · intro _ _ h
    cases h
  · intro _ _ _ _ _ h
    cases h
  · intro _ _ _ _ _ _ _ _ _ h
    cases h

/-- What an `issued` event of a new history is. -/
theorem LedgerStep.issued {l : Ledger} {drawn : ℕ} (h : LedgerStep m drawn a l) :
    (∀ token accountId actor kind expiresAt,
      .issued token accountId actor kind expiresAt ∈ l.history →
        .issued token accountId actor kind expiresAt ∈ m.ledger.history) ∨
    ∃ accountId actor kind expiresAt, m.drawn < drawn ∧
      l.history = .issued m.drawn accountId actor kind expiresAt :: m.ledger.history := by
  have hold {e : MarketEvent} (hl : l.history = e :: m.ledger.history)
      (he : ∀ token accountId actor kind expiresAt,
        e ≠ .issued token accountId actor kind expiresAt) :
      ∀ token accountId actor kind expiresAt,
        .issued token accountId actor kind expiresAt ∈ l.history →
          .issued token accountId actor kind expiresAt ∈ m.ledger.history := by
    intro token accountId actor kind expiresAt hi
    rw [hl, List.mem_cons] at hi
    exact hi.resolve_left (he token accountId actor kind expiresAt).symm
  cases h with
  | same => exact .inl fun _ _ _ _ _ hi => hi
  | loads | reads | removes => exact .inl (hold rfl (by simp))
  | posts => exact .inl (hold Ledger.history_post (by simp))
  | answers => exact .inl (hold Ledger.history_answer (by simp))
  | issues ht hlt =>
    rw [ht] at hlt ⊢
    exact .inr ⟨_, _, _, _, hlt, rfl⟩
  | disappears h =>
    refine .inl fun _ _ _ _ _ hi => ?_
    rwa [(Ledger.disappear_frame h).2.2.2] at hi

theorem Previews.next (h : m.Previews) (hs : Steps m a m') : m'.Previews := by
  rcases hs.ledger.issued with hold | ⟨acc, act, kd, exp, hlt, hnew⟩
  · constructor
    · intro token i ht
      rcases hs.intents token i ht with ht | ⟨-, hlt, -, hi⟩
      · obtain ⟨hlt, hi⟩ := h.known token i ht
        exact ⟨hlt.trans_le hs.drawn, hs.ledger.keeps hi⟩
      · exact ⟨hlt, hi⟩
    · intro token _ _ _ _ hi
      exact (h.drawn token _ _ _ _ (hold _ _ _ _ _ hi)).trans_le hs.drawn
    · intro token _ _ _ _ _ _ _ _ hi hi'
      exact h.unique token _ _ _ _ _ _ _ _ (hold _ _ _ _ _ hi) (hold _ _ _ _ _ hi')
  · have hcases (token accountId actor kind expiresAt)
        (hi : .issued token accountId actor kind expiresAt ∈ m'.ledger.history) :
        (token = m.drawn ∧ accountId = acc ∧ actor = act ∧ kind = kd ∧ expiresAt = exp) ∨
          .issued token accountId actor kind expiresAt ∈ m.ledger.history := by
      rw [hnew, List.mem_cons] at hi
      rcases hi with hi | hi
      · exact .inl (MarketEvent.issued.inj hi)
      · exact .inr hi
    constructor
    · intro token i ht
      rcases hs.intents token i ht with ht | ⟨-, hlt, -, hi⟩
      · obtain ⟨hlt, hi⟩ := h.known token i ht
        exact ⟨hlt.trans_le hs.drawn, hs.ledger.keeps hi⟩
      · exact ⟨hlt, hi⟩
    · intro token _ _ _ _ hi
      rcases hcases token _ _ _ _ hi with ⟨rfl, -⟩ | hi
      · exact hlt
      · exact (h.drawn token _ _ _ _ hi).trans_le hs.drawn
    · intro token _ _ _ _ _ _ _ _ hi hi'
      rcases hcases token _ _ _ _ hi with ⟨rfl, rfl, rfl, rfl, rfl⟩ | hi
      · rcases hcases _ _ _ _ _ hi' with ⟨-, rfl, rfl, rfl, rfl⟩ | hi'
        · exact ⟨rfl, rfl, rfl, rfl⟩
        · exact absurd (h.drawn _ _ _ _ _ hi') (lt_irrefl _)
      · rcases hcases _ _ _ _ _ hi' with ⟨rfl, -⟩ | hi'
        · exact absurd (h.drawn _ _ _ _ _ hi) (lt_irrefl _)
        · exact h.unique token _ _ _ _ _ _ _ _ hi hi'

/-- A preview that cannot be confirmed any more, a row that cannot be called any more. -/
def UsedUp (m : Market) : Uuid ⊕ Uuid × ℕ → Prop
  | .inl token => token < m.drawn ∧ m.intents.lookup token = none
  | .inr (jobId, index) => jobId < m.batches.drawn ∧
    ∀ job, m.batches.jobs.lookup jobId = some job → index ∈ job.started

theorem UsedUp.next (h : m.UsedUp s) (hsound : m.batches.Sound)
    (hn : marketMachine.next m a = some m') : m'.UsedUp s := by
  have hs := steps_of_next hn
  cases s with
  | inl token =>
    obtain ⟨hlt, hnone⟩ := h
    refine ⟨hlt.trans_le hs.drawn, Option.eq_none_iff_forall_ne_some.mpr fun i hi => ?_⟩
    rcases hs.intents token i hi with hold | ⟨rfl, -⟩
    · rw [hnone] at hold
      cases hold
    · exact absurd hlt (lt_irrefl _)
  | inr row =>
    obtain ⟨jobId, index⟩ := row
    obtain ⟨hlt, hstarted⟩ := h
    rcases batches_of_next hn with heq | ⟨b, -, hb⟩
    · rw [UsedUp, heq]
      exact ⟨hlt, hstarted⟩
    · obtain ⟨-, hf⟩ := MarketBatchQueue.next_spec hsound hb
      refine ⟨hlt.trans_le hf.drawn, fun job hj => ?_⟩
      obtain ⟨old, hold, he⟩ := hf.jobs jobId job hj hlt
      exact he.started.subset (hstarted old hold)

/-- The operation had its preview or row before the step, and has not sent its request in
it if it still is unsent. -/
def Kept (m : Market) (a : MarketAction) (k : OpId) (op' : Op) (s : Uuid ⊕ Uuid × ℕ) : Prop :=
  ∃ op, m.ops.lookup k = some op ∧ op.source = some s ∧
    (op'.isUnsent = true → op.isUnsent = true ∧ ∀ read, a = .reads k read → op.sends read = false)

/-- The operation has taken its preview or row in the step. -/
structure Takes (m : Market) (a : MarketAction) (m' : Market) (k : OpId)
    (s : Uuid ⊕ Uuid × ℕ) : Prop where
  free : ¬m.UsedUp s
  usedUp : m'.UsedUp s
  at_turn : a = .run k ∨ k = m.drawn ∧ a.resumesRunner = true

theorem source_of_next (hsound : m.batches.Sound) (hp : m.Previews)
    (hn : marketMachine.next m a = some m') (hk : m'.ops.lookup k = some op')
    (hsource : op'.source = some s) : Kept m a k op' s ∨ Takes m a m' k s := by
  have hs := steps_of_next hn
  cases hs.ops k op' hk with
  | same h ha => exact .inl ⟨op', h, hsource, fun hu => ⟨hu, fun read he => absurd he (ha read)⟩⟩
  | called call heq hlt hop hrow =>
    cases call with
    | row jobId index intent =>
      obtain rfl : Sum.inr (jobId, index) = s := by simpa [Op.source, hop] using hsource
      rcases rows_of_next hsound hn hk hop with hold | hfirst
      · refine .inl ⟨op', hold, hsource, fun hu => ⟨hu, fun read he => ?_⟩⟩
        subst he
        cases hrow rfl
      · refine .inr ⟨?_, ⟨hfirst.drawn, hfirst.started⟩, .inr ⟨heq, hrow rfl⟩⟩
        rintro ⟨hlt, hall⟩
        rcases hfirst.known with hle | ⟨job, hj, hnot⟩
        · exact absurd hlt (not_lt.mpr hle)
        · exact hnot (hall job hj)
    | _ => simp [Op.source, hop] at hsource
  | begins op call r h hstage ha hnext hop hr =>
    subst hop
    obtain ⟨⟨i, origin, takenAt⟩, hi, rfl⟩ : ∃ x, r.intent = some x ∧ x.2.1.source = s := by
      simpa [Op.source] using hsource
    rcases (hr.intent i origin takenAt hi).2 with ⟨token, rfl, hlook, -, -, hnone⟩ |
      ⟨jobId, index, rfl, rfl⟩
    · refine .inr ⟨fun hused => ?_, ⟨?_, hnone⟩, .inl ha⟩
      · rw [hused.2] at hlook
        cases hlook
      · exact (hp.known token i hlook).1.trans_le hs.drawn
    · refine .inl ⟨op, h, by simp [Op.source, hstage, Origin.source], fun _ => ?_⟩
      simp [Op.isUnsent, Op.sends, hstage]
  | resumes op r r' read h hstage ha hop hr =>
    subst hop
    obtain ⟨x, hi, rfl⟩ : ∃ x, r'.intent = some x ∧ x.2.1.source = s := by
      simpa [Op.source] using hsource
    refine .inl ⟨op, h, by simp [Op.source, hstage, hr.intent x hi], fun hu => ?_⟩
    obtain ⟨hunsent, hsends⟩ := hr.unsent hu
    refine ⟨by simpa [Op.isUnsent, hstage] using hunsent, fun read' he => ?_⟩
    obtain rfl := (MarketAction.reads.inj (ha.symm.trans he)).2
    simpa [Op.sends, hstage] using hsends
  | posts op intent origin takenAt item settings accepted h hstage ha hop =>
    subst hop
    refine .inl ⟨op, h, by simpa [Op.source, hstage, Running.intent] using hsource, fun hu => ?_⟩
    cases hu
  | removes op intent origin takenAt h hstage ha hop =>
    subst hop
    refine .inl ⟨op, h, by simpa [Op.source, hstage, Running.intent] using hsource, fun hu => ?_⟩
    cases hu

def Uses (m : Market) (s : Uuid ⊕ Uuid × ℕ) : Prop :=
  (∃ k op, m.ops.lookup k = some op ∧ op.source = some s) ∨
    ∃ e ∈ m.ledger.history, ∃ r, e.request = some r ∧ r.origin.source = s

/-- One operation for each preview or row, and one request. -/
structure Sourced (m : Market) : Prop where
  usedUp : ∀ s, m.Uses s → m.UsedUp s
  apart : ∀ k op k' op' s, m.ops.lookup k = some op → op.source = some s →
    m.ops.lookup k' = some op' → op'.source = some s → k = k'
  unsent : ∀ k op s, m.ops.lookup k = some op → op.source = some s → op.isUnsent = true →
    ∀ e ∈ m.ledger.history, ∀ r, e.request = some r → r.origin.source ≠ s
  once : m.ledger.history.Pairwise fun e e' =>
    ∀ r r', e.request = some r → e'.request = some r' → r.origin.source ≠ r'.origin.source

theorem sourced_empty (steam : Table AccountId Steam) : (empty steam).Sourced := by
  constructor
  · rintro s (⟨k, op, hk, -⟩ | ⟨e, he, -⟩)
    · cases hk
    · cases he
  · intro _ _ _ _ _ hk
    cases hk
  · intro _ _ _ hk
    cases hk
  · exact List.Pairwise.nil

/-- A request in the new history is an old one, or that of the operation which sends it. -/
theorem request_cases (hs : Steps m a m') {e : MarketEvent} (he : e ∈ m'.ledger.history)
    {r : Request} (hr : e.request = some r) : e ∈ m.ledger.history ∨
      ∃ k op read, m.ops.lookup k = some op ∧ op.source = some r.origin.source ∧
        op.isUnsent = true ∧ a = .reads k read ∧ op.sends read = true := by
  rcases hs.ledger.request with heq | ⟨e', heq, hreq⟩
  · rw [heq] at he
    exact .inl he
  · rw [heq, List.mem_cons] at he
    rcases he with rfl | he
    · obtain ⟨k, op, run, intent, read, hk, hstage, hu, hi, -, -, ha, hsends⟩ := hreq r hr
      exact .inr ⟨k, op, read, hk, by simp [Op.source, hstage, hi], by simp [Op.isUnsent, hstage, hu],
        ha, by simp [Op.sends, hstage, hsends]⟩
    · exact .inl he

theorem uses_of_next (hsound : m.batches.Sound) (hp : m.Previews)
    (hn : marketMachine.next m a = some m') (hu : m'.Uses s) : m.Uses s ∨ m'.UsedUp s := by
  rcases hu with ⟨k, op, hk, hsource⟩ | ⟨e, he, r, hr, rfl⟩
  · rcases source_of_next hsound hp hn hk hsource with ⟨old, hold, hs, -⟩ | htakes
    · exact .inl (.inl ⟨k, old, hold, hs⟩)
    · exact .inr htakes.usedUp
  · rcases request_cases (steps_of_next hn) he hr with he | ⟨k, op, -, hk, hsource, -⟩
    · exact .inl (.inr ⟨e, he, r, hr, rfl⟩)
    · exact .inl (.inl ⟨k, op, hk, hsource⟩)

theorem Sourced.next (h : m.Sourced) (hsound : m.batches.Sound) (hp : m.Previews)
    (hn : marketMachine.next m a = some m') : m'.Sourced := by
  have hs := steps_of_next hn
  constructor
  · intro s hu
    rcases uses_of_next hsound hp hn hu with hu | hu
    · exact (h.usedUp s hu).next hsound hn
    · exact hu
  · intro k op k' op' s hk hsource hk' hsource'
    rcases source_of_next hsound hp hn hk hsource with ⟨old, hold, hso, -⟩ | ht
    · rcases source_of_next hsound hp hn hk' hsource' with ⟨old', hold', hso', -⟩ | ht'
      · exact h.apart k old k' old' s hold hso hold' hso'
      · exact absurd (h.usedUp s (.inl ⟨k, old, hold, hso⟩)) ht'.free
    · rcases source_of_next hsound hp hn hk' hsource' with ⟨old', hold', hso', -⟩ | ht'
      · exact absurd (h.usedUp s (.inl ⟨k', old', hold', hso'⟩)) ht.free
      · rcases ht.at_turn with rfl | ⟨rfl, hrun⟩
        · rcases ht'.at_turn with heq | ⟨-, hrun⟩
          · exact MarketAction.run.inj heq
          · cases hrun
        · rcases ht'.at_turn with rfl | ⟨rfl, -⟩
          · cases hrun
          · rfl
  · intro k op s hk hsource hunsent e he r hr heq
    subst heq
    rcases source_of_next hsound hp hn hk hsource with ⟨old, hold, hso, hkeep⟩ | ht
    · obtain ⟨hu, hsends⟩ := hkeep hunsent
      rcases request_cases hs he hr with he | ⟨j, opj, read, hj, hsj, -, ha, hsend⟩
      · exact h.unsent k old _ hold hso hu e he r hr rfl
      · obtain rfl := h.apart j opj k old _ hj hsj hold hso
        obtain rfl := Option.some.inj (hj.symm.trans hold)
        rw [hsends read ha] at hsend
        cases hsend
    · rcases request_cases hs he hr with he | ⟨j, opj, -, hj, hsj, -⟩
      · exact ht.free (h.usedUp _ (.inr ⟨e, he, r, hr, rfl⟩))
      · exact ht.free (h.usedUp _ (.inl ⟨j, opj, hj, hsj⟩))
  · rcases hs.ledger.request with heq | ⟨e, heq, hreq⟩
    · rw [heq]
      exact h.once
    · rw [heq]
      refine List.Pairwise.cons (fun e' he' r r' hr hr' => ?_) h.once
      obtain ⟨k, op, run, intent, read, hk, hstage, hu, hi, -⟩ := hreq r hr
      exact (h.unsent k op _ hk (by simp [Op.source, hstage, hi]) (by simp [Op.isUnsent, hstage, hu])
        e' he' r' hr').symm

/-- Whoever confirms a preview got it for this account, actor and kind, and in time. -/
def Confirmed (m : Market) : Prop :=
  ∀ k op run i actor kind token takenAt, m.ops.lookup k = some op → op.stage = .running run →
    run.intent = some (i, .confirmed actor kind token, takenAt) → i.kind = kind ∧
      ∃ expiresAt, .issued token op.accountId actor kind expiresAt ∈ m.ledger.history ∧
        takenAt < expiresAt

theorem Confirmed.next (h : m.Confirmed) (hp : m.Previews) (hs : Steps m a m') :
    m'.Confirmed := by
  intro k op' run i actor kind token takenAt hk hrun hi
  have hkeep {old : Op} {r : Running} (hold : m.ops.lookup k = some old)
      (hacc : old.accountId = op'.accountId) (hstage : old.stage = .running r)
      (hr : r.intent = some (i, .confirmed actor kind token, takenAt)) : i.kind = kind ∧
        ∃ expiresAt, .issued token op'.accountId actor kind expiresAt ∈ m'.ledger.history ∧
          takenAt < expiresAt := by
    obtain ⟨hkind, expiresAt, hissued, hlt⟩ := h k old r i actor kind token takenAt hold hstage hr
    exact ⟨hkind, expiresAt, hs.ledger.keeps (hacc ▸ hissued), hlt⟩
  cases hs.ops k op' hk with
  | same h => exact hkeep h rfl hrun hi
  | called call _ _ hop => simp [hop] at hrun
  | begins op call r _ hstage ha hnext hop hr =>
    subst hop
    obtain rfl : r = run := by simpa using hrun
    obtain ⟨rfl, hcases⟩ := hr.intent i _ _ hi
    rcases hcases with ⟨token', ho, hlook, hacc, hlt, -⟩ | ⟨jobId, index, -, ho⟩
    · obtain ⟨rfl, rfl, rfl⟩ := Origin.confirmed.inj ho
      exact ⟨rfl, i.expiresAt, hs.ledger.keeps (hacc ▸ (hp.known token i hlook).2), hlt⟩
    · cases ho
  | resumes op r r' read h hstage ha hop hr =>
    subst hop
    obtain rfl : r' = run := by simpa using hrun
    exact hkeep h rfl hstage (hr.intent _ hi)
  | posts op intent origin t item settings accepted h hstage ha hop =>
    subst hop
    obtain rfl : Running.executeSale intent origin t (.post accepted) = run := by simpa using hrun
    exact hkeep h rfl hstage hi
  | removes op intent origin t h hstage ha hop =>
    subst hop
    obtain rfl : Running.executeCancellation intent origin t .post = run := by simpa using hrun
    exact hkeep h rfl hstage hi

/-- A preview leads to requests only for the account, the actor and the kind that it was
issued for, and was confirmed in time. -/
def Rightful (e : MarketEvent) (older : List MarketEvent) : Prop :=
  ∀ r actor kind token, e.request = some r → r.origin = .confirmed actor kind token →
    r.kind = kind ∧ ∃ expiresAt, .issued token r.accountId actor kind expiresAt ∈ older ∧
      r.takenAt < expiresAt

theorem rightful_next (hc : m.Confirmed) (h : History.Each Rightful m.ledger.history)
    (hs : Steps m a m') : History.Each Rightful m'.ledger.history := by
  rcases hs.ledger.request with heq | ⟨e, heq, hreq⟩
  · rw [heq]
    exact h
  · rw [heq]
    refine ⟨fun r actor kind token hr ho => ?_, h⟩
    obtain ⟨k, op, run, intent, read, hk, hstage, -, hi, hacc, hkind, -⟩ := hreq r hr
    rw [ho] at hi
    obtain ⟨hik, expiresAt, hissued, hlt⟩ := hc k op run intent actor kind token _ hk hstage hi
    exact ⟨hkind.trans hik, expiresAt, hacc ▸ hissued, hlt⟩

end Market
end SteamBee.Inventory
