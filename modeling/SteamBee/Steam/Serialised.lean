import SteamBee.Steam.AccountOperationState

/-! Operations of one account run one at a time in the order of their calls, whatever they
settle with, and `drain` returns when no chain is left. -/
namespace SteamBee.Steam
variable {T E M : Type}

def OperationAction.operation : OperationAction T E M → Option OperationId
  | .start id | .settle id _ | .settleTail id | .clean id => some id
  | _ => none

namespace AccountOperationState
variable {s t : AccountOperationState T E M} {a : OperationAction T E M} {id k m n : OperationId}
  {op op' : Operation T E} {accountId : AccountId}

inductive Moves (s : AccountOperationState T E M) :
    OperationStage T E → OperationStage T E → Prop where
  | start {previous : Option OperationId} (h : s.isReady previous = true) :
      Moves s (.queued previous) .running
  | settle {result : Except E T} : Moves s .running (.settled result)
  | settleTail {result : Except E T} : Moves s (.settled result) (.tailed result)

inductive ChainStep (s : AccountOperationState T E M) (a : OperationAction T E M)
    (t : AccountOperationState T E M) : Prop where
  | still (hops : t.operations = s.operations) (hqueues : t.queues = s.queues)
      (hdrawn : s.drawn ≤ t.drawn)
  | called (accountId : AccountId) (ha : a = .run accountId)
      (hops : t.operations =
        s.operations.insert s.drawn ⟨accountId, .queued (s.queues.lookup accountId)⟩)
      (hqueues : t.queues = s.queues.insert accountId s.drawn) (hdrawn : t.drawn = s.drawn + 1)
  | moved (id : OperationId) (op : Operation T E) (stage : OperationStage T E)
      (ha : a.operation = some id) (hop : s.operations.lookup id = some op)
      (hops : t.operations = s.operations.insert id { op with stage })
      (hqueues : t.queues = s.queues) (hdrawn : t.drawn = s.drawn) (hmoves : s.Moves op.stage stage)
      (hresult : ∀ result, stage = .settled result → a = .settle id result)
  | cleaned (id : OperationId) (op : Operation T E) (result : Except E T)
      (ha : a.operation = some id) (hop : s.operations.lookup id = some op) (hstage : op.stage = .tailed result)
      (hops : t.operations = s.operations.insert id { op with stage := .cleaned result })
      (hqueues : t.queues = if s.queues.lookup op.accountId = some id
        then s.queues.erase op.accountId else s.queues) (hdrawn : t.drawn = s.drawn)

/-- Every step. -/
theorem chainStep_of_next (h : (operationMachine T E M).next s a = some t) : ChainStep s a t := by
  cases a with
  | run accountId =>
    obtain rfl := Option.some.inj h
    exact .called accountId rfl rfl rfl rfl
  | start id =>
    obtain ⟨op, hop, h⟩ := Option.bind_eq_some_iff.mp h
    split at h
    next previous hstage =>
      split_ifs at h with hready
      obtain rfl := Option.some.inj h
      refine .moved id op .running rfl hop rfl rfl rfl ?_ (by simp)
      rw [hstage]
      exact .start hready
    next => cases h
  | settle id result =>
    obtain ⟨op, hop, h⟩ := Option.bind_eq_some_iff.mp h
    split at h
    next hstage =>
      obtain rfl := Option.some.inj h
      refine .moved id op (.settled result) rfl hop rfl rfl rfl ?_ (by simp)
      rw [hstage]
      exact .settle
    next => cases h
  | settleTail id =>
    obtain ⟨op, hop, h⟩ := Option.bind_eq_some_iff.mp h
    split at h
    next result hstage =>
      obtain rfl := Option.some.inj h
      refine .moved id op (.tailed result) rfl hop rfl rfl rfl ?_ (by simp)
      rw [hstage]
      exact .settleTail
    next => cases h
  | clean id =>
    obtain ⟨op, hop, h⟩ := Option.bind_eq_some_iff.mp h
    split at h
    next result hstage =>
      dsimp only at h
      split_ifs at h with hentry
      · obtain rfl := Option.some.inj h
        exact .cleaned id op result rfl hop hstage rfl (if_pos hentry).symm rfl
      · obtain rfl := Option.some.inj h
        exact .cleaned id op result rfl hop hstage rfl (if_neg hentry).symm rfl
    next => cases h
  | drain =>
    obtain rfl := Option.some.inj h
    exact .still rfl rfl (Nat.le_succ _)
  | drainSettled id =>
    obtain ⟨stage, hstage, h⟩ := Option.bind_eq_some_iff.mp h
    split at h
    next =>
      split_ifs at h
      obtain rfl := Option.some.inj h
      exact .still rfl rfl le_rfl
    next => cases h
  | remember =>
    obtain rfl := Option.some.inj h
    unfold remember
    dsimp only
    split_ifs <;> exact .still rfl rfl le_rfl
  | metadata =>
    obtain rfl := Option.some.inj h
    unfold metadata
    split
    next => exact .still rfl rfl le_rfl
    next => split_ifs <;> exact .still rfl rfl le_rfl
  | clearContext | clearContexts | tick =>
    obtain rfl := Option.some.inj h
    exact .still rfl rfl le_rfl

structure Waits (s : AccountOperationState T E M) (n : OperationId) (accountId : AccountId)
    (previous : Option OperationId) : Prop where
  last : ∀ p, previous = some p → p < n ∧
    (∃ op, s.operations.lookup p = some op ∧ op.accountId = accountId) ∧
    ∀ k op, s.operations.lookup k = some op → op.accountId = accountId → k < n → k ≤ p
  first : previous = none → ∀ k op, s.operations.lookup k = some op →
    op.accountId = accountId → k < n → op.stage.isOver = true

structure Chained (s : AccountOperationState T E M) : Prop where
  fresh : ∀ n op, s.operations.lookup n = some op → n < s.drawn
  waits : ∀ n op previous, s.operations.lookup n = some op → op.stage = .queued previous →
    s.Waits n op.accountId previous
  ordered : ∀ m n op op', s.operations.lookup m = some op → s.operations.lookup n = some op' →
    op.accountId = op'.accountId → m < n → op'.stage.isQueued = false → op.stage.isOver = true
  entry : ∀ accountId id, s.queues.lookup accountId = some id →
    (∃ op, s.operations.lookup id = some op ∧ op.accountId = accountId) ∧
    ∀ k op, s.operations.lookup k = some op → op.accountId = accountId → k ≤ id
  kept : ∀ n op, s.operations.lookup n = some op → op.stage.isOver = false →
    s.queues.lookup op.accountId ≠ none

theorem chained_empty (contextTtlMs : ℕ) :
    (empty contextTtlMs : AccountOperationState T E M).Chained where
  fresh _ _ h := by cases h
  waits _ _ _ h := by cases h
  ordered _ _ _ _ h := by cases h
  entry _ _ h := by cases h
  kept _ _ h := by cases h

theorem Moves.not_over {stage stage' : OperationStage T E} (h : s.Moves stage stage') :
    stage.isOver = false ∧ stage'.isQueued = false := by
  cases h with
  | start => exact ⟨rfl, rfl⟩
  | settle => exact ⟨rfl, rfl⟩
  | settleTail => exact ⟨rfl, rfl⟩

theorem isOver_of_isReady {p : OperationId} (h : s.isReady (some p) = true) :
    ∃ op, s.operations.lookup p = some op ∧ op.stage.isOver = true := by
  simpa [isReady, Option.any_eq_true] using h

/-- An operation that may start comes after all that were called before it. -/
theorem Chained.over_of_ready (h : s.Chained) {previous : Option OperationId}
    (hn : s.operations.lookup n = some op) (hstage : op.stage = .queued previous)
    (hready : s.isReady previous = true) (hm : s.operations.lookup m = some op')
    (hacc : op'.accountId = op.accountId) (hlt : m < n) : op'.stage.isOver = true := by
  have hwaits := h.waits n op previous hn hstage
  cases previous with
  | none => exact hwaits.first rfl m op' hm hacc hlt
  | some p =>
    obtain ⟨-, ⟨opp, hp, haccp⟩, hlast⟩ := hwaits.last p rfl
    obtain ⟨opr, hpr, hover⟩ := isOver_of_isReady hready
    obtain rfl := Option.some.inj (hp.symm.trans hpr)
    rcases (hlast m op' hm hacc hlt).eq_or_lt with rfl | hmp
    · obtain rfl := Option.some.inj (hm.symm.trans hp)
      exact hover
    · apply h.ordered m p op' opp hm hp (hacc.trans haccp.symm) hmp
      cases hs : opp.stage with
      | queued => simp [hs, OperationStage.isOver] at hover
      | _ => rfl

/-- One operation goes on. -/
theorem Chained.replace (h : s.Chained) (hop : s.operations.lookup id = some op)
    {stage : OperationStage T E}
    (hops : t.operations = s.operations.insert id { op with stage }) (hdrawn : t.drawn = s.drawn)
    (hstage : stage.isQueued = false) (hover : op.stage.isOver = true → stage.isOver = true)
    (hready : ∀ previous, op.stage = .queued previous → s.isReady previous = true)
    (hqueues : ∀ accountId k, t.queues.lookup accountId = some k →
      s.queues.lookup accountId = some k)
    (hkept : ∀ n op', t.operations.lookup n = some op' → op'.stage.isOver = false →
      t.queues.lookup op'.accountId ≠ none) : t.Chained := by
  have hlook (k : OperationId) : t.operations.lookup k =
      if k = id then some { op with stage } else s.operations.lookup k := by
    rw [hops]
    exact Table.lookup_insert_eq _ _ _ _
  -- every operation was there, with its account, and what was over still is
  have hold (k : OperationId) (op' : Operation T E) (hk : t.operations.lookup k = some op') :
      ∃ old, s.operations.lookup k = some old ∧ old.accountId = op'.accountId ∧
        (old.stage.isOver = true → op'.stage.isOver = true) ∧ (k ≠ id → old = op') := by
    rw [hlook] at hk
    split_ifs at hk with heq
    · obtain rfl := Option.some.inj hk
      exact ⟨op, heq ▸ hop, rfl, hover, fun hne => absurd heq hne⟩
    · exact ⟨op', hk, rfl, fun ho => ho, fun _ => rfl⟩
  have hnew (k : OperationId) (old : Operation T E) (hk : s.operations.lookup k = some old) :
      ∃ op', t.operations.lookup k = some op' ∧ op'.accountId = old.accountId := by
    rw [hlook]
    split_ifs with heq
    · rw [heq, hop] at hk
      obtain rfl := Option.some.inj hk
      exact ⟨_, rfl, rfl⟩
    · exact ⟨old, hk, rfl⟩
  constructor
  case fresh =>
    intro n op' hn
    obtain ⟨old, ho, -⟩ := hold n op' hn
    rw [hdrawn]
    exact h.fresh n old ho
  case waits =>
    intro n op' previous hn hq
    obtain ⟨old, ho, hacc, -, hsame⟩ := hold n op' hn
    have hne : n ≠ id := by
      rintro rfl
      rw [hlook, if_pos rfl] at hn
      obtain rfl := Option.some.inj hn
      have hq : stage = .queued previous := hq
      rw [hq] at hstage
      cases hstage
    obtain rfl := hsame hne
    have hwaits := h.waits n old previous ho hq
    constructor
    case last =>
      intro p hp
      obtain ⟨hlt, ⟨opp, hopp, haccp⟩, hlast⟩ := hwaits.last p hp
      obtain ⟨opp', hopp', haccp'⟩ := hnew p opp hopp
      refine ⟨hlt, ⟨opp', hopp', haccp'.trans haccp⟩, fun k opk hk hacck hkn => ?_⟩
      obtain ⟨oldk, holdk, haccold, -⟩ := hold k opk hk
      exact hlast k oldk holdk (haccold.trans hacck) hkn
    case first =>
      intro hp k opk hk hacck hkn
      obtain ⟨oldk, holdk, haccold, hoverk, -⟩ := hold k opk hk
      exact hoverk (hwaits.first hp k oldk holdk (haccold.trans hacck) hkn)
  case ordered =>
    intro m n opm opn hm hn hacc hlt hq
    obtain ⟨oldm, hom, haccm, hoverm, -⟩ := hold m opm hm
    obtain ⟨oldn, hon, haccn, -, hsame⟩ := hold n opn hn
    have haccold : oldm.accountId = oldn.accountId := by rw [haccm, haccn, hacc]
    apply hoverm
    cases hq' : oldn.stage with
    | queued previous =>
      have heq : n = id := by
        by_contra hne
        rw [← hsame hne, hq'] at hq
        cases hq
      subst heq
      obtain rfl := Option.some.inj (hop.symm.trans hon)
      exact h.over_of_ready hon hq' (hready previous hq') hom haccold hlt
    | _ =>
      apply h.ordered m n oldm oldn hom hon haccold hlt
      rw [hq']
      rfl
  case entry =>
    intro accountId k hk
    obtain ⟨⟨opk, hok, hacck⟩, hmax⟩ := h.entry accountId k (hqueues accountId k hk)
    obtain ⟨opk', hok', hacck'⟩ := hnew k opk hok
    refine ⟨⟨opk', hok', hacck'.trans hacck⟩, fun j opj hj haccj => ?_⟩
    obtain ⟨oldj, hoj, haccold, -⟩ := hold j opj hj
    exact hmax j oldj hoj (haccold.trans haccj)
  case kept => exact hkept

/-- An operation is called. -/
theorem Chained.run (h : s.Chained) (accountId : AccountId) : (s.run accountId).Chained := by
  have hlook (k : OperationId) : (s.run accountId).operations.lookup k =
      if k = s.drawn then some ⟨accountId, .queued (s.queues.lookup accountId)⟩
      else s.operations.lookup k := Table.lookup_insert_eq _ _ _ _
  have hentry (other : AccountId) : (s.run accountId).queues.lookup other =
      if other = accountId then some s.drawn else s.queues.lookup other :=
    Table.lookup_insert_eq _ _ _ _
  have hold (k : OperationId) (op' : Operation T E) (hlt : k < s.drawn)
      (hk : (s.run accountId).operations.lookup k = some op') :
      s.operations.lookup k = some op' := by
    rw [hlook, if_neg hlt.ne] at hk
    exact hk
  have hnew (k : OperationId) (op' : Operation T E) (hk : s.operations.lookup k = some op') :
      (s.run accountId).operations.lookup k = some op' := by
    rw [hlook, if_neg (h.fresh k op' hk).ne]
    exact hk
  have hcases (n : OperationId) (op' : Operation T E)
      (hn : (s.run accountId).operations.lookup n = some op') :
      s.operations.lookup n = some op' ∨
        n = s.drawn ∧ op' = ⟨accountId, .queued (s.queues.lookup accountId)⟩ := by
    rw [hlook] at hn
    split_ifs at hn with heq
    · exact .inr ⟨heq, (Option.some.inj hn).symm⟩
    · exact .inl hn
  constructor
  case fresh =>
    intro n op' hn
    rcases hcases n op' hn with ho | ⟨rfl, -⟩
    · exact (h.fresh n op' ho).trans (Nat.lt_succ_self _)
    · exact Nat.lt_succ_self _
  case waits =>
    intro n op' previous hn hq
    rcases hcases n op' hn with ho | ⟨rfl, rfl⟩
    · have hwaits := h.waits n op' previous ho hq
      have hlt := h.fresh n op' ho
      constructor
      case last =>
        intro p hp
        obtain ⟨hpn, ⟨opp, hopp, haccp⟩, hlast⟩ := hwaits.last p hp
        exact ⟨hpn, ⟨opp, hnew p opp hopp, haccp⟩, fun k opk hk hacck hkn =>
          hlast k opk (hold k opk (hkn.trans hlt) hk) hacck hkn⟩
      case first =>
        intro hp k opk hk hacck hkn
        exact hwaits.first hp k opk (hold k opk (hkn.trans hlt) hk) hacck hkn
    · obtain rfl : s.queues.lookup accountId = previous := OperationStage.queued.inj hq
      constructor
      case last =>
        intro p hp
        obtain ⟨⟨opp, hopp, haccp⟩, hmax⟩ := h.entry accountId p hp
        exact ⟨h.fresh p opp hopp, ⟨opp, hnew p opp hopp, haccp⟩, fun k opk hk hacck hkn =>
          hmax k opk (hold k opk hkn hk) hacck⟩
      case first =>
        intro hp k opk hk hacck hkn
        by_contra hover
        have hkept := h.kept k opk (hold k opk hkn hk) (by simpa using hover)
        have hacck : opk.accountId = accountId := hacck
        rw [hacck] at hkept
        exact hkept hp
  case ordered =>
    intro m n opm opn hm hn hacc hlt hq
    rcases hcases n opn hn with ho | ⟨rfl, rfl⟩
    · exact h.ordered m n opm opn (hold m opm (hlt.trans (h.fresh n opn ho)) hm) ho hacc hlt hq
    · cases hq
  case entry =>
    intro other k hk
    rw [hentry] at hk
    split_ifs at hk with heq
    · obtain rfl := Option.some.inj hk
      refine ⟨⟨_, by rw [hlook, if_pos rfl], heq.symm⟩, fun j opj hj haccj => ?_⟩
      rcases hcases j opj hj with ho | ⟨rfl, -⟩
      · exact (h.fresh j opj ho).le
      · exact le_rfl
    · obtain ⟨⟨opk, hok, hacck⟩, hmax⟩ := h.entry other k hk
      refine ⟨⟨opk, hnew k opk hok, hacck⟩, fun j opj hj haccj => ?_⟩
      rcases hcases j opj hj with ho | ⟨-, rfl⟩
      · exact hmax j opj ho haccj
      · exact absurd haccj.symm heq
  case kept =>
    intro n op' hn hover
    rw [hentry]
    split_ifs with heq
    · exact Option.some_ne_none _
    · rcases hcases n op' hn with ho | ⟨-, rfl⟩
      · exact h.kept n op' ho hover
      · exact absurd rfl heq

theorem Chained.next (h : s.Chained) (hn : (operationMachine T E M).next s a = some t) :
    t.Chained := by
  cases chainStep_of_next hn with
  | still hops hqueues hdrawn =>
    constructor
    case fresh => rw [hops]; exact fun n op hn => (h.fresh n op hn).trans_le hdrawn
    case waits =>
      intro n op previous hn hq
      rw [hops] at hn
      have hwaits := h.waits n op previous hn hq
      exact ⟨by rw [hops]; exact hwaits.last, by rw [hops]; exact hwaits.first⟩
    case ordered => rw [hops]; exact h.ordered
    case entry => rw [hops, hqueues]; exact h.entry
    case kept => rw [hops, hqueues]; exact h.kept
  | called accountId _ hops hqueues hdrawn =>
    have hrun := h.run accountId
    constructor
    case fresh => rw [hops, hdrawn]; exact hrun.fresh
    case waits =>
      intro n op previous hn hq
      rw [hops] at hn
      have hwaits := hrun.waits n op previous hn hq
      exact ⟨by rw [hops]; exact hwaits.last, by rw [hops]; exact hwaits.first⟩
    case ordered => rw [hops]; exact hrun.ordered
    case entry => rw [hops, hqueues]; exact hrun.entry
    case kept => rw [hops, hqueues]; exact hrun.kept
  | moved id op stage _ hop hops hqueues hdrawn hmoves =>
    obtain ⟨hover, hstage⟩ := hmoves.not_over
    apply h.replace hop hops hdrawn hstage
    · intro ho
      rw [hover] at ho
      cases ho
    · intro previous hq
      rw [hq] at hmoves
      cases hmoves with
      | start hready => exact hready
    · rw [hqueues]
      exact fun _ _ hk => hk
    · intro n op' hn ho
      rw [hqueues]
      rw [hops, Table.lookup_insert_eq] at hn
      split_ifs at hn with heq
      · obtain rfl := Option.some.inj hn
        exact h.kept id op hop hover
      · exact h.kept n op' hn ho
  | cleaned id op result _ hop hstage hops hqueues hdrawn =>
    apply h.replace hop hops hdrawn rfl
    · exact fun _ => rfl
    · intro previous hq
      rw [hstage] at hq
      cases hq
    · intro accountId k hk
      rw [hqueues] at hk
      split_ifs at hk
      · rw [Table.lookup_erase_eq] at hk
        split_ifs at hk
        exact hk
      · exact hk
    · intro n op' hn ho
      rw [hops, Table.lookup_insert_eq] at hn
      split_ifs at hn with heq
      · obtain rfl := Option.some.inj hn
        cases ho
      · rw [hqueues]
        have hkept := h.kept n op' hn ho
        split_ifs with hentry
        · rw [Table.lookup_erase_eq, if_neg]
          · exact hkept
          · intro hacc
            -- the entry is the last call, so this one was over before it started
            have hle := (h.entry op.accountId id hentry).2 n op' hn hacc
            have hover : op'.stage.isOver = true := by
              apply h.ordered n id op' op hn hop hacc (lt_of_le_of_ne hle heq)
              rw [hstage]
              rfl
            rw [ho] at hover
            cases hover
        · exact hkept

theorem chained_of_reachable (h : (operationMachine T E M).Reachable s) : s.Chained := by
  refine h.invariant ?_ fun s a t hs _ hn => hs.next hn
  rintro s ⟨contextTtlMs, rfl⟩
  exact chained_empty contextTtlMs

/-- The microtasks of operations up to `n`, which settle with `outcome`. -/
def GoesOn (outcome : OperationId → Except E T) (n : OperationId)
    (_ : AccountOperationState T E M) (a : OperationAction T E M) : Prop :=
  ∃ id ≤ n, a = .start id ∨ a = .settle id (outcome id) ∨ a = .settleTail id

theorem lookup_setStage (stage : OperationStage T E) :
    (s.setStage id op stage).operations.lookup n =
      if n = id then some { op with stage } else s.operations.lookup n :=
  Table.lookup_insert_eq _ _ _ _

/-- Later operations are left alone. -/
theorem lookup_of_goesOn {outcome : OperationId → Except E T} {k : OperationId}
    (h : (operationMachine T E M).Leads (GoesOn outcome k) s t) (hlt : k < n) :
    t.operations.lookup n = s.operations.lookup n := by
  refine h.keeps (I := fun u => u.operations.lookup n = s.operations.lookup n) rfl ?_
  rintro u a v hu ⟨id, hle, ha⟩ hn
  have hne : n ≠ id := (hle.trans_lt hlt).ne'
  rw [← hu]
  rcases ha with rfl | rfl | rfl
  · obtain ⟨op, hop, hn⟩ := Option.bind_eq_some_iff.mp hn
    split at hn
    next =>
      split_ifs at hn
      obtain rfl := Option.some.inj hn
      rw [lookup_setStage, if_neg hne]
    next => cases hn
  · obtain ⟨op, hop, hn⟩ := Option.bind_eq_some_iff.mp hn
    split at hn
    next =>
      obtain rfl := Option.some.inj hn
      rw [lookup_setStage, if_neg hne]
    next => cases hn
  · obtain ⟨op, hop, hn⟩ := Option.bind_eq_some_iff.mp hn
    split at hn
    next =>
      obtain rfl := Option.some.inj hn
      rw [lookup_setStage, if_neg hne]
    next => cases hn

theorem next_start {previous : Option OperationId} (hop : s.operations.lookup n = some op)
    (hstage : op.stage = .queued previous) (hready : s.isReady previous = true) :
    (operationMachine T E M).next s (.start n) = some (s.setStage n op .running) := by
  have hnext : (operationMachine T E M).next s (.start n) = s.start n := rfl
  simp [hnext, start, hop, hstage, hready]

theorem over_of_settled (outcome : OperationId → Except E T) {result : Except E T}
    (hop : s.operations.lookup n = some op) (hstage : op.stage = .settled result) :
    ∃ t, (operationMachine T E M).Leads (GoesOn outcome n) s t ∧
      ∃ op', t.operations.lookup n = some op' ∧ op'.stage.isOver = true := by
  have htail : (operationMachine T E M).next s (.settleTail n) =
      some (s.setStage n op (.tailed result)) := by
    have hnext : (operationMachine T E M).next s (.settleTail n) = s.settleTail n := rfl
    simp [hnext, settleTail, hop, hstage]
  refine ⟨_, .tail (.refl s) ⟨n, le_rfl, .inr (.inr rfl)⟩ htail,
    { op with stage := .tailed result }, ?_, rfl⟩
  rw [lookup_setStage, if_pos rfl]

/-- A running operation comes to its end. -/
theorem over_of_running (outcome : OperationId → Except E T)
    (hop : s.operations.lookup n = some op) (hstage : op.stage = .running) :
    ∃ t, (operationMachine T E M).Leads (GoesOn outcome n) s t ∧
      ∃ op', t.operations.lookup n = some op' ∧ op'.stage.isOver = true := by
  have hsettle : (operationMachine T E M).next s (.settle n (outcome n)) =
      some (s.setStage n op (.settled (outcome n))) := by
    have hnext : (operationMachine T E M).next s (.settle n (outcome n)) =
        s.settle n (outcome n) := rfl
    simp [hnext, settle, hop, hstage]
  have hlook : (s.setStage n op (.settled (outcome n))).operations.lookup n =
      some { op with stage := .settled (outcome n) } := by
    rw [lookup_setStage, if_pos rfl]
  obtain ⟨t, ht, hover⟩ := over_of_settled outcome hlook rfl
  have hfirst := Transition.Machine.Leads.tail (C := GoesOn outcome n) (.refl s)
    ⟨n, le_rfl, .inr (.inl rfl)⟩ hsettle
  exact ⟨t, hfirst.trans ht, hover⟩

/-- Every operation comes to its end. By induction on the number of its call: those of its
account before it come to theirs first. -/
theorem Chained.ends (outcome : OperationId → Except E T) (n : OperationId) :
    ∀ {s : AccountOperationState T E M} {op : Operation T E}, s.Chained →
      s.operations.lookup n = some op →
      ∃ t, (operationMachine T E M).Leads (GoesOn outcome n) s t ∧
        ∃ op', t.operations.lookup n = some op' ∧ op'.stage.isOver = true := by
  induction n using Nat.strong_induction_on with
  | _ n ih =>
    intro s op h hop
    cases hstage : op.stage with
    | queued previous =>
      have hstart (u : AccountOperationState T E M) (hu : u.operations.lookup n = some op)
          (hready : u.isReady previous = true) :
          ∃ t, (operationMachine T E M).Leads (GoesOn outcome n) u t ∧
            ∃ op', t.operations.lookup n = some op' ∧ op'.stage.isOver = true := by
        have hfirst := Transition.Machine.Leads.tail (C := GoesOn outcome n) (.refl u)
          ⟨n, le_rfl, .inl rfl⟩ (next_start hu hstage hready)
        have hrunning : (u.setStage n op .running).operations.lookup n =
            some { op with stage := .running } := by
          rw [lookup_setStage, if_pos rfl]
        obtain ⟨t, ht, hover⟩ := over_of_running outcome hrunning rfl
        exact ⟨t, hfirst.trans ht, hover⟩
      cases previous with
      | none => exact hstart s hop rfl
      | some p =>
        obtain ⟨hlt, ⟨opp, hopp, -⟩, -⟩ := (h.waits n op _ hop hstage).last p rfl
        obtain ⟨u, hu, opp', hopp', hover⟩ := ih p hlt h hopp
        have hun : u.operations.lookup n = some op := by
          rw [lookup_of_goesOn hu hlt]
          exact hop
        obtain ⟨t, ht, hend⟩ := hstart u hun (by simp [isReady, hopp', hover])
        refine ⟨t, (hu.mono ?_).trans ht, hend⟩
        rintro v a ⟨id, hle, ha⟩
        exact ⟨id, hle.trans hlt.le, ha⟩
    | running => exact over_of_running outcome hop hstage
    | settled result => exact over_of_settled outcome hop hstage
    | tailed | cleaned =>
      refine ⟨s, .refl s, op, hop, ?_⟩
      rw [hstage]
      rfl

/-- A queued operation starts, whatever those before it settle with. -/
theorem Chained.starts (h : s.Chained) (outcome : OperationId → Except E T)
    {previous : Option OperationId} (hop : s.operations.lookup n = some op)
    (hstage : op.stage = .queued previous) :
    ∃ t, (operationMachine T E M).Leads (GoesOn outcome n) s t ∧
      t.operations.lookup n = some { op with stage := .running } := by
  have hstart (u : AccountOperationState T E M)
      (hl : (operationMachine T E M).Leads (GoesOn outcome n) s u)
      (hu : u.operations.lookup n = some op) (hready : u.isReady previous = true) :
      ∃ t, (operationMachine T E M).Leads (GoesOn outcome n) s t ∧
        t.operations.lookup n = some { op with stage := .running } := by
    refine ⟨_, hl.tail ⟨n, le_rfl, .inl rfl⟩ (next_start hu hstage hready), ?_⟩
    rw [lookup_setStage, if_pos rfl]
  cases previous with
  | none => exact hstart s (.refl s) hop rfl
  | some p =>
    obtain ⟨hlt, ⟨opp, hopp, -⟩, -⟩ := (h.waits n op _ hop hstage).last p rfl
    obtain ⟨u, hu, opp', hopp', hover⟩ := h.ends outcome p hopp
    apply hstart u
    · refine hu.mono ?_
      rintro v a ⟨id, hle, ha⟩
      exact ⟨id, hle.trans hlt.le, ha⟩
    · rw [lookup_of_goesOn hu hlt]
      exact hop
    · simp [isReady, hopp', hover]

def view (s : AccountOperationState T E M) (accountId : AccountId) :
    Option OperationId × (OperationId → Option (OperationStage T E)) :=
  (s.queues.lookup accountId, fun id => (s.operations.lookup id).bind fun op =>
    if op.accountId = accountId then some op.stage else none)

def Touches (s : AccountOperationState T E M) (a : OperationAction T E M)
    (accountId : AccountId) : Prop :=
  a = .run accountId ∨ ∃ id op, a.operation = some id ∧ s.operations.lookup id = some op ∧
    op.accountId = accountId

/-- Other accounts are left alone. -/
theorem Chained.view_of_next (h : s.Chained) (hn : (operationMachine T E M).next s a = some t)
    (hnot : ¬s.Touches a accountId) : t.view accountId = s.view accountId := by
  have hinsert (id : OperationId) (op op' : Operation T E)
      (hold : ∀ op₀, s.operations.lookup id = some op₀ → op₀.accountId = op'.accountId)
      (hne : op'.accountId ≠ accountId)
      (hops : t.operations = s.operations.insert id op') (k : OperationId) :
      ((t.operations.lookup k).bind fun op =>
        if op.accountId = accountId then some op.stage else none) =
      (s.operations.lookup k).bind fun op =>
        if op.accountId = accountId then some op.stage else none := by
    rw [hops, Table.lookup_insert_eq]
    split_ifs with heq
    · subst heq
      cases hk : s.operations.lookup k with
      | none => simp [hne]
      | some op₀ => simp [hne, hold op₀ hk]
    · rfl
  cases chainStep_of_next hn with
  | still hops hqueues => rw [view, view, hops, hqueues]
  | called other ha hops hqueues =>
    have hne : other ≠ accountId := by
      rintro rfl
      exact hnot (.inl ha)
    have hfree (op₀ : Operation T E) (h₀ : s.operations.lookup s.drawn = some op₀) :
        op₀.accountId = other := absurd (h.fresh _ _ h₀) (lt_irrefl _)
    apply Prod.ext
    · show t.queues.lookup accountId = s.queues.lookup accountId
      rw [hqueues, Table.lookup_insert_eq, if_neg hne.symm]
    · exact funext (hinsert s.drawn ⟨other, .running⟩ _ hfree hne hops)
  | moved id op stage ha hop hops hqueues =>
    have hne : op.accountId ≠ accountId := fun hacc => hnot (.inr ⟨id, op, ha, hop, hacc⟩)
    have hsame (op₀ : Operation T E) (h₀ : s.operations.lookup id = some op₀) :
        op₀.accountId = op.accountId := by
      rw [Option.some.inj (h₀.symm.trans hop)]
    apply Prod.ext
    · exact congrArg (AList.lookup accountId) hqueues
    · exact funext (hinsert id op { op with stage } hsame hne hops)
  | cleaned id op result ha hop hstage hops hqueues =>
    have hne : op.accountId ≠ accountId := fun hacc => hnot (.inr ⟨id, op, ha, hop, hacc⟩)
    have hsame (op₀ : Operation T E) (h₀ : s.operations.lookup id = some op₀) :
        op₀.accountId = op.accountId := by
      rw [Option.some.inj (h₀.symm.trans hop)]
    apply Prod.ext
    · show t.queues.lookup accountId = s.queues.lookup accountId
      rw [hqueues]
      split_ifs
      · rw [Table.lookup_erase_eq, if_neg hne.symm]
      · rfl
    · exact funext (hinsert id op { op with stage := .cleaned result } hsame hne hops)

theorem lookup_of_view {s' : AccountOperationState T E M}
    (hv : s.view accountId = s'.view accountId) (hop : s.operations.lookup id = some op)
    (hacc : op.accountId = accountId) : s'.operations.lookup id = some op := by
  have hstage := congrFun (congrArg Prod.snd hv) id
  simp only [view, hop, Option.bind_some, if_pos hacc] at hstage
  obtain ⟨op', hop', hsome⟩ := Option.bind_eq_some_iff.mp hstage.symm
  split_ifs at hsome with hacc'
  have heq : op' = op := by
    cases op'
    cases op
    simp only [Option.some.injEq] at hsome
    simp_all
  rw [hop', heq]

theorem view_setStage (hacc : op.accountId = accountId) (stage : OperationStage T E) :
    (s.setStage id op stage).view accountId =
      ((s.view accountId).1, Function.update (s.view accountId).2 id (some stage)) := by
  apply Prod.ext
  · rfl
  · funext k
    show ((s.setStage id op stage).operations.lookup k).bind _ =
      Function.update (s.view accountId).2 id (some stage) k
    rw [lookup_setStage, Function.update_apply]
    split_ifs with heq
    · simp [hacc]
    · rfl

theorem clean_eq {result : Except E T} (hop : s.operations.lookup id = some op)
    (hstage : op.stage = .tailed result) : s.clean id = some
      (if s.queues.lookup op.accountId = some id then
        { s.setStage id op (.cleaned result) with queues := s.queues.erase op.accountId }
      else s.setStage id op (.cleaned result)) := by
  unfold clean
  rw [hop]
  simp only [Option.bind_eq_bind, Option.bind_some, hstage]
  rfl

/-- Whether and how an operation goes on is decided by what there is of its account. -/
theorem Chained.next_of_view (h : s.Chained) {s' : AccountOperationState T E M}
    (hv : s.view accountId = s'.view accountId) (ha : a.operation = some id)
    (hop : s.operations.lookup id = some op) (hacc : op.accountId = accountId)
    (hn : (operationMachine T E M).next s a = some t) :
    ∃ t', (operationMachine T E M).next s' a = some t' ∧ t'.view accountId = t.view accountId := by
  have hop' := lookup_of_view hv hop hacc
  have hview (stage : OperationStage T E) :
      (s'.setStage id op stage).view accountId = (s.setStage id op stage).view accountId := by
    rw [view_setStage hacc, view_setStage hacc, hv]
  cases a with
  | start k =>
    obtain rfl := Option.some.inj ha
    have hn : s.start k = some t := hn
    simp only [start, hop, Option.bind_eq_bind, Option.bind_some] at hn
    split at hn
    next previous hstage =>
      split_ifs at hn with hready
      obtain rfl := Option.some.inj hn
      refine ⟨_, next_start hop' hstage ?_, hview _⟩
      cases previous with
      | none => rfl
      | some p =>
        obtain ⟨-, ⟨opp, hopp, haccp⟩, -⟩ := (h.waits k op _ hop hstage).last p rfl
        obtain ⟨opr, hopr, hover⟩ := isOver_of_isReady hready
        obtain rfl := Option.some.inj (hopp.symm.trans hopr)
        simp [isReady, lookup_of_view hv hopp (haccp.trans hacc), hover]
    next => cases hn
  | settle k result =>
    obtain rfl := Option.some.inj ha
    have hn : s.settle k result = some t := hn
    have hnext : (operationMachine T E M).next s' (.settle k result) = s'.settle k result := rfl
    simp only [settle, hop, Option.bind_eq_bind, Option.bind_some] at hn
    split at hn
    next hstage =>
      obtain rfl := Option.some.inj hn
      exact ⟨_, by simp [hnext, settle, hop', hstage], hview _⟩
    next => cases hn
  | settleTail k =>
    obtain rfl := Option.some.inj ha
    have hn : s.settleTail k = some t := hn
    have hnext : (operationMachine T E M).next s' (.settleTail k) = s'.settleTail k := rfl
    simp only [settleTail, hop, Option.bind_eq_bind, Option.bind_some] at hn
    split at hn
    next result hstage =>
      obtain rfl := Option.some.inj hn
      exact ⟨_, by simp [hnext, settleTail, hop', hstage], hview _⟩
    next => cases hn
  | clean k =>
    obtain rfl := Option.some.inj ha
    obtain ⟨result, hstage⟩ : ∃ result, op.stage = .tailed result := by
      have hn : s.clean k = some t := hn
      simp only [clean, hop, Option.bind_eq_bind, Option.bind_some] at hn
      split at hn
      next result hstage => exact ⟨result, hstage⟩
      next => cases hn
    have hqueue : s'.queues.lookup op.accountId = s.queues.lookup op.accountId := by
      rw [hacc]
      exact (congrArg Prod.fst hv).symm
    have hn : s.clean k = some t := hn
    rw [clean_eq hop hstage] at hn
    obtain rfl := Option.some.inj hn
    refine ⟨_, clean_eq hop' hstage, ?_⟩
    rw [hqueue]
    split_ifs
    · apply Prod.ext
      · show (s'.queues.erase op.accountId).lookup accountId =
          (s.queues.erase op.accountId).lookup accountId
        rw [hacc, AList.lookup_erase, AList.lookup_erase]
      · have hsecond := congrArg Prod.snd (hview (.cleaned result))
        exact hsecond
    · exact hview _
  | _ => cases ha

end AccountOperationState

structure Serialises (s : AccountOperationState T E M) : Prop where
  oneAtATime : ∀ m n op op', s.operations.lookup m = some op → s.operations.lookup n = some op' →
    op.accountId = op'.accountId → op.stage = .running → op'.stage = .running → m = n
  inOrder : ∀ m n op op', s.operations.lookup m = some op → s.operations.lookup n = some op' →
    op.accountId = op'.accountId → m < n → op'.stage.isQueued = false → op.stage.result ≠ none
  neverBlocked : ∀ (outcome : OperationId → Except E T) n op, s.operations.lookup n = some op →
    op.stage.isQueued = true →
      ∃ t, (operationMachine T E M).Leads (AccountOperationState.GoesOn outcome n) s t ∧
        t.operations.lookup n = some { op with stage := .running }
  ownResult : ∀ a t, (operationMachine T E M).next s a = some t →
    ∀ n op result, t.operations.lookup n = some op → op.stage.result = some result →
      a = .settle n result ∨ ∃ old, s.operations.lookup n = some old ∧ old.stage.result = some result
  alone : ∀ a t accountId, (operationMachine T E M).next s a = some t →
    ¬s.Touches a accountId → t.view accountId = s.view accountId
  independent : ∀ s' a t accountId id op, s.view accountId = s'.view accountId →
    a.operation = some id → s.operations.lookup id = some op → op.accountId = accountId →
      (operationMachine T E M).next s a = some t →
        ∃ t', (operationMachine T E M).next s' a = some t' ∧ t'.view accountId = t.view accountId
  removed : ∀ a t accountId, (operationMachine T E M).next s a = some t →
    s.queues.lookup accountId ≠ none → t.queues.lookup accountId = none →
      ∀ n op, t.operations.lookup n = some op → op.accountId = accountId → op.stage.isOver = true
  drained : ∀ a t d, (operationMachine T E M).next s a = some t →
    t.drains.lookup d = some .returned → s.drains.lookup d ≠ some .returned →
      t.queues = ∅ ∧ ∀ n op, t.operations.lookup n = some op → op.stage.isOver = true

namespace AccountOperationState
variable {s t : AccountOperationState T E M} {a : OperationAction T E M} {n : OperationId}
  {op : Operation T E}

theorem result_of_isOver {stage : OperationStage T E} (h : stage.isOver = true) :
    stage.result ≠ none := by
  cases stage with
  | tailed | cleaned => simp [OperationStage.result]
  | _ => cases h

/-- A promise settles when its operation does, and once. -/
theorem result_of_next (hn : (operationMachine T E M).next s a = some t) {result : Except E T}
    (hop : t.operations.lookup n = some op) (hresult : op.stage.result = some result) :
    a = .settle n result ∨
      ∃ old, s.operations.lookup n = some old ∧ old.stage.result = some result := by
  cases chainStep_of_next hn with
  | still hops => exact .inr ⟨op, hops ▸ hop, hresult⟩
  | called accountId _ hops =>
    rw [hops, Table.lookup_insert_eq] at hop
    split_ifs at hop
    · obtain rfl := Option.some.inj hop
      cases hresult
    · exact .inr ⟨op, hop, hresult⟩
  | moved id op₀ stage _ hop₀ hops _ _ hmoves hsettle =>
    rw [hops, Table.lookup_insert_eq] at hop
    split_ifs at hop with heq
    · obtain rfl := Option.some.inj hop
      subst heq
      rcases op₀ with ⟨accountId, old⟩
      cases hmoves with
      | start => cases hresult
      | settle =>
        obtain rfl := Option.some.inj hresult
        exact .inl (hsettle _ rfl)
      | settleTail => exact .inr ⟨_, hop₀, hresult⟩
    · exact .inr ⟨op, hop, hresult⟩
  | cleaned id op₀ result₀ _ hop₀ hstage hops =>
    rw [hops, Table.lookup_insert_eq] at hop
    split_ifs at hop with heq
    · obtain rfl := Option.some.inj hop
      refine .inr ⟨op₀, heq ▸ hop₀, ?_⟩
      rw [hstage]
      exact hresult
    · exact .inr ⟨op, hop, hresult⟩

/-- The loop of a `drain` tests the map, or nothing happens to the drains. -/
theorem drains_of_next (hn : (operationMachine T E M).next s a = some t) :
    t.drains = s.drains ∨ ∃ d, t.drains = (s.drainAgain d).drains ∧ t.queues = s.queues := by
  cases a with
  | drain =>
    obtain rfl := Option.some.inj hn
    exact .inr ⟨s.drawn, rfl, rfl⟩
  | drainSettled d =>
    obtain ⟨stage, -, hn⟩ := Option.bind_eq_some_iff.mp hn
    split at hn
    next =>
      split_ifs at hn
      obtain rfl := Option.some.inj hn
      exact .inr ⟨d, rfl, rfl⟩
    next => cases hn
  | run | clearContext | clearContexts | tick =>
    obtain rfl := Option.some.inj hn
    exact .inl rfl
  | remember =>
    obtain rfl := Option.some.inj hn
    unfold remember
    dsimp only
    split_ifs <;> exact .inl rfl
  | metadata =>
    obtain rfl := Option.some.inj hn
    unfold metadata
    split
    next => exact .inl rfl
    next => split_ifs <;> exact .inl rfl
  | start id =>
    obtain ⟨op, -, hn⟩ := Option.bind_eq_some_iff.mp hn
    split at hn
    next =>
      split_ifs at hn
      obtain rfl := Option.some.inj hn
      exact .inl rfl
    next => cases hn
  | settle id result =>
    obtain ⟨op, -, hn⟩ := Option.bind_eq_some_iff.mp hn
    split at hn
    next =>
      obtain rfl := Option.some.inj hn
      exact .inl rfl
    next => cases hn
  | settleTail id =>
    obtain ⟨op, -, hn⟩ := Option.bind_eq_some_iff.mp hn
    split at hn
    next =>
      obtain rfl := Option.some.inj hn
      exact .inl rfl
    next => cases hn
  | clean id =>
    obtain ⟨op, -, hn⟩ := Option.bind_eq_some_iff.mp hn
    split at hn
    next =>
      dsimp only at hn
      split_ifs at hn
      · obtain rfl := Option.some.inj hn
        exact .inl rfl
      · obtain rfl := Option.some.inj hn
        exact .inl rfl
    next => cases hn

/-- `drain` returns where its test finds the map empty. -/
theorem returned_of_next (hn : (operationMachine T E M).next s a = some t) {d : DrainId}
    (hd : t.drains.lookup d = some .returned) (hnot : s.drains.lookup d ≠ some .returned) :
    t.queues = ∅ := by
  rcases drains_of_next hn with hsame | ⟨k, hdrains, hqueues⟩
  · rw [hsame] at hd
    exact absurd hd hnot
  · rw [hdrains, drainAgain, Table.lookup_insert_eq] at hd
    split_ifs at hd with heq hsize
    · rw [hqueues]
      exact AList.ext (List.length_eq_zero_iff.mp hsize)
    · cases hd
    · exact absurd hd hnot

end AccountOperationState

/-- Every reachable state serialises the operations of each account. -/
theorem serialises_of_reachable {s : AccountOperationState T E M}
    (h : (operationMachine T E M).Reachable s) : Serialises s := by
  have hs := AccountOperationState.chained_of_reachable h
  constructor
  case oneAtATime =>
    intro m n op op' hm hn hacc hr hr'
    have hnot (k : OperationId) (opk : Operation T E) (hk : opk.stage = .running) :
        opk.stage.isQueued = false ∧ opk.stage.isOver = false := by
      rw [hk]
      exact ⟨rfl, rfl⟩
    rcases Nat.lt_trichotomy m n with hlt | heq | hlt
    · have hover := hs.ordered m n op op' hm hn hacc hlt (hnot n op' hr').1
      rw [(hnot m op hr).2] at hover
      cases hover
    · exact heq
    · have hover := hs.ordered n m op' op hn hm hacc.symm hlt (hnot m op hr).1
      rw [(hnot n op' hr').2] at hover
      cases hover
  case inOrder =>
    intro m n op op' hm hn hacc hlt hq
    exact AccountOperationState.result_of_isOver (hs.ordered m n op op' hm hn hacc hlt hq)
  case neverBlocked =>
    intro outcome n op hop hq
    cases hstage : op.stage with
    | queued previous => exact hs.starts outcome hop hstage
    | _ =>
      rw [hstage] at hq
      cases hq
  case ownResult =>
    intro a t hn n op result hop hresult
    exact AccountOperationState.result_of_next hn hop hresult
  case alone =>
    intro a t accountId hn hnot
    exact hs.view_of_next hn hnot
  case independent =>
    intro s' a t accountId id op hv ha hop hacc hn
    exact hs.next_of_view hv ha hop hacc hn
  case removed =>
    intro a t accountId hn _ hnone n op hop hacc
    by_contra hover
    apply (hs.next hn).kept n op hop (by simpa using hover)
    rw [hacc]
    exact hnone
  case drained =>
    intro a t d hn hd hnot
    have hempty := AccountOperationState.returned_of_next hn hd hnot
    refine ⟨hempty, fun n op hop => ?_⟩
    by_contra hover
    apply (hs.next hn).kept n op hop (by simpa using hover)
    rw [hempty]
    rfl

/-- Two operations of one account, of which the first has failed and the second runs, while
a third of another account waits. -/
def failedFirst : AccountOperationState Unit String Unit :=
  ((operationMachine Unit String Unit).exec (.empty defaultContextTtlMs)
    [.run "bee", .run "bee", .start 0, .run "wasp", .drain, .settle 0 (.error "offline"),
      .settleTail 0, .start 1, .clean 0]).getD (.empty defaultContextTtlMs)

theorem serialises_failedFirst : Serialises failedFirst ∧
    (failedFirst.operations.lookup 1).map (·.stage.isQueued) = some false ∧
    failedFirst.queues.lookup "bee" = some 1 :=
  ⟨serialises_of_reachable (Transition.Machine.reachable_exec ⟨_, rfl⟩ (by decide)),
    by decide, by decide⟩

end SteamBee.Steam
