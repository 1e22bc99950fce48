import SteamBee.Inventory.MarketRows

/-! What a step does to the stored price settings, to the markers of the writes that are
pending, and to the operations that save settings. -/
namespace SteamBee.Inventory

def Stage.writing : Stage → Option MarketPriceSettings
  | .running (.saveSettings settings .write) => some settings
  | _ => none

namespace Market
variable {m m' n : Market} {a : MarketAction} {id k : OpId} {op op' : Op} {p : Progress}
  {read : MarketRead}

/-- An operation that saves settings has done so before the step; it begins to write only
while no batch of its account is active. -/
def WasSaving (m : Market) (k : OpId) (op' : Op) : Prop :=
  ∃ op, m.ops.lookup k = some op ∧ op.accountId = op'.accountId ∧
    Stage.savesSettings op.stage = true ∧
    (Stage.writing op'.stage ≠ none → op = op' ∨ m.batches.active.lookup op.accountId = none)

inductive SettingsStep (m m' : Market) : Prop where
  | still (hstored : m'.stored = m.stored) (hwrites : m'.settingsWrites = m.settingsWrites)
    (hops : ∀ k op', m'.ops.lookup k = some op' → Stage.savesSettings op'.stage = true →
      m.WasSaving k op')
  | called (accountId : AccountId) (hfree : accountId ∉ m.settingsWrites)
    (hstored : m'.stored = m.stored) (hwrites : m'.settingsWrites = accountId :: m.settingsWrites)
    (hops : ∀ k op', m'.ops.lookup k = some op' → m.ops.lookup k = some op' ∨
      k = m.drawn ∧ op'.accountId = accountId ∧ Stage.writing op'.stage = none)
  | settled (id : OpId) (op : Op) (hop : m.ops.lookup id = some op)
    (hsaves : Stage.savesSettings op.stage = true) (hops : m'.ops = m.ops.erase id)
    (hwrites : m'.settingsWrites = m.settingsWrites.erase op.accountId)
    (hstored : m'.stored = m.stored ∨ ∃ settings, Stage.writing op.stage = some settings ∧
      m'.stored = m.stored.insert op.accountId settings)

theorem active_of_assertIdle {q : MarketBatchQueue Intent} {accountId : AccountId}
    (h : q.assertIdle accountId = .ok ()) : q.active.lookup accountId = none := by
  unfold MarketBatchQueue.assertIdle at h
  split at h
  next => cases h
  next hidle => simpa using hidle

theorem wasSaving_same (h : m.ops.lookup k = some op') (hs : Stage.savesSettings op'.stage = true) :
    m.WasSaving k op' := ⟨op', h, rfl, hs, fun _ => .inl rfl⟩

structure Saving (m : Market) (op : Op) (p : Progress) : Prop where
  saves : ∀ settings, p = .saves settings → Stage.writing op.stage = some settings
  awaits : ∀ r draws, p = .awaits r draws → Stage.savesSettings (.running r) = true →
    Stage.savesSettings op.stage = true ∧
      (Stage.writing (.running r) ≠ none → m.batches.active.lookup op.accountId = none)

theorem settingsStep_finish (ho : m.ops.lookup id = some op) (hops : n.ops = m.ops)
    (hwrites : n.settingsWrites = m.settingsWrites)
    (hstored : n.stored = m.stored ∨ ∃ settings, Stage.writing op.stage = some settings ∧
      n.stored = m.stored.insert op.accountId settings) (reply : MarketReply) :
    SettingsStep m (n.finish id op reply) := by
  have hsettings : (n.finish id op reply).settingsWrites =
      if Stage.savesSettings op.stage then m.settingsWrites.erase op.accountId
      else m.settingsWrites := by
    rw [← hwrites]
    rfl
  by_cases hs : Stage.savesSettings op.stage = true
  · rw [if_pos hs] at hsettings
    refine .settled id op ho hs ?_ hsettings hstored
    rw [← hops]
    rfl
  · rw [if_neg hs] at hsettings
    refine .still ?_ hsettings fun k op' hk hs' => ?_
    · rcases hstored with hsame | ⟨settings, hwriting, -⟩
      · exact hsame
      · refine absurd ?_ hs
        unfold Stage.writing at hwriting
        split at hwriting
        next heq =>
          rw [heq]
          rfl
        next => cases hwriting
    · rw [lookup_finish, hops] at hk
      split at hk
      next => cases hk
      next => exact wasSaving_same hk hs'

theorem settingsStep_become (ho : m.ops.lookup id = some op) (hops : n.ops = m.ops)
    (hwrites : n.settingsWrites = m.settingsWrites) (hstored : n.stored = m.stored) {r : Running}
    (hr : Stage.savesSettings (.running r) = true → Stage.savesSettings op.stage = true ∧
      (Stage.writing (.running r) ≠ none → m.batches.active.lookup op.accountId = none)) :
    SettingsStep m (n.become id op r) := by
  refine .still hstored hwrites fun k op' hk hs => ?_
  rw [lookup_become, hops] at hk
  split at hk
  next heq =>
    obtain rfl := Option.some.inj hk
    obtain ⟨hsaves, hidle⟩ := hr hs
    exact ⟨op, heq ▸ ho, rfl, hsaves, fun hw => .inr (hidle hw)⟩
  next => exact wasSaving_same hk hs

theorem settingsStep_perform (ho : m.ops.lookup id = some op) (hops : n.ops = m.ops)
    (hwrites : n.settingsWrites = m.settingsWrites) (hstored : n.stored = m.stored)
    (hp : m.Saving op p) : SettingsStep m (n.perform id op p) := by
  have hsame : SettingsStep m n :=
    .still hstored hwrites fun k op' hk hs => wasSaving_same (hops ▸ hk) hs
  have hfinish {n' : Market} {reply : MarketReply} (hops' : n'.ops = n.ops)
      (hwrites' : n'.settingsWrites = n.settingsWrites)
      (hstored' : n'.stored = n.stored ∨ ∃ settings, Stage.writing op.stage = some settings ∧
        n'.stored = n.stored.insert op.accountId settings) :
      SettingsStep m (n'.finish id op reply) := by
    rw [hstored] at hstored'
    exact settingsStep_finish ho (hops'.trans hops) (hwrites'.trans hwrites) hstored' reply
  have hrequest {n' : Market} {r : Running} (hops' : n'.ops = n.ops)
      (hwrites' : n'.settingsWrites = n.settingsWrites) (hstored' : n'.stored = n.stored)
      (hr : Stage.savesSettings (.running r) = false) : SettingsStep m (n'.become id op r) := by
    apply settingsStep_become ho (hops'.trans hops) (hwrites'.trans hwrites) (hstored'.trans hstored)
    intro hs
    rw [hr] at hs
    cases hs
  cases p with
  | awaits r draws =>
    apply settingsStep_become ho
    · exact hops
    · exact hwrites
    · exact hstored
    · exact hp.awaits r draws rfl
  | returns => exact hfinish rfl rfl (.inl rfl)
  | issues => exact hfinish rfl rfl (.inl rfl)
  | creates =>
    unfold perform
    dsimp only
    split
    next => exact hfinish rfl rfl (.inl rfl)
    next => exact hfinish rfl rfl (.inl rfl)
  | saves settings => exact hfinish rfl rfl (.inr ⟨settings, hp.saves settings rfl, rfl⟩)
  | posts =>
    unfold perform
    dsimp only
    split
    next => exact hrequest rfl rfl rfl rfl
    next => exact hsame
  | answers =>
    unfold perform
    dsimp only
    split
    next => exact hfinish rfl rfl (.inl rfl)
    next => exact hsame
  | removes =>
    unfold perform
    dsimp only
    split
    next => exact hrequest rfl rfl rfl rfl
    next => exact hsame

theorem saving_of_follows {r : Running} (hstage : op.stage = .running r)
    (hb : n.batches = m.batches) (hresume : n.resume op r read = some p) : m.Saving op p := by
  have hfollows := resume_follows hresume
  constructor
  case saves =>
    rintro settings rfl
    obtain ⟨rfl, -⟩ := hfollows
    rw [hstage]
    rfl
  case awaits =>
    rintro r' draws rfl hs
    have htask := Running.Resumes.task hfollows
    cases r' with
    | saveSettings settings point' =>
      cases r with
      | saveSettings settings' point =>
        refine ⟨by rw [hstage]; rfl, fun hw => ?_⟩
        have hresume : n.saveSettings op settings' point read = some (.awaits _ draws) := hresume
        unfold saveSettings at hresume
        split at hresume
        next =>
          obtain he := Option.some.inj hresume
          split at he <;> cases he
          exact absurd rfl hw
        next =>
          obtain he := Option.some.inj hresume
          split at he
          next => cases he
          next hidle =>
            rw [← hb]
            exact active_of_assertIdle hidle
        next => cases hresume
        next => cases hresume
        next => cases hresume
      | _ => cases htask
    | _ => cases hs

/-- A step that at most queues an operation, which saves no settings. -/
theorem settingsStep_calls (hstored : m'.stored = m.stored)
    (hwrites : m'.settingsWrites = m.settingsWrites)
    (hops : ∀ k op', m'.ops.lookup k = some op' →
      m.ops.lookup k = some op' ∨ Stage.savesSettings op'.stage = false) : SettingsStep m m' := by
  refine .still hstored hwrites fun k op' hk hs => ?_
  rcases hops k op' hk with hsame | hcall
  · exact wasSaving_same hsame hs
  · rw [hcall] at hs
    cases hs

theorem settingsStep_enqueue (hops : n.ops = m.ops) (hstored : n.stored = m.stored)
    (hwrites : n.settingsWrites = m.settingsWrites) (accountId : AccountId) (guard : Guard)
    {call : Call} (hcall : Stage.savesSettings (.queued call) = false) :
    SettingsStep m (n.enqueue accountId guard call) := by
  refine settingsStep_calls hstored hwrites fun k op' hk => ?_
  have hk : (n.ops.insert n.drawn ⟨accountId, guard, .queued call⟩).lookup k = some op' := hk
  rw [Table.lookup_insert_eq, hops] at hk
  split_ifs at hk
  · obtain rfl := Option.some.inj hk
    exact .inr hcall
  · exact .inl hk

theorem settingsStep_same (hops : n.ops = m.ops) (hstored : n.stored = m.stored)
    (hwrites : n.settingsWrites = m.settingsWrites) : SettingsStep m n :=
  settingsStep_calls hstored hwrites fun _ _ hk => .inl (hops ▸ hk)

theorem settingsStep_callRow (hops : n.ops = m.ops) (hstored : n.stored = m.stored)
    (hwrites : n.settingsWrites = m.settingsWrites) (jobId : Uuid) :
    SettingsStep m (n.callRow jobId) := by
  unfold callRow
  split
  next => exact settingsStep_same hops hstored hwrites
  next =>
    split
    next =>
      split
      next => exact settingsStep_enqueue hops hstored hwrites _ _ rfl
      next => exact settingsStep_same hops hstored hwrites
    next => exact settingsStep_same hops hstored hwrites

theorem settingsStep_callIdle (accountId : AccountId) {call : Call}
    (hcall : Stage.savesSettings (.queued call) = false) :
    SettingsStep m (m.callIdle accountId call) := by
  unfold callIdle
  split
  next => exact settingsStep_same rfl rfl rfl
  next => exact settingsStep_enqueue rfl rfl rfl _ _ hcall

theorem settingsStep_callSaveSettings (accountId : AccountId) (settings : MarketPriceSettings) :
    SettingsStep m (m.callSaveSettings accountId settings) := by
  unfold callSaveSettings
  split_ifs with hwrites
  · exact settingsStep_same rfl rfl rfl
  · refine .called accountId hwrites rfl rfl fun k op' hk => ?_
    have hk : (m.ops.insert m.drawn
        ⟨accountId, m.captureGuard accountId, .queued (.saveSettings settings)⟩).lookup k =
          some op' := hk
    rw [Table.lookup_insert_eq] at hk
    split_ifs at hk with heq
    · obtain rfl := Option.some.inj hk
      exact .inr ⟨heq, rfl, rfl⟩
    · exact .inl hk

theorem settingsStep_run (h : m.run id = some m') : SettingsStep m m' := by
  unfold run at h
  split at h
  next op accountId guard call ho =>
    split_ifs at h
    dsimp only at h
    obtain rfl := Option.some.inj h
    obtain ⟨p, n, hbegin⟩ : ∃ p n, m.begin ⟨accountId, guard, .queued call⟩ call = (p, n) :=
      ⟨_, _, rfl⟩
    rw [hbegin]
    obtain ⟨⟨intents, rfl⟩, -, hstarts⟩ := begin_opens hbegin
    apply settingsStep_perform ho
    · rfl
    · rfl
    · rfl
    · constructor
      case saves =>
        rintro settings rfl
        exact hstarts.elim
      case awaits =>
        rintro r draws rfl hs
        cases r with
        | saveSettings settings point =>
          obtain ⟨hr, rfl⟩ := Begins.saves hstarts settings rfl
          cases hr
          exact ⟨rfl, fun hw => absurd rfl hw⟩
        | _ => cases hs
  next => cases h

theorem settingsStep_reads (h : m.reads id read = some m') : SettingsStep m m' := by
  obtain ⟨op, r, p, ho, hstage, -, hp, rfl⟩ := reads_spec h
  apply settingsStep_perform ho
  · exact receives_ops
  · cases read <;> rfl
  · cases read <;> rfl
  · refine saving_of_follows hstage ?_ hp
    cases read <;> rfl

/-- Every step of the service. -/
theorem settingsStep_of_next (h : marketMachine.next m a = some m') : SettingsStep m m' := by
  cases a with
  | previewSale | confirmSale | previewCancellation | confirmCancellation | previewBatch =>
    obtain rfl := Option.some.inj h
    exact settingsStep_callIdle _ rfl
  | confirmBatch accountId actor token =>
    obtain rfl := Option.some.inj h
    unfold confirmBatch
    split_ifs
    · exact settingsStep_same rfl rfl rfl
    · split
      next => exact settingsStep_same rfl rfl rfl
      next => apply settingsStep_callRow <;> rfl
  | stopBatch | stopAccountBatches | shutdownBatches | inventory | inventoryFails | tick =>
    obtain rfl := Option.some.inj h
    exact settingsStep_same rfl rfl rfl
  | saveSettings accountId settings =>
    obtain rfl := Option.some.inj h
    exact settingsStep_callSaveSettings accountId settings
  | inventoryLoads id items =>
    obtain ⟨pending, -, h⟩ := Option.bind_eq_some_iff.mp h
    split_ifs at h
    obtain rfl := Option.some.inj h
    exact settingsStep_same rfl rfl rfl
  | run => exact settingsStep_run h
  | reads => exact settingsStep_reads h
  | rowReturns =>
    obtain ⟨outcome, -, h⟩ := Option.bind_eq_some_iff.mp h
    obtain ⟨batches, -, h⟩ := Option.bind_eq_some_iff.mp h
    obtain rfl := Option.some.inj h
    apply settingsStep_callRow <;> rfl
  | rowWaited =>
    obtain ⟨batches, -, h⟩ := Option.bind_eq_some_iff.mp h
    obtain rfl := Option.some.inj h
    apply settingsStep_callRow <;> rfl
  | disappear =>
    obtain ⟨l, -, rfl⟩ := Option.map_eq_some_iff.mp h
    exact settingsStep_same rfl rfl rfl

end Market
end SteamBee.Inventory
