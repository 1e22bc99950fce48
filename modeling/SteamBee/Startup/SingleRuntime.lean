import SteamBee.Startup.Shutdown

/-! One server at a time has an app on a data directory, and no restore beside it. Servers and
restores do with the lease what the owners of the host do, so what holds of these holds here. -/
namespace SteamBee.Startup
open Restore (Host Owner OwnerId hostMachine)

section Owners
variable {w w' : Host} {id id' : OwnerId}

theorem lookup_release (h : w.next (.release id) = some w') :
    w'.owners.lookup id' = if id' = id then some (.runtime false) else w.owners.lookup id' := by
  simp only [Host.next] at h
  split at h
  next =>
    obtain rfl := Option.some.inj h
    exact Table.lookup_insert_eq w.owners id id' _
  next => cases h

theorem lookup_crash (h : w.next (.crash id) = some w') :
    w'.owners.lookup id' = if id' = id then none else w.owners.lookup id' := by
  simp only [Host.next] at h
  split at h
  next =>
    obtain rfl := Option.some.inj h
    exact Table.lookup_erase_eq w.owners id id'
  next => cases h

theorem lookup_acquire (id' : OwnerId) {pid now : ℤ} {fail : Bool}
    (hid : w.owners.lookup id = some (.runtime false))
    (h : w.next (.acquire id pid now fail) = some w') :
    ∃ held, w'.owners.lookup id' =
      if id' = id then some (.runtime held) else w.owners.lookup id' := by
  simp only [Host.next, hid] at h
  obtain rfl := Option.some.inj h
  exact ⟨_, Table.lookup_insert_eq w.owners id id' _⟩

/-- A restore and a server that writes leave the lease of a server as it is. -/
theorem lookup_restoreStep {fail : Bool} {held : Bool}
    (hid : w.owners.lookup id' = some (.runtime held))
    (h : w.next (.restoreStep id fail) = some w') :
    w'.owners.lookup id' = some (.runtime held) := by
  simp only [Host.next] at h
  split at h
  next hrestore =>
    obtain rfl := Option.some.inj h
    refine (Table.lookup_insert_eq w.owners id id' _).trans ?_
    split_ifs with heq
    · rw [heq, hrestore] at hid
      cases hid
    · exact hid
  next => cases h

theorem lookup_serve {data : Restore.Entries} {held : Bool}
    (hid : w.owners.lookup id' = some (.runtime held))
    (h : w.next (.serve id data) = some w') : w'.owners.lookup id' = some (.runtime held) := by
  simp only [Host.next] at h
  split at h
  next hserve =>
    obtain rfl := Option.some.inj h
    refine (Table.lookup_insert_eq w.owners id id' _).trans ?_
    split_ifs with heq
    · rw [heq, hserve] at hid
      exact hid
    · exact hid
  next => cases h

end Owners

namespace Deployment
variable {d d' : Deployment} {id : OwnerId} {o : Outcome}

/-- What a step of a server does to the host, and then to the table of servers. -/
theorem does_cases (h : d.does id o = some d') :
    ∃ host, (o.release = true ∧ d.host.next (.release id) = some host ∨
        o.release = false ∧ host = d.host) ∧
      (o.fate = .runs ∧ d' = { d with host, servers := d.servers.insert id o.server } ∨
        o.fate ≠ .runs ∧ ∃ host', host.next (.crash id) = some host' ∧ d' = { d' with
            host := host', servers := (d.servers.insert id o.server).erase id, now := d.now } ∧
          ∀ e ∈ d'.exits, e ∈ d.exits ∨
            ∃ code, o.fate = .exits code ∧ e = ⟨id, code, o.server⟩) := by
  obtain ⟨host, hhost, hfate⟩ := Option.bind_eq_some_iff.mp h
  refine ⟨host, ?_, ?_⟩
  · split_ifs at hhost with hrelease
    · exact .inl ⟨hrelease, hhost⟩
    · exact .inr ⟨by simpa using hrelease, (Option.some.inj hhost).symm⟩
  · split at hfate
    next hruns => exact .inl ⟨hruns, (Option.some.inj hfate).symm⟩
    next code hexits =>
      obtain ⟨host', hcrash, rfl⟩ := Option.map_eq_some_iff.mp hfate
      refine .inr ⟨by simp [hexits], host', hcrash, rfl, fun e he => ?_⟩
      rcases List.mem_cons.mp he with rfl | he
      · exact .inr ⟨code, hexits, rfl⟩
      · exact .inl he
    next hkilled =>
      obtain ⟨host', hcrash, rfl⟩ := Option.map_eq_some_iff.mp hfate
      exact .inr ⟨by simp [hkilled], host', hcrash, rfl, fun e he => .inl he⟩

/-- The steps of the host that a step of a server takes. -/
theorem leads_does (h : d.does id o = some d') :
    hostMachine.Leads (fun _ _ => True) d.host d'.host := by
  obtain ⟨host, hhost, hfate⟩ := does_cases h
  have hfirst : hostMachine.Leads (fun _ _ => True) d.host host := by
    rcases hhost with ⟨-, hrelease⟩ | ⟨-, rfl⟩
    · exact .tail (.refl _) (a := .release id) trivial hrelease
    · exact .refl _
  rcases hfate with ⟨-, rfl⟩ | ⟨-, host', hcrash, heq, -⟩
  · exact hfirst
  · rw [heq]
    exact hfirst.tail (a := .crash id) trivial hcrash

theorem leads_next {a : Action} (h : d.next a = some d') :
    hostMachine.Leads (fun _ _ => True) d.host d'.host := by
  have hone {b : Restore.Action} {host : Host} (hb : d.host.next b = some host) :
      hostMachine.Leads (fun _ _ => True) d.host host := .tail (.refl _) (a := b) trivial hb
  cases a with
  | start | startRestore _ _ | restoreStep _ _ =>
    simp only [next] at h
    obtain ⟨host, hhost, rfl⟩ := Option.map_eq_some_iff.mp h
    exact hone hhost
  | acquire id pid fail =>
    simp only [next] at h
    obtain ⟨s, -, h⟩ := Option.bind_eq_some_iff.mp h
    obtain ⟨-, h⟩ := Option.ite_none_right_eq_some.mp h
    obtain ⟨host, hhost, h⟩ := Option.bind_eq_some_iff.mp h
    refine (hone hhost).trans ?_
    split_ifs at h
    · exact leads_does h
    · exact leads_does h
  | move id m =>
    simp only [next] at h
    obtain ⟨s, -, h⟩ := Option.bind_eq_some_iff.mp h
    obtain ⟨o, -, h⟩ := Option.bind_eq_some_iff.mp h
    exact leads_does h
  | write id data =>
    simp only [next] at h
    obtain ⟨s, -, h⟩ := Option.bind_eq_some_iff.mp h
    obtain ⟨-, h⟩ := Option.ite_none_right_eq_some.mp h
    obtain ⟨host, hhost, rfl⟩ := Option.map_eq_some_iff.mp h
    exact hone hhost
  | crashRestore id =>
    simp only [next] at h
    obtain ⟨-, h⟩ := Option.ite_none_right_eq_some.mp h
    obtain ⟨host, hhost, rfl⟩ := Option.map_eq_some_iff.mp h
    exact hone hhost
  | pass ms =>
    obtain rfl := Option.some.inj h
    exact .refl _

/-- Servers and restores act on the data directory as owners of its lease. -/
theorem refines_host : Transition.Refines deploymentMachine hostMachine Deployment.host where
  starts _ h := h.1
  step _ _ _ h := leads_next h

theorem host_safe (h : deploymentMachine.Reachable d) : d.host.Safe :=
  .of_reachable (refines_host.reachable h)

def SoundAt (d : Deployment) (id : OwnerId) : Prop :=
  ∀ s, d.servers.lookup id = some s →
    d.host.owners.lookup id = some (.runtime s.holds) ∧ s.Lawful d.now

structure Sound (d : Deployment) : Prop where
  servers : ∀ id, d.SoundAt id
  exits : ∀ e ∈ d.exits, e.server.Ended e.code

/-- What is done with a server is sound if it is right about the lease. -/
theorem sound_does (hd : d.does id o = some d') (hothers : ∀ id' ≠ id, d.SoundAt id')
    (hexits : ∀ e ∈ d.exits, e.server.Ended e.code)
    (hlawful : o.fate = .runs → o.server.Lawful d.now)
    (hended : ∀ code, o.fate = .exits code → o.server.Ended code)
    (hreleased : o.release = true → o.server.holds = false)
    (hkept : o.release = false → d.host.owners.lookup id = some (.runtime o.server.holds)) :
    d'.Sound := by
  obtain ⟨host, hhost, hfate⟩ := does_cases hd
  have hsame (id' : OwnerId) (hne : id' ≠ id) :
      host.owners.lookup id' = d.host.owners.lookup id' := by
    rcases hhost with ⟨-, hrelease⟩ | ⟨-, rfl⟩
    · rw [lookup_release hrelease, if_neg hne]
    · rfl
  rcases hfate with ⟨hruns, rfl⟩ | ⟨-, host', hcrash, heq, hlog⟩
  · refine ⟨fun id' s hs => ?_, hexits⟩
    have hs : (d.servers.insert id o.server).lookup id' = some s := hs
    rw [Table.lookup_insert_eq] at hs
    split_ifs at hs with hid
    · obtain rfl := Option.some.inj hs
      refine ⟨?_, hlawful hruns⟩
      rw [hid]
      rcases hhost with ⟨hrel, hrelease⟩ | ⟨hrel, rfl⟩
      · rw [hreleased hrel]
        exact (lookup_release hrelease).trans (if_pos rfl)
      · exact hkept hrel
    · have hold := hothers id' hid s hs
      exact ⟨(hsame id' hid).trans hold.1, hold.2⟩
  · constructor
    case exits =>
      intro e he
      rcases hlog e he with he | ⟨code, hcode, rfl⟩
      · exact hexits e he
      · exact hended code hcode
    case servers =>
      intro id' s hs
      rw [heq] at hs ⊢
      have hs : ((d.servers.insert id o.server).erase id).lookup id' = some s := hs
      rw [Table.lookup_erase_eq] at hs
      split_ifs at hs with hid
      rw [Table.lookup_insert_eq, if_neg hid] at hs
      have hold := hothers id' hid s hs
      refine ⟨?_, hold.2⟩
      rw [lookup_crash hcrash, if_neg hid, hsame id' hid]
      exact hold.1

/-- A step of a server. -/
theorem Sound.move (h : d.Sound) {s : Server} (hs : d.servers.lookup id = some s)
    (hf : Server.Follows s o d.now) (hd : d.does id o = some d') : d'.Sound := by
  refine sound_does hd (fun id' _ => h.servers id') h.exits hf.lawful hf.ended ?_ ?_
  · intro hrel
    simp [Server.holds, (hf.release hrel).2]
  · intro hrel
    rw [((h.servers id) s hs).1]
    simp only [Server.holds, hf.keep hrel, ne_eq, hf.main]

/-- A server acquires the lease, or ends. -/
theorem Sound.acquire (h : d.Sound) {s : Server} (hs : d.servers.lookup id = some s)
    (hmain : s.main = .acquiring) {host : Host} {pid : ℤ} {fail : Bool}
    (hhost : d.host.next (.acquire id pid d.now fail) = some host)
    (hd : (if (host.owners.lookup id).any Owner.held then
        does { d with host } id (Server.stays { s with main := .preparing })
      else does { d with host } id ⟨s, false, .exits 1⟩) = some d') : d'.Sound := by
  obtain ⟨howner, hl⟩ := h.servers id s hs
  have hidle : s.holds = false := by simp [Server.holds, hmain]
  rw [hidle] at howner
  have hnone := hl.early (.inl hmain)
  have hun := (hl.unclosed hnone).1
  have hothers (id' : OwnerId) (hne : id' ≠ id) : SoundAt { d with host } id' := by
    intro s' hs'
    obtain ⟨held, hsame⟩ := lookup_acquire id' howner hhost
    rw [if_neg hne] at hsame
    exact ⟨hsame.trans (h.servers id' s' hs').1, (h.servers id' s' hs').2⟩
  have hf : Server.Follows s ⟨s, false, .exits 1⟩ d.now := hl.exits fun h => (by cases h)
  obtain ⟨held, hsame⟩ := lookup_acquire id howner hhost
  rw [if_pos rfl] at hsame
  split_ifs at hd with hheld
  · have hholds : Server.holds { s with main := .preparing } = true := by
      simp [Server.holds, hun.releases]
    have happ : Server.SameApp s { s with main := .preparing } := ⟨rfl, rfl, rfl, rfl⟩
    have hprepared : Server.Lawful { s with main := .preparing } d.now :=
      Server.lawful_unclosed hnone (happ.unclosed hun) (by simp)
        (fun _ => hl.absent (.inl hmain)) (hl.idle (by simp [Server.handlesSignals, hmain]))
    refine sound_does hd hothers h.exits (fun _ => hprepared) ?_ ?_ ?_
    · intro code hcode
      cases hcode
    · intro hrel
      cases hrel
    · intro _
      rw [hsame] at hheld ⊢
      have hheld : held = true := hheld
      rw [hheld, ← hholds]
      rfl
  · refine sound_does hd hothers h.exits hf.lawful hf.ended ?_ ?_
    · intro hrel
      cases hrel
    · intro _
      rw [hsame] at hheld ⊢
      have hheld : held = false := by simpa [Owner.held] using hheld
      rw [hheld, ← hidle]

theorem Sound.next (h : d.Sound) (hsafe : d.host.Safe) {a : Action} (hn : d.next a = some d') :
    d'.Sound := by
  have hhost (host : Host) (hsame : ∀ id s, d.servers.lookup id = some s →
      host.owners.lookup id = d.host.owners.lookup id) : Sound { d with host } :=
    ⟨fun id s hs => ⟨(hsame id s hs).trans (h.servers id s hs).1, (h.servers id s hs).2⟩, h.exits⟩
  cases a with
  | start =>
    simp only [Deployment.next] at hn
    obtain ⟨host, hstart, rfl⟩ := Option.map_eq_some_iff.mp hn
    obtain rfl := Option.some.inj hstart
    refine ⟨fun id s hs => ?_, h.exits⟩
    have hs : (d.servers.insert d.host.drawn .fresh).lookup id = some s := hs
    have howner := Table.lookup_insert_eq d.host.owners d.host.drawn id (.runtime false)
    rw [Table.lookup_insert_eq] at hs
    split_ifs at hs with hid
    · obtain rfl := Option.some.inj hs
      exact ⟨howner.trans (if_pos hid), Server.lawful_fresh d.now⟩
    · exact ⟨(howner.trans (if_neg hid)).trans (h.servers id s hs).1, (h.servers id s hs).2⟩
  | acquire id pid fail =>
    simp only [Deployment.next] at hn
    obtain ⟨s, hs, hn⟩ := Option.bind_eq_some_iff.mp hn
    obtain ⟨hmain, hn⟩ := Option.ite_none_right_eq_some.mp hn
    obtain ⟨host, hacquire, hn⟩ := Option.bind_eq_some_iff.mp hn
    exact h.acquire hs hmain hacquire hn
  | move id m =>
    simp only [Deployment.next] at hn
    obtain ⟨s, hs, hn⟩ := Option.bind_eq_some_iff.mp hn
    obtain ⟨o, ho, hn⟩ := Option.bind_eq_some_iff.mp hn
    exact h.move hs ((h.servers id s hs).2.next ho) hn
  | write id data =>
    simp only [Deployment.next] at hn
    obtain ⟨s, -, hn⟩ := Option.bind_eq_some_iff.mp hn
    obtain ⟨-, hn⟩ := Option.ite_none_right_eq_some.mp hn
    obtain ⟨host, hserve, rfl⟩ := Option.map_eq_some_iff.mp hn
    refine hhost host fun id' s' hs' => ?_
    have howner := (h.servers id' s' hs').1
    exact (lookup_serve howner hserve).trans howner.symm
  | startRestore pid payload =>
    simp only [Deployment.next] at hn
    obtain ⟨host, hstart, rfl⟩ := Option.map_eq_some_iff.mp hn
    obtain rfl := Option.some.inj hstart
    refine hhost _ fun id' s' hs' => (Table.lookup_insert_eq _ _ _ _).trans (if_neg ?_)
    exact Nat.ne_of_lt (hsafe.fresh id' _ (h.servers id' s' hs').1)
  | restoreStep id fail =>
    simp only [Deployment.next] at hn
    obtain ⟨host, hstep, rfl⟩ := Option.map_eq_some_iff.mp hn
    refine hhost host fun id' s' hs' => ?_
    have howner := (h.servers id' s' hs').1
    exact (lookup_restoreStep howner hstep).trans howner.symm
  | crashRestore id =>
    simp only [Deployment.next] at hn
    obtain ⟨hid, hn⟩ := Option.ite_none_right_eq_some.mp hn
    obtain ⟨host, hcrash, rfl⟩ := Option.map_eq_some_iff.mp hn
    refine hhost host fun id' s' hs' => (lookup_crash hcrash).trans (if_neg fun heq => ?_)
    rw [heq, hid] at hs'
    cases hs'
  | pass ms =>
    obtain rfl := Option.some.inj hn
    refine ⟨fun id s hs => ⟨(h.servers id s hs).1, ?_⟩, h.exits⟩
    exact (h.servers id s hs).2.later (Nat.le_add_right d.now ms)

theorem Sound.of_reachable (h : deploymentMachine.Reachable d) : d.Sound := by
  refine h.invariant_of (fun d hd => ?_) fun d a d' hr hs _ hn => hs.next (host_safe hr) hn
  obtain ⟨-, hservers, hexits⟩ := hd
  constructor
  case servers =>
    intro id s hs
    rw [hservers, AList.lookup_empty] at hs
    cases hs
  case exits =>
    intro e he
    rw [hexits] at he
    cases he

/-- The steps by which a shutdown ends without help from the app. -/
def OfTimers (id : OwnerId) (a : Action) : Prop :=
  (∃ ms, a = .pass ms) ∨ a = .move id .deadline ∨ a = .move id .stopped

/-- A server with an outcome to exit on is gone after `stopped`. -/
theorem Sound.stops (h : d.Sound) {s : Server} (hs : d.servers.lookup id = some s)
    (hready : s.shutdown = .thrown ∨ s.shutdown = .waiting ∧ s.settled.isSome = true) :
    ∃ d', d.next (.move id .stopped) = some d' ∧ d'.servers.lookup id = none := by
  obtain ⟨code, hcode⟩ : ∃ code, s.next d.now .stopped = some ⟨s, false, .exits code⟩ := by
    rcases hready with hthrown | ⟨hwaiting, hsettled⟩
    · exact ⟨1, by simp [Server.next, hthrown]⟩
    · obtain ⟨r, hr⟩ := Option.isSome_iff_exists.mp hsettled
      cases r with
      | ok u => exact ⟨0, by simp [Server.next, hwaiting, hr]⟩
      | error e => exact ⟨1, by simp [Server.next, hwaiting, hr]⟩
  have howner := (h.servers id s hs).1
  simp only [Deployment.next, hs, Option.bind_some, hcode, does, ends, Host.next, howner,
    Bool.false_eq_true, if_false, Option.map_some]
  exact ⟨_, rfl, (Table.lookup_erase_eq _ _ _).trans (if_pos rfl)⟩

/-- A shutdown ends whatever the app does: when its close does not settle, the deadline does. -/
theorem Sound.shutdown_ends (h : d.Sound) (hsafe : d.host.Safe) {s : Server}
    (hs : d.servers.lookup id = some s) (hshutdown : s.shutdown ≠ .idle) :
    ∃ as d', (∀ a ∈ as, OfTimers id a) ∧ deploymentMachine.exec d as = some d' ∧
      d'.servers.lookup id = none := by
  have hl := (h.servers id s hs).2
  have hnow (hready : s.shutdown = .thrown ∨ s.shutdown = .waiting ∧ s.settled.isSome = true) :
      ∃ as d', (∀ a ∈ as, OfTimers id a) ∧ deploymentMachine.exec d as = some d' ∧
        d'.servers.lookup id = none := by
    obtain ⟨d', hd', hgone⟩ := h.stops hs hready
    refine ⟨[.move id .stopped], d', by simp [OfTimers], ?_, hgone⟩
    simp [Transition.Machine.exec, deploymentMachine, hd']
  cases hkind : s.shutdown with
  | idle => exact absurd hkind hshutdown
  | thrown => exact hnow (.inl hkind)
  | waiting =>
    obtain ⟨c, hc⟩ := Option.isSome_iff_exists.mp (hl.waiting hkind)
    cases hout : c.outcome with
    | some r => exact hnow (.inr ⟨hkind, by simp [Server.settled, hc, hout]⟩)
    | none =>
      -- the deadline passes, and the timer fires
      let late : Server := { s with
        closing := some { c with outcome := some (.error .shutdownTimeout) } }
      let passed : Deployment := { d with now := d.now + (c.begun + shutdownBudgetMs) }
      let timedOut : Deployment := { passed with servers := d.servers.insert id late }
      have hpass : d.next (.pass (c.begun + shutdownBudgetMs)) = some passed := rfl
      have hdeadline : passed.next (.move id .deadline) = some timedOut := by
        simp [Deployment.next, passed, hs, Server.next, hc, hout, does, Server.stays, timedOut,
          late]
      have hlate : Sound timedOut := (h.next hsafe hpass).next hsafe hdeadline
      obtain ⟨d', hstop, hgone⟩ := hlate.stops (s := late)
        ((Table.lookup_insert_eq _ _ _ _).trans (if_pos rfl)) (.inr ⟨hkind, rfl⟩)
      refine ⟨[.pass (c.begun + shutdownBudgetMs), .move id .deadline, .move id .stopped], d',
        by simp [OfTimers], ?_, hgone⟩
      simp [Transition.Machine.exec, deploymentMachine, hpass, hdeadline, hstop]

end Deployment

structure RuntimeLaws (d : Deployment) : Prop where
  /-- A server that may write has the lease, so that none of its writes is refused. -/
  owned : ∀ id s, d.servers.lookup id = some s → s.Active →
    d.host.disk.lock = some id ∧ ∀ data, (d.next (.write id data)).isSome = true
  single : ∀ id id' s s', d.servers.lookup id = some s → d.servers.lookup id' = some s' →
    s.Active → s'.Active → id = id'
  /-- No restore is under way beside it, nor has one been left half done. -/
  alone : ∀ id s, d.servers.lookup id = some s → s.Active →
    d.host.disk.fence = false ∧ ∀ id' script, d.host.owners.lookup id' ≠ some (.restore true script)
  /-- The app is closed once, and the lease given back once, after that. -/
  released : ∀ id s, d.servers.lookup id = some s →
    s.releases ≤ 1 ∧ s.closeCalls ≤ 1 ∧ (s.releases = 1 → s.app = .closed)
  /-- A server that could not close in its budget keeps the lease until it exits. -/
  late : ∀ id s c, d.servers.lookup id = some s → s.closing = some c →
    c.outcome = some (.error .shutdownTimeout) →
    c.begun + shutdownBudgetMs ≤ d.now ∧ d.host.disk.lock = some id
  exits : ∀ e ∈ d.exits, e.server.Ended e.code
  /-- A shutdown ends without help from the app. -/
  ends : ∀ id s, d.servers.lookup id = some s → s.shutdown ≠ .idle →
    ∃ as d', (∀ a ∈ as, Deployment.OfTimers id a) ∧ deploymentMachine.exec d as = some d' ∧
      d'.servers.lookup id = none

theorem runtimeLaws_of_reachable {d : Deployment} (h : deploymentMachine.Reachable d) :
    RuntimeLaws d := by
  have hsafe := Deployment.host_safe h
  have hsound := Deployment.Sound.of_reachable h
  have howner (id : OwnerId) (s : Server) (hs : d.servers.lookup id = some s)
      (ha : s.Active) : d.host.owners.lookup id = some (.runtime true) := by
    obtain ⟨howner, hl⟩ := hsound.servers id s hs
    rwa [hl.holds ha] at howner
  have hlock (id : OwnerId) (s : Server) (hs : d.servers.lookup id = some s) (ha : s.Active) :
      d.host.disk.lock = some id := (hsafe.held id _ (howner id s hs ha)).mp rfl
  constructor
  case owned =>
    intro id s hs ha
    refine ⟨hlock id s hs ha, fun data => ?_⟩
    simp [Deployment.next, hs, ha, Host.next, howner id s hs ha]
  case single =>
    intro id id' s s' hs hs' ha ha'
    exact Option.some.inj ((hlock id s hs ha).symm.trans (hlock id' s' hs' ha'))
  case alone =>
    intro id s hs ha
    refine ⟨hsafe.runtime id (howner id s hs ha), fun id' script hrestore => ?_⟩
    have hlock' : d.host.disk.lock = some id' := (hsafe.held id' _ hrestore).mp rfl
    obtain rfl := Option.some.inj ((hlock id s hs ha).symm.trans hlock')
    rw [howner id s hs ha] at hrestore
    cases hrestore
  case released => exact fun id s hs => (hsound.servers id s hs).2.counts
  case late =>
    intro id s c hs hc hout
    obtain ⟨howner, hl⟩ := hsound.servers id s hs
    have hclosing := hl.closing c hc
    refine ⟨hclosing.late hout, (hsafe.held id _ howner).mp ?_⟩
    have hmain : s.main ≠ .acquiring := by
      intro heq
      simp [hl.early (.inl heq)] at hc
    simp [Owner.held, Server.holds, hmain, hclosing.failed _ hout]
  case exits => exact hsound.exits
  case ends => exact fun id s hs hshutdown => hsound.shutdown_ends hsafe hs hshutdown

/-- The first server closes in vain until its deadline, and a second one starts after it while a
restore waits for the lease. -/
def handover : List Action :=
  [.start, .acquire 1 7 false, .move 1 .prepared, .move 1 .initialized, .move 1 .listens, .start,
    .move 1 (.signal false false), .move 1 (.signal false false), .pass 25000, .move 1 .deadline,
    .move 1 .stopped, .startRestore 9 Restore.Disk.bothEntries, .acquire 2 8 false,
    .restoreStep 3 false, .restoreStep 3 false, .move 2 .prepared]

def handedOver : Deployment :=
  (deploymentMachine.exec ⟨Host.servedHost, ∅, [], 0⟩ handover).getD ⟨Host.servedHost, ∅, [], 0⟩

theorem runtimeLaws_handedOver : RuntimeLaws handedOver ∧
    handedOver.exits.map (fun e => (e.id, e.code, e.server.app)) = [(1, 1, .closing)] ∧
    handedOver.host.disk.lock = some 2 :=
  ⟨runtimeLaws_of_reachable
    (Transition.Machine.reachable_exec ⟨⟨rfl, rfl, rfl⟩, rfl, rfl⟩ (by decide +kernel)),
    by decide +kernel, by decide +kernel⟩

end SteamBee.Startup
