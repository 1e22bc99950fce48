import SteamBee.Startup.Runtime

/-! One server from its start to its exit: its lease is given back once, by the close of the app
that succeeds in time. -/
namespace SteamBee.Startup

structure Closing.Lawful (c : Closing) (s : Server) (now : ℕ) : Prop where
  lease : c.lease = false ↔ s.main = .cleaning
  calls : s.closeCalls = 1
  pending : c.outcome = none → s.app = .closing ∧ s.releases = 0
  done : c.outcome = some (.ok ()) → s.app = .closed ∧ s.releases = if c.lease then 1 else 0
  failed : ∀ e, c.outcome = some (.error e) → s.releases = 0
  late : c.outcome = some (.error .shutdownTimeout) → c.begun + shutdownBudgetMs ≤ now

structure Unclosed (s : Server) : Prop where
  app : s.app = .absent ∨ s.app = .opened
  calls : s.closeCalls = 0
  releases : s.releases = 0

namespace Server
variable {s : Server} {now : ℕ} {o : Outcome}

structure Lawful (s : Server) (now : ℕ) : Prop where
  absent : s.main = .acquiring ∨ s.main = .preparing → s.app = .absent
  early : s.main = .acquiring ∨ s.main = .preparing ∨ s.main = .initializing → s.closing = none
  unclosed : s.closing = none → Unclosed s ∧ s.main ≠ .cleaning
  closing : ∀ c, s.closing = some c → c.Lawful s now
  signalled : s.shutdown ≠ .idle → s.handlesSignals = true
  waiting : s.shutdown = .waiting → s.closing.isSome = true

structure Ended (s : Server) (code : ℕ) : Prop where
  releases : s.releases ≤ 1
  calls : s.closeCalls ≤ 1
  released : s.releases = 1 → s.app = .absent ∨ s.app = .closed
  clean : code = 0 → s.app = .closed ∧ s.releases = 1 ∧ s.shutdown = .waiting

structure Follows (s : Server) (o : Outcome) (now : ℕ) : Prop where
  lawful : o.fate = .runs → o.server.Lawful now
  main : o.server.main = .acquiring ↔ s.main = .acquiring
  release : o.release = true → s.holds = true ∧ o.server.releases = 1
  keep : o.release = false → o.server.releases = s.releases
  ended : ∀ code, o.fate = .exits code → o.server.Ended code

structure SameApp (s s' : Server) : Prop where
  app : s'.app = s.app
  closing : s'.closing = s.closing
  calls : s'.closeCalls = s.closeCalls
  releases : s'.releases = s.releases

theorem SameApp.unclosed {s' : Server} (h : SameApp s s') (hun : Unclosed s) : Unclosed s' := by
  refine ⟨?_, h.calls.trans hun.calls, h.releases.trans hun.releases⟩
  rw [h.app]
  exact hun.app

theorem SameApp.lawful {s' : Server} (h : SameApp s s')
    (hmain : s'.main = .cleaning ↔ s.main = .cleaning) {c : Closing} (hl : c.Lawful s now) :
    c.Lawful s' now where
  lease := hl.lease.trans hmain.symm
  calls := h.calls.trans hl.calls
  pending hout := by simpa only [h.app, h.releases] using hl.pending hout
  done hout := by simpa only [h.app, h.releases] using hl.done hout
  failed e hout := h.releases.trans (hl.failed e hout)
  late := hl.late

/-- A server with handlers, or in the `catch` of `buildApp`, is past the first stages. -/
theorem not_early (h : s.main = .cleaning ∨ s.handlesSignals = true) :
    ¬(s.main = .acquiring ∨ s.main = .preparing ∨ s.main = .initializing) := by
  intro heq
  rcases h with hmain | hhandles
  · simp [hmain] at heq
  · rcases heq with heq | heq | heq <;> simp [handlesSignals, heq] at hhandles

theorem ne_cleaning (h : s.handlesSignals = true) : s.main ≠ .cleaning := by
  intro heq
  simp [handlesSignals, heq] at h

theorem Lawful.idle (h : s.Lawful now) (hhandles : s.handlesSignals = false) :
    s.shutdown = .idle := by
  by_contra hne
  simp [h.signalled hne] at hhandles

/-- A server whose app nobody has closed and that no signal has reached. -/
theorem lawful_unclosed (hnone : s.closing = none) (hun : Unclosed s) (hmain : s.main ≠ .cleaning)
    (habsent : s.main = .acquiring ∨ s.main = .preparing → s.app = .absent)
    (hidle : s.shutdown = .idle) : s.Lawful now where
  absent := habsent
  early _ := hnone
  unclosed _ := ⟨hun, hmain⟩
  closing c hc := by simp [hnone] at hc
  signalled hne := absurd hidle hne
  waiting hw := by simp [hidle] at hw

theorem lawful_fresh (now : ℕ) : fresh.Lawful now :=
  lawful_unclosed rfl ⟨.inl rfl, rfl, rfl⟩ (by decide) (fun _ => rfl) rfl

/-- A server with handlers whose app, closing and lease stay. -/
theorem Lawful.moves (h : s.Lawful now) {s' : Server} (hsame : SameApp s s')
    (hmain : s.main ≠ .cleaning) (hhandles : s'.handlesSignals = true)
    (hwaiting : s'.shutdown = .waiting → s.shutdown = .waiting) : s'.Lawful now where
  absent heq := absurd (heq.imp_right .inl) (not_early (.inr hhandles))
  early heq := absurd heq (not_early (.inr hhandles))
  unclosed hnone :=
    ⟨hsame.unclosed (h.unclosed (hsame.closing.symm.trans hnone)).1, ne_cleaning hhandles⟩
  closing c hc := hsame.lawful (iff_of_false (ne_cleaning hhandles) hmain)
    (h.closing c (hsame.closing.symm.trans hc))
  signalled _ := hhandles
  waiting hw := by
    rw [hsame.closing]
    exact h.waiting (hwaiting hw)

/-- The counters of a lawful server. -/
theorem Lawful.counts (h : s.Lawful now) :
    s.releases ≤ 1 ∧ s.closeCalls ≤ 1 ∧ (s.releases = 1 → s.app = .closed) := by
  cases hc : s.closing with
  | none =>
    have hun := (h.unclosed hc).1
    simp [hun.calls, hun.releases]
  | some c =>
    have hl := h.closing c hc
    refine ⟨?_, hl.calls.le, ?_⟩
    · cases hout : c.outcome with
      | none => simp [(hl.pending hout).2]
      | some r =>
        cases r with
        | error e => simp [hl.failed e hout]
        | ok u =>
          rw [(hl.done hout).2]
          split_ifs <;> omega
    · intro hone
      cases hout : c.outcome with
      | none => simp [(hl.pending hout).2] at hone
      | some r =>
        cases r with
        | error e => simp [hl.failed e hout] at hone
        | ok u => exact (hl.done hout).1

/-- A server whose app may still write has its lease. -/
theorem Lawful.holds (h : s.Lawful now) (ha : s.Active) : s.holds = true := by
  have hcounts := h.counts
  have hzero : s.releases = 0 := by
    by_contra hne
    exact ha.2 (hcounts.2.2 (by omega))
  simp [Server.holds, ha.1, hzero]

theorem Lawful.later (h : s.Lawful now) {now' : ℕ} (hle : now ≤ now') : s.Lawful now' :=
  { h with closing := fun c hc =>
      { h.closing c hc with late := fun hout => ((h.closing c hc).late hout).trans hle } }

/-- A step after which the server runs on with the lease it had. -/
theorem follows_stays {s' : Server} (hl : s'.Lawful now)
    (hmain : s'.main = .acquiring ↔ s.main = .acquiring) (hrel : s'.releases = s.releases) :
    Follows s s'.stays now where
  lawful _ := hl
  main := hmain
  release h := (by cases h)
  keep _ := hrel
  ended code h := (by cases h)

/-- A step that ends the process with the lease it had. -/
theorem Lawful.exits (h : s.Lawful now) {code : ℕ}
    (hclean : code = 0 → s.app = .closed ∧ s.releases = 1 ∧ s.shutdown = .waiting) :
    Follows s ⟨s, false, .exits code⟩ now where
  lawful h := (by cases h)
  main := Iff.rfl
  release h := (by cases h)
  keep _ := rfl
  ended code' heq := by
    obtain rfl := Fate.exits.inj heq
    exact ⟨h.counts.1, h.counts.2.1, fun hone => .inr (h.counts.2.2 hone), hclean⟩

/-- A failed start gives the lease back and ends the process. -/
theorem Lawful.releasing (h : s.Lawful now) (hmain : s.main ≠ .acquiring)
    (hrel : s.releases = 0) (happ : s.app = .absent ∨ s.app = .closed) :
    Follows s (s.releasing (.exits 1)) now where
  lawful h := (by cases h)
  main := Iff.rfl
  release _ := ⟨by simp [Server.holds, hmain, hrel], by simp [Server.releasing, hrel]⟩
  keep h := (by cases h)
  ended code heq := by
    obtain rfl := Fate.exits.inj heq
    exact ⟨by simp [Server.releasing, hrel], h.counts.2.1, fun _ => happ, fun h => (by cases h)⟩

/-- A close begun in a `catch` or by a signal. -/
theorem lawful_closeWithLeaseCleanup {s : Server} {lease throws : Bool}
    (hmain : s.main = .cleaning ∨ s.handlesSignals = true)
    (hlease : lease = false ↔ s.main = .cleaning)
    (hunclosed : s.closing = none → Unclosed s)
    (hclosing : ∀ c, s.closing = some c → c.Lawful s now)
    (hsignalled : s.shutdown ≠ .idle → s.handlesSignals = true) :
    (s.closeWithLeaseCleanup lease now throws).Lawful now := by
  have hearly := not_early hmain
  unfold closeWithLeaseCleanup
  split
  next c hc =>
    exact ⟨fun heq => (hearly (heq.imp_right .inl)).elim, fun heq => (hearly heq).elim,
      by simp [hc], hclosing, hsignalled, by simp [hc]⟩
  next hc =>
    have hun := hunclosed hc
    refine ⟨fun heq => (hearly (heq.imp_right .inl)).elim, fun heq => (hearly heq).elim, by simp,
      ?_, hsignalled, fun _ => rfl⟩
    intro c heq
    obtain rfl := Option.some.inj heq
    refine ⟨hlease, by simp [hun.calls], ?_, ?_, fun _ _ => hun.releases, ?_⟩
    · cases throws <;> simp [hun.releases]
    · cases throws <;> simp
    · cases throws <;> simp

/-- A close begun by a server with handlers. -/
theorem Lawful.closes (h : s.Lawful now) {s' : Server} (hsame : SameApp s s')
    (hmain : s.main ≠ .cleaning) (hhandles : s'.handlesSignals = true) (throws : Bool) :
    (s'.closeWithLeaseCleanup true now throws).Lawful now := by
  have hne := ne_cleaning hhandles
  refine lawful_closeWithLeaseCleanup (.inr hhandles) (by simp [hne]) ?_ ?_ fun _ => hhandles
  · intro hnone
    exact hsame.unclosed (h.unclosed (hsame.closing.symm.trans hnone)).1
  · intro c hc
    exact hsame.lawful (iff_of_false hne hmain) (h.closing c (hsame.closing.symm.trans hc))

/-- The app closes, and the lease goes with it unless the deadline has passed. -/
theorem Lawful.appSettles (h : s.Lawful now) (happ : s.app = .closing) (ok : Bool) :
    Follows s (s.appSettles ok) now := by
  have hmain : ¬(s.main = .acquiring ∨ s.main = .preparing) := by
    intro heq
    simp [h.absent heq] at happ
  have hsettled (s' : Server) (hsame : s'.main = s.main ∧ s'.shutdown = s.shutdown) (c : Closing)
      (hc : s'.closing = some c) (hl : c.Lawful s' now) (hearly : s.main ≠ .initializing) :
      s'.Lawful now := by
    refine ⟨fun heq => absurd (hsame.1 ▸ heq) hmain, ?_, by simp [hc], ?_, ?_, by simp [hc]⟩
    · rw [hsame.1]
      exact fun heq => ((or_assoc.mpr heq).elim hmain hearly).elim
    · intro c' hc'
      obtain rfl := Option.some.inj (hc.symm.trans hc')
      exact hl
    · rw [hsame.2]
      simpa only [handlesSignals, hsame.1] using h.signalled
  cases hc : s.closing with
  | none =>
    have hun := (h.unclosed hc).1.app
    simp [happ] at hun
  | some c =>
    have hl := h.closing c hc
    have hearly : s.main ≠ .initializing := by
      intro heq
      simp [h.early (.inr (.inr heq))] at hc
    cases hout : c.outcome with
    | some r =>
      have hstep : s.appSettles ok =
          Server.stays { s with app := if ok then .closed else .broken } := by
        simp [Server.appSettles, hc, hout]
      rw [hstep]
      refine follows_stays (hsettled _ ⟨rfl, rfl⟩ c hc ?_ hearly) Iff.rfl rfl
      cases r with
      | ok u => simp [(hl.done hout).1] at happ
      | error e => exact ⟨hl.lease, hl.calls, by simp [hout], by simp [hout], hl.failed, hl.late⟩
    | none =>
      have hzero := (hl.pending hout).2
      cases ok with
      | false =>
        have hstep : s.appSettles false = Server.stays { s with
            app := .broken
            closing := some { c with outcome := some (.error .runtime) } } := by
          simp [Server.appSettles, hc, hout]
        rw [hstep]
        refine follows_stays (hsettled _ ⟨rfl, rfl⟩ _ rfl ?_ hearly) Iff.rfl rfl
        exact ⟨hl.lease, hl.calls, by simp, by simp, fun _ _ => hzero, by simp⟩
      | true =>
        let done : Server := { s with
          app := .closed, closing := some { c with outcome := some (.ok ()) } }
        cases hlease : c.lease with
        | false =>
          have hstep : s.appSettles true = done.stays := by
            simp [Server.appSettles, hc, hout, hlease, done]
          rw [hstep]
          refine follows_stays (hsettled _ ⟨rfl, rfl⟩ _ rfl ?_ hearly) Iff.rfl rfl
          exact ⟨hl.lease, hl.calls, by simp, by simp [hlease, hzero, done], by simp, by simp⟩
        | true =>
          have hstep : s.appSettles true = done.releasing .runs := by
            simp [Server.appSettles, hc, hout, hlease, done]
          rw [hstep]
          refine ⟨fun _ => hsettled _ ⟨rfl, rfl⟩ _ rfl ?_ hearly, Iff.rfl, ?_, ?_, ?_⟩
          · exact ⟨hl.lease, hl.calls, by simp,
              by simp [hlease, hzero, done, Server.releasing], by simp, by simp⟩
          · intro _
            exact ⟨by simp [Server.holds, not_or.mp hmain, hzero],
              by simp [hzero, Server.releasing, done]⟩
          · intro hf
            cases hf
          · intro code hf
            cases hf

/-- `closeWithLeaseCleanup` changes neither the module nor the lease. -/
theorem closeWithLeaseCleanup_same (s : Server) (lease : Bool) (now : ℕ) (throws : Bool) :
    (s.closeWithLeaseCleanup lease now throws).main = s.main ∧
      (s.closeWithLeaseCleanup lease now throws).releases = s.releases := by
  unfold closeWithLeaseCleanup
  split <;> exact ⟨rfl, rfl⟩

/-- The step lemma of a server. -/
theorem Lawful.next (h : s.Lawful now) {m : Move} (hn : s.next now m = some o) :
    Follows s o now := by
  cases m with
  | prepared =>
    obtain ⟨hmain, ⟨⟩⟩ := Option.ite_none_right_eq_some.mp hn
    have hnone := h.early (.inr (.inl hmain))
    have hun := (h.unclosed hnone).1
    have hidle := h.idle (by simp [handlesSignals, hmain])
    exact follows_stays (lawful_unclosed hnone ⟨.inr rfl, hun.calls, hun.releases⟩ (by simp)
      (by simp) hidle) (by simp [hmain]) rfl
  | prepareFails =>
    obtain ⟨hmain, ⟨⟩⟩ := Option.ite_none_right_eq_some.mp hn
    have hun := (h.unclosed (h.early (.inr (.inl hmain)))).1
    exact h.releasing (by simp [hmain]) hun.releases (.inl (h.absent (.inr hmain)))
  | initialized =>
    obtain ⟨hmain, ⟨⟩⟩ := Option.ite_none_right_eq_some.mp hn
    have hsame : SameApp s { s with main := .listening } := ⟨rfl, rfl, rfl, rfl⟩
    exact follows_stays (h.moves hsame (by simp [hmain]) rfl id) (by simp [hmain]) rfl
  | initializeFails throws =>
    obtain ⟨hmain, ⟨⟩⟩ := Option.ite_none_right_eq_some.mp hn
    have hnone := h.early (.inr (.inr hmain))
    have hidle := h.idle (by simp [handlesSignals, hmain])
    have happ : SameApp s { s with main := .cleaning } := ⟨rfl, rfl, rfl, rfl⟩
    have hsame := closeWithLeaseCleanup_same { s with main := .cleaning } false now throws
    refine follows_stays (lawful_closeWithLeaseCleanup (.inl rfl) (by simp)
      (fun _ => happ.unclosed (h.unclosed hnone).1) ?_ (absurd hidle)) (by simp [hsame.1, hmain])
      hsame.2
    intro c hc
    simp [hnone] at hc
  | cleaned =>
    simp only [Server.next] at hn
    split at hn
    next u hmain hsettled =>
      obtain rfl := Option.some.inj hn
      obtain ⟨c, hc, hout⟩ := Option.bind_eq_some_iff.mp hsettled
      have hl := h.closing c hc
      obtain ⟨happ, hrel⟩ := hl.done hout
      rw [hl.lease.mpr hmain] at hrel
      exact h.releasing (by simp [hmain]) hrel (.inr happ)
    next =>
      obtain rfl := Option.some.inj hn
      exact h.exits fun h => (by cases h)
    next => cases hn
  | listens =>
    obtain ⟨hmain, ⟨⟩⟩ := Option.ite_none_right_eq_some.mp hn
    have hsame : SameApp s { s with main := .serving } := ⟨rfl, rfl, rfl, rfl⟩
    exact follows_stays (h.moves hsame (by simp [hmain]) rfl id) (by simp [hmain]) rfl
  | listenFails throws =>
    obtain ⟨hmain, ⟨⟩⟩ := Option.ite_none_right_eq_some.mp hn
    have happ : SameApp s { s with main := .failing } := ⟨rfl, rfl, rfl, rfl⟩
    have hsame := closeWithLeaseCleanup_same { s with main := .failing } true now throws
    exact follows_stays (h.closes happ (by simp [hmain]) rfl throws) (by simp [hsame.1, hmain])
      hsame.2
  | rethrown =>
    obtain ⟨hmain, ⟨⟩⟩ := Option.ite_none_right_eq_some.mp hn
    exact h.exits fun h => (by cases h)
  | signal fails throws =>
    simp only [Server.next] at hn
    split_ifs at hn with hhandles hsig hfails
    · obtain rfl := Option.some.inj hn
      exact follows_stays h Iff.rfl rfl
    · obtain rfl := Option.some.inj hn
      have hhandles : s.handlesSignals = true := by simpa using hhandles
      have hsame : SameApp s { s with shutdown := .thrown } := ⟨rfl, rfl, rfl, rfl⟩
      exact follows_stays (h.moves hsame (ne_cleaning hhandles) hhandles fun hw => (by cases hw))
        Iff.rfl rfl
    · obtain rfl := Option.some.inj hn
      have hhandles : s.handlesSignals = true := by simpa using hhandles
      have happ : SameApp s { s with shutdown := .waiting } := ⟨rfl, rfl, rfl, rfl⟩
      have hsame := closeWithLeaseCleanup_same { s with shutdown := .waiting } true now throws
      exact follows_stays (h.closes happ (ne_cleaning hhandles) hhandles throws) (by simp [hsame.1])
        hsame.2
  | stopped =>
    simp only [Server.next] at hn
    split at hn
    next =>
      obtain rfl := Option.some.inj hn
      exact h.exits fun h => (by cases h)
    next u hshutdown hsettled =>
      obtain rfl := Option.some.inj hn
      obtain ⟨c, hc, hout⟩ := Option.bind_eq_some_iff.mp hsettled
      have hl := h.closing c hc
      obtain ⟨happ, hrel⟩ := hl.done hout
      have hhandles := h.signalled (by simp [hshutdown])
      have hlease : c.lease = true := by
        by_contra hfalse
        have hmain := hl.lease.mp (by simpa using hfalse)
        simp [handlesSignals, hmain] at hhandles
      exact h.exits fun _ => ⟨happ, by simpa [hlease] using hrel, hshutdown⟩
    next =>
      obtain rfl := Option.some.inj hn
      exact h.exits fun h => (by cases h)
    next => cases hn
  | appSettles ok =>
    obtain ⟨happ, ⟨⟩⟩ := Option.ite_none_right_eq_some.mp hn
    exact h.appSettles happ ok
  | deadline =>
    simp only [Server.next] at hn
    split at hn
    next c hc =>
      obtain ⟨⟨hout, hlate⟩, ⟨⟩⟩ := Option.ite_none_right_eq_some.mp hn
      have hl := h.closing c hc
      have hzero := (hl.pending (by simpa using hout)).2
      refine follows_stays ⟨h.absent, fun heq => ?_, fun hnone => ?_, fun c' hc' => ?_,
        h.signalled, fun _ => rfl⟩ Iff.rfl rfl
      · simp [h.early heq] at hc
      · cases hnone
      · obtain rfl := Option.some.inj hc'
        exact ⟨hl.lease, hl.calls, by simp, by simp, fun _ _ => hzero, fun _ => hlate⟩
    next => cases hn
  | lost =>
    obtain ⟨-, ⟨⟩⟩ := Option.ite_none_right_eq_some.mp hn
    exact h.exits fun h => (by cases h)
  | killed =>
    obtain rfl := Option.some.inj hn
    exact ⟨fun h => (by cases h), Iff.rfl, fun h => (by cases h), fun _ => rfl,
      fun _ h => (by cases h)⟩

end Server
end SteamBee.Startup
