import SteamBee.Auth.Setup

/-! The gate of the setup: there is one admin at most, and a token is active exactly while there is
none. -/
namespace SteamBee.Auth
open Transition (Calls)

/-! ## Texts of tokens -/

theorem length_le_utf16Length (text : List Char) : text.length ≤ Text.utf16Length text := by
  induction text with
  | nil => exact le_rfl
  | cons c text ih =>
    rw [Text.utf16Length, List.length_cons]
    split_ifs <;> omega

theorem isSpace_of_generated {c : Char} (h : (c.isAlphanum || c == '-' || c == '_') = true) :
    Text.isSpace c = false := by
  have hrange : c.toNat = 45 ∨ c.toNat = 95 ∨ (48 ≤ c.toNat ∧ c.toNat ≤ 122) := by
    simp only [Bool.or_eq_true, beq_iff_eq] at h
    rcases h with (h | rfl) | rfl
    · right; right
      have halphanum : c.isAlphanum = (decide (65 ≤ c.val ∧ c.val ≤ 90) ||
          decide (97 ≤ c.val) && decide (c.val ≤ 122) ||
          decide (48 ≤ c.val) && decide (c.val ≤ 57)) := rfl
      simp only [halphanum, Bool.or_eq_true, Bool.and_eq_true, decide_eq_true_eq,
        UInt32.le_iff_toNat_le] at h
      have hval : c.toNat = c.val.toNat := rfl
      simp at h
      omega
    · exact .inl rfl
    · exact .inr (.inl rfl)
  unfold Text.isSpace
  simp only [Bool.or_eq_false_iff, Bool.and_eq_false_iff, decide_eq_false_iff_not,
    beq_eq_false_iff_ne]
  omega

/-- A generated token is read from its file as it was written. -/
theorem readSetupTokenFile_generated {generated : SetupToken} (h : isGenerated generated = true) :
    SetupHost.readSetupTokenFile (generated ++ ['\n']) = some generated := by
  obtain ⟨hlength, hall⟩ := (Bool.and_eq_true _ _).mp h
  have hspace : ∀ c ∈ ['\n'], Text.isSpace c = true := by
    intro c hc
    rw [List.mem_singleton.mp hc]
    rfl
  have htrim : Text.trim ([] ++ generated ++ ['\n']) = generated :=
    Text.trim_append (fun c hc => nomatch hc)
      (fun c hc => isSpace_of_generated (List.all_eq_true.mp hall c hc)) hspace
  rw [List.nil_append] at htrim
  have hlong := length_le_utf16Length generated
  rw [beq_iff_eq.mp hlength] at hlong
  unfold SetupHost.readSetupTokenFile
  simp only [htrim]
  rw [if_neg (by unfold minSetupTokenLength; omega)]

/-! ## What holds in every run -/

structure Kept (file : Option (List Char)) (setupToken : Option SetupToken) (token : SetupToken) :
    Prop where
  found : setupToken = some token ∨ setupToken = none ∧ (file = none ∨
    ∃ content, file = some content ∧ SetupHost.readSetupTokenFile content = some token)

structure Serving (s : SetupHost) (activeToken : Option SetupToken) (calls : Calls SetupCall) :
    Prop where
  gated : activeToken = none ↔ s.users ≠ []
  presented : calls.All fun call => ∀ password token now, call = .hash password token now →
    activeToken = none ∨ activeToken = some token
  kept : ∀ token, activeToken = some token → Kept s.file s.setupToken token

def SetupProcess.Lawful (s : SetupHost) : SetupProcess → Prop
  | .stopped | .starting => True
  | .creating generated => s.users = [] ∧ s.setupToken = none ∧ isGenerated generated = true
  | .serving activeToken calls => Serving s activeToken calls

structure SetupHost.Lawful (s : SetupHost) : Prop where
  single : s.users.length ≤ 1
  permitted : ∀ admin ∈ s.created, admin.activeToken = some admin.presented
  process : s.process.Lawful s

namespace SetupHost
variable {p : Crypto} {s t : SetupHost} {a : SetupAction} {activeToken : Option SetupToken}
  {calls : Calls SetupCall} {id : ℕ}

theorem Lawful.stop (h : s.Lawful) : s.stop.Lawful := ⟨h.single, h.permitted, trivial⟩

theorem Lawful.serving (h : s.Lawful) (hprocess : s.process = .serving activeToken calls) :
    Serving s activeToken calls := by
  have hlawful := h.process
  rw [hprocess] at hlawful
  exact hlawful

theorem Lawful.serve (h : s.Lawful) (hserving : Serving s activeToken calls) :
    (s.serve activeToken calls).Lawful :=
  ⟨h.single, h.permitted, hserving.gated, hserving.presented, hserving.kept⟩

/-- The calls of a server that serves change. -/
theorem Lawful.serveCalls (h : s.Lawful) (hprocess : s.process = .serving activeToken calls)
    {calls' : Calls SetupCall}
    (hcalls : calls'.All fun call => ∀ password token now, call = .hash password token now →
      activeToken = none ∨ activeToken = some token) :
    (s.serve activeToken calls').Lawful := by
  obtain ⟨hgated, -, hkept⟩ := h.serving hprocess
  exact h.serve ⟨hgated, hcalls, hkept⟩

theorem Lawful.reply (h : s.Lawful) (reply : SetupReply) : (s.reply reply).Lawful := by
  refine ⟨h.single, h.permitted, ?_⟩
  have hprocess := h.process
  show s.process.Lawful _
  cases hs : s.process with
  | stopped | starting => trivial
  | creating generated =>
    rw [hs] at hprocess
    exact hprocess
  | serving activeToken calls =>
    rw [hs] at hprocess
    exact ⟨hprocess.gated, hprocess.presented, hprocess.kept⟩

theorem all_empty {P : SetupCall → Prop} : (Calls.empty : Calls SetupCall).All P :=
  fun _ _ hcall => nomatch hcall

/-- Without a token there is an admin. -/
theorem serving_none (hs : s.users ≠ []) (calls : Calls SetupCall) : Serving s none calls :=
  ⟨⟨fun _ => hs, fun _ => rfl⟩, fun _ _ _ _ _ _ _ => .inl rfl, fun _ htoken => nomatch htoken⟩

theorem serving_some {token : SetupToken} (hs : s.users = [])
    (hkept : Kept s.file s.setupToken token) : Serving s (some token) .empty := by
  refine ⟨⟨fun hactive => (nomatch hactive), fun hsome => absurd hs hsome⟩, all_empty, ?_⟩
  intro token' htoken
  obtain rfl := Option.some.inj htoken
  exact hkept

theorem Lawful.initializeSetupToken (h : s.Lawful) {generated : SetupToken} {unlink : Unlink}
    (hn : s.initializeSetupToken generated unlink = some t) : t.Lawful := by
  unfold SetupHost.initializeSetupToken at hn
  split at hn
  next hprocess =>
    by_cases hnone : s.users = []
    swap
    · rw [if_pos hnone] at hn
      obtain rfl := Option.some.inj hn
      cases unlink with
      | removed =>
        have hremoved : ({ s with file := none } : SetupHost).Lawful := by
          refine ⟨h.single, h.permitted, ?_⟩
          show s.process.Lawful _
          rw [hprocess]
          trivial
        exact hremoved.serve (serving_none (s := { s with file := none }) hnone _)
      | failed =>
        dsimp only
        split_ifs
        · exact h.serve (serving_none hnone _)
        · exact h.stop
      | killed => exact h.stop
    · rw [if_neg (not_not.mpr hnone)] at hn
      cases hconfigured : s.setupToken with
      | some token =>
        rw [hconfigured] at hn
        obtain rfl := Option.some.inj hn
        exact h.serve (serving_some hnone ⟨.inl hconfigured⟩)
      | none =>
        rw [hconfigured] at hn
        cases hfile : s.file with
        | none =>
          rw [hfile] at hn
          obtain ⟨hgenerated, hn⟩ := Option.ite_none_right_eq_some.mp hn
          obtain rfl := Option.some.inj hn
          exact ⟨h.single, h.permitted, hnone, rfl, hgenerated⟩
        | some content =>
          rw [hfile] at hn
          dsimp only at hn
          cases hread : readSetupTokenFile content with
          | some token =>
            rw [hread] at hn
            obtain rfl := Option.some.inj hn
            refine h.serve (serving_some hnone ⟨.inr ⟨hconfigured, .inr ⟨content, hfile, hread⟩⟩⟩)
          | none =>
            rw [hread] at hn
            obtain rfl := Option.some.inj hn
            exact h.stop
  next => cases hn

theorem Lawful.writeSetupTokenFile (h : s.Lawful) (hn : s.writeSetupTokenFile = some t) :
    t.Lawful := by
  unfold SetupHost.writeSetupTokenFile at hn
  split at hn
  next generated hprocess =>
    obtain rfl := Option.some.inj hn
    have hlawful := h.process
    rw [hprocess] at hlawful
    obtain ⟨hnone, hconfigured, hgenerated⟩ := hlawful
    refine ⟨h.single, h.permitted, serving_some hnone ⟨.inr ⟨hconfigured, ?_⟩⟩⟩
    cases hfile : s.file with
    | none => exact .inl (by simp [SetupHost.serve])
    | some content =>
      right
      refine ⟨generated ++ ['\n'], ?_, readSetupTokenFile_generated hgenerated⟩
      simp [SetupHost.serve]
  next => cases hn

/-- The token goes when the admin has been created. -/
theorem lawful_completeSetupToken (hsingle : s.users.length = 1)
    (hpermitted : ∀ admin ∈ s.created, admin.activeToken = some admin.presented)
    (calls : Calls SetupCall) (unlink : Unlink) : (s.completeSetupToken calls unlink).Lawful := by
  have hsome : s.users ≠ [] := by
    rintro hnone
    rw [hnone] at hsingle
    cases hsingle
  have hserving {u : SetupHost} (husers : u.users = s.users) (hcreated : u.created = s.created) :
      (u.serve none calls).Lawful := by
    refine ⟨?_, ?_, serving_none (s := u.serve none calls) ?_ calls⟩
    · show u.users.length ≤ 1
      rw [husers, hsingle]
    · show ∀ admin ∈ u.created, admin.activeToken = some admin.presented
      rw [hcreated]
      exact hpermitted
    · show u.users ≠ []
      rw [husers]
      exact hsome
  cases unlink with
  | removed => exact (hserving (u := { s with file := none }) rfl rfl).reply _
  | failed => exact (hserving rfl rfl).reply _
  | killed => exact ⟨hsingle.le, hpermitted, trivial⟩

theorem Lawful.resume (h : s.Lawful) {salt : ℕ} {unlink : Unlink}
    (hn : s.resume p id salt unlink = some t) : t.Lawful := by
  unfold SetupHost.resume at hn
  split at hn
  next activeToken calls hprocess =>
    have hserving := h.serving hprocess
    have hfinish : (s.serve activeToken (calls.finish id)).Lawful :=
      h.serveCalls hprocess hserving.presented.finish
    obtain ⟨call, hcall, hn⟩ := Option.bind_eq_some_iff.mp hn
    cases call with
    | isSetupComplete password setupToken =>
      obtain rfl := Option.some.inj hn
      split_ifs with hcomplete hinvalid
      · exact hfinish.reply _
      · exact hfinish.reply _
      · refine h.serveCalls hprocess (hserving.presented.await ?_)
        intro password' token now hhash
        obtain ⟨-, rfl, -⟩ := SetupCall.hash.inj hhash
        exact .inr (not_not.mp hinvalid)
    | hash password presented now =>
      obtain rfl := Option.some.inj hn
      split_ifs with hcomplete
      · exact hfinish.reply _
      · refine lawful_completeSetupToken rfl ?_ _ unlink
        intro admin hadmin
        rcases List.mem_cons.mp hadmin with rfl | hadmin
        · -- without an admin a token is active, and the call has presented it
          have hactive : activeToken ≠ none := fun hnone => hcomplete (hserving.gated.mp hnone)
          exact (hserving.presented id _ hcall password presented now rfl).resolve_left hactive
        · exact h.permitted admin hadmin
  next => cases hn

theorem Lawful.next (h : s.Lawful) (hn : (setupMachine p).next s a = some t) : t.Lawful := by
  cases a with
  | start =>
    obtain ⟨-, hn⟩ := Option.ite_none_right_eq_some.mp hn
    obtain rfl := Option.some.inj hn
    exact ⟨h.single, h.permitted, trivial⟩
  | initializeSetupToken generated unlink => exact h.initializeSetupToken hn
  | writeSetupTokenFile => exact h.writeSetupTokenFile hn
  | crash =>
    obtain rfl := Option.some.inj hn
    exact h.stop
  | setupAdmin password setupToken =>
    unfold setupMachine at hn
    dsimp only at hn
    split at hn
    next activeToken calls hprocess =>
      obtain rfl := Option.some.inj hn
      refine h.serveCalls hprocess ((h.serving hprocess).presented.start ?_)
      exact fun _ _ _ hhash => nomatch hhash
    next => cases hn
  | resume id salt unlink => exact h.resume hn
  | fail id =>
    unfold setupMachine at hn
    dsimp only at hn
    split at hn
    next activeToken calls hprocess =>
      obtain ⟨call, -, rfl⟩ := Option.map_eq_some_iff.mp hn
      exact (h.serveCalls hprocess (h.serving hprocess).presented.finish).reply _
    next => cases hn
  | changeAdminPassword password salt =>
    unfold setupMachine at hn
    dsimp only at hn
    split at hn
    next activeToken calls hprocess =>
      obtain rfl := Option.some.inj hn
      obtain ⟨hgated, hpresented, hkept⟩ := h.serving hprocess
      refine ⟨by simpa using h.single, h.permitted, ?_⟩
      show s.process.Lawful _
      rw [hprocess]
      exact ⟨by simpa using hgated, hpresented, hkept⟩
    next => cases hn
  | configure setupToken =>
    obtain ⟨⟨hstopped, -⟩, hn⟩ := Option.ite_none_right_eq_some.mp hn
    obtain rfl := Option.some.inj hn
    refine ⟨h.single, h.permitted, ?_⟩
    show s.process.Lawful _
    rw [hstopped]
    trivial
  | restore user =>
    obtain ⟨hstopped, hn⟩ := Option.ite_none_right_eq_some.mp hn
    obtain rfl := Option.some.inj hn
    refine ⟨by cases user <;> simp, h.permitted, ?_⟩
    show s.process.Lawful _
    rw [hstopped]
    trivial
  | removeFile =>
    obtain rfl := Option.some.inj hn
    refine ⟨h.single, h.permitted, ?_⟩
    have hprocess := h.process
    show s.process.Lawful _
    cases hs : s.process with
    | stopped | starting => trivial
    | creating generated =>
      rw [hs] at hprocess
      exact hprocess
    | serving activeToken calls =>
      rw [hs] at hprocess
      refine ⟨hprocess.gated, hprocess.presented, fun token htoken => ⟨?_⟩⟩
      exact (hprocess.kept token htoken).found.imp_right fun hfile => ⟨hfile.1, .inl rfl⟩
  | tick elapsed =>
    obtain rfl := Option.some.inj hn
    refine ⟨h.single, h.permitted, ?_⟩
    have hprocess := h.process
    show s.process.Lawful _
    cases hs : s.process with
    | stopped | starting => trivial
    | creating generated =>
      rw [hs] at hprocess
      exact hprocess
    | serving activeToken calls =>
      rw [hs] at hprocess
      exact ⟨hprocess.gated, hprocess.presented, hprocess.kept⟩

end SetupHost

/-- There is one admin at most; while there are routes, a token is active exactly as long as there
is no admin, and a start finds it again; and an admin is only created for the token that is
active. -/
structure SetupLaws (s : SetupHost) : Prop where
  single : s.users.length ≤ 1
  gated : ∀ activeToken calls, s.process = .serving activeToken calls →
    (activeToken = none ↔ s.users ≠ [])
  kept : ∀ token calls, s.process = .serving (some token) calls →
    s.setupToken = some token ∨ s.setupToken = none ∧ (s.file = none ∨
      ∃ content, s.file = some content ∧ SetupHost.readSetupTokenFile content = some token)
  permitted : ∀ admin ∈ s.created, admin.activeToken = some admin.presented

theorem setupLaws_of_reachable {p : Crypto} {s : SetupHost}
    (h : (setupMachine p).Reachable s) : SetupLaws s := by
  have hlawful : s.Lawful := by
    apply h.invariant
    · rintro s ⟨husers, -, -, hprocess, hcreated⟩
      refine ⟨by simp [husers], by simp [hcreated], ?_⟩
      rw [hprocess]
      trivial
    · exact fun s a t hs _ hn => hs.next hn
  constructor
  case single => exact hlawful.single
  case gated => exact fun activeToken calls hprocess => (hlawful.serving hprocess).gated
  case kept => exact fun token calls hprocess => ((hlawful.serving hprocess).kept token rfl).found
  case permitted => exact hlawful.permitted

/-! ## Two setups at once -/

def generatedToken : SetupToken := List.replicate 43 'k'

def emptyHost : SetupHost := ⟨[], none, none, .stopped, 0, [], []⟩

/-- The server crashes after it has written a token. After the restart two calls present it; the
process ends before the file is removed, and starts again. -/
def setupTwice : List SetupAction :=
  [.start, .initializeSetupToken generatedToken .removed, .writeSetupTokenFile, .crash, .start,
    .initializeSetupToken generatedToken .removed, .setupAdmin "first" generatedToken,
    .setupAdmin "second" generatedToken, .resume 0 0 .removed, .resume 1 0 .removed,
    .resume 1 0 .killed, .start, .initializeSetupToken generatedToken .removed]

def setupCrypto : Crypto :=
  ⟨fun password _ => password, fun hash password => hash == password, toString⟩

def setUpHost : SetupHost := ((setupMachine setupCrypto).exec emptyHost setupTwice).getD emptyHost

theorem setupLaws_setupTwice : SetupLaws setUpHost ∧ setUpHost.file = none ∧
    setUpHost.users.map AdminUser.passwordHash = ["second"] ∧
    ∀ activeToken calls, setUpHost.process = .serving activeToken calls → activeToken = none := by
  have hreach : (setupMachine setupCrypto).Reachable setUpHost :=
    Transition.Machine.reachable_exec ⟨rfl, rfl, rfl, rfl, rfl⟩ (by decide +kernel)
  have hlaws := setupLaws_of_reachable hreach
  have husers : setUpHost.users.map AdminUser.passwordHash = ["second"] := by decide +kernel
  refine ⟨hlaws, by decide +kernel, husers, fun activeToken calls hprocess => ?_⟩
  refine (hlaws.gated activeToken calls hprocess).mpr fun hnone => ?_
  rw [hnone] at husers
  cases husers

end SteamBee.Auth
