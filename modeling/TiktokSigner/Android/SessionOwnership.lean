import TiktokSigner.Android.LiveSessionManager

/-!
# Who closes a connection

Every connection that the transport has returned is the current one or has
been disconnected once, by the job that took it from the field or by the
job it came too late for (`Ledger`). A manager that is not active has no
current connection, or a job on its way that is not cancelled and takes it
(`Owned`). Both hold in every run, and so does the law of the keep-alive
hold.

A callback acts in its own session if no session begins or ends between the
generation check of `onEvent` and what follows it (`Current`).
-/

namespace TiktokSigner.Android.Manager

open Function (update)

variable {s t : Manager} {job : Nat}

/-! ## What the listener's steps do -/

theorem emitStep_cases {k : Nat} {accepted : Bool} (hs : s.emitStep k accepted = some t) :
    ∃ token json, s.emitting[k]? = some (token, json) ∧
      (t = effect { s with emitting := s.emitting.eraseIdx k } token ∨
        t = { s with
          emitting := s.emitting.eraseIdx k
          overloaded := s.overloaded ++ [token] }) := by
  unfold emitStep at hs
  split at hs
  case h_1 => cases hs
  case h_2 token json hk =>
    cases hs
    refine ⟨token, json, hk, ?_⟩
    split_ifs
    · exact Or.inl rfl
    · exact Or.inr rfl

theorem overloadStep_cases {k : Nat} (hs : s.overloadStep k = some t) :
    ∃ token, s.overloaded[k]? = some token ∧
      t = (effect { s with overloaded := s.overloaded.eraseIdx k } token).disconnectCall
        "Event consumer overloaded; LIVE connection stopped" true := by
  unfold overloadStep at hs
  split at hs
  case h_1 => cases hs
  case h_2 token hk =>
    cases hs
    exact ⟨token, hk, rfl⟩

theorem handleStateStep_cases {k : Nat} {reconnectEnabled backgroundEnabled : Bool}
    (hs : s.handleStateStep k reconnectEnabled backgroundEnabled = some t) :
    t = { s with posted := s.posted.eraseIdx k } ∨
      ∃ token creator kind detail, token = s.generation ∧
        t = (effect { s with posted := s.posted.eraseIdx k } token).handleKind creator kind detail
          reconnectEnabled backgroundEnabled := by
  simp only [handleStateStep] at hs
  split at hs
  case h_1 => cases hs
  case h_2 token kind detail hk =>
    split at hs
    case h_1 => cases hs
    case h_2 creator hlistener =>
      cases hs
      split_ifs with hstale
      · exact Or.inl rfl
      · exact Or.inr ⟨token, creator, kind, detail, not_not.mp hstale, rfl⟩

/-! ## The ledger of connections -/

/-- A job of this session that is not done. -/
def Pursues (s : Manager) (job token : Nat) : Prop :=
  (∃ username preview, (s.jobs job).kind = .connect token username preview) ∧
    (s.jobs job).phase ≠ .done

/-- A job inside the mutex. -/
def Job.inside (j : Job) : Prop := j.phase ≠ .waiting ∧ j.phase ≠ .done

structure Ledger (s : Manager) : Prop where
  inside : ∀ job, Job.inside (s.jobs job) → s.holder = some job
  held : s.holder ≠ none → s.connection = none
  token : ∀ job token, s.Pursues job token → token ≤ s.generation
  unique : ∀ job job' token, s.Pursues job token → s.Pursues job' token → job = job'
  once : ∀ c, c < s.opened → s.connection ≠ some c → s.disconnects c = 1
  current : ∀ c, s.connection = some c → c < s.opened ∧ s.disconnects c = 0
  fresh : ∀ c, s.opened ≤ c → s.disconnects c = 0

namespace Ledger

/-- Steps that leave the jobs and the connections as they are. -/
theorem of_eq (h : s.Ledger) (hjobs : t.jobs = s.jobs) (hholder : t.holder = s.holder)
    (hconnection : t.connection = s.connection) (hopened : t.opened = s.opened)
    (hdisconnects : t.disconnects = s.disconnects) (hgeneration : s.generation ≤ t.generation) :
    t.Ledger := by
  have hpursues : ∀ {job token}, t.Pursues job token → s.Pursues job token := by
    intro job token hp
    rwa [Pursues, hjobs] at hp
  constructor
  · rw [hjobs, hholder]
    exact h.inside
  · rw [hholder, hconnection]
    exact h.held
  · intro job token hp
    exact Nat.le_trans (h.token job token (hpursues hp)) hgeneration
  · intro job job' token hp hp'
    exact h.unique job job' token (hpursues hp) (hpursues hp')
  · rw [hopened, hconnection, hdisconnects]
    exact h.once
  · rw [hconnection, hopened, hdisconnects]
    exact h.current
  · rw [hopened, hdisconnects]
    exact h.fresh

/-- A job changes; one that has a session has its own. -/
theorem setJob {j : Job} (h : s.Ledger) (hinside : Job.inside j → s.holder = some job)
    (htoken : ∀ token username preview, j.kind = .connect token username preview →
      j.phase ≠ .done → token ≤ s.generation ∧
        ∀ job', s.Pursues job' token → job' = job) :
    Ledger { s with jobs := update s.jobs job j } := by
  have hother : ∀ {job' token}, job' ≠ job →
      Pursues { s with jobs := update s.jobs job j } job' token → s.Pursues job' token := by
    intro job' token hne hp
    simpa [Pursues, Function.update_of_ne hne] using hp
  have hself : ∀ {token}, Pursues { s with jobs := update s.jobs job j } job token →
      token ≤ s.generation ∧ ∀ job', s.Pursues job' token → job' = job := by
    intro token hp
    simp only [Pursues, Function.update_self] at hp
    obtain ⟨⟨username, preview, hkind⟩, hphase⟩ := hp
    exact htoken token username preview hkind hphase
  constructor
  · intro job' hin
    by_cases hne : job' = job
    · subst hne
      exact hinside (by simpa using hin)
    · exact h.inside job' (by simpa [Function.update_of_ne hne] using hin)
  · exact h.held
  · intro job' token hp
    by_cases hne : job' = job
    · subst hne
      exact (hself hp).1
    · exact h.token job' token (hother hne hp)
  · intro job₁ job₂ token hp₁ hp₂
    by_cases h₁ : job₁ = job <;> by_cases h₂ : job₂ = job
    · rw [h₁, h₂]
    · subst h₁
      exact ((hself hp₁).2 job₂ (hother h₂ hp₂)).symm
    · subst h₂
      exact (hself hp₂).2 job₁ (hother h₁ hp₁)
    · exact h.unique job₁ job₂ token (hother h₁ hp₁) (hother h₂ hp₂)
  · exact h.once
  · exact h.current
  · exact h.fresh

/-- A job goes on in its session. -/
theorem sameKind {phase : Phase} {cancelled : Bool} (h : s.Ledger)
    (hopen : (s.jobs job).phase ≠ .done)
    (hinside : Job.inside ⟨(s.jobs job).kind, phase, cancelled⟩ → s.holder = some job) :
    Ledger { s with jobs := update s.jobs job ⟨(s.jobs job).kind, phase, cancelled⟩ } := by
  refine h.setJob hinside ?_
  intro token username preview hkind _
  have hp : s.Pursues job token := ⟨⟨username, preview, hkind⟩, hopen⟩
  exact ⟨h.token job token hp, fun job' hp' => h.unique job' job token hp' hp⟩

/-- A job ends, or is over already. -/
theorem ended {kind : Kind} {cancelled : Bool} (h : s.Ledger) :
    Ledger { s with jobs := update s.jobs job ⟨kind, .done, cancelled⟩ } := by
  refine h.setJob ?_ ?_
  · rintro ⟨-, hdone⟩
    exact absurd rfl hdone
  · intro token username preview _ hphase
    exact absurd rfl hphase

theorem cancel (h : s.Ledger) (job : Nat) :
    Ledger { s with jobs := update s.jobs job { s.jobs job with cancelled := true } } := by
  refine h.setJob (fun hin => h.inside job hin) ?_
  intro token username preview hkind hphase
  have hp : s.Pursues job token := ⟨⟨username, preview, hkind⟩, hphase⟩
  exact ⟨h.token job token hp, fun job' hp' => h.unique job' job token hp' hp⟩

theorem cancelOperation (h : s.Ledger) : s.cancelOperation.Ledger := by
  rw [Manager.cancelOperation]
  split
  · exact h.cancel _
  · exact h

/-- A job leaves the mutex and ends. -/
theorem finish (h : s.Ledger) (hholder : ∀ job', s.holder = some job' → job' = job) :
    (s.finish job).Ledger := by
  have hover : (s.setPhase job .done).Ledger := h.ended
  constructor
  · intro job' hin
    have hdone : ((s.setPhase job .done).jobs job').phase = .done := by
      rw [hholder job' (hover.inside job' hin)]
      simp [setPhase]
    exact absurd hdone hin.2
  · intro hne
    exact absurd rfl hne
  · exact hover.token
  · exact hover.unique
  · exact h.once
  · exact h.current
  · exact h.fresh

/-- A job that is neither waiting nor done holds the mutex. -/
theorem holds (h : s.Ledger) {phase : Phase} (hphase : (s.jobs job).phase = phase)
    (hwaiting : phase ≠ .waiting) (hdone : phase ≠ .done) : s.holder = some job :=
  h.inside job ⟨by rwa [hphase], by rwa [hphase]⟩

/-- With the mutex free a job enters it. -/
theorem enters {phase : Phase} (h : s.Ledger) (hfree : s.holder = none)
    (hopen : (s.jobs job).phase ≠ .done) (hnone : s.connection = none) :
    Ledger { s.setPhase job phase with holder := some job } := by
  have hlone : ∀ job', ¬Job.inside (s.jobs job') := by
    intro job' hin
    have hholder := h.inside job' hin
    rw [hfree] at hholder
    cases hholder
  have hpursues : ∀ {job' token},
      Pursues { s.setPhase job phase with holder := some job } job' token →
        s.Pursues job' token := by
    intro job' token hp
    by_cases hne : job' = job
    · subst hne
      simp only [Pursues, setPhase, Function.update_self] at hp
      exact ⟨hp.1, hopen⟩
    · simpa [Pursues, setPhase, Function.update_of_ne hne] using hp
  constructor
  · intro job' hin
    by_cases hne : job' = job
    · rw [hne]
    · refine absurd ?_ (hlone job')
      simpa [setPhase, Function.update_of_ne hne] using hin
  · intro _
    exact hnone
  · intro job' token hp
    exact h.token job' token (hpursues hp)
  · intro job₁ job₂ token hp₁ hp₂
    exact h.unique job₁ job₂ token (hpursues hp₁) (hpursues hp₂)
  · exact h.once
  · exact h.current
  · exact h.fresh

/-- The current connection is taken from the field and disconnected. -/
theorem takes {old : Nat} (h : s.Ledger) (hold : s.connection = some old) :
    Ledger { s with
      connection := none
      disconnects := update s.disconnects old (s.disconnects old + 1) } := by
  obtain ⟨hopened, hzero⟩ := h.current old hold
  constructor
  · exact h.inside
  · intro _
    rfl
  · exact h.token
  · exact h.unique
  · intro c hc _
    by_cases hne : c = old
    · rw [hne]
      simp [hzero]
    · simp only [Function.update_of_ne hne]
      refine h.once c hc ?_
      rw [hold]
      intro heq
      exact hne (Option.some.inj heq).symm
  · intro c hc
    cases hc
  · intro c hc
    have hne : c ≠ old := by
      have hle : s.opened ≤ c := hc
      omega
    simp only [Function.update_of_ne hne]
    exact h.fresh c hc

theorem takeConnection (h : s.Ledger) (hfree : s.holder = none)
    (hopen : (s.jobs job).phase ≠ .done) : (s.takeConnection job).Ledger := by
  unfold Manager.takeConnection
  split
  case h_1 old hold => exact (h.takes hold).enters hfree hopen rfl
  case h_2 hnone =>
    split
    case h_1 => exact h.enters hfree hopen hnone
    all_goals
      refine h.finish ?_
      rw [hfree]
      exact nofun

/-- A new job that pursues no session. -/
theorem launch (h : s.Ledger) (kind : Kind)
    (hkind : ∀ token username preview, kind ≠ .connect token username preview) :
    Ledger { s with
      jobs := update s.jobs s.launched ⟨kind, .waiting, false⟩, launched := s.launched + 1 } := by
  have hset : Ledger { s with jobs := update s.jobs s.launched ⟨kind, .waiting, false⟩ } := by
    refine h.setJob (fun hin => absurd rfl hin.1) ?_
    intro token username preview heq _
    exact absurd heq (hkind token username preview)
  exact hset.of_eq rfl rfl rfl rfl rfl (Nat.le_refl _)

/-- A new session has the new generation for its token. -/
theorem connectCall (h : s.Ledger) (username : String) (preview : Option Creator) :
    (s.connectCall username preview).Ledger := by
  have hc := h.cancelOperation
  have hbump : Ledger { s.cancelOperation with generation := s.cancelOperation.generation + 1 } :=
    hc.of_eq rfl rfl rfl rfl rfl (Nat.le_succ _)
  have hset : Ledger { s.cancelOperation with
      generation := s.cancelOperation.generation + 1
      jobs := update s.cancelOperation.jobs s.cancelOperation.launched
        ⟨.connect (s.cancelOperation.generation + 1) username preview, .waiting, false⟩ } := by
    refine hbump.setJob (fun hin => absurd rfl hin.1) ?_
    intro token username preview heq _
    cases heq
    refine ⟨Nat.le_refl _, ?_⟩
    intro job' hp
    have hle := hc.token job' _ hp
    omega
  exact hset.of_eq rfl rfl rfl rfl rfl (Nat.le_refl _)

theorem disconnectCall (h : s.Ledger) (reason : String) (failed : Bool) :
    (s.disconnectCall reason failed).Ledger := by
  have hlaunch := h.cancelOperation.launch .disconnect (by intro _ _ _ heq; cases heq)
  exact hlaunch.of_eq rfl rfl rfl rfl rfl (Nat.le_succ _)

theorem failWith {token : Nat} {message : Option String} (h : s.Ledger)
    (hholder : s.holder = some job) : (s.failWith job token message).Ledger := by
  have hfinish : (s.finish job).Ledger := by
    refine h.finish ?_
    rw [hholder]
    intro job' heq
    exact (Option.some.inj heq).symm
  rw [Manager.failWith]
  split_ifs
  · exact hfinish.of_eq rfl rfl rfl rfl rfl (Nat.le_refl _)
  · exact hfinish

/-- The job's connection becomes the current one. -/
theorem keeps (h : s.Ledger) (hholder : s.holder = some job) :
    Ledger { s.finish job with opened := s.opened + 1, connection := some s.opened } := by
  have hfinish : (s.finish job).Ledger := by
    refine h.finish ?_
    rw [hholder]
    intro job' heq
    exact (Option.some.inj heq).symm
  have hnone : s.connection = none := by
    apply h.held
    rw [hholder]
    exact nofun
  constructor
  · exact hfinish.inside
  · intro hne
    exact absurd rfl hne
  · exact hfinish.token
  · exact hfinish.unique
  · intro c hc hne
    refine h.once c ?_ (by rw [hnone]; exact nofun)
    have hle : c < s.opened + 1 := hc
    have hneq : c ≠ s.opened := by
      rintro rfl
      exact hne rfl
    omega
  · intro c hc
    obtain rfl := Option.some.inj hc
    exact ⟨Nat.lt_succ_self _, h.fresh _ (Nat.le_refl _)⟩
  · intro c hc
    have hle : s.opened + 1 ≤ c := hc
    exact h.fresh c (by omega)

/-- The job's connection comes too late and is disconnected. -/
theorem drops (h : s.Ledger) (hholder : s.holder = some job) (hopen : (s.jobs job).phase ≠ .done) :
    Ledger { s.setPhase job .dropping with
      opened := s.opened + 1
      disconnects := update s.disconnects s.opened (s.disconnects s.opened + 1) } := by
  have hset : (s.setPhase job .dropping).Ledger := h.sameKind hopen fun _ => hholder
  have hzero : s.disconnects s.opened = 0 := h.fresh _ (Nat.le_refl _)
  constructor
  · exact hset.inside
  · exact h.held
  · exact hset.token
  · exact hset.unique
  · intro c hc hne
    have hle : c < s.opened + 1 := hc
    by_cases hlast : c = s.opened
    · rw [hlast]
      simp [hzero]
    · simp only [Function.update_of_ne hlast]
      exact h.once c (by omega) hne
  · intro c hc
    obtain ⟨hlt, hdis⟩ := h.current c hc
    have hne : c ≠ s.opened := by omega
    simp only [Function.update_of_ne hne]
    exact ⟨Nat.lt_succ_of_lt hlt, hdis⟩
  · intro c hc
    have hle : s.opened + 1 ≤ c := hc
    have hne : c ≠ s.opened := by omega
    simp only [Function.update_of_ne hne]
    exact h.fresh c (by omega)

end Ledger

/-! ## Sessions that are not active -/

/-- A cleaning job is on its way. -/
def Cleaning (s : Manager) : Prop :=
  ∃ job, s.operation = some job ∧ s.jobs job = ⟨.disconnect, .waiting, false⟩

structure Owned (s : Manager) : Prop where
  ledger : s.Ledger
  /-- A job with the current token is at work for an active session. -/
  live : ∀ job, s.Pursues job s.generation → s.state.isActive = true
  cleaned : s.state.isActive = false → s.connection ≠ none → s.Cleaning
  hold : s.state.isActive = false → s.hold = none

namespace Owned

/-- Steps that leave the session and its jobs as they are. -/
theorem of_eq (h : s.Owned) (hledger : t.Ledger) (hjobs : t.jobs = s.jobs)
    (hoperation : t.operation = s.operation) (hgeneration : t.generation = s.generation)
    (hstate : t.state = s.state) (hconnection : t.connection = s.connection)
    (hhold : t.hold = s.hold) : t.Owned := by
  constructor
  · exact hledger
  · rw [hgeneration, hstate]
    intro job hp
    rw [Pursues, hjobs] at hp
    exact h.live job hp
  · rw [hstate, hconnection, Cleaning, hoperation, hjobs]
    exact h.cleaned
  · rw [hstate, hhold]
    exact h.hold

/-- A session becomes active, or goes on being so. -/
theorem of_active (hledger : t.Ledger) (hactive : t.state.isActive = true) : t.Owned := by
  constructor
  · exact hledger
  · intro _ _
    exact hactive
  · intro hstate
    rw [hactive] at hstate
    cases hstate
  · intro hstate
    rw [hactive] at hstate
    cases hstate

/-- A job that is not over goes on or ends, and may take the connection. -/
theorem of_job (h : s.Owned) (hledger : t.Ledger) (hopen : (s.jobs job).phase ≠ .done)
    (hothers : ∀ job', job' ≠ job → t.jobs job' = s.jobs job')
    (hkind : (t.jobs job).kind = (s.jobs job).kind) (hoperation : t.operation = s.operation)
    (hgeneration : t.generation = s.generation) (hstate : t.state = s.state)
    (hhold : t.hold = s.hold)
    (hconnection : t.connection = none ∨
      t.connection = s.connection ∧ s.jobs job ≠ ⟨.disconnect, .waiting, false⟩) :
    t.Owned := by
  constructor
  · exact hledger
  · intro job' hp
    rw [hstate]
    rw [hgeneration] at hp
    refine h.live job' ?_
    by_cases hne : job' = job
    · subst hne
      obtain ⟨⟨username, preview, heq⟩, -⟩ := hp
      exact ⟨⟨username, preview, hkind ▸ heq⟩, hopen⟩
    · rwa [Pursues, hothers job' hne] at hp
  · rw [hstate]
    intro hinactive hsome
    rcases hconnection with hnone | ⟨hsame, hnot⟩
    · exact absurd hnone hsome
    · rw [hsame] at hsome
      obtain ⟨cleaner, hop, hcleaner⟩ := h.cleaned hinactive hsome
      refine ⟨cleaner, hoperation.trans hop, ?_⟩
      rw [hothers cleaner]
      · exact hcleaner
      · rintro rfl
        exact hnot hcleaner
  · rw [hstate, hhold]
    exact h.hold

theorem connectCall (h : s.Owned) (username : String) (preview : Option Creator) :
    (s.connectCall username preview).Owned :=
  of_active (h.ledger.connectCall username preview) rfl

/-- Whoever ends a session sends a job after its connection. -/
theorem disconnectCall (h : s.Owned) (reason : String) (failed : Bool) :
    (s.disconnectCall reason failed).Owned := by
  have hledger := h.ledger.disconnectCall reason failed
  constructor
  · exact hledger
  · intro job hp
    have hlaunch := h.ledger.cancelOperation.launch .disconnect (by intro _ _ _ heq; cases heq)
    have hle := hlaunch.token job _ hp
    exact absurd hle (Nat.not_succ_le_self _)
  · intro _ _
    exact ⟨s.cancelOperation.launched, rfl, by simp [Manager.disconnectCall, Manager.launch]⟩
  · intro _
    rfl

/-- A job inside the mutex leaves it and ends. -/
theorem finish (h : s.Owned) (hholder : s.holder = some job) (hinside : Job.inside (s.jobs job)) :
    (s.finish job).Owned := by
  have hledger : (s.finish job).Ledger := by
    refine h.ledger.finish ?_
    rw [hholder]
    intro job' heq
    exact (Option.some.inj heq).symm
  refine h.of_job hledger hinside.2 ?_ ?_ rfl rfl rfl rfl ?_
  · intro job' hne
    exact Function.update_of_ne hne _ _
  · simp [Manager.finish, setPhase]
  · refine Or.inr ⟨rfl, ?_⟩
    intro heq
    rw [heq] at hinside
    exact hinside.1 rfl

theorem failWith {token : Nat} {message : Option String} (h : s.Owned)
    (hholder : s.holder = some job) (hp : s.Pursues job token) (hinside : Job.inside (s.jobs job)) :
    (s.failWith job token message).Owned := by
  have hledger : (s.failWith job token message).Ledger := h.ledger.failWith hholder
  have hfinish := h.finish hholder hinside
  rw [Manager.failWith] at hledger ⊢
  split_ifs at hledger ⊢ with hcurrent
  · constructor
    · exact hledger
    · -- the job was the only one of its session
      intro job' hp'
      have hp'' : (s.finish job).Pursues job' (s.finish job).generation := hp'
      exfalso
      by_cases hne : job' = job
      · rw [hne] at hp''
        exact hp''.2 (by simp [Manager.finish, setPhase])
      · have hold : s.Pursues job' s.generation := by
          have hjobs : (s.finish job).jobs job' = s.jobs job' := Function.update_of_ne hne _ _
          rw [Pursues, hjobs] at hp''
          exact hp''
        rw [show token = s.generation from hcurrent] at hp
        exact hne (h.ledger.unique job' job _ hold hp)
    · intro _ hsome
      refine absurd (h.ledger.held ?_) hsome
      rw [hholder]
      exact nofun
    · intro _
      rfl
  · exact hfinish

/-- What a job that takes the connection leaves alone. -/
theorem takeConnection_frame (s : Manager) (job : Nat) :
    (s.takeConnection job).connection = none ∧
      (s.takeConnection job).operation = s.operation ∧
      (s.takeConnection job).generation = s.generation ∧
      (s.takeConnection job).state = s.state ∧ (s.takeConnection job).hold = s.hold ∧
      (∀ job', job' ≠ job → (s.takeConnection job).jobs job' = s.jobs job') ∧
      ((s.takeConnection job).jobs job).kind = (s.jobs job).kind := by
  have hothers : ∀ phase job', job' ≠ job → (s.setPhase job phase).jobs job' = s.jobs job' :=
    fun _ _ hne => Function.update_of_ne hne _ _
  have hkind : ∀ phase, ((s.setPhase job phase).jobs job).kind = (s.jobs job).kind := by
    intro phase
    simp [setPhase]
  unfold Manager.takeConnection
  split
  case h_1 old hold => exact ⟨rfl, rfl, rfl, rfl, rfl, hothers _, hkind _⟩
  case h_2 hnone =>
    split
    all_goals exact ⟨hnone, rfl, rfl, rfl, rfl, hothers _, hkind _⟩

theorem takeConnection (h : s.Owned) (hfree : s.holder = none)
    (hopen : (s.jobs job).phase ≠ .done) : (s.takeConnection job).Owned := by
  obtain ⟨hnone, hoperation, hgeneration, hstate, hhold, hothers, hkind⟩ :=
    takeConnection_frame s job
  exact h.of_job (h.ledger.takeConnection hfree hopen) hopen hothers hkind hoperation hgeneration
    hstate hhold (Or.inl hnone)

/-- `close` takes the connection at once or finds the mutex held, and then
there is no connection. -/
theorem closeCall (h : s.Owned) : s.closeCall.Owned := by
  have hlaunch := h.ledger.cancelOperation.launch .close (by intro _ _ _ heq; cases heq)
  rw [Manager.closeCall]
  set u : Manager := { s.cancelOperation with
    generation := s.cancelOperation.generation + 1
    state := .disconnected
    hold := none
    jobs := update s.cancelOperation.jobs s.cancelOperation.launched ⟨.close, .waiting, false⟩
    launched := s.cancelOperation.launched + 1 } with hu
  have hledger : u.Ledger := hlaunch.of_eq rfl rfl rfl rfl rfl (Nat.le_succ _)
  have hlive : ∀ job, ¬u.Pursues job u.generation := by
    intro job hp
    exact absurd (hlaunch.token job _ hp) (Nat.not_succ_le_self _)
  split_ifs with hfree
  · have hopen : (u.jobs s.cancelOperation.launched).phase ≠ .done := by simp [hu]
    obtain ⟨hnone, -, hgeneration, -, hhold, hothers, hkind⟩ :=
      takeConnection_frame u s.cancelOperation.launched
    constructor
    · exact hledger.takeConnection hfree hopen
    · intro job hp
      rw [hgeneration] at hp
      refine absurd ?_ (hlive job)
      by_cases hne : job = s.cancelOperation.launched
      · rw [hne] at hp ⊢
        obtain ⟨⟨username, preview, heq⟩, -⟩ := hp
        exact ⟨⟨username, preview, hkind ▸ heq⟩, hopen⟩
      · rwa [Pursues, hothers job hne] at hp
    · intro _ hsome
      exact absurd hnone hsome
    · intro _
      rw [hhold]
  · constructor
    · exact hledger
    · intro job hp
      exact absurd hp (hlive job)
    · intro _ hsome
      exact absurd (hledger.held hfree) hsome
    · intro _
      rfl

theorem lockStep (h : s.Owned) (hs : s.lockStep job = some t) : t.Owned := by
  unfold Manager.lockStep at hs
  split_ifs at hs with hwaiting hcancelled hfree
  · cases hs
    have hopen : (s.jobs job).phase ≠ .done := by
      rw [hwaiting]
      decide
    refine h.of_job h.ledger.ended hopen ?_ ?_ rfl rfl rfl rfl ?_
    · intro job' hne
      exact Function.update_of_ne hne _ _
    · simp [setPhase]
    · refine Or.inr ⟨rfl, ?_⟩
      intro heq
      rw [heq] at hcancelled
      cases hcancelled
  · cases hs
    refine h.takeConnection hfree ?_
    rw [hwaiting]
    decide

/-- A job inside the mutex goes on to its next suspension point. -/
theorem goesOn {phase : Phase} (h : s.Owned) (hinside : Job.inside (s.jobs job)) :
    (s.setPhase job phase).Ledger :=
  h.ledger.sameKind hinside.2 fun _ => h.ledger.inside job hinside

theorem releasedStep (h : s.Owned) (hs : s.releasedStep job = some t) : t.Owned := by
  unfold Manager.releasedStep at hs
  split at hs
  case h_1 hphase hkind =>
    have hinside : Job.inside (s.jobs job) := by
      rw [Job.inside, hphase]
      decide
    cases hs
    split_ifs with hcancelled
    · exact h.finish (h.ledger.inside job hinside) hinside
    · refine h.of_job (h.goesOn hinside) hinside.2 ?_ ?_ rfl rfl rfl rfl ?_
      · intro job' hne
        exact Function.update_of_ne hne _ _
      · simp [setPhase]
      · refine Or.inr ⟨rfl, ?_⟩
        intro heq
        rw [heq] at hinside
        exact hinside.1 rfl
  case h_2 hphase hkind | h_3 hphase hkind =>
    have hinside : Job.inside (s.jobs job) := by
      rw [Job.inside, hphase]
      decide
    cases hs
    exact h.finish (h.ledger.inside job hinside) hinside
  case h_4 => cases hs

theorem resolvedStep {outcome : Outcome Creator} (h : s.Owned)
    (hs : s.resolvedStep job outcome = some t) : t.Owned := by
  unfold Manager.resolvedStep at hs
  split at hs
  case h_1 token username preview hphase hkind =>
    have hinside : Job.inside (s.jobs job) := by
      rw [Job.inside, hphase]
      decide
    have hholder := h.ledger.inside job hinside
    cases outcome with
    | returned found =>
      simp only at hs
      split_ifs at hs <;> cases hs
      · exact h.finish hholder hinside
      · exact of_active ((h.goesOn hinside).of_eq rfl rfl rfl rfl rfl (Nat.le_refl _)) rfl
    | threw message =>
      cases hs
      exact h.failWith hholder ⟨⟨username, preview, hkind⟩, hinside.2⟩ hinside
    | cancelled =>
      cases hs
      exact h.finish hholder hinside
  case h_2 => cases hs

theorem gotCookiesStep {outcome : Outcome String} {backgroundEnabled : Bool} (h : s.Owned)
    (hs : s.gotCookiesStep job outcome backgroundEnabled = some t) : t.Owned := by
  unfold Manager.gotCookiesStep at hs
  split at hs
  case h_1 creator token username preview hphase hkind =>
    have hinside : Job.inside (s.jobs job) := by
      rw [Job.inside, hphase]
      exact ⟨nofun, nofun⟩
    have hholder := h.ledger.inside job hinside
    cases outcome with
    | returned cookies =>
      simp only at hs
      split_ifs at hs <;> cases hs
      · exact h.finish hholder hinside
      · exact h.finish hholder hinside
      · exact of_active ((h.goesOn hinside).of_eq rfl rfl rfl rfl rfl (Nat.le_refl _)) rfl
      · exact of_active ((h.goesOn hinside).of_eq rfl rfl rfl rfl rfl (Nat.le_refl _)) rfl
    | threw message =>
      cases hs
      exact h.failWith hholder ⟨⟨username, preview, hkind⟩, hinside.2⟩ hinside
    | cancelled =>
      cases hs
      exact h.finish hholder hinside
  case h_2 => cases hs

theorem openedStep {outcome : Outcome Unit} (h : s.Owned)
    (hs : s.openedStep job outcome = some t) : t.Owned := by
  unfold Manager.openedStep at hs
  split at hs
  case h_1 creator token username preview hphase hkind =>
    have hinside : Job.inside (s.jobs job) := by
      rw [Job.inside, hphase]
      exact ⟨nofun, nofun⟩
    have hholder := h.ledger.inside job hinside
    have hp : s.Pursues job token := ⟨⟨username, preview, hkind⟩, hinside.2⟩
    cases outcome with
    | returned =>
      simp only at hs
      split_ifs at hs with hcurrent <;> cases hs
      · refine of_active (h.ledger.keeps hholder) ?_
        rw [hcurrent.1] at hp
        exact h.live job hp
      · refine h.of_job (h.ledger.drops hholder hinside.2) hinside.2 ?_ ?_ rfl rfl rfl rfl ?_
        · intro job' hne
          exact Function.update_of_ne hne _ _
        · simp [setPhase]
        · refine Or.inr ⟨rfl, ?_⟩
          intro heq
          rw [heq] at hinside
          exact hinside.1 rfl
    | threw message =>
      cases hs
      exact h.failWith hholder hp hinside
    | cancelled =>
      cases hs
      exact h.finish hholder hinside
  case h_2 => cases hs

theorem refreshNotification (h : s.Owned) (backgroundEnabled : Bool) :
    (s.refreshNotification backgroundEnabled).Owned := by
  unfold Manager.refreshNotification
  split
  case h_1 => exact h
  case h_2 creator hcreator =>
    refine of_active (h.ledger.of_eq rfl rfl rfl rfl rfl (Nat.le_refl _)) ?_
    change s.state.isActive = true
    cases hstate : s.state <;> rw [hstate] at hcreator <;> first | rfl | cases hcreator

/-- The bookkeeping of the listener. -/
theorem listener (h : s.Owned) {emitting : List (Nat × String)} {overloaded : List Nat}
    {posted : List (Nat × String × String)} {effects : List Effect} :
    Owned { s with
      emitting := emitting, overloaded := overloaded, posted := posted, effects := effects } :=
  h.of_eq (h.ledger.of_eq rfl rfl rfl rfl rfl (Nat.le_refl _)) rfl rfl rfl rfl rfl rfl

theorem handleKind (h : s.Owned) (creator : Creator) (kind detail : String)
    (reconnectEnabled backgroundEnabled : Bool) :
    (s.handleKind creator kind detail reconnectEnabled backgroundEnabled).Owned := by
  have hactive : ∀ {state attempts}, LiveSessionState.isActive state = true →
      Owned { s with attempts := attempts, state := state } := by
    intro state attempts hstate
    exact of_active (h.ledger.of_eq rfl rfl rfl rfl rfl (Nat.le_refl _)) hstate
  rw [Manager.handleKind]
  split_ifs
  · exact (hactive rfl).refreshNotification backgroundEnabled
  · exact hactive rfl
  · exact h.disconnectCall _ true
  · exact h.disconnectCall _ true
  · exact h

theorem cancelClose (h : s.Owned) (hclose : (s.jobs job).kind = .close) :
    Owned { s with jobs := update s.jobs job { s.jobs job with cancelled := true } } := by
  have hledger := h.ledger.cancel job
  have hothers : ∀ job', job' ≠ job →
      update s.jobs job { s.jobs job with cancelled := true } job' = s.jobs job' :=
    fun _ hne => Function.update_of_ne hne _ _
  constructor
  · exact hledger
  · intro job' hp
    refine h.live job' ?_
    by_cases hne : job' = job
    · subst hne
      obtain ⟨⟨username, preview, heq⟩, -⟩ := hp
      simp only [Function.update_self, hclose] at heq
      cases heq
    · simpa [Pursues, hothers job' hne] using hp
  · intro hinactive hsome
    obtain ⟨cleaner, hop, hcleaner⟩ := h.cleaned hinactive hsome
    refine ⟨cleaner, hop, ?_⟩
    have hne : cleaner ≠ job := by
      rintro rfl
      rw [hcleaner] at hclose
      cases hclose
    exact (hothers cleaner hne).trans hcleaner
  · exact h.hold

theorem step {a : Action} (h : s.Owned) (hs : s.step a = some t) : t.Owned := by
  cases a with
  | connect username preview =>
    cases hs
    exact h.connectCall username preview
  | disconnect reason failed =>
    cases hs
    exact h.disconnectCall reason failed
  | onBackground backgroundEnabled =>
    cases hs
    split_ifs
    · exact h
    · exact h.disconnectCall _ false
  | refreshNotification backgroundEnabled =>
    cases hs
    exact h.refreshNotification backgroundEnabled
  | close =>
    cases hs
    exact h.closeCall
  | cancelClose job =>
    simp only [Manager.step] at hs
    split_ifs at hs with hclose
    cases hs
    exact h.cancelClose hclose
  | lock job => exact h.lockStep hs
  | released job => exact h.releasedStep hs
  | resolved job outcome => exact h.resolvedStep hs
  | gotCookies job outcome backgroundEnabled => exact h.gotCookiesStep hs
  | opened job outcome => exact h.openedStep hs
  | dropped job =>
    simp only [Manager.step, droppedStep] at hs
    split_ifs at hs with hphase
    cases hs
    have hinside : Job.inside (s.jobs job) := by
      rw [Job.inside, hphase]
      decide
    exact h.finish (h.ledger.inside job hinside) hinside
  | onEvent token json =>
    simp only [Manager.step, onEventStep] at hs
    split_ifs at hs <;> cases hs
    · exact h.listener
    · exact h
  | emit k accepted =>
    rcases emitStep_cases hs with ⟨token, json, -, rfl | rfl⟩
    · exact h.listener
    · exact h.listener
  | overload k =>
    obtain ⟨token, -, rfl⟩ := overloadStep_cases hs
    exact h.listener.disconnectCall _ true
  | onState token kind detail =>
    simp only [Manager.step, onStateStep] at hs
    split_ifs at hs
    cases hs
    exact h.listener
  | handleState k reconnectEnabled backgroundEnabled =>
    rcases handleStateStep_cases hs with rfl | ⟨token, creator, kind, detail, -, rfl⟩
    · exact h.listener
    · exact h.listener.handleKind creator kind detail reconnectEnabled backgroundEnabled

theorem of_run {as : List Action} (hrun : Lts.run Manager.step {} as = some t) : t.Owned := by
  have hinit : Owned {} := by
    refine ⟨?_, ?_, ?_, ?_⟩
    · constructor <;> simp [Job.inside, Pursues]
    · simp [Pursues]
    · simp
    · simp
  exact Lts.run_invariant_all (fun _ _ _ h hs => h.step hs) hinit hrun

end Owned

/-! ## The laws -/

/-- Callbacks have acted in their own sessions only. -/
def OwnEffects (s : Manager) : Prop := ∀ e ∈ s.effects, e.token = e.generation

structure Laws (s : Manager) : Prop where
  /-- With no job at work every connection but the current one has been
  disconnected, each once. -/
  closed : (∀ job, (s.jobs job).phase = .done) →
    (∀ c, c < s.opened → s.connection ≠ some c → s.disconnects c = 1) ∧
      (∀ c, s.connection = some c → s.disconnects c = 0) ∧
      (s.state.isActive = false → s.connection = none)
  /-- A callback acts in its own session. -/
  own : s.OwnEffects
  hold : s.state.isActive = false → s.hold = none

/-- What `onEvent` does after its check it does in the same session. -/
def Current (s : Manager) : Action → Prop
  | .emit k _ => ∀ call, s.emitting[k]? = some call → call.1 = s.generation
  | .overload k => ∀ token, s.overloaded[k]? = some token → token = s.generation
  | _ => True

instance (s : Manager) : ∀ a, Decidable (s.Current a)
  | .emit k _ =>
      match h : s.emitting[k]? with
      | none => isTrue (by simp [Current, h])
      | some call => decidable_of_iff (call.1 = s.generation) (by simp [Current, h])
  | .overload k =>
      match h : s.overloaded[k]? with
      | none => isTrue (by simp [Current, h])
      | some token => decidable_of_iff (token = s.generation) (by simp [Current, h])
  | .connect _ _ | .disconnect _ _ | .onBackground _ | .refreshNotification _ | .close
  | .cancelClose _ | .lock _ | .released _ | .resolved _ _ | .gotCookies _ _ _ | .opened _ _
  | .dropped _ | .onEvent _ _ | .onState _ _ _ | .handleState _ _ _ => isTrue trivial

@[simp] theorem cancelOperation_effects (s : Manager) : s.cancelOperation.effects = s.effects := by
  unfold cancelOperation
  split <;> rfl

@[simp] theorem disconnectCall_effects (s : Manager) (reason : String) (failed : Bool) :
    (s.disconnectCall reason failed).effects = s.effects := by
  change s.cancelOperation.effects = s.effects
  exact cancelOperation_effects s

@[simp] theorem refreshNotification_effects (s : Manager) (backgroundEnabled : Bool) :
    (s.refreshNotification backgroundEnabled).effects = s.effects := by
  unfold refreshNotification
  split <;> rfl

@[simp] theorem takeConnection_effects (s : Manager) (job : Nat) :
    (s.takeConnection job).effects = s.effects := by
  unfold takeConnection
  split
  · rfl
  · split <;> rfl

@[simp] theorem failWith_effects (s : Manager) (job token : Nat) (message : Option String) :
    (s.failWith job token message).effects = s.effects := by
  rw [failWith]
  split_ifs <;> rfl

@[simp] theorem handleKind_effects (s : Manager) (creator : Creator) (kind detail : String)
    (reconnectEnabled backgroundEnabled : Bool) :
    (s.handleKind creator kind detail reconnectEnabled backgroundEnabled).effects = s.effects := by
  rw [handleKind]
  split_ifs <;> simp

theorem releasedStep_effects (hs : s.releasedStep job = some t) : t.effects = s.effects := by
  unfold releasedStep at hs
  split at hs
  case h_1 =>
    cases hs
    split_ifs <;> rfl
  case h_2 | h_3 =>
    cases hs
    rfl
  case h_4 => cases hs

theorem resolvedStep_effects {outcome : Outcome Creator}
    (hs : s.resolvedStep job outcome = some t) : t.effects = s.effects := by
  unfold resolvedStep at hs
  split at hs
  case h_1 =>
    cases outcome with
    | returned found =>
      simp only at hs
      split_ifs at hs <;> cases hs <;> rfl
    | threw message =>
      cases hs
      exact failWith_effects _ _ _ _
    | cancelled =>
      cases hs
      rfl
  case h_2 => cases hs

theorem gotCookiesStep_effects {outcome : Outcome String} {backgroundEnabled : Bool}
    (hs : s.gotCookiesStep job outcome backgroundEnabled = some t) : t.effects = s.effects := by
  unfold gotCookiesStep at hs
  split at hs
  case h_1 =>
    cases outcome with
    | returned cookies =>
      simp only at hs
      split_ifs at hs <;> cases hs <;> rfl
    | threw message =>
      cases hs
      exact failWith_effects _ _ _ _
    | cancelled =>
      cases hs
      rfl
  case h_2 => cases hs

theorem openedStep_effects {outcome : Outcome Unit} (hs : s.openedStep job outcome = some t) :
    t.effects = s.effects := by
  unfold openedStep at hs
  split at hs
  case h_1 =>
    cases outcome with
    | returned =>
      simp only at hs
      split_ifs at hs <;> cases hs <;> rfl
    | threw message =>
      cases hs
      exact failWith_effects _ _ _ _
    | cancelled =>
      cases hs
      rfl
  case h_2 => cases hs

/-- A step records at most one effect, and one of a callback of this
session. -/
theorem step_effects {a : Action} (hs : s.step a = some t) :
    t.effects = s.effects ∨
      ∃ token, t.effects = s.effects ++ [⟨token, s.generation⟩] ∧
        (s.Current a → token = s.generation) := by
  cases a with
  | emit k accepted =>
    rcases emitStep_cases hs with ⟨token, json, hk, rfl | rfl⟩
    · exact Or.inr ⟨token, rfl, fun hcurrent => hcurrent _ hk⟩
    · exact Or.inl rfl
  | overload k =>
    obtain ⟨token, hk, rfl⟩ := overloadStep_cases hs
    refine Or.inr ⟨token, ?_, fun hcurrent => hcurrent _ hk⟩
    rw [disconnectCall_effects]
    rfl
  | handleState k reconnectEnabled backgroundEnabled =>
    rcases handleStateStep_cases hs with rfl | ⟨token, creator, kind, detail, htoken, rfl⟩
    · exact Or.inl rfl
    · refine Or.inr ⟨token, ?_, fun _ => htoken⟩
      rw [handleKind_effects]
      rfl
  | connect username preview =>
    cases hs
    exact Or.inl (cancelOperation_effects s)
  | close =>
    cases hs
    left
    rw [closeCall]
    split_ifs <;> simp
  | onBackground backgroundEnabled =>
    cases hs
    left
    split_ifs <;> simp
  | refreshNotification backgroundEnabled =>
    cases hs
    exact Or.inl (refreshNotification_effects s backgroundEnabled)
  | disconnect reason failed =>
    cases hs
    exact Or.inl (disconnectCall_effects s reason failed)
  | lock job =>
    simp only [Manager.step, lockStep] at hs
    left
    split_ifs at hs <;> cases hs
    · rfl
    · exact takeConnection_effects s job
  | released job => exact Or.inl (releasedStep_effects hs)
  | resolved job outcome => exact Or.inl (resolvedStep_effects hs)
  | gotCookies job outcome backgroundEnabled => exact Or.inl (gotCookiesStep_effects hs)
  | opened job outcome => exact Or.inl (openedStep_effects hs)
  | cancelClose job | dropped job | onEvent token json | onState token kind detail =>
    simp only [Manager.step, droppedStep, onEventStep, onStateStep] at hs
    left
    split_ifs at hs <;> cases hs <;> rfl

theorem OwnEffects.step {a : Action} (h : s.OwnEffects) (hcurrent : s.Current a)
    (hs : s.step a = some t) : t.OwnEffects := by
  rcases step_effects hs with heq | ⟨token, heq, htoken⟩
  · rw [OwnEffects, heq]
    exact h
  · intro e he
    rw [heq] at he
    rcases List.mem_append.mp he with he | he
    · exact h e he
    · rw [List.mem_singleton.mp he]
      exact htoken hcurrent

/-- The laws hold in every run in which no session begins or ends between
the generation check of `onEvent` and what `onEvent` does next. -/
theorem session_laws_hold {as : List Action} (hcurrent : Lts.AllMeet Manager.step Current {} as)
    (hrun : Lts.run Manager.step {} as = some t) : t.Laws := by
  have howned := Owned.of_run hrun
  have hinit : OwnEffects {} := nofun
  constructor
  · intro hdone
    refine ⟨howned.ledger.once, fun c hc => (howned.ledger.current c hc).2, ?_⟩
    intro hinactive
    by_contra hsome
    obtain ⟨job, -, hjob⟩ := howned.cleaned hinactive hsome
    have hphase := hdone job
    rw [hjob] at hphase
    cases hphase
  · exact Lts.run_invariant (fun _ _ _ h hcurrent hs => h.step hcurrent hs) hinit hcurrent hrun
  · exact howned.hold

def aCreator : Creator := ⟨"creator", "123", "", "", "", "", 0⟩

/-- A session up to its open connection. -/
def openSession : List Action :=
  [.connect "@creator" none, .lock 0, .resolved 0 (.returned aCreator),
    .gotCookies 0 (.returned "cookie=value") true, .opened 0 (.returned ())]

theorem session_laws_hold_after_disconnect :
    ∃ t, Lts.run Manager.step {}
        (openSession ++ [.onState 1 "open" "123", .handleState 0 true true, .onEvent 1 "{}",
          .emit 0 true, .disconnect "Disconnected" false, .lock 1, .released 1]) = some t ∧
      (t.effects = [⟨1, 1⟩, ⟨1, 1⟩] ∧ t.disconnects 0 = 1 ∧ t.connection = none) ∧ t.Laws := by
  apply Lts.exists_run
    (P := fun t => t.effects = [⟨1, 1⟩, ⟨1, 1⟩] ∧ t.disconnects 0 = 1 ∧ t.connection = none)
    (by decide)
  intro t hrun hend
  exact ⟨hend, session_laws_hold (by decide) hrun⟩

/-- The check of `onEvent` passes, another creator is connected to, and the
old session's event is emitted. -/
theorem stale_event_emitted :
    ¬∀ (as : List Action) (t : Manager), Lts.run Manager.step {} as = some t → t.Laws := by
  intro h
  have hrun : ∃ t, Lts.run Manager.step {}
      (openSession ++ [.onEvent 1 "{}", .connect "@other" none, .emit 0 true]) = some t ∧
      t.effects = [⟨1, 2⟩] :=
    Lts.exists_run (P := fun t => t.effects = [⟨1, 2⟩]) (by decide) fun t _ h => h
  obtain ⟨t, hrun, heffects⟩ := hrun
  have hown := (h _ t hrun).own ⟨1, 2⟩ (by rw [heffects]; exact List.mem_singleton_self _)
  exact absurd hown (by decide)

end TiktokSigner.Android.Manager
