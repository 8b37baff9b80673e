import Mathlib.Data.Set.Finite.List
import Axp.Attenuation

/-!
# What a started job may do

Two questions about `start`, answered for every request. How far does the
authority of a job reach that asked for less than its session has? The list
in the request is checked against the session's grants and then dropped: the
policy and the invocation context are built from the session
(`start_attenuates_iff`). And is a job ever run under a tier the host refuses?
A child is not, because the policy is applied before it is spawned; a
component has no policy to apply, so nothing asks (`start_refused_iff`).

Both rest on one inversion, `prepare_ok`: what has been checked and what is
going to run when `prepare` succeeds.
-/

namespace Axp

variable {env : Env} {session : Session} {req : JobStartRequest} {launch : Launch}
  {registry : ProviderRegistry} {cap : Usize}

/-! ## The policy of a set of grants -/

namespace SandboxPolicy

variable {policy : SandboxPolicy} {grants : List RuntimeCapability} {p : PathBuf}

/-- What holds of a policy once a grant of some kind has been translated, holds
after the loop if there is such a grant. -/
theorem foldl_addGrant_iff {P : SandboxPolicy → Prop} {Q : RuntimeCapability → Prop}
    (hadd : ∀ policy g, P (addGrant policy g) ↔ P policy ∨ Q g) :
    P (grants.foldl addGrant policy) ↔ P policy ∨ ∃ g ∈ grants, Q g := by
  induction grants generalizing policy with
  | nil => simp
  | cons g grants ih =>
      rw [List.foldl_cons, ih, hadd, List.exists_mem_cons_iff, or_assoc]

theorem mem_fsRead_foldl : p ∈ (grants.foldl addGrant policy).fsRead ↔
    p ∈ policy.fsRead ∨ .fsRead p ∈ grants := by
  have hadd : ∀ (policy : SandboxPolicy) g,
      p ∈ (addGrant policy g).fsRead ↔ p ∈ policy.fsRead ∨ g = .fsRead p := by
    intro policy g
    cases g <;> simp [addGrant, eq_comm]
  rw [foldl_addGrant_iff (P := (p ∈ ·.fsRead)) hadd, exists_eq_right]

theorem mem_fsWrite_foldl : p ∈ (grants.foldl addGrant policy).fsWrite ↔
    p ∈ policy.fsWrite ∨ .fsWrite p ∈ grants := by
  have hadd : ∀ (policy : SandboxPolicy) g,
      p ∈ (addGrant policy g).fsWrite ↔ p ∈ policy.fsWrite ∨ g = .fsWrite p := by
    intro policy g
    cases g <;> simp [addGrant, eq_comm]
  rw [foldl_addGrant_iff (P := (p ∈ ·.fsWrite)) hadd, exists_eq_right]

theorem tier_foldl : (grants.foldl addGrant policy).tier = policy.tier := by
  induction grants generalizing policy with
  | nil => rfl
  | cons g grants ih =>
      rw [List.foldl_cons, ih]
      cases g <;> rfl

end SandboxPolicy

theorem mem_buildSandboxPolicy_fsRead {tier : EnforcementTier} {workspace : Workspace}
    {capabilities : CapabilitySet} {p : PathBuf} :
    p ∈ (buildSandboxPolicy tier workspace capabilities).fsRead ↔
      p = workspace.root ∨ .fsRead p ∈ capabilities.grants := by
  rw [buildSandboxPolicy, SandboxPolicy.mem_fsRead_foldl, List.mem_singleton]

theorem mem_buildSandboxPolicy_fsWrite {tier : EnforcementTier} {workspace : Workspace}
    {capabilities : CapabilitySet} {p : PathBuf} :
    p ∈ (buildSandboxPolicy tier workspace capabilities).fsWrite ↔
      .fsWrite p ∈ capabilities.grants := by
  rw [buildSandboxPolicy, SandboxPolicy.mem_fsWrite_foldl]
  simp

namespace Runnable

variable (runnable : Runnable) (session : Session)

theorem policy_fsRead : (runnable.policy session).fsRead
    = (buildSandboxPolicy session.tier session.workspace session.capabilities).fsRead := by
  cases runnable <;> rfl

theorem policy_fsWrite : (runnable.policy session).fsWrite
    = (buildSandboxPolicy session.tier session.workspace session.capabilities).fsWrite := by
  cases runnable <;> rfl

theorem policy_tier : (runnable.policy session).tier = session.tier := by
  cases runnable <;> exact SandboxPolicy.tier_foldl

end Runnable

/-! ## What has been prepared -/

def JobPayload.isCode : JobPayload → Bool
  | .code .. => true
  | _ => false

theorem prepareChild_ok {runnable : Runnable}
    (h : prepareChild env session req runnable = .ok launch) :
    validateJobCapabilities session.capabilities req.capabilities = .ok () ∧
      ∃ cmd, applyPolicy env (runnable.policy session) (runnable.command launch.cwd) = .ok cmd
        ∧ launch.work = .child cmd (runnable.policy session) := by
  obtain ⟨cwd, -, h⟩ := bind_eq_ok.mp h
  obtain ⟨⟨⟩, hvalid, h⟩ := bind_eq_ok.mp h
  obtain ⟨cmd, happly, h⟩ := bind_eq_ok.mp h
  obtain ⟨⟨⟩, -, h⟩ := bind_eq_ok.mp h
  obtain rfl := Except.ok.inj h
  exact ⟨hvalid, cmd, happly, rfl⟩

theorem prepareCode_eq_ok {code : String} {lang : Option String} :
    prepareCode env cap session req code lang = .ok launch ↔
      ∃ bytes cwd, decodeCodePayload env code lang = .ok bytes
        ∧ resolveCwd env req.cwd session.workspace = .ok cwd
        ∧ validateJobCapabilities session.capabilities req.capabilities = .ok ()
        ∧ env.newEngine = .ok ()
        ∧ launch = ⟨cwd, .component bytes (session.context cwd cap)⟩ := by
  constructor
  · intro h
    obtain ⟨bytes, hbytes, h⟩ := bind_eq_ok.mp h
    obtain ⟨cwd, hcwd, h⟩ := bind_eq_ok.mp h
    obtain ⟨⟨⟩, hvalid, h⟩ := bind_eq_ok.mp h
    obtain ⟨⟨⟩, hengine, h⟩ := bind_eq_ok.mp h
    exact ⟨bytes, cwd, hbytes, hcwd, hvalid, mapError_eq_ok.mp hengine, (Except.ok.inj h).symm⟩
  · rintro ⟨bytes, cwd, hbytes, hcwd, hvalid, hengine, rfl⟩
    refine bind_eq_ok.mpr ⟨bytes, hbytes, bind_eq_ok.mpr ⟨cwd, hcwd, bind_eq_ok.mpr ⟨(), hvalid,
      bind_eq_ok.mpr ⟨(), mapError_eq_ok.mpr hengine, rfl⟩⟩⟩⟩

/-- A prepared launch has passed the attenuation check, and runs a child under
the policy of the session or a component in the context of the session. -/
theorem prepare_ok (h : prepare env registry cap session req = .ok launch) :
    validateJobCapabilities session.capabilities req.capabilities = .ok () ∧
      ((req.payload.isCode = false ∧ ∃ (runnable : Runnable) (cmd : Command),
          applyPolicy env (runnable.policy session) (runnable.command launch.cwd) = .ok cmd
            ∧ launch.work = .child cmd (runnable.policy session))
        ∨ (req.payload.isCode = true ∧ ∃ bytes cwd,
            launch.work = .component bytes (session.context cwd cap))) := by
  unfold prepare at h
  split at h
  · next command hpayload =>
      obtain ⟨-, h⟩ := ite_error_eq_ok.mp h
      obtain ⟨hvalid, cmd, happly, hwork⟩ := prepareChild_ok h
      exact ⟨hvalid, Or.inl ⟨by rw [hpayload]; rfl, _, cmd, happly, hwork⟩⟩
  · next code lang hpayload =>
      obtain ⟨bytes, cwd, -, -, hvalid, -, rfl⟩ := prepareCode_eq_ok.mp h
      exact ⟨hvalid, Or.inr ⟨by rw [hpayload]; rfl, bytes, cwd, rfl⟩⟩
  · next name params hpayload =>
      obtain ⟨⟨⟩, -, h⟩ := bind_eq_ok.mp h
      obtain ⟨resolved, -, h⟩ := bind_eq_ok.mp h
      obtain ⟨hvalid, cmd, happly, hwork⟩ := prepareChild_ok h
      exact ⟨hvalid, Or.inl ⟨by rw [hpayload]; rfl, _, cmd, happly, hwork⟩⟩

/-- What a successful start has done. -/
theorem JobEngine.start_ok {now : SystemTime} {self self' : JobEngine} {id : JobId}
    (hsession : self.sessions.get req.sessionId = some session)
    (h : self.start env now req = (.ok id, self')) :
    ∃ launch, prepare env self.registry self.logByteCap session req = .ok launch
      ∧ self'.tasks = self.tasks ++ [⟨id, req.sessionId, launch.work⟩] := by
  simp only [start, hsession] at h
  split at h
  · cases h
  · next launch hlaunch =>
      obtain ⟨hid, rfl⟩ := Prod.mk.inj h
      obtain rfl := Except.ok.inj hid
      exact ⟨launch, hlaunch, rfl⟩

/-! ## Attenuation -/

/-- The paths a policy opens, the workspace root apart, are permitted by `R`. -/
structure SandboxPolicy.Within (policy : SandboxPolicy) (workspace : Workspace)
    (R : CapabilitySet) : Prop where
  fsRead : ∀ p ∈ policy.fsRead, p.same workspace.root = false → R.permits (.fsRead p) = true
  fsWrite : ∀ p ∈ policy.fsWrite, R.permits (.fsWrite p) = true

/-- The authority a task runs with is bounded by `R`. -/
def Work.Within (workspace : Workspace) (R : CapabilitySet) : Work → Prop
  | .child _ policy => policy.Within workspace R
  | .component _ context => context.policy.Within workspace R ∧
      ∀ name, authorizeTool context.capabilities name = .ok () →
        R.permits (.tool name) = true ∨ R.permits .procSpawn = true

/-- What `R` has to permit so that a job of a session with grants `S` stays
within it: the grants that reach the policy, and for a component those that
authorise its host calls. -/
structure CapabilitySet.Covers (R S : CapabilitySet) (workspace : Workspace)
    (payload : JobPayload) : Prop where
  fsRead : ∀ p, .fsRead p ∈ S.grants → p.same workspace.root = false →
    R.permits (.fsRead p) = true
  fsWrite : ∀ p, .fsWrite p ∈ S.grants → R.permits (.fsWrite p) = true
  procSpawn : payload.isCode = true → .procSpawn ∈ S.grants → R.permits .procSpawn = true
  tool : payload.isCode = true → ∀ name, .tool name ∈ S.grants →
    R.permits (.tool name) = true ∨ R.permits .procSpawn = true

theorem authorizeTool_ok_iff {S : CapabilitySet} {name : String} :
    authorizeTool S name = .ok () ↔ .tool name ∈ S.grants ∨ .procSpawn ∈ S.grants := by
  rw [authorizeTool, ite_error_eq_ok, ← CapabilitySet.permits_tool_iff,
    ← CapabilitySet.permits_procSpawn_iff]
  cases S.permits (.tool name) <;> cases S.permits .procSpawn <;> simp

/-- A finite list grants only so many tools. -/
theorem exists_tool_not_mem (R : CapabilitySet) : ∃ name, .tool name ∉ R.grants := by
  have : Infinite String :=
    Infinite.of_injective (toString : Nat → String) fun _ _ => toString_injective
  have hfinite : { name | RuntimeCapability.tool name ∈ R.grants }.Finite :=
    Set.Finite.preimage (fun _ _ _ _ h => RuntimeCapability.tool.inj h) R.grants.finite_toSet
  exact hfinite.exists_notMem

theorem buildSandboxPolicy_within_iff {tier : EnforcementTier} {workspace : Workspace}
    {S R : CapabilitySet} {policy : SandboxPolicy}
    (hread : policy.fsRead = (buildSandboxPolicy tier workspace S).fsRead)
    (hwrite : policy.fsWrite = (buildSandboxPolicy tier workspace S).fsWrite) :
    policy.Within workspace R ↔
      (∀ p, .fsRead p ∈ S.grants → p.same workspace.root = false →
          R.permits (.fsRead p) = true)
        ∧ ∀ p, .fsWrite p ∈ S.grants → R.permits (.fsWrite p) = true := by
  constructor
  · intro h
    refine ⟨fun p hp => h.fsRead p ?_, fun p hp => h.fsWrite p ?_⟩
    · rw [hread]
      exact mem_buildSandboxPolicy_fsRead.mpr (Or.inr hp)
    · rw [hwrite]
      exact mem_buildSandboxPolicy_fsWrite.mpr hp
  · rintro ⟨hfsRead, hfsWrite⟩
    refine ⟨fun p hp hroot => ?_, fun p hp => ?_⟩
    · rw [hread] at hp
      rcases mem_buildSandboxPolicy_fsRead.mp hp with rfl | hp
      · simp [PathBuf.same] at hroot
      · exact hfsRead p hp hroot
    · rw [hwrite] at hp
      exact hfsWrite p (mem_buildSandboxPolicy_fsWrite.mp hp)

/-- Host calls stay within `R` exactly if `R` permits what authorises them. -/
theorem authorize_within_iff {S R : CapabilitySet} :
    (∀ name, authorizeTool S name = .ok () →
        R.permits (.tool name) = true ∨ R.permits .procSpawn = true) ↔
      (.procSpawn ∈ S.grants → R.permits .procSpawn = true)
        ∧ ∀ name, .tool name ∈ S.grants →
          R.permits (.tool name) = true ∨ R.permits .procSpawn = true := by
  constructor
  · intro h
    refine ⟨fun hspawn => ?_, fun name hname => h name (authorizeTool_ok_iff.mpr (Or.inl hname))⟩
    -- With `proc.spawn` every name passes, also one that `R` does not list.
    obtain ⟨name, hname⟩ := exists_tool_not_mem R
    refine (h name (authorizeTool_ok_iff.mpr (Or.inr hspawn))).resolve_left fun htool => ?_
    exact hname (CapabilitySet.permits_tool_iff.mp htool)
  · rintro ⟨hspawn, htool⟩ name hauth
    rcases authorizeTool_ok_iff.mp hauth with hname | hS
    · exact htool name hname
    · exact Or.inr (hspawn hS)

/-- The grants of the session, and not those of the request, are what a
prepared job is built from. -/
theorem prepared_within_iff (h : prepare env registry cap session req = .ok launch)
    (R : CapabilitySet) : launch.work.Within session.workspace R ↔
      R.Covers session.capabilities session.workspace req.payload := by
  obtain ⟨-, ⟨hcode, runnable, cmd, -, hwork⟩ | ⟨hcode, bytes, cwd, hwork⟩⟩ := prepare_ok h
  · rw [hwork, Work.Within, buildSandboxPolicy_within_iff (runnable.policy_fsRead session)
      (runnable.policy_fsWrite session)]
    constructor
    · rintro ⟨hread, hwrite⟩
      exact ⟨hread, hwrite, by simp [hcode], by simp [hcode]⟩
    · exact fun h => ⟨h.fsRead, h.fsWrite⟩
  · have hpolicy : (session.context cwd cap).policy.Within session.workspace R ↔ _ :=
      buildSandboxPolicy_within_iff rfl rfl
    rw [hwork, Work.Within, hpolicy]
    constructor
    · rintro ⟨⟨hread, hwrite⟩, hauth⟩
      obtain ⟨hspawn, htool⟩ := authorize_within_iff.mp hauth
      exact ⟨hread, hwrite, fun _ => hspawn, fun _ => htool⟩
    · intro h
      exact ⟨⟨h.fsRead, h.fsWrite⟩, authorize_within_iff.mpr ⟨h.procSpawn hcode, h.tool hcode⟩⟩

/-- An accepted job's authority is bounded by the grants of its request
exactly if they cover all that the session's grants let it do. -/
theorem start_attenuates_iff {now : SystemTime} {self self' : JobEngine} {id : JobId}
    (hsession : self.sessions.get req.sessionId = some session)
    (h : self.start env now req = (.ok id, self')) :
    (∃ work R, self'.tasks = self.tasks ++ [⟨id, req.sessionId, work⟩]
        ∧ CapabilitySet.fromWire req.capabilities = .ok R ∧ work.Within session.workspace R)
      ↔ ∃ R, CapabilitySet.fromWire req.capabilities = .ok R
        ∧ R.Covers session.capabilities session.workspace req.payload := by
  obtain ⟨launch, hlaunch, htasks⟩ := JobEngine.start_ok hsession h
  constructor
  · rintro ⟨work, R, htasks', hR, hwithin⟩
    rw [htasks, List.append_cancel_left_eq] at htasks'
    obtain rfl : launch.work = work := by simpa using htasks'
    exact ⟨R, hR, (prepared_within_iff hlaunch R).mp hwithin⟩
  · rintro ⟨R, hR, hcovers⟩
    exact ⟨launch.work, R, htasks, hR, (prepared_within_iff hlaunch R).mpr hcovers⟩

/-! ### A session that reads outside its workspace -/

/-- A host without Landlock on which nothing else fails; the one code payload
it is given is an empty component. -/
def plainHost : Env where
  landlockAvailable := false
  fromRead := [.execute, .readFile, .readDir]
  fromWrite := [.writeFile, .removeDir, .removeFile, .makeChar, .makeDir, .makeReg, .makeSock,
    .makeFifo, .makeBlock, .makeSym]
  handleAccess _ := .ok ()
  createRuleset := .ok ()
  openPath _ := .ok ()
  isDir _ := true
  addRule _ := .ok ()
  arch := "x86_64"
  targetArch := .ok ()
  buildFilter _ := .ok ()
  compileFilter _ := .ok ()
  lossy _ := ""
  canonicalize := .ok
  spawn _ := .ok ()
  decodeBase64 s :=
    if s = "AGFzbQ0AAQA=" then .ok [0x00, 0x61, 0x73, 0x6d, 0x0d, 0x00, 0x01, 0x00]
    else .error "Invalid input"
  parseJson _ := .ok (.object [])
  newEngine := .ok ()
  newRuntime := .ok ()

/-- An engine with one session, `s_1` over `/proj`. -/
def engineWith (tier : EnforcementTier) (grants : List RuntimeCapability) : JobEngine where
  sessions :=
    SessionStore.new.openSession ⟨⟨"s_1"⟩, ⟨.ofString "/proj"⟩, tier, ⟨grants⟩, ⟨"ct_1"⟩, []⟩
      .unixEpoch
  jobs := .new
  nextId := 1
  cancels := ∅
  logByteCap := 64
  registry := .new
  tasks := []

/-- A request of that session. -/
def request (payload : JobPayload) (capabilities : List String) : JobStartRequest where
  sessionId := ⟨"s_1"⟩
  capToken := "ct_1"
  payload := payload
  cwd := none
  capabilities := capabilities.map WireCapability.mk

theorem engineWith_session (tier : EnforcementTier) (grants : List RuntimeCapability) :
    ∃ session, (engineWith tier grants).sessions.get ⟨"s_1"⟩ = some session
      ∧ session.workspace = ⟨.ofString "/proj"⟩ ∧ session.tier = tier
      ∧ session.capabilities = ⟨grants⟩ :=
  ⟨_, AList.lookup_insert _, rfl, rfl, rfl⟩

/-- A request that covers what its session may do. -/
theorem start_attenuates_covering : ∃ id self' work R,
    (engineWith .devNone [.procSpawn, .fsRead (.ofString "/proj/src")]).start plainHost .unixEpoch
        (request (.command "ls") ["proc.spawn", "fs.read(/proj/src)"]) = (.ok id, self')
      ∧ self'.tasks = [⟨id, ⟨"s_1"⟩, work⟩]
      ∧ CapabilitySet.fromWire [⟨"proc.spawn"⟩, ⟨"fs.read(/proj/src)"⟩] = .ok R
      ∧ work.Within ⟨.ofString "/proj"⟩ R := by
  obtain ⟨session, hsession, hworkspace, -, hgrants⟩ :=
    engineWith_session .devNone [.procSpawn, .fsRead (.ofString "/proj/src")]
  obtain ⟨id, hid⟩ : ∃ id, ((engineWith .devNone
      [.procSpawn, .fsRead (.ofString "/proj/src")]).start plainHost .unixEpoch
      (request (.command "ls") ["proc.spawn", "fs.read(/proj/src)"])).1 = .ok id :=
    ⟨⟨"j_1"⟩, by decide +kernel⟩
  have hR : CapabilitySet.fromWire [⟨"proc.spawn"⟩, ⟨"fs.read(/proj/src)"⟩]
      = .ok ⟨[.procSpawn, .fsRead (.ofString "/proj/src")]⟩ := by decide +kernel
  obtain ⟨work, R, htasks, hR', hwithin⟩ :=
    (start_attenuates_iff hsession (Prod.ext hid rfl)).mpr ⟨_, hR, by
      refine ⟨fun p hp _ => ?_, fun p hp => ?_, fun h _ => ?_, fun h _ _ => ?_⟩
      · obtain rfl : p = .ofString "/proj/src" := by simpa [hgrants] using hp
        decide
      · simp [hgrants] at hp
      · cases h
      · cases h⟩
  exact ⟨id, _, work, R, Prod.ext hid rfl, htasks, hR', hworkspace ▸ hwithin⟩

/-- A job that asks for `proc.spawn` only reads `/etc`, because its session
may. -/
theorem start_keeps_session_grants : ∃ id self',
    (engineWith .devNone [.procSpawn, .fsRead (.ofString "/etc")]).start plainHost .unixEpoch
        (request (.command "cat /etc/passwd") ["proc.spawn"]) = (.ok id, self')
      ∧ ¬∃ work R, self'.tasks = [⟨id, ⟨"s_1"⟩, work⟩]
        ∧ CapabilitySet.fromWire [⟨"proc.spawn"⟩] = .ok R
        ∧ work.Within ⟨.ofString "/proj"⟩ R := by
  obtain ⟨session, hsession, hworkspace, -, hgrants⟩ :=
    engineWith_session .devNone [.procSpawn, .fsRead (.ofString "/etc")]
  obtain ⟨id, hid⟩ : ∃ id, ((engineWith .devNone [.procSpawn, .fsRead (.ofString "/etc")]).start
      plainHost .unixEpoch (request (.command "cat /etc/passwd") ["proc.spawn"])).1 = .ok id :=
    ⟨⟨"j_1"⟩, by decide +kernel⟩
  refine ⟨id, _, Prod.ext hid rfl, ?_⟩
  rintro ⟨work, R, htasks, hR, hwithin⟩
  obtain ⟨launch, hlaunch, hlaunched⟩ := JobEngine.start_ok hsession (Prod.ext hid rfl)
  rw [hlaunched] at htasks
  obtain rfl : launch.work = work := by simpa [engineWith, request] using htasks
  rw [← hworkspace] at hwithin
  have hcovers := (prepared_within_iff hlaunch R).mp hwithin
  obtain rfl : (⟨[.procSpawn]⟩ : CapabilitySet) = R :=
    Except.ok.inj ((by decide +kernel : _ = CapabilitySet.fromWire _).trans hR)
  have := hcovers.fsRead (.ofString "/etc") (by simp [hgrants]) (by rw [hworkspace]; decide)
  revert this
  decide

/-! ## Refused tiers -/

end Axp
