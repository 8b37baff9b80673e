import Axp.Authority

/-!
# Discovery and execution

What a session is shown of the catalog, and what it can run of it. The rule
that decides is written three times: for the index and the detail, in `start`,
and in the host call of a component. They agree on every name
(`discovery_agrees`) because the rules agree (`discoveryPermitted_iff`), and
because an exposed name always leads to a provider that knows the local name
it stands for (`RegistryInv.route_of_lookup`). The second needs what the
registry does not check: a provider that describes and resolves whatever it
lists (`Provider.Coherent`), which the two kinds of provider there are do.
-/

namespace Axp

/-! ## The code -/

/-- One line of the index. -/
structure IndexEntry where
  name : String
  desc : String
deriving DecidableEq, Repr

structure IndexResponse where
  entries : List IndexEntry
deriving DecidableEq, Repr

def discoveryPermitted (capabilities : CapabilitySet) (exposedName : String) : Bool :=
  capabilities.permits .procSpawn || capabilities.grants.any fun
    | .tool name => name = exposedName
    | _ => false

namespace ProviderRegistry

/-- The part of the catalog that is visible with `capabilities`. -/
def indexForCapabilities (self : ProviderRegistry) (capabilities : CapabilitySet) :
    Result IndexResponse :=
  .ok ⟨(self.catalog.entries.filter fun x => discoveryPermitted capabilities x.1).map
    fun x => ⟨x.1, x.2.desc⟩⟩

/-- A name outside `capabilities` is treated like an unknown one. -/
def describeForCapabilities (self : ProviderRegistry) (name : String)
    (capabilities : CapabilitySet) : Result CapabilityDetail :=
  if !discoveryPermitted capabilities name then .error (.capabilityNotFound name)
  else self.describe name

end ProviderRegistry

/-- The command of a host call. -/
def hostCommand (cwd : PathBuf) (resolved : ResolvedCommand) : Command :=
  { Command.new resolved.program with
    args := resolved.args
    currentDir := some cwd
    stdin := .null
    stdout := .piped
    stderr := .null
    killOnDrop := true }

/-- `invoke_code_capability` up to the spawned child; `cancelled` is the job's
flag. -/
def invokeCodeCapability (env : Env) (registry : ProviderRegistry)
    (context : CodeCapabilityContext) (cancelled : Bool) (name paramsJson : String) :
    Result (Command × SandboxPolicy) := do
  let (resolved, policy) ← resolveInvocation env registry context name paramsJson
  env.newRuntime.mapError fun e => Error.jobSpawn ("failed to build capability runtime: " ++ e)
  if cancelled then .error (.jobSpawn "capability command cancelled")
  else do
    let cmd ← applyPolicy env policy (hostCommand context.cwd resolved)
    (env.spawn cmd).mapError .jobSpawn
    return (cmd, policy)

/-! ## Names that are refused -/

/-- The answer of a failed authorization or lookup. -/
def Barred {α : Type} (r : Result α) : Prop :=
  (∃ required, r = .error (.capabilityDenied required))
    ∨ ∃ name, r = .error (.capabilityNotFound name)

/-- The name is in the index. -/
def Listed (registry : ProviderRegistry) (capabilities : CapabilitySet) (name : String) : Prop :=
  ∃ resp, registry.indexForCapabilities capabilities = .ok resp
    ∧ name ∈ resp.entries.map (·.name)

section

variable {α β : Type} {x : Result α} {f : α → Result β}

theorem not_barred_ok (a : α) : ¬Barred (.ok a) := by
  rintro (⟨_, h⟩ | ⟨_, h⟩) <;> cases h

theorem Barred.bind (h : Barred x) : Barred (x >>= f) := by
  rcases h with ⟨required, rfl⟩ | ⟨name, rfl⟩
  · exact Or.inl ⟨required, rfl⟩
  · exact Or.inr ⟨name, rfl⟩

/-- An unbarred computation stays so if what follows it is never barred. -/
theorem not_barred_bind (hx : ¬Barred x) (hf : ∀ a, x = .ok a → ¬Barred (f a)) :
    ¬Barred (x >>= f) := by
  cases x with
  | error e =>
      rintro (⟨required, h⟩ | ⟨name, h⟩)
      · exact hx (Or.inl ⟨required, congrArg _ (Except.error.inj h)⟩)
      · exact hx (Or.inr ⟨name, congrArg _ (Except.error.inj h)⟩)
  | ok a => exact hf a rfl

/-- It depends on the first part alone, if what follows is never barred. -/
theorem Barred.bind_iff (hf : ∀ a, x = .ok a → ¬Barred (f a)) : Barred (x >>= f) ↔ Barred x := by
  refine ⟨fun h => ?_, Barred.bind⟩
  by_contra hx
  exact not_barred_bind hx hf h

/-- The other errors. -/
theorem not_barred_error {e : Error} (hdenied : ∀ required, e ≠ .capabilityDenied required)
    (hmissing : ∀ name, e ≠ .capabilityNotFound name) : ¬Barred (α := α) (.error e) := by
  rintro (⟨required, h⟩ | ⟨name, h⟩)
  · exact hdenied required (Except.error.inj h)
  · exact hmissing name (Except.error.inj h)

theorem not_barred_okOr {o : Option α} {e : Error} (h : ¬Barred (α := α) (.error e)) :
    ¬Barred (okOr o e) := by
  cases o with
  | none => exact h
  | some a => exact not_barred_ok a

theorem not_barred_mapError {ε : Type} {g : ε → Error} {y : Except ε α}
    (h : ∀ e, ¬Barred (α := α) (.error (g e))) : ¬Barred (y.mapError g) := by
  cases y with
  | error e => exact h e
  | ok a => exact not_barred_ok a

end

/-! ## The three rules -/

theorem discoveryPermitted_iff {C : CapabilitySet} {name : String} :
    discoveryPermitted C name = true ↔ authorizeTool C name = .ok () := by
  rw [authorizeTool_ok_iff, discoveryPermitted, Bool.or_eq_true,
    CapabilitySet.permits_procSpawn_iff, or_comm, List.any_eq_true]
  refine or_congr_left ⟨?_, fun h => ⟨_, h, decide_eq_true rfl⟩⟩
  rintro ⟨g, hg, hname⟩
  cases g with
  | tool n =>
      rw [← of_decide_eq_true hname]
      exact hg
  | _ => cases hname

theorem authorizeTool_barred {C : CapabilitySet} {name : String}
    (h : authorizeTool C name ≠ .ok ()) : Barred (authorizeTool C name) := by
  unfold authorizeTool at h ⊢
  split
  · exact Or.inl ⟨_, rfl⟩
  · next hc => exact absurd (if_neg hc) h

theorem listed_iff {reg : ProviderRegistry} {C : CapabilitySet} {name : String} :
    Listed reg C name ↔
      authorizeTool C name = .ok () ∧ ∃ e, reg.catalog.lookup name = some e := by
  rw [← discoveryPermitted_iff]
  constructor
  · rintro ⟨resp, hresp, hname⟩
    obtain rfl := Except.ok.inj hresp
    rw [List.map_map] at hname
    obtain ⟨⟨n, e⟩, hx, rfl⟩ := List.mem_map.mp hname
    obtain ⟨hmem, hpermitted⟩ := List.mem_filter.mp hx
    exact ⟨hpermitted, e, AList.mem_lookup_iff.mpr hmem⟩
  · rintro ⟨hpermitted, e, he⟩
    refine ⟨_, rfl, ?_⟩
    rw [List.map_map]
    exact List.mem_map.mpr
      ⟨⟨name, e⟩, List.mem_filter.mpr ⟨AList.mem_lookup_iff.mp he, hpermitted⟩, rfl⟩

/-! ## Coherent providers -/

/-- What it lists, it can describe, and resolve as far as the name goes. -/
def Provider.Coherent (p : Provider) : Prop :=
  ∀ ls, p.index = .ok ls → ∀ l ∈ ls,
    (∃ detail, p.describe l.name = .ok detail) ∧ ∀ params, ¬Barred (p.resolve l.name params)

/-- Every value is filed under its own key. -/
def Keyed {K V : Type} [DecidableEq K] (key : V → K) (m : HashMap K V) : Prop :=
  ∀ k v, m.lookup k = some v → key v = k

section

variable {K V : Type} [DecidableEq K] {key : V → K} {m : HashMap K V} {v : V}

theorem keyed_empty : Keyed key (∅ : HashMap K V) := by
  intro k v h
  cases h

theorem Keyed.insert (h : Keyed key m) : Keyed key (m.insert (key v) v) := by
  intro k v' hk
  rcases Directory.lookup_insert_iff.mp hk with ⟨rfl, rfl⟩ | ⟨-, hold⟩
  · rfl
  · exact h k v' hold

theorem Keyed.lookup_of_mem (h : Keyed key m) {x : Sigma fun _ : K => V}
    (hx : x ∈ m.entries) : m.lookup (key x.2) = some x.2 := by
  have hx := AList.mem_lookup_iff.mpr hx
  rw [h _ _ hx]
  exact hx

end

theorem NativeProvider.new_keyed {id : String} {ds : List CapabilityDescriptor}
    {p : NativeProvider} (h : NativeProvider.new id ds = .ok p) :
    Keyed CapabilityDescriptor.name p.descriptors := by
  obtain ⟨m, hm, h⟩ := bind_eq_ok.mp h
  obtain rfl := Except.ok.inj h
  refine foldlM_invariant (fun m d m' hkeyed hstep => ?_) keyed_empty hm
  obtain ⟨-, hstep⟩ := ite_error_eq_ok.mp hstep
  obtain rfl := Except.ok.inj hstep
  exact hkeyed.insert

theorem McpToolProvider.new_keyed {id : String} {tools : List McpToolDescriptor}
    {p : McpToolProvider} (h : McpToolProvider.new id tools = .ok p) :
    Keyed McpToolDescriptor.name p.tools := by
  obtain ⟨m, hm, h⟩ := bind_eq_ok.mp h
  obtain rfl := Except.ok.inj h
  refine foldlM_invariant (fun m tool m' hkeyed hstep => ?_) keyed_empty hm
  obtain ⟨-, hstep⟩ := ite_error_eq_ok.mp hstep
  obtain ⟨-, hstep⟩ := ite_error_eq_ok.mp hstep
  obtain rfl := Except.ok.inj hstep
  exact hkeyed.insert

theorem CapabilityArg.bind_not_barred (params : Value) (arg : CapabilityArg) :
    ¬Barred (arg.bind params) := by
  cases arg with
  | literal s => exact not_barred_ok s
  | param field => exact not_barred_okOr (not_barred_error (by simp) (by simp))

theorem mapM_not_barred {α β : Type} {f : α → Result β} (hf : ∀ a, ¬Barred (f a)) :
    ∀ l : List α, ¬Barred (l.mapM f) := by
  intro l
  induction l with
  | nil => exact not_barred_ok []
  | cons a l ih =>
      rw [List.mapM_cons]
      exact not_barred_bind (hf a) fun _ _ => not_barred_bind ih fun _ _ => not_barred_ok _

/-- The providers a registry is given: descriptors, or mounted tools;
`toJson` is `serde_json::to_string`. -/
inductive Provider.Built (toJson : Value → Except ErrorText String) : Provider → Prop
  | native {id : String} {ds : List CapabilityDescriptor} {p : NativeProvider} :
      NativeProvider.new id ds = .ok p → Built toJson p.toProvider
  | mcp {id : String} {tools : List McpToolDescriptor} {p : McpToolProvider} :
      McpToolProvider.new id tools = .ok p → Built toJson (p.toProvider toJson)

theorem Provider.Built.coherent {toJson : Value → Except ErrorText String} {p : Provider}
    (h : p.Built toJson) : p.Coherent := by
  intro ls hls l hl
  cases h with
  | native hnew =>
      obtain rfl := Except.ok.inj hls
      obtain ⟨x, hx, rfl⟩ := List.mem_map.mp hl
      have hlook := (NativeProvider.new_keyed hnew).lookup_of_mem hx
      simp only [NativeProvider.toProvider, hlook, okOr]
      refine ⟨⟨_, rfl⟩, fun params => not_barred_bind (not_barred_ok _) fun d _ => ?_⟩
      exact not_barred_bind (mapM_not_barred (fun arg => arg.bind_not_barred params) _)
        fun _ _ => not_barred_ok _
  | mcp hnew =>
      obtain rfl := Except.ok.inj hls
      obtain ⟨x, hx, rfl⟩ := List.mem_map.mp hl
      have hlook := (McpToolProvider.new_keyed hnew).lookup_of_mem hx
      simp only [McpToolProvider.toProvider, hlook, okOr]
      refine ⟨⟨_, rfl⟩, fun params => not_barred_bind (not_barred_ok _) fun tool _ => ?_⟩
      exact not_barred_bind (not_barred_mapError fun e => not_barred_error (by simp) (by simp))
        fun _ _ => not_barred_ok _

/-! ## From a name to its provider -/

theorem accepted_index {lower : String → String} {calls : List Provider} {m : Mounted}
    (hm : m ∈ accepted lower calls) :
    m.provider ∈ calls ∧ m.provider.index = .ok m.listings := by
  obtain ⟨hmem, known, hvalid⟩ := accepted_validated hm
  exact ⟨hmem, (validate_eq_ok.mp hvalid).2.1⟩

/-- An exposed name, whatever has been overwritten on the way, leads to a
provider that lists its local name. -/
theorem RegistryInv.route_of_lookup {acc : List Mounted} {reg : ProviderRegistry}
    (h : RegistryInv acc reg) {name : String} {e : CatalogEntry}
    (he : reg.catalog.lookup name = some e) :
    ∃ m ∈ acc, reg.providers.lookup e.providerId = some m.provider
      ∧ ∃ l ∈ m.listings, l.name = e.localName := by
  obtain ⟨m, hm, hlisted⟩ := List.mem_flatMap.mp (h.entered.sound name e he)
  obtain ⟨l, hl, rfl⟩ := List.mem_map.mp hlisted
  exact ⟨m, hm, h.providers.lookup ⟨m, hm, rfl⟩, l, hl, rfl⟩

section

variable {lower : String → String} {calls : List Provider} {name : String}

/-- A name of the catalog is described, and resolved unless its parameters do
not fit. -/
theorem exposed_known (hcalls : ∀ p ∈ calls, p.Coherent) {e : CatalogEntry}
    (he : (ProviderRegistry.registerAll lower calls).catalog.lookup name = some e) :
    (∃ detail, (ProviderRegistry.registerAll lower calls).describe name = .ok detail)
      ∧ ∀ params, ¬Barred ((ProviderRegistry.registerAll lower calls).resolve name params) := by
  obtain ⟨m, hm, hprovider, l, hl, hname⟩ :=
    (RegistryInv.registerAll lower calls).route_of_lookup he
  obtain ⟨hmem, hindex⟩ := accepted_index hm
  obtain ⟨hdescribe, hresolve⟩ := hcalls _ hmem _ hindex l hl
  rw [hname] at hdescribe hresolve
  refine ⟨?_, fun params => ?_⟩
  · rw [ProviderRegistry.describe_of_route he hprovider]
    exact hdescribe
  · rw [ProviderRegistry.resolve_of_route he hprovider]
    exact hresolve params

/-- A name is listed exactly if it has a detail. -/
theorem listed_iff_described (hcalls : ∀ p ∈ calls, p.Coherent) {C : CapabilitySet} :
    Listed (ProviderRegistry.registerAll lower calls) C name ↔ ∃ detail,
      (ProviderRegistry.registerAll lower calls).describeForCapabilities name C = .ok detail := by
  rw [listed_iff, ← discoveryPermitted_iff]
  constructor
  · rintro ⟨hpermitted, e, he⟩
    obtain ⟨detail, hdetail⟩ := (exposed_known hcalls he).1
    refine ⟨detail, ?_⟩
    rw [ProviderRegistry.describeForCapabilities, hpermitted]
    exact hdetail
  · rintro ⟨detail, hdetail⟩
    obtain ⟨hpermitted, hdetail⟩ := ite_error_eq_ok.mp hdetail
    obtain ⟨e, he, -⟩ := bind_eq_ok.mp hdetail
    exact ⟨by simpa using hpermitted, e, okOr_eq_ok.mp he⟩

theorem resolve_unknown {reg : ProviderRegistry} (h : reg.catalog.lookup name = none)
    (params : Value) : reg.resolve name params = .error (.capabilityNotFound name) := by
  simp [ProviderRegistry.resolve, h, okOr, bind, Except.bind]

/-- Authorization and lookup, the two steps `start` and the host call share,
let exactly the listed names pass. -/
theorem authorize_resolve_barred_iff (hcalls : ∀ p ∈ calls, p.Coherent) (C : CapabilitySet)
    (params : Value) :
    Barred (do
        authorizeTool C name
        (ProviderRegistry.registerAll lower calls).resolve name params)
      ↔ ¬Listed (ProviderRegistry.registerAll lower calls) C name := by
  rw [listed_iff]
  by_cases hauth : authorizeTool C name = .ok ()
  · cases he : (ProviderRegistry.registerAll lower calls).catalog.lookup name with
    | none =>
        refine iff_of_true ?_ fun h => by cases h.2.choose_spec
        rw [hauth]
        exact Or.inr ⟨name, resolve_unknown he params⟩
    | some e =>
        refine iff_of_false ?_ fun h => h ⟨hauth, e, rfl⟩
        rw [hauth]
        exact (exposed_known hcalls he).2 params
  · exact iff_of_true (authorizeTool_barred hauth).bind fun h => hauth h.1

end

/-! ## What follows the lookup -/

section

variable {env : Env} {session : Session} {req : JobStartRequest} {runnable : Runnable}

theorem applyPolicy_not_barred (policy : SandboxPolicy) (cmd : Command) :
    ¬Barred (applyPolicy env policy cmd) := by
  refine not_barred_mapError fun e => ?_
  cases e with
  | unavailable tier reason => exact not_barred_error (by simp) (by simp)
  | apply reason => exact not_barred_error (by simp) (by simp)

theorem spawn_not_barred (cmd : Command) : ¬Barred ((env.spawn cmd).mapError Error.jobSpawn) :=
  not_barred_mapError fun _ => not_barred_error (by simp) (by simp)

theorem newRuntime_not_barred : ¬Barred (env.newRuntime.mapError fun e =>
    Error.jobSpawn ("failed to build capability runtime: " ++ e)) :=
  not_barred_mapError fun _ => not_barred_error (by simp) (by simp)

theorem resolveCwd_not_barred (rel : Option String) (workspace : Workspace) :
    ¬Barred (resolveCwd env rel workspace) := by
  unfold resolveCwd
  dsimp only
  split
  · exact not_barred_error (by simp) (by simp)
  · split
    · exact not_barred_ok _
    · exact not_barred_error (by simp) (by simp)

theorem prepareChild_not_barred
    (hvalid : validateJobCapabilities session.capabilities req.capabilities = .ok ()) :
    ¬Barred (prepareChild env session req runnable) := by
  refine not_barred_bind (resolveCwd_not_barred _ _) fun cwd _ => ?_
  rw [hvalid]
  refine not_barred_bind (not_barred_ok ()) fun _ _ => ?_
  refine not_barred_bind (applyPolicy_not_barred _ _) fun cmd _ => ?_
  exact not_barred_bind (spawn_not_barred cmd) fun _ _ => not_barred_ok _

/-- Applying a policy only adds to what runs before `exec`. -/
theorem applyPolicy_frame {policy : SandboxPolicy} {cmd cmd' : Command}
    (h : applyPolicy env policy cmd = .ok cmd') : cmd' = { cmd with preExec := cmd'.preExec } := by
  have happly := mapError_eq_ok.mp h
  unfold SandboxPolicy.apply at happly
  split at happly
  · obtain rfl := Except.ok.inj happly
    rfl
  · obtain ⟨mid, henforce, hseccomp⟩ := bind_eq_ok.mp happly
    obtain ⟨-, henforce⟩ := ite_error_eq_ok.mp henforce
    obtain ⟨_, -, henforce⟩ := bind_eq_ok.mp henforce
    obtain ⟨_, -, henforce⟩ := bind_eq_ok.mp henforce
    obtain ⟨_, -, henforce⟩ := bind_eq_ok.mp henforce
    obtain ⟨_, -, henforce⟩ := bind_eq_ok.mp henforce
    obtain ⟨_, -, henforce⟩ := bind_eq_ok.mp henforce
    obtain rfl := Except.ok.inj henforce
    obtain ⟨_, -, hseccomp⟩ := bind_eq_ok.mp hseccomp
    obtain ⟨_, -, hseccomp⟩ := bind_eq_ok.mp hseccomp
    obtain ⟨_, -, hseccomp⟩ := bind_eq_ok.mp hseccomp
    obtain rfl := Except.ok.inj hseccomp
    rfl
  · cases happly
  · cases happly

/-- It leaves the program and its arguments alone. -/
theorem applyPolicy_runs {policy : SandboxPolicy} {cmd cmd' : Command}
    (h : applyPolicy env policy cmd = .ok cmd') :
    cmd'.program = cmd.program ∧ cmd'.args = cmd.args := by
  rw [applyPolicy_frame h]
  exact ⟨rfl, rfl⟩

end

section

variable {env : Env} {now : SystemTime} {self : JobEngine} {session : Session}
  {req : JobStartRequest} {name : String} {params : Value}

/-- `start` is barred where its preparation is. -/
theorem start_barred_iff (hsession : self.sessions.get req.sessionId = some session) :
    Barred (self.start env now req).1
      ↔ Barred (prepare env self.registry self.logByteCap session req) := by
  simp only [JobEngine.start, hsession]
  cases prepare env self.registry self.logByteCap session req with
  | error e =>
      refine or_congr (exists_congr fun required => ?_) (exists_congr fun name => ?_) <;>
        rw [Except.error.injEq, Except.error.injEq]
  | ok launch => exact iff_of_false (not_barred_ok _) (not_barred_ok _)

theorem prepare_capability {registry : ProviderRegistry} {cap : Usize}
    (hpayload : req.payload = .capability name params) :
    prepare env registry cap session req
      = (do authorizeTool session.capabilities name; registry.resolve name params)
        >>= fun resolved => prepareChild env session req (.argv resolved) := by
  rw [bind_assoc, prepare, hpayload]

variable {registry : ProviderRegistry} {context : CodeCapabilityContext} {cancelled : Bool}
  {paramsJson : String}

theorem invokeCodeCapability_eq (hparams : env.parseJson paramsJson = .ok params) :
    invokeCodeCapability env registry context cancelled name paramsJson
      = (do authorizeTool context.capabilities name; registry.resolve name params)
        >>= fun resolved => do
          env.newRuntime.mapError fun e =>
            .jobSpawn ("failed to build capability runtime: " ++ e)
          if cancelled then .error (.jobSpawn "capability command cancelled")
          else do
            let cmd ← applyPolicy env context.policy (hostCommand context.cwd resolved)
            (env.spawn cmd).mapError .jobSpawn
            return (cmd, context.policy) := by
  simp only [invokeCodeCapability, resolveInvocation, hparams, bind_assoc]
  rfl

/-- A start is barred by the check and the lookup only, its own list of grants
being accepted. -/
theorem start_capability_barred_iff (hsession : self.sessions.get req.sessionId = some session)
    (hpayload : req.payload = .capability name params)
    (hvalid : validateJobCapabilities session.capabilities req.capabilities = .ok ()) :
    Barred (self.start env now req).1
      ↔ Barred (do authorizeTool session.capabilities name; self.registry.resolve name params) := by
  rw [start_barred_iff hsession, prepare_capability hpayload]
  exact Barred.bind_iff fun _ _ => prepareChild_not_barred hvalid

/-- So is an invoke. -/
theorem invoke_barred_iff (hparams : env.parseJson paramsJson = .ok params) :
    Barred (invokeCodeCapability env registry context cancelled name paramsJson)
      ↔ Barred (do authorizeTool context.capabilities name; registry.resolve name params) := by
  rw [invokeCodeCapability_eq hparams]
  refine Barred.bind_iff fun resolved _ => not_barred_bind newRuntime_not_barred fun _ _ => ?_
  cases cancelled with
  | true => exact not_barred_error (by simp) (by simp)
  | false =>
      refine not_barred_bind (applyPolicy_not_barred _ _) fun cmd _ => ?_
      exact not_barred_bind (spawn_not_barred cmd) fun _ _ => not_barred_ok _

/-- What a start of a capability leaves behind: a task that runs the resolved
command under the session's policy. -/
theorem start_capability_ok {self' : JobEngine} {id : JobId}
    (hsession : self.sessions.get req.sessionId = some session)
    (hpayload : req.payload = .capability name params)
    (hstart : self.start env now req = (.ok id, self')) : ∃ resolved child,
      (do authorizeTool session.capabilities name; self.registry.resolve name params) = .ok resolved
        ∧ child.program = resolved.program ∧ child.args = resolved.args
        ∧ self'.tasks = self.tasks
          ++ [⟨id, req.sessionId, .child child ((Runnable.argv resolved).policy session)⟩] := by
  obtain ⟨launch, hlaunch, htasks⟩ := JobEngine.start_ok hsession hstart
  rw [prepare_capability hpayload] at hlaunch
  obtain ⟨resolved, hresolved, hchild⟩ := bind_eq_ok.mp hlaunch
  obtain ⟨-, child, hcmd, hwork⟩ := prepareChild_ok hchild
  obtain ⟨hprogram, hargs⟩ := applyPolicy_runs hcmd
  exact ⟨resolved, child, hresolved, hprogram, hargs, by rw [htasks, hwork]⟩

/-- What an invoke runs: the resolved command under the context's policy. -/
theorem invoke_ok {cmd : Command} {policy : SandboxPolicy}
    (hparams : env.parseJson paramsJson = .ok params)
    (hinvoke : invokeCodeCapability env registry context cancelled name paramsJson
      = .ok (cmd, policy)) : ∃ resolved,
      (do authorizeTool context.capabilities name; registry.resolve name params) = .ok resolved
        ∧ cmd.program = resolved.program ∧ cmd.args = resolved.args ∧ policy = context.policy := by
  rw [invokeCodeCapability_eq hparams] at hinvoke
  obtain ⟨resolved, hresolved, hhost⟩ := bind_eq_ok.mp hinvoke
  obtain ⟨⟨⟩, -, hhost⟩ := bind_eq_ok.mp hhost
  obtain ⟨-, hhost⟩ := ite_error_eq_ok.mp hhost
  obtain ⟨cmd', hcmd, hhost⟩ := bind_eq_ok.mp hhost
  obtain ⟨⟨⟩, -, hhost⟩ := bind_eq_ok.mp hhost
  obtain ⟨rfl, rfl⟩ := Prod.mk.inj (Except.ok.inj hhost)
  obtain ⟨hprogram, hargs⟩ := applyPolicy_runs hcmd
  exact ⟨resolved, hresolved, hprogram, hargs, rfl⟩

end

/-! ## Agreement -/

/-- Discovery and both ways to run a capability agree on a name. -/
structure DiscoveryAgrees (registry : ProviderRegistry) (C : CapabilitySet) (name : String) :
    Prop where
  described : Listed registry C name
    ↔ ∃ detail, registry.describeForCapabilities name C = .ok detail
  /-- `start`, on a request whose own list of grants is accepted. -/
  started : ∀ (env : Env) (now : SystemTime) (engine : JobEngine) (session : Session)
    (req : JobStartRequest) (params : Value), engine.registry = registry →
    engine.sessions.get req.sessionId = some session → session.capabilities = C →
    req.payload = .capability name params →
    validateJobCapabilities C req.capabilities = .ok () →
      (Listed registry C name ↔ ¬Barred (engine.start env now req).1)
  /-- A name that is not listed cannot be started with any list of grants. -/
  hidden : ∀ (env : Env) (now : SystemTime) (engine : JobEngine) (session : Session)
    (req : JobStartRequest) (params : Value), engine.registry = registry →
    engine.sessions.get req.sessionId = some session → session.capabilities = C →
    req.payload = .capability name params → ¬Listed registry C name →
      Barred (engine.start env now req).1
  invoked : ∀ (env : Env) (context : CodeCapabilityContext) (cancelled : Bool)
    (paramsJson : String) (params : Value), context.capabilities = C →
    env.parseJson paramsJson = .ok params →
      (Listed registry C name
        ↔ ¬Barred (invokeCodeCapability env registry context cancelled name paramsJson))
  /-- What both run is the same program under the same policy. -/
  same : ∀ (env env' : Env) (now : SystemTime) (engine engine' : JobEngine) (session : Session)
    (req : JobStartRequest) (params : Value) (context : CodeCapabilityContext)
    (cancelled : Bool) (paramsJson : String) (id : JobId) (cmd : Command)
    (policy : SandboxPolicy), engine.registry = registry →
    engine.sessions.get req.sessionId = some session → session.capabilities = C →
    context.capabilities = C → context.workspace = session.workspace →
    context.tier = session.tier → req.payload = .capability name params →
    env'.parseJson paramsJson = .ok params → engine.start env now req = (.ok id, engine') →
    invokeCodeCapability env' registry context cancelled name paramsJson = .ok (cmd, policy) →
      ∃ child, engine'.tasks = engine.tasks ++ [⟨id, req.sessionId, .child child policy⟩]
        ∧ child.program = cmd.program ∧ child.args = cmd.args

/-- In every registry that has been given providers of the two kinds, whatever
else became of the calls, discovery and execution agree on every name. -/
theorem discovery_agrees {toJson : Value → Except ErrorText String} {calls : List Provider}
    (lower : String → String) (hcalls : ∀ p ∈ calls, p.Built toJson) (C : CapabilitySet)
    (name : String) :
    DiscoveryAgrees (ProviderRegistry.registerAll lower calls) C name := by
  have hcoherent : ∀ p ∈ calls, p.Coherent := fun p hp => (hcalls p hp).coherent
  have hbarred := @authorize_resolve_barred_iff lower calls name hcoherent C
  refine ⟨?_, ?_, ?_, ?_, ?_⟩
  · exact listed_iff_described hcoherent
  · rintro env now engine session req params hregistry hsession rfl hpayload hvalid
    rw [start_capability_barred_iff hsession hpayload hvalid, hregistry, hbarred params, not_not]
  · rintro env now engine session req params hregistry hsession rfl hpayload hlisted
    rw [start_barred_iff hsession, hregistry, prepare_capability hpayload]
    exact ((hbarred params).mpr hlisted).bind
  · rintro env context cancelled paramsJson params rfl hparams
    rw [invoke_barred_iff hparams, hbarred params, not_not]
  · rintro env env' now engine engine' session req params context cancelled paramsJson id cmd
      policy hregistry hsession rfl hcap hworkspace htier hpayload hparams hstart hinvoke
    obtain ⟨resolved, child, hresolved, hprogram, hargs, htasks⟩ :=
      start_capability_ok hsession hpayload hstart
    obtain ⟨resolved', hresolved', hprogram', hargs', rfl⟩ := invoke_ok hparams hinvoke
    rw [hregistry] at hresolved
    rw [hcap] at hresolved'
    obtain rfl := Except.ok.inj (hresolved.symm.trans hresolved')
    refine ⟨child, ?_, hprogram.trans hprogram'.symm, hargs.trans hargs'.symm⟩
    rw [htasks, CodeCapabilityContext.policy, hcap, hworkspace, htier, Runnable.policy]

/-- The built-in provider's registry. -/
def nativeCalls : List Provider :=
  match nativeProvider with
  | .ok native => [native.toProvider]
  | .error _ => []

theorem nativeCalls_built {toJson : Value → Except ErrorText String} :
    ∀ p ∈ nativeCalls, p.Built toJson := by
  intro p hp
  unfold nativeCalls at hp
  split at hp
  · next native hnative =>
      rw [List.mem_singleton.mp hp]
      exact .native hnative
  · cases hp

/-- A tool that is granted and listed has a detail. -/
theorem discovery_agrees_native : ∃ detail,
    (ProviderRegistry.registerAll asciiLower nativeCalls).describeForCapabilities "git_diff"
      ⟨[.tool "git_diff"]⟩ = .ok detail := by
  have hbuilt : ∀ p ∈ nativeCalls, p.Built fun _ => .ok "{}" := nativeCalls_built
  refine (discovery_agrees asciiLower hbuilt ⟨[.tool "git_diff"]⟩ "git_diff").described.mp
    (listed_iff.mpr ⟨by decide +kernel, ?_⟩)
  rw [← Option.isSome_iff_exists]
  decide +kernel

end Axp
