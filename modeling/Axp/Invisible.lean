import Axp.Discovery

/-!
# Ungranted capabilities

What a session without `proc.spawn` can tell about the catalog. Two registries
that agree on the names the session holds a `tool` grant for, and differ in
any way elsewhere, are the same to it (`ungranted_invisible`): in the index,
in a detail, in a start and in a component's host call. Each of these looks
at the grant before it looks at the catalog, so a name without a grant is
answered the same whether or not it is there (`authorizeTool_bind_congr`), and
a name with one is answered from its route alone (`describe_eq`,
`resolve_eq`).
-/

namespace Axp

/-! ## Routes -/

/-- What an exposed name leads to: its description, and what the provider
behind it, if there is one, makes of its local name. -/
structure Routed where
  desc : String
  describe : Option (Result CapabilityDetail)
  resolve : Option (Value → Result ResolvedCommand)

namespace ProviderRegistry

variable {self r r' : ProviderRegistry} {name : String}

def routed (self : ProviderRegistry) (name : String) : Option Routed :=
  (self.catalog.lookup name).map fun entry =>
    { desc := entry.desc
      describe := (self.providers.lookup entry.providerId).map (·.describe entry.localName)
      resolve := (self.providers.lookup entry.providerId).map (·.resolve entry.localName) }

/-- A detail depends on the route of its name only. -/
theorem describe_eq (self : ProviderRegistry) (name : String) :
    self.describe name =
      ((self.routed name).bind (·.describe)).getD (.error (.capabilityNotFound name)) := by
  cases hentry : self.catalog.lookup name with
  | none => simp [describe, routed, hentry, okOr, bind, Except.bind]
  | some entry =>
      cases hprovider : self.providers.lookup entry.providerId with
      | none => simp [describe, routed, hentry, hprovider, okOr, bind, Except.bind]
      | some provider => simp [describe, routed, hentry, hprovider, okOr, bind, Except.bind]

/-- So does the command it resolves to. -/
theorem resolve_eq (self : ProviderRegistry) (name : String) (params : Value) :
    self.resolve name params =
      (((self.routed name).bind (·.resolve)).map (· params)).getD
        (.error (.capabilityNotFound name)) := by
  cases hentry : self.catalog.lookup name with
  | none => simp [resolve, routed, hentry, okOr, bind, Except.bind]
  | some entry =>
      cases hprovider : self.providers.lookup entry.providerId with
      | none => simp [resolve, routed, hentry, hprovider, okOr, bind, Except.bind]
      | some provider => simp [resolve, routed, hentry, hprovider, okOr, bind, Except.bind]

/-- The two agree on every name that `C` holds a tool grant for. -/
def AgreeOn (C : CapabilitySet) (r r' : ProviderRegistry) : Prop :=
  ∀ name, C.permits (.tool name) = true → r.routed name = r'.routed name

end ProviderRegistry

open ProviderRegistry

variable {C : CapabilitySet} {r r' : ProviderRegistry} {name : String}

/-! ## The grant comes first -/

/-- Without `proc.spawn` only a tool grant lets a name through. -/
theorem authorizeTool_ok (hspawn : C.permits .procSpawn = false)
    (h : authorizeTool C name = .ok ()) : C.permits (.tool name) = true := by
  unfold authorizeTool at h
  cases htool : C.permits (.tool name) with
  | true => rfl
  | false => simp [htool, hspawn] at h

theorem discoveryPermitted_eq_true (hspawn : C.permits .procSpawn = false)
    (h : discoveryPermitted C name = true) : C.permits (.tool name) = true :=
  authorizeTool_ok hspawn (discoveryPermitted_iff.mp h)

/-- What follows the check only has to agree where the name is granted. -/
theorem authorizeTool_bind_congr {α : Type} {f g : Unit → Result α}
    (hspawn : C.permits .procSpawn = false)
    (h : C.permits (.tool name) = true → f () = g ()) :
    (authorizeTool C name >>= f) = authorizeTool C name >>= g := by
  cases hauth : authorizeTool C name with
  | error e => rfl
  | ok u => exact h (authorizeTool_ok hspawn hauth)

/-! ## The entries of the index -/

/-- The line of a name in the index. -/
theorem mem_index {entry : IndexEntry} {resp : IndexResponse}
    (h : r.indexForCapabilities C = .ok resp) :
    entry ∈ resp.entries ↔ discoveryPermitted C entry.name = true
      ∧ (r.routed entry.name).map (·.desc) = some entry.desc := by
  obtain rfl := Except.ok.inj h
  rw [routed, Option.map_map]
  constructor
  · intro hmem
    obtain ⟨⟨n, e⟩, hx, rfl⟩ := List.mem_map.mp hmem
    obtain ⟨hentry, hpermitted⟩ := List.mem_filter.mp hx
    refine ⟨hpermitted, ?_⟩
    show (r.catalog.lookup n).map _ = _
    rw [AList.mem_lookup_iff.mpr hentry]
    rfl
  · rintro ⟨hpermitted, hdesc⟩
    obtain ⟨e, he, heq⟩ := Option.map_eq_some_iff.mp hdesc
    refine List.mem_map.mpr ⟨⟨entry.name, e⟩, ?_, ?_⟩
    · exact List.mem_filter.mpr ⟨AList.mem_lookup_iff.mp he, hpermitted⟩
    · exact congrArg (IndexEntry.mk entry.name) heq

/-- No entry is listed twice. -/
theorem nodup_index {resp : IndexResponse} (h : r.indexForCapabilities C = .ok resp) :
    resp.entries.Nodup := by
  obtain rfl := Except.ok.inj h
  have hkeys : (r.catalog.entries.map Sigma.fst).Nodup := r.catalog.nodupKeys
  refine List.Nodup.of_map IndexEntry.name ?_
  rw [List.map_map]
  exact hkeys.sublist (List.filter_sublist.map Sigma.fst)

/-! ## Two registries -/

/-- Nothing that a session with the grants `C` can do tells the two apart. -/
structure Indistinguishable (C : CapabilitySet) (r r' : ProviderRegistry) : Prop where
  index : ∃ resp resp', r.indexForCapabilities C = .ok resp
    ∧ r'.indexForCapabilities C = .ok resp' ∧ resp.entries.Perm resp'.entries
  describe : ∀ name, r.describeForCapabilities name C = r'.describeForCapabilities name C
  /-- A start has the same result, and the same effect on all but the
  registry. -/
  start : ∀ (env : Env) (now : SystemTime) (engine : JobEngine) (session : Session)
    (req : JobStartRequest) (name : String) (params : Value),
    engine.sessions.get req.sessionId = some session → session.capabilities = C →
    req.payload = .capability name params →
      (JobEngine.start env now { engine with registry := r } req).1
          = (JobEngine.start env now { engine with registry := r' } req).1
        ∧ { (JobEngine.start env now { engine with registry := r } req).2 with registry := r' }
          = (JobEngine.start env now { engine with registry := r' } req).2
  invoke : ∀ (env : Env) (context : CodeCapabilityContext) (cancelled : Bool)
    (name paramsJson : String), context.capabilities = C →
      resolveInvocation env r context name paramsJson
          = resolveInvocation env r' context name paramsJson
        ∧ invokeCodeCapability env r context cancelled name paramsJson
          = invokeCodeCapability env r' context cancelled name paramsJson

/-- A start depends on the registry through its preparation only. -/
theorem start_congr {env : Env} {now : SystemTime} {engine : JobEngine} {session : Session}
    {req : JobStartRequest} (hsession : engine.sessions.get req.sessionId = some session)
    (h : prepare env r engine.logByteCap session req
      = prepare env r' engine.logByteCap session req) :
    (JobEngine.start env now { engine with registry := r } req).1
        = (JobEngine.start env now { engine with registry := r' } req).1
      ∧ { (JobEngine.start env now { engine with registry := r } req).2 with registry := r' }
        = (JobEngine.start env now { engine with registry := r' } req).2 := by
  simp only [JobEngine.start, hsession, h]
  cases prepare env r' engine.logByteCap session req with
  | error e => exact ⟨rfl, rfl⟩
  | ok launch => exact ⟨rfl, rfl⟩

/-- **A session without `proc.spawn` cannot tell which capabilities are
installed beyond those it holds a grant for.** -/
theorem ungranted_invisible (hspawn : C.permits .procSpawn = false) (hagree : AgreeOn C r r') :
    Indistinguishable C r r' where
  index := by
    refine ⟨_, _, rfl, rfl, ?_⟩
    refine (List.perm_ext_iff_of_nodup (nodup_index rfl) (nodup_index rfl)).mpr fun entry => ?_
    rw [mem_index rfl, mem_index rfl]
    refine and_congr_right fun hpermitted => ?_
    rw [hagree entry.name (discoveryPermitted_eq_true hspawn hpermitted)]
  describe name := by
    unfold describeForCapabilities
    cases hpermitted : discoveryPermitted C name with
    | false => rfl
    | true =>
        rw [describe_eq, describe_eq, hagree name (discoveryPermitted_eq_true hspawn hpermitted)]
  start env now engine session req name params hsession hC hpayload := by
    refine start_congr hsession ?_
    rw [prepare, prepare, hpayload]
    refine authorizeTool_bind_congr (hC.symm ▸ hspawn) fun hgrant => ?_
    rw [resolve_eq, resolve_eq, hagree name (hC ▸ hgrant)]
  invoke env context cancelled name paramsJson hC := by
    have hresolve : resolveInvocation env r context name paramsJson
        = resolveInvocation env r' context name paramsJson := by
      refine authorizeTool_bind_congr (hC.symm ▸ hspawn) fun hgrant => ?_
      simp only [resolve_eq, hagree name (hC ▸ hgrant)]
    exact ⟨hresolve, by rw [invokeCodeCapability, invokeCodeCapability, hresolve]⟩

/-! ## A capability that may be there or not -/

/-- The registry with one more entry in its catalog. -/
def ProviderRegistry.withHidden (self : ProviderRegistry) : ProviderRegistry :=
  { self with catalog := self.catalog.insert "deploy" ⟨"ops", "deploy", "Roll out a release"⟩ }

/-- A session with the grant for `git_diff` alone gets the same answer about
`deploy` whether or not it is installed. -/
theorem ungranted_invisible_deploy :
    (registerAll asciiLower nativeCalls).describeForCapabilities "deploy" ⟨[.tool "git_diff"]⟩
      = (registerAll asciiLower nativeCalls).withHidden.describeForCapabilities "deploy"
          ⟨[.tool "git_diff"]⟩ := by
  refine (ungranted_invisible (by decide) fun name hgrant => ?_).describe "deploy"
  have hname : name = "git_diff" := by
    have hmem := CapabilitySet.permits_tool_iff.mp hgrant
    exact RuntimeCapability.tool.inj (List.mem_singleton.mp hmem)
  rw [routed, routed, withHidden, hname]
  rw [AList.lookup_insert_ne (by decide)]

end Axp
