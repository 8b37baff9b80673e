import Axp.Error

/-!
# Capabilities

A grant is one verb with its scope. The grammar is strict where a verb opens
a parenthesis: such a string is that verb or an error, never a tool name.

`permits` decides whether one grant authorises another: a path by
containment, a domain by its dot-separated suffix, a tool by its exact name,
and never across verbs. A `CapabilitySet` permits what any of its grants
does.
-/

namespace Axp

/-! ## Grants -/

/-- A structured, runtime representation of a single capability grant. -/
inductive RuntimeCapability where
  | fsRead (path : PathBuf)
  | fsWrite (path : PathBuf)
  | netConnect (domain : String)
  | procSpawn
  | ptyOpen
  | tool (name : String)
deriving DecidableEq, Repr

/-! ## Parsing -/

/-- The inner text of `pre ... )`. -/
def extractParenInner (s pre : String) : Option String := do
  let afterPrefix ← stripPrefix s pre
  stripSuffix afterPrefix ")"

/-- Parse and validate an absolute path. -/
def parseAbsPath (raw original : String) : Result PathBuf :=
  let err (reason : String) : Error := .capabilityParse original reason
  let path := PathBuf.ofString raw
  if !startsWith raw "/" then .error (err "path must be absolute (start with `/`)")
  else if path.components.contains .parentDir then
    .error (err "path must not contain `..` components")
  else .ok path

/-- Validate a domain. -/
def parseDomain (raw original : String) : Result String :=
  let err (reason : String) : Error := .capabilityParse original reason
  if raw.isEmpty then .error (err "domain must not be empty")
  else if raw.toList.contains '/' then .error (err "domain must not contain `/`")
  else if raw.toList.any isWhitespace then .error (err "domain must not contain whitespace")
  else if "://".toList <:+: raw.toList then
    .error (err "domain must not contain `://` (bare domain expected, not a URL)")
  else if raw.toList.contains ':' then
    .error (err "port notation not supported (use bare domain without `:port`)")
  else .ok raw

namespace RuntimeCapability

/-- Parse the capability grammar. -/
def parseStr (s : String) : Result RuntimeCapability :=
  let err (reason : String) : Error := .capabilityParse s reason
  if startsWith s "fs.read(" then do
    let inner ← okOr (extractParenInner s "fs.read(")
      (err "expected closing `)` for fs.read(...)")
    let path ← parseAbsPath inner s
    return .fsRead path
  else if startsWith s "fs.write(" then do
    let inner ← okOr (extractParenInner s "fs.write(")
      (err "expected closing `)` for fs.write(...)")
    let path ← parseAbsPath inner s
    return .fsWrite path
  else if startsWith s "net.connect(" then do
    let inner ← okOr (extractParenInner s "net.connect(")
      (err "expected closing `)` for net.connect(...)")
    let domain ← parseDomain inner s
    return .netConnect domain
  else if s = "proc.spawn" then .ok .procSpawn
  else if s = "pty.open" then .ok .ptyOpen
  else
    match stripPrefix s "tool:" with
    | some name =>
        if name.isEmpty then .error (err "tool name must not be empty after `tool:`")
        else .ok (.tool name)
    | none =>
        -- A bare tool name.
        if s.isEmpty then .error (err "empty capability string")
        else if s.toList.any isWhitespace then
          .error (err "bare tool name must not contain whitespace")
        else .ok (.tool s)

/-- Parse a wire value. -/
def parse (wire : WireCapability) : Result RuntimeCapability := parseStr wire.str

-- A misspelt verb is an error, not a tool.
example : parseStr "fs.read(/proj" =
    .error (.capabilityParse "fs.read(/proj" "expected closing `)` for fs.read(...)") := by
  decide +kernel

/-! ## Display -/

/-- The canonical string form; `lossy` renders path bytes that are not UTF-8. -/
def display (lossy : List UInt8 → String) : RuntimeCapability → String
  | .fsRead p => "fs.read(" ++ p.display lossy ++ ")"
  | .fsWrite p => "fs.write(" ++ p.display lossy ++ ")"
  | .netConnect d => "net.connect(" ++ d ++ ")"
  | .procSpawn => "proc.spawn"
  | .ptyOpen => "pty.open"
  | .tool n => "tool:" ++ n

/-- The wire value. -/
def toWire (lossy : List UInt8 → String) (self : RuntimeCapability) : WireCapability :=
  ⟨self.display lossy⟩

/-! ## Attenuation -/

/-- The grant authorises minting `child`. -/
def permits : RuntimeCapability → RuntimeCapability → Bool
  | .fsRead pp, .fsRead cp => cp.startsWith pp
  | .fsWrite pp, .fsWrite cp => cp.startsWith pp
  | .netConnect pd, .netConnect cd =>
      cd = pd || (stripSuffix cd pd).any (endsWith · ".")
  | .procSpawn, .procSpawn => true
  | .ptyOpen, .ptyOpen => true
  | .tool pn, .tool cn => pn = cn
  | _, _ => false

theorem permits_tool_iff {g : RuntimeCapability} {name : String} :
    g.permits (.tool name) = true ↔ g = .tool name := by
  cases g <;> simp [permits]

theorem permits_procSpawn_iff {g : RuntimeCapability} :
    g.permits .procSpawn = true ↔ g = .procSpawn := by
  cases g <;> simp [permits]

end RuntimeCapability

/-! ## Sets of grants -/

/-- An ordered collection of grants. -/
structure CapabilitySet where
  grants : List RuntimeCapability
deriving DecidableEq, Repr

namespace CapabilitySet

/-- Parse a list of wire values; the first malformed one is the error. -/
def fromWire (wire : List WireCapability) : Result CapabilitySet := do
  let grants ← wire.mapM RuntimeCapability.parse
  return ⟨grants⟩

/-- Some grant of the set permits the request. -/
def permits (self : CapabilitySet) (requested : RuntimeCapability) : Bool :=
  self.grants.any (·.permits requested)

theorem permits_iff {self : CapabilitySet} {c : RuntimeCapability} :
    self.permits c = true ↔ ∃ g ∈ self.grants, g.permits c = true := List.any_eq_true

theorem permits_tool_iff {self : CapabilitySet} {name : String} :
    self.permits (.tool name) = true ↔ .tool name ∈ self.grants := by
  simp [permits_iff, RuntimeCapability.permits_tool_iff]

theorem permits_procSpawn_iff {self : CapabilitySet} :
    self.permits .procSpawn = true ↔ .procSpawn ∈ self.grants := by
  simp [permits_iff, RuntimeCapability.permits_procSpawn_iff]

end CapabilitySet

end Axp
