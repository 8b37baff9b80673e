import Axp.RustStd

/-!
# Unix paths

A path is its bytes; everything the code decides about a path it decides
about the *components* `std::path` reads off them. Repeated and trailing
separators and interior `.` segments produce no component, `..` is kept, and
a leading `/` is a component of its own. Equality and containment of paths
are equality and prefix of component lists, so `/proj-extra` is not inside
`/proj`.
-/

namespace Axp

/-- The bytes of a string, in UTF-8. -/
def utf8 (s : String) : List UInt8 := s.toUTF8.data.toList

/-- The separator `/`. -/
def sep : UInt8 := 47

/-- The byte `.`. -/
def dot : UInt8 := 46

/-- `std::path::Component`, without the Windows prefixes. -/
inductive Component where
  | rootDir
  | curDir
  | parentDir
  | normal (name : List UInt8)
deriving DecidableEq, Repr

/-- `std::path::PathBuf` on Unix. -/
structure PathBuf where
  bytes : List UInt8
deriving DecidableEq, Repr

theorem utf8_append (s t : String) : utf8 (s ++ t) = utf8 s ++ utf8 t := by
  simp [utf8]

theorem utf8_injective {s t : String} (h : utf8 s = utf8 t) : s = t := by
  have hdata : s.toUTF8.data = t.toUTF8.data := Array.toList_inj.mp h
  exact String.toByteArray_inj.mp (ByteArray.ext hdata)

namespace PathBuf

/-- `PathBuf::from` a string. -/
def ofString (s : String) : PathBuf := ⟨utf8 s⟩

/-- `Path::is_absolute`. -/
def isAbsolute (p : PathBuf) : Bool := p.bytes.head? = some sep

/-- The component a segment between two separators stands for, if any. -/
def segComponent? (seg : List UInt8) : Option Component :=
  if seg = [] then none
  else if seg = [dot] then none
  else if seg = [dot, dot] then some .parentDir
  else some (.normal seg)

/-- `Path::components`. -/
def components (p : PathBuf) : List Component :=
  let segs := p.bytes.splitOn sep
  let front : List Component :=
    if p.isAbsolute then [.rootDir]
    else if segs.head? = some [dot] then [.curDir]
    else []
  front ++ segs.filterMap segComponent?

/-- `PathBuf == PathBuf`: the same components. -/
def same (p q : PathBuf) : Bool := p.components = q.components

/-- `Path::starts_with`: the components of `base` are a prefix. -/
def startsWith (p base : PathBuf) : Bool := base.components.isPrefixOf p.components

/-- `Path::join`. -/
def join (p : PathBuf) (r : String) : PathBuf :=
  let rel := utf8 r
  if rel.head? = some sep then ⟨rel⟩
  else if p.bytes = [] ∨ p.bytes.getLast? = some sep then ⟨p.bytes ++ rel⟩
  else ⟨p.bytes ++ sep :: rel⟩

/-- `Path::display`; `lossy` renders bytes that are not UTF-8. -/
def display (lossy : List UInt8 → String) (p : PathBuf) : String :=
  (String.fromUTF8? ⟨⟨p.bytes⟩⟩).getD (lossy p.bytes)

theorem startsWith_iff {p base : PathBuf} :
    p.startsWith base = true ↔ base.components <+: p.components := by
  rw [startsWith, List.isPrefixOf_iff_prefix]

theorem startsWith_refl (p : PathBuf) : p.startsWith p = true :=
  startsWith_iff.mpr (List.prefix_refl _)

theorem startsWith_trans {p q r : PathBuf} (hpq : p.startsWith q = true)
    (hqr : q.startsWith r = true) : p.startsWith r = true :=
  startsWith_iff.mpr ((startsWith_iff.mp hqr).trans (startsWith_iff.mp hpq))

-- Containment is per component, not per byte.
example : (ofString "/proj-extra").startsWith (ofString "/proj") = false := by decide
example : (ofString "/proj/./src/").startsWith (ofString "/proj/src") = true := by decide

end PathBuf

end Axp
